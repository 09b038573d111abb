import Tr69HostIf.Clib.Base64
import Tr69HostIf.Clib.Hex
import Tr69HostIf.Store.Scan
import Tr69HostIf.Store.Lines
import Mathlib.Tactic.IntervalCases

/-!
# The EDID of a display

`hostIf_STBServiceDisplayDevice::getX_COMCAST_COM_EDID` of `Components_DisplayDevice_Thunder.cpp`: the base64
text that the display plugin returns is decoded by hand, and four fields of the EDID are printed. The text is
a string of bytes; the plugin's failure gives the empty text.

`base64Decode_bits` : the bytes decoded are the whole bytes among the bits of the digits; `base64Decode_encode` :
an encoded string of bytes is decoded, with whatever else stands between its digits; `edid_eq_iff` : the text
returned tells two displays apart exactly when their bytes 10 to 17 differ.
-/

namespace Tr69HostIf.STBService
open Store Clib

/-! ## Decoding -/

/-- The variables of the decoding loop, `val` a 32-bit number. -/
structure Decoder where
  val : Nat
  bits : Int
  edid : List Nat
  deriving DecidableEq

/-- `strchr(kB64Table, c) - kB64Table`: the NUL behind the table is found too. -/
def tableIndex (c : Char) : Option Nat := if c = '\x00' then some 64 else sextet c

/-- One digit. -/
def decodeDigit (p : Nat) (d : Decoder) : Decoder :=
  let val := (d.val * 64 + p) % 2 ^ 32
  let bits := d.bits + 6
  if 0 ≤ bits then ⟨val, bits - 8, d.edid ++ [val / 2 ^ bits.toNat % 256]⟩ else ⟨val, bits, d.edid⟩

/-- The loop over the characters. -/
def decodeLoop : Text → Decoder → Decoder
  | [], d => d
  | c :: t, d =>
      if c = '=' then d
      else match tableIndex c with
        | none => decodeLoop t d
        | some p => decodeLoop t (decodeDigit p d)

/-- The bytes decoded. -/
def base64Decode (t : Text) : List Nat := (decodeLoop t ⟨0, -8, []⟩).edid

/-- What has been decoded, with the bits still held, are the bits of the digits so far. -/
structure Decoded (l : List Nat) (d : Decoder) : Prop where
  low : -8 ≤ d.bits
  high : d.bits < 0
  bytes : ∀ b ∈ d.edid, b < 256
  bits : d.edid.flatMap (natBits 8) ++ natBits (d.bits + 8).toNat d.val = l.flatMap (natBits 6)

theorem decoded_start : Decoded [] ⟨0, -8, []⟩ := ⟨by decide, by decide, by simp, rfl⟩

theorem natBits_next (r v : Nat) {p : Nat} (hr : r ≤ 8) (hp : p < 64) :
    natBits (r + 6) ((v * 64 + p) % 2 ^ 32) = natBits r v ++ natBits 6 p := by
  rw [natBits_mod _ _ (by omega)]
  exact natBits_join r (j := 6) hp

theorem natBits_byte (n : Nat) : natBits 8 (n % 256) = natBits 8 n := natBits_mod 8 n (m := 8) (Nat.le_refl 8)

theorem Decoded.digit {l : List Nat} {d : Decoder} (h : Decoded l d) {p : Nat} (hp : p < 64) :
    Decoded (l ++ [p]) (decodeDigit p d) := by
  obtain ⟨hlow, hhigh, hbytes, hbits⟩ := h
  have hnext : ∀ r : Nat, r ≤ 8 → natBits (r + 6) ((d.val * 64 + p) % 2 ^ 32) = natBits r d.val ++ natBits 6 p :=
    fun r hr => natBits_next r d.val hr hp
  simp only [decodeDigit]
  generalize (d.val * 64 + p) % 2 ^ 32 = v at hnext
  obtain ⟨r, hr⟩ : ∃ r : Nat, d.bits + 8 = r := ⟨(d.bits + 8).toNat, by omega⟩
  rw [hr, Int.toNat_natCast] at hbits
  have hall : (l ++ [p]).flatMap (natBits 6) = d.edid.flatMap (natBits 8) ++ natBits (r + 6) v := by
    rw [List.flatMap_append, List.flatMap_singleton, ← hbits, List.append_assoc, hnext r (by omega)]
  split
  · next hb =>
    obtain ⟨q, rfl⟩ : ∃ q, r = q + 2 := ⟨r - 2, by omega⟩
    have hq : d.bits + 6 = q := by omega
    rw [hq, Int.toNat_natCast]
    refine ⟨by show -8 ≤ (q : Int) - 8; omega, by show (q : Int) - 8 < 0; omega, ?_, ?_⟩
    · intro b hb
      rcases List.mem_append.mp hb with hb | hb
      · exact hbytes b hb
      · rw [List.mem_singleton.mp hb]
        exact Nat.mod_lt _ (by decide)
    · rw [hall, show q + 2 + 6 = 8 + q by omega, natBits_add, show ((q : Int) - 8 + 8).toNat = q by omega,
        List.flatMap_append, List.flatMap_singleton, natBits_byte, List.append_assoc]
  · next hb =>
    refine ⟨by show -8 ≤ d.bits + 6; omega, by show d.bits + 6 < 0; omega, hbytes, ?_⟩
    rw [hall, show (d.bits + 6 + 8).toNat = r + 6 by omega]

theorem Decoded.loop {t : Text} (ht : '\x00' ∉ t) {l : List Nat} {d : Decoder} (h : Decoded l d) :
    Decoded (l ++ sextets t) (decodeLoop t d) := by
  induction t generalizing l d with
  | nil => simpa [sextets, decodeLoop] using h
  | cons c t ih =>
      have hc : c ≠ '\x00' := fun hc => ht (hc ▸ List.mem_cons_self)
      have ht' : '\x00' ∉ t := fun hm => ht (List.mem_cons_of_mem c hm)
      rw [decodeLoop]
      split
      · next heq => simpa [heq] using h
      · next hne =>
        rw [sextets_cons hne, tableIndex, if_neg hc]
        cases hs : sextet c with
        | none => simpa [hs] using ih ht' h
        | some p => simpa [hs] using ih ht' (h.digit (sextet_lt hs))

/-- **The decoded bytes are the whole bytes among the bits of the digits.** -/
theorem base64Decode_bits {t : Text} (ht : '\x00' ∉ t) :
    (base64Decode t).length = 6 * (sextets t).length / 8 ∧ (∀ b ∈ base64Decode t, b < 256) ∧
      (base64Decode t).flatMap (natBits 8) =
        ((sextets t).flatMap (natBits 6)).take (8 * (base64Decode t).length) := by
  obtain ⟨hlow, hhigh, hbytes, hbits⟩ := decoded_start.loop ht
  unfold base64Decode
  generalize decodeLoop t ⟨0, -8, []⟩ = d at *
  rw [List.nil_append] at hbits
  refine ⟨?_, hbytes, ?_⟩
  · have hlen := congrArg List.length hbits
    rw [List.length_append, length_flatMap_natBits, length_flatMap_natBits, length_natBits] at hlen
    omega
  · rw [← hbits, ← length_flatMap_natBits, List.take_left]

theorem base64Decode_bits_lines :
    (base64Decode "TW\nFu".toList).length = 6 * (sextets "TW\nFu".toList).length / 8 ∧
      (∀ b ∈ base64Decode "TW\nFu".toList, b < 256) ∧
      (base64Decode "TW\nFu".toList).flatMap (natBits 8) =
        ((sextets "TW\nFu".toList).flatMap (natBits 6)).take (8 * (base64Decode "TW\nFu".toList).length) :=
  base64Decode_bits (by decide)

/-- **An encoded string of bytes is decoded**, with anything but NULs, digits and `=` strewn into the text. -/
theorem base64Decode_encode (l : List Nat) (hl : ∀ b ∈ l, b < 256) (t : Text) (ht : '\x00' ∉ t)
    (hfilter : t.filter isBase64 = encode l) : base64Decode t = l := by
  have hsextets : sextets t = sextets (encode l) := by rw [← hfilter, sextets_filter]
  obtain ⟨k, hk, hencoded⟩ := bits_encode hl
  obtain ⟨hlow, hhigh, hbytes, hbits⟩ := decoded_start.loop ht
  unfold base64Decode
  generalize decodeLoop t ⟨0, -8, []⟩ = d at *
  rw [List.nil_append, hsextets, hencoded] at hbits
  have hlength : d.edid.length = l.length := by
    have := congrArg List.length hbits
    rw [List.length_append, List.length_append, length_flatMap_natBits, length_flatMap_natBits, length_natBits,
      List.length_replicate] at this
    omega
  exact flatMap_natBits_injective (k := 8) (by decide) hbytes hl
    (List.append_inj hbits (by rw [length_flatMap_natBits, length_flatMap_natBits, hlength])).1

/-! ## The fields -/

/-- The four fields of an EDID. -/
structure Fields where
  productCode : Nat
  serialNumber : Nat
  manufactureYear : Nat
  manufactureWeek : Nat
  deriving DecidableEq

/-- The fields at their places, the numbers of several bytes with the low byte first. -/
def fields (edid : List Nat) : Fields where
  productCode := edid.getD 10 0 ||| edid.getD 11 0 <<< 8
  serialNumber := edid.getD 12 0 ||| edid.getD 13 0 <<< 8 ||| edid.getD 14 0 <<< 16 ||| edid.getD 15 0 <<< 24
  manufactureYear := edid.getD 17 0 + 1990
  manufactureWeek := edid.getD 16 0

/-- `"pcode=0x%x,pserial=0x%x,year=%d,week=%d"` -/
def printFields (f : Fields) : Text :=
  "pcode=0x".toList ++ printHexNat f.productCode ++ ",pserial=0x".toList ++ printHexNat f.serialNumber ++
    ",year=".toList ++ printNat f.manufactureYear ++ ",week=".toList ++ printNat f.manufactureWeek

/-- `getX_COMCAST_COM_EDID`: the value of the parameter, `none` for `NOK`. -/
def getX_COMCAST_COM_EDID (edidBase64 : Text) : Option Text :=
  if edidBase64 = [] then some []
  else
    let edid := base64Decode edidBase64
    if edid.length < 18 then none else some (printFields (fields edid))

theorem xdigits_noComma (n : Nat) : ',' ∉ printHexNat n := by
  intro h
  have := isxdigit_printHexNat n ',' h
  revert this
  decide

theorem printFields_injective {f g : Fields} (h : printFields f = printFields g) : f = g := by
  obtain ⟨pf, sf, yf, wf⟩ := f
  obtain ⟨pg, sg, yg, wg⟩ := g
  unfold printFields at h
  simp only [List.append_assoc] at h
  have h1 := List.append_cancel_left h
  obtain ⟨hp, h2⟩ := cut_unique (d := ',') (xdigits_noComma pf) (xdigits_noComma pg) h1
  obtain ⟨hs, h3⟩ := cut_unique (d := ',') (xdigits_noComma sf) (xdigits_noComma sg)
    (@List.append_cancel_left _ "pserial=0x".toList _ _ h2)
  obtain ⟨hy, h4⟩ := cut_unique (d := ',') ((digits_printNat yf).not_mem (by decide)) ((digits_printNat yg).not_mem (by decide))
    (@List.append_cancel_left _ "year=".toList _ _ h3)
  have hw := @List.append_cancel_left _ "week=".toList _ _ h4
  rw [printHexNat_injective hp, printHexNat_injective hs, printNat_injective hy, printNat_injective hw]

theorem two_bytes {a b : Nat} (ha : a < 256) : a ||| b <<< 8 = b * 256 + a := by
  rw [Nat.or_comm, ← Nat.shiftLeft_add_eq_or_of_lt ha, Nat.shiftLeft_eq]

theorem four_bytes {a b c d : Nat} (ha : a < 256) (hb : b < 256) (hc : c < 256) :
    a ||| b <<< 8 ||| c <<< 16 ||| d <<< 24 = ((d * 256 + c) * 256 + b) * 256 + a := by
  have hab : a ||| b <<< 8 < 2 ^ 16 := by
    rw [two_bytes ha]
    omega
  have habc : a ||| b <<< 8 ||| c <<< 16 = (c * 256 + b) * 256 + a := by
    rw [Nat.or_comm, ← Nat.shiftLeft_add_eq_or_of_lt hab, Nat.shiftLeft_eq, two_bytes ha]
    ring
  have hlt : a ||| b <<< 8 ||| c <<< 16 < 2 ^ 24 := by
    rw [habc]
    omega
  rw [Nat.or_comm, ← Nat.shiftLeft_add_eq_or_of_lt hlt, Nat.shiftLeft_eq, habc]
  ring

/-- The bytes that the fields are made of. -/
theorem fields_eq_iff {e e' : List Nat} (he : ∀ b ∈ e, b < 256) (he' : ∀ b ∈ e', b < 256) :
    fields e = fields e' ↔ ∀ i, 10 ≤ i → i ≤ 17 → e.getD i 0 = e'.getD i 0 := by
  have hlt : ∀ {l : List Nat}, (∀ b ∈ l, b < 256) → ∀ i, l.getD i 0 < 256 := by
    intro l hl i
    rw [List.getD_eq_getElem?_getD]
    cases hi : l[i]? with
    | none => decide
    | some b => exact hl b (List.mem_of_getElem? hi)
  constructor
  · intro h i hi hi'
    rw [fields, fields, Fields.mk.injEq, two_bytes (hlt he 10), two_bytes (hlt he' 10),
      four_bytes (hlt he 12) (hlt he 13) (hlt he 14), four_bytes (hlt he' 12) (hlt he' 13) (hlt he' 14)] at h
    have h10 := hlt he 10
    have h12 := hlt he 12
    have h13 := hlt he 13
    have h14 := hlt he 14
    have h10' := hlt he' 10
    have h12' := hlt he' 12
    have h13' := hlt he' 13
    have h14' := hlt he' 14
    interval_cases i <;> omega
  · intro h
    unfold fields
    rw [h 10 (by decide) (by decide), h 11 (by decide) (by decide), h 12 (by decide) (by decide),
      h 13 (by decide) (by decide), h 14 (by decide) (by decide), h 15 (by decide) (by decide),
      h 16 (by decide) (by decide), h 17 (by decide) (by decide)]

/-- An EDID on its way from the plugin. -/
def Carries (t : Text) (edid : List Nat) : Prop := '\x00' ∉ t ∧ t.filter isBase64 = encode edid

/-- **The value tells two displays apart exactly by the bytes 10 to 17 of their EDIDs.** -/
theorem edid_eq_iff (e e' : List Nat) (t t' : Text) (he : ∀ b ∈ e, b < 256) (he' : ∀ b ∈ e', b < 256)
    (hlen : 18 ≤ e.length) (hlen' : 18 ≤ e'.length) (ht : Carries t e) (ht' : Carries t' e') :
    getX_COMCAST_COM_EDID t = getX_COMCAST_COM_EDID t' ↔ ∀ i, 10 ≤ i → i ≤ 17 → e.getD i 0 = e'.getD i 0 := by
  have hvalue : ∀ {l : List Nat} {u : Text}, (∀ b ∈ l, b < 256) → 18 ≤ l.length → Carries u l →
      getX_COMCAST_COM_EDID u = some (printFields (fields l)) := by
    intro l u hl hlen hu
    have hdecode := base64Decode_encode l hl u hu.1 hu.2
    have hne : u ≠ [] := by
      rintro rfl
      rw [← hdecode] at hlen
      exact absurd hlen (by decide)
    simp only [getX_COMCAST_COM_EDID, if_neg hne, hdecode, if_neg (Nat.not_lt.mpr hlen)]
  rw [hvalue he hlen ht, hvalue he' hlen' ht', Option.some.injEq, ← fields_eq_iff he he']
  exact ⟨printFields_injective, fun h => by rw [h]⟩

/-- The EDID of a display with the given number in byte 12, and zeros elsewhere. -/
def numbered (n : Nat) : List Nat := List.replicate 12 0 ++ n :: List.replicate 5 0

theorem edid_eq_iff_numbered :
    getX_COMCAST_COM_EDID (encode (numbered 1)) = getX_COMCAST_COM_EDID (encode (numbered 2) ++ ['\n']) ↔
      ∀ i, 10 ≤ i → i ≤ 17 → (numbered 1).getD i 0 = (numbered 2).getD i 0 :=
  edid_eq_iff (numbered 1) (numbered 2) _ _ (by decide) (by decide) (by decide) (by decide)
    ⟨by decide +kernel, by decide +kernel⟩ ⟨by decide +kernel, by decide +kernel⟩

end Tr69HostIf.STBService
