import Mathlib.Data.List.TakeDrop
import Tr69HostIf.HostIf

/-!
# The URLs of the parodus client

`get_parodus_url` of `libpd.cpp`, which fills two buffers of `URL_SIZE` bytes from `/etc/webpa_cfg.json`, or with the
default URLs. `intended_iff` says when the client is given the URLs that are meant.
-/

namespace Tr69HostIf.Parodus
open Store

/-- What a copy runs into. -/
inductive UrlFault
  | overflow | overread | nullPointer
  deriving DecidableEq

/-- `strncpy`, which fills up with zeros and sets no zero of its own behind `n` bytes. -/
def strncpy (dest src : Text) (n : Nat) : Except UrlFault Text :=
  if n ≤ dest.length then .ok ((src ++ List.replicate n '\x00').take n ++ dest.drop n) else .error .overflow

/-- `strlen` of a buffer. -/
def strlen (buffer : Text) : Except UrlFault Nat :=
  if '\x00' ∈ buffer then .ok (cStr buffer).length else .error .overread

/-- `buffer[i] = '\0'`. -/
def setNul (buffer : Text) (i : Nat) : Except UrlFault Text :=
  if i < buffer.length then .ok (buffer.set i '\x00') else .error .overflow

/-- The two items of the configuration file, with their `valuestring`. -/
structure WebpaCfg where
  parodusURL : Option (Option CString)
  parodusClientURL : Option (Option CString)

/-- `PARODUS_URL`. -/
def parodusUrl : Text := "tcp://127.0.0.1:6666".toList

/-- `PAROUDUS_CLIENT_URL`. -/
def paroudusClientUrl : Text := "tcp://127.0.0.1:6667".toList

/-- The default, into one of the buffers. -/
def copyDefault (buffer url : Text) : Except UrlFault Text := do
  let n ← strlen buffer
  let buffer ← strncpy buffer url (n + 1)
  let n ← strlen buffer
  setNul buffer (n + 1)

/-- `get_parodus_url`: the two buffers, from a configuration that could be read and parsed, or from none. The
`valuestring` of the first item is checked twice and that of the second not at all; the length of the first is the
number of bytes copied of both. -/
def getParodusUrl (cfg : Option WebpaCfg) (parodus_url client_url : Text) : Except UrlFault (Text × Text) :=
  match cfg with
  | some ⟨some (some pUrl), some cUrl⟩ => do
      let parodus_url ← strncpy parodus_url pUrl.chars pUrl.chars.length
      match cUrl with
      | none => .error .nullPointer
      | some cUrl =>
          let client_url ← strncpy client_url cUrl.chars pUrl.chars.length
          return (parodus_url, client_url)
  | _ => do
      let parodus_url ← copyDefault parodus_url parodusUrl
      let client_url ← copyDefault client_url paroudusClientUrl
      return (parodus_url, client_url)

/-- A buffer at the start of the process, of `URL_SIZE` bytes. -/
def zeros : Text := List.replicate 64 '\x00'

/-- The buffer holds the string. -/
def Holds (buffer t : Text) : Prop := '\x00' ∈ buffer ∧ cStr buffer = t

/-- The URLs that are meant: the two of the configuration, or else the default ones. -/
def intended : Option WebpaCfg → Text × Text
  | some ⟨some (some pUrl), some (some cUrl)⟩ => (pUrl.chars, cUrl.chars)
  | _ => (parodusUrl, paroudusClientUrl)

/-! ## Copies into an empty buffer -/

theorem cStr_append_zeros {t : Text} (h : '\x00' ∉ t) (n : Nat) : cStr (t ++ List.replicate n '\x00') = t := by
  have hall : ∀ c ∈ t, decide (c ≠ '\x00') = true := by
    intro c hc
    rw [decide_eq_true_eq]
    rintro rfl
    exact h hc
  rw [cStr, List.takeWhile_append_of_pos hall]
  cases n with
  | zero => simp
  | succ n => simp [List.replicate_succ]

theorem holds_append_zeros {t u : Text} (h : '\x00' ∉ t) {n : Nat} :
    Holds (t ++ List.replicate n '\x00') u ↔ 0 < n ∧ t = u := by
  have hmem : '\x00' ∈ t ++ List.replicate n '\x00' ↔ 0 < n := by
    rw [List.mem_append, List.mem_replicate]
    simp [h, Nat.pos_iff_ne_zero]
  rw [Holds, cStr_append_zeros h, hmem]

/-- What a copy into an empty buffer leaves. -/
theorem strncpy_zeros (src : Text) {n : Nat} (hn : n ≤ 64) :
    strncpy zeros src n = .ok (src.take n ++ List.replicate (64 - (src.take n).length) '\x00') := by
  have hlen : zeros.length = 64 := List.length_replicate
  rw [strncpy, if_pos (by omega), List.take_append, List.take_replicate, zeros, List.drop_replicate, List.append_assoc,
    List.replicate_append_replicate, List.length_take]
  congr 3
  omega

theorem strncpy_zeros_overflow (src : Text) {n : Nat} (hn : 64 < n) : strncpy zeros src n = .error .overflow := by
  have hlen : zeros.length = 64 := List.length_replicate
  rw [strncpy, if_neg (by omega)]

theorem noNul_take (s : CString) (n : Nat) : '\x00' ∉ s.chars.take n := fun h => s.noNul (List.mem_of_mem_take h)

/-- The default URLs come out as their first letter. -/
theorem getParodusUrl_default : getParodusUrl none zeros zeros =
    .ok ('t' :: List.replicate 63 '\x00', 't' :: List.replicate 63 '\x00') := by
  decide

/-- The configuration has two strings. -/
theorem getParodusUrl_strings (pUrl cUrl : CString) :
    (∃ p c, getParodusUrl (some ⟨some (some pUrl), some (some cUrl)⟩) zeros zeros = .ok (p, c) ∧
      Holds p pUrl.chars ∧ Holds c cUrl.chars) ↔
      pUrl.chars.length < 64 ∧ cUrl.chars.length ≤ pUrl.chars.length := by
  by_cases hn : pUrl.chars.length ≤ 64
  · have hrun : getParodusUrl (some ⟨some (some pUrl), some (some cUrl)⟩) zeros zeros =
        .ok (pUrl.chars ++ List.replicate (64 - pUrl.chars.length) '\x00',
          cUrl.chars.take pUrl.chars.length ++
            List.replicate (64 - (cUrl.chars.take pUrl.chars.length).length) '\x00') := by
      simp only [getParodusUrl, strncpy_zeros _ hn, List.take_length]
      rfl
    have hp := holds_append_zeros (u := pUrl.chars) pUrl.noNul (n := 64 - pUrl.chars.length)
    have hc := holds_append_zeros (u := cUrl.chars) (noNul_take cUrl pUrl.chars.length)
      (n := 64 - (cUrl.chars.take pUrl.chars.length).length)
    have htake : cUrl.chars.take pUrl.chars.length = cUrl.chars ↔ cUrl.chars.length ≤ pUrl.chars.length :=
      List.take_eq_self_iff cUrl.chars
    rw [hrun]
    constructor
    · rintro ⟨p, c, heq, hph, hch⟩
      cases heq
      exact ⟨by have := (hp.mp hph).1; omega, htake.mp (hc.mp hch).2⟩
    · rintro ⟨hlt, hle⟩
      refine ⟨_, _, rfl, hp.mpr ⟨by omega, rfl⟩, hc.mpr ⟨?_, htake.mpr hle⟩⟩
      rw [List.length_take]
      omega
  · have hrun : getParodusUrl (some ⟨some (some pUrl), some (some cUrl)⟩) zeros zeros = .error .overflow := by
      simp only [getParodusUrl, strncpy_zeros_overflow _ (Nat.lt_of_not_le hn)]
      rfl
    rw [hrun]
    constructor
    · rintro ⟨p, c, heq, -⟩
      cases heq
    · exact fun h => absurd (Nat.le_of_lt h.1) hn

/-- **When the client is given the URLs that are meant**: both are configured, the first one fits its buffer and the
second one is no longer than the first. -/
theorem intended_iff (cfg : Option WebpaCfg) :
    (∃ p c, getParodusUrl cfg zeros zeros = .ok (p, c) ∧ Holds p (intended cfg).1 ∧ Holds c (intended cfg).2) ↔
      ∃ pUrl cUrl, cfg = some ⟨some (some pUrl), some (some cUrl)⟩ ∧
        pUrl.chars.length < 64 ∧ cUrl.chars.length ≤ pUrl.chars.length := by
  -- without two strings the client gets the default, or the copy of the second reads through a null pointer
  have hdefault : getParodusUrl cfg zeros zeros = getParodusUrl none zeros zeros → (intended cfg).1 = parodusUrl →
      ¬∃ p c, getParodusUrl cfg zeros zeros = .ok (p, c) ∧ Holds p (intended cfg).1 ∧ Holds c (intended cfg).2 := by
    rintro hrun hurl ⟨p, c, heq, hp, -⟩
    rw [hrun, getParodusUrl_default] at heq
    cases heq
    rw [hurl] at hp
    have hfirst := (holds_append_zeros (t := ['t']) (by decide)).mp hp
    revert hfirst
    decide
  match cfg with
  | some ⟨some (some pUrl), some (some cUrl)⟩ =>
      refine (getParodusUrl_strings pUrl cUrl).trans ⟨fun h => ⟨pUrl, cUrl, rfl, h⟩, ?_⟩
      rintro ⟨p, c, heq, h⟩
      cases heq
      exact h
  | some ⟨some (some pUrl), some none⟩ =>
      refine iff_of_false ?_ (by rintro ⟨p, c, heq, -⟩; cases heq)
      rintro ⟨p, c, heq, -⟩
      simp only [getParodusUrl] at heq
      cases hcopy : strncpy zeros pUrl.chars pUrl.chars.length with
      | error e => rw [hcopy] at heq; cases heq
      | ok b => rw [hcopy] at heq; cases heq
  | some ⟨some (some pUrl), none⟩ => exact iff_of_false (hdefault rfl rfl) (by rintro ⟨p, c, heq, -⟩; cases heq)
  | some ⟨some none, c⟩ => exact iff_of_false (hdefault rfl rfl) (by rintro ⟨p, c, heq, -⟩; cases heq)
  | some ⟨none, c⟩ => exact iff_of_false (hdefault rfl rfl) (by rintro ⟨p, c, heq, -⟩; cases heq)
  | none => exact iff_of_false (hdefault rfl rfl) (by rintro ⟨p, c, heq, -⟩; cases heq)

end Tr69HostIf.Parodus
