import Tr69HostIf.Clib.Bits
import Tr69HostIf.IP.Interfaces

/-!
# The addresses of an interface

`getIPv4AddressAndMask`, `getIPv6AddressAndMask` and `getIPAddressNumberOfEntries`: the rows of the address tables
are found by going through what `getifaddrs` returns, once for every request. `getIPv6Prefix` makes the row of the
prefix table from the address and the netmask of the same row. Addresses and netmasks are lists of bytes; an entry
without an address is read through a null pointer.

`addressRows_eq` : the rows up to the number of entries are the addresses of the interface in their order;
`getIPv6Prefix_contiguous` : the prefix of a contiguous netmask; `prefixLength_eq_iff` : for which netmasks the
prefix length is the number of leading ones.
-/

namespace Tr69HostIf.IP
open Store Clib

/-! ## The tables -/

/-- `sockaddr` and the netmask that goes with it, for the two families the code looks for. -/
inductive SockAddr
  | inet (address mask : List Nat)
  | inet6 (address mask : List Nat)
  | other
  deriving DecidableEq

/-- An entry of `getifaddrs`. -/
structure IfAddr where
  name : Text
  addr : Option SockAddr
  deriving DecidableEq

/-- The address and the netmask of an `AF_INET` entry. -/
def SockAddr.inet? : SockAddr → Option (List Nat × List Nat)
  | .inet a m => some (a, m)
  | _ => none

/-- The same for `AF_INET6`. -/
def SockAddr.inet6? : SockAddr → Option (List Nat × List Nat)
  | .inet6 a m => some (a, m)
  | _ => none

/-- The loop of `getIPAddressNumberOfEntries`, `family` telling the entries of the address family. -/
def getIPAddressNumberOfEntries (family : SockAddr → Option (List Nat × List Nat)) (nameOfInterface : Text) :
    List IfAddr → Except AddressFault Nat
  | [] => .ok 0
  | a :: ifa =>
      match a.addr with
      | none => .error .nullPointer
      | some s =>
          (getIPAddressNumberOfEntries family nameOfInterface ifa).map fun n =>
            if (family s).isSome ∧ a.name = nameOfInterface then n + 1 else n

/-- The loop of the two functions below. -/
def addressAndMaskLoop (family : SockAddr → Option (List Nat × List Nat)) (nameOfInterface : Text) (inst : Int) :
    List IfAddr → Int → Except AddressFault (Option (List Nat × List Nat))
  | [], _ => .ok none
  | a :: ifa, currentInstance =>
      match a.addr with
      | none => .error .nullPointer
      | some s =>
          match family s with
          | none => addressAndMaskLoop family nameOfInterface inst ifa currentInstance
          | some p =>
              if a.name = nameOfInterface then
                if currentInstance + 1 = inst then .ok (some p)
                else addressAndMaskLoop family nameOfInterface inst ifa (currentInstance + 1)
              else addressAndMaskLoop family nameOfInterface inst ifa currentInstance

/-- `getIPv4AddressNumberOfEntries`. -/
def getIPv4AddressNumberOfEntries (nameOfInterface : Text) (ifa : List IfAddr) : Except AddressFault Nat :=
  getIPAddressNumberOfEntries SockAddr.inet? nameOfInterface ifa

/-- `getIPv6AddressNumberOfEntries` and `getIPv6PrefixNumberOfEntries`. -/
def getIPv6AddressNumberOfEntries (nameOfInterface : Text) (ifa : List IfAddr) : Except AddressFault Nat :=
  getIPAddressNumberOfEntries SockAddr.inet6? nameOfInterface ifa

/-- `getIPv4AddressAndMask`, `none` for `NOK`. -/
def getIPv4AddressAndMask (nameOfInterface : Text) (ifa : List IfAddr) (inst : Int) :
    Except AddressFault (Option (List Nat × List Nat)) :=
  addressAndMaskLoop SockAddr.inet? nameOfInterface inst ifa 0

/-- `getIPv6AddressAndMask`, `none` for `NOK`. -/
def getIPv6AddressAndMask (nameOfInterface : Text) (ifa : List IfAddr) (inst : Int) :
    Except AddressFault (Option (List Nat × List Nat)) :=
  addressAndMaskLoop SockAddr.inet6? nameOfInterface inst ifa 0

section
variable {family : SockAddr → Option (List Nat × List Nat)} {nameOfInterface : Text} {ifa : List IfAddr}

/-- The addresses of the interface in the family. -/
def addressesOf (family : SockAddr → Option (List Nat × List Nat)) (nameOfInterface : Text) (ifa : List IfAddr) :
    List (List Nat × List Nat) :=
  ifa.filterMap fun a => if a.name = nameOfInterface then a.addr.bind family else none

/-- The count is made when every entry has an address. -/
theorem getIPAddressNumberOfEntries_eq_ok {n : Nat} (h : getIPAddressNumberOfEntries family nameOfInterface ifa = .ok n) :
    (∀ a ∈ ifa, a.addr.isSome = true) ∧ n = (addressesOf family nameOfInterface ifa).length := by
  induction ifa generalizing n with
  | nil =>
      rw [getIPAddressNumberOfEntries] at h
      exact ⟨by simp, (Except.ok.inj h).symm⟩
  | cons a ifa ih =>
      rw [getIPAddressNumberOfEntries] at h
      cases ha : a.addr with
      | none => simp [ha] at h
      | some s =>
          simp only [ha] at h
          cases hn : getIPAddressNumberOfEntries family nameOfInterface ifa with
          | error e => simp [hn, Except.map] at h
          | ok m =>
              obtain ⟨hall, hm⟩ := ih hn
              simp only [hn, Except.map, Except.ok.injEq] at h
              refine ⟨List.forall_mem_cons.mpr ⟨by rw [ha]; rfl, hall⟩, ?_⟩
              rw [← h, addressesOf, List.filterMap_cons, ha, Option.bind_some]
              by_cases hname : a.name = nameOfInterface
              · cases hs : family s with
                | none => simpa [hname, hs, addressesOf] using hm
                | some p => simpa [hname, hs, addressesOf] using hm
              · simpa [hname, addressesOf] using hm

/-- Where every entry has an address, a row is found by its place. -/
theorem addressAndMaskLoop_eq (hall : ∀ a ∈ ifa, a.addr.isSome = true) (inst c : Int) :
    addressAndMaskLoop family nameOfInterface inst ifa c =
      .ok (if c < inst then (addressesOf family nameOfInterface ifa)[(inst - c - 1).toNat]? else none) := by
  induction ifa generalizing c with
  | nil => simp [addressAndMaskLoop, addressesOf]
  | cons a ifa ih =>
      obtain ⟨ha, hall⟩ := List.forall_mem_cons.mp hall
      obtain ⟨s, hs⟩ := Option.isSome_iff_exists.mp ha
      have hskip : addressAndMaskLoop family nameOfInterface inst ifa c =
          .ok (if c < inst then (addressesOf family nameOfInterface ifa)[(inst - c - 1).toNat]? else none) := ih hall c
      rw [addressAndMaskLoop, addressesOf, List.filterMap_cons, hs]
      simp only [Option.bind_some]
      cases hf : family s with
      | none => simpa [addressesOf] using hskip
      | some p =>
          by_cases hname : a.name = nameOfInterface
          · simp only [hname, if_true]
            split
            · next hinst =>
              rw [if_pos (by omega), show (inst - c - 1).toNat = 0 by omega]
              rfl
            · next hinst =>
              rw [ih hall (c + 1)]
              by_cases hlt : c < inst
              · rw [if_pos hlt, if_pos (by omega), show (inst - c - 1).toNat = (inst - (c + 1) - 1).toNat + 1 by omega]
                rfl
              · rw [if_neg hlt, if_neg (by omega)]
          · simpa [hname, addressesOf] using hskip

/-- **The rows up to the number of entries are the addresses of the interface in their order**, and there are no
others. -/
theorem addressRows_eq (n : Nat) (h : getIPAddressNumberOfEntries family nameOfInterface ifa = .ok n) :
    (List.range' 1 n).map (fun i : Nat => addressAndMaskLoop family nameOfInterface i ifa 0) =
        (addressesOf family nameOfInterface ifa).map (fun p => .ok (some p)) ∧
      ∀ i : Int, i < 1 ∨ (n : Int) < i → addressAndMaskLoop family nameOfInterface i ifa 0 = .ok none := by
  obtain ⟨hall, rfl⟩ := getIPAddressNumberOfEntries_eq_ok h
  constructor
  · have hrow : ∀ i ∈ List.range' 1 (addressesOf family nameOfInterface ifa).length,
        addressAndMaskLoop family nameOfInterface i ifa 0 =
          .ok (addressesOf family nameOfInterface ifa)[i - 1]? := by
      intro i hi
      rw [List.mem_range'_1] at hi
      rw [addressAndMaskLoop_eq hall, if_pos (by omega), show ((i : Int) - 0 - 1).toNat = i - 1 by omega]
    have hmap := congrArg (List.map fun r => (.ok r : Except AddressFault _))
      (map_getElem_range' (Nat.le_refl (addressesOf family nameOfInterface ifa).length))
    rw [List.take_length, List.map_map, List.map_map] at hmap
    rw [List.map_congr_left hrow]
    exact hmap
  · intro i hi
    rw [addressAndMaskLoop_eq hall]
    split
    · rw [List.getElem?_eq_none (by omega)]
    · rfl

end

/-- `lo` and `eth0`, with an IPv4 address and an IPv6 address each. -/
def twoInterfaces : List IfAddr :=
  let ones (n : Nat) : List Nat := List.replicate n 255 ++ List.replicate (16 - n) 0
  [⟨['l', 'o'], some (.inet [127, 0, 0, 1] [255, 0, 0, 0])⟩, ⟨['e'], some (.inet [10, 0, 0, 2] [255, 255, 255, 0])⟩,
    ⟨['l', 'o'], some (.inet6 (List.replicate 15 0 ++ [1]) (ones 16))⟩,
    ⟨['e'], some (.inet6 ([254, 128] ++ List.replicate 13 0 ++ [7]) (ones 8))⟩]

theorem addressRows_eq_two :
    (List.range' 1 1).map (fun i : Nat => addressAndMaskLoop SockAddr.inet? ['e'] i twoInterfaces 0) =
        (addressesOf SockAddr.inet? ['e'] twoInterfaces).map (fun p => .ok (some p)) ∧
      ∀ i : Int, i < 1 ∨ ((1 : Nat) : Int) < i → addressAndMaskLoop SockAddr.inet? ['e'] i twoInterfaces 0 = .ok none :=
  addressRows_eq 1 rfl

/-! ## Prefixes -/

/-- The inner loop of `getIPv6Prefix` on one byte of the netmask: `number_of_1bits` and `bitPattern` at its end. -/
def matchByte (byte : Nat) : Nat → Nat → Nat × Nat
  | 0, bitPattern => (0, bitPattern)
  | numberOf1bits + 1, bitPattern =>
      if byte = bitPattern then (numberOf1bits + 1, bitPattern)
      else matchByte byte numberOf1bits (bitPattern <<< 1 % 256)

/-- The outer loop, over the bytes that are left. -/
def prefixLengthLoop : List Nat → Nat → Nat → Nat → Nat
  | [], _, _, prefixLength => prefixLength
  | byte :: mask, numberOf1bits, bitPattern, prefixLength =>
      if numberOf1bits = 8 then
        let r := matchByte byte numberOf1bits bitPattern
        prefixLengthLoop mask r.1 r.2 (prefixLength + r.1)
      else prefixLength

/-- `prefix_length` for a netmask. -/
def prefixLengthOf (mask : List Nat) : Nat := prefixLengthLoop mask 8 0xFF 0

/-- `getIPv6Prefix`: the prefix address and its length, `none` for `NOK`. -/
def getIPv6Prefix (nameOfInterface : Text) (ifa : List IfAddr) (inst : Int) :
    Except AddressFault (Option (List Nat × Nat)) :=
  (getIPv6AddressAndMask nameOfInterface ifa inst).map fun r =>
    r.map fun p => (List.zipWith (· &&& ·) p.1 p.2, prefixLengthOf p.2)

/-- The ones a byte begins with. -/
def leadingOnes (l : List Bool) : Nat := (l.takeWhile id).length

/-- A byte that is some ones in front of zeros. -/
def LeftAligned (byte : Nat) : Prop := ∃ j < 8, byte = 256 - 2 ^ (8 - j)

instance (byte : Nat) : Decidable (LeftAligned byte) := inferInstanceAs (Decidable (∃ j < 8, _))

theorem matchByte_spec : ∀ byte < 256, byte ≠ 255 →
    (matchByte byte 8 0xFF).1 < 8 ∧ leadingOnes (natBits 8 byte) < 8 ∧
      ((matchByte byte 8 0xFF).1 = leadingOnes (natBits 8 byte) ↔ byte < 128 ∨ LeftAligned byte) := by
  decide +kernel

theorem prefixLengthLoop_stop (mask : List Nat) {n : Nat} (hn : n ≠ 8) (bitPattern acc : Nat) :
    prefixLengthLoop mask n bitPattern acc = acc := by
  cases mask with
  | nil => rfl
  | cons byte mask => rw [prefixLengthLoop, if_neg hn]

/-- The bytes of ones count eight each, the first other byte what the inner loop leaves. -/
theorem prefixLengthLoop_eq (mask : List Nat) (hm : ∀ b ∈ mask, b < 256) (acc : Nat) :
    prefixLengthLoop mask 8 0xFF acc =
      acc + 8 * (mask.takeWhile (· = 255)).length +
        ((mask.dropWhile (· = 255)).head?.map fun byte => (matchByte byte 8 0xFF).1).getD 0 := by
  induction mask generalizing acc with
  | nil => rfl
  | cons byte mask ih =>
      obtain ⟨hb, hmask⟩ := List.forall_mem_cons.mp hm
      rw [prefixLengthLoop, if_pos rfl]
      by_cases h : byte = 255
      · subst h
        show prefixLengthLoop mask 8 0xFF (acc + 8) = _
        rw [ih hmask, List.takeWhile_cons_of_pos (by rfl), List.dropWhile_cons_of_pos (by rfl), List.length_cons]
        omega
      · rw [List.takeWhile_cons_of_neg (by simpa using h), List.dropWhile_cons_of_neg (by simpa using h)]
        show prefixLengthLoop mask (matchByte byte 8 0xFF).1 (matchByte byte 8 0xFF).2 (acc + (matchByte byte 8 0xFF).1) = _
        rw [prefixLengthLoop_stop _ (Nat.ne_of_lt (matchByte_spec byte hb h).1)]
        simp

theorem leadingOnes_append (x y : List Bool) :
    leadingOnes (x ++ y) = if leadingOnes x = x.length then x.length + leadingOnes y else leadingOnes x := by
  unfold leadingOnes
  rw [List.takeWhile_append]
  split
  · rw [List.length_append]
  · rfl

/-- The same for the ones a netmask begins with. -/
theorem leadingOnes_mask (mask : List Nat) (hm : ∀ b ∈ mask, b < 256) :
    leadingOnes (mask.flatMap (natBits 8)) =
      8 * (mask.takeWhile (· = 255)).length +
        ((mask.dropWhile (· = 255)).head?.map fun byte => leadingOnes (natBits 8 byte)).getD 0 := by
  induction mask with
  | nil => rfl
  | cons byte mask ih =>
      obtain ⟨hb, hmask⟩ := List.forall_mem_cons.mp hm
      rw [List.flatMap_cons, leadingOnes_append, length_natBits]
      by_cases h : byte = 255
      · subst h
        rw [if_pos (by decide), ih hmask, List.takeWhile_cons_of_pos (by rfl), List.dropWhile_cons_of_pos (by rfl),
          List.length_cons]
        omega
      · rw [if_neg (Nat.ne_of_lt (matchByte_spec byte hb h).2.1), List.takeWhile_cons_of_neg (by simpa using h),
          List.dropWhile_cons_of_neg (by simpa using h)]
        simp

/-- **The prefix length is the number of ones the netmask begins with, unless the first byte that is not all ones
begins with a one and is not some ones in front of zeros.** -/
theorem prefixLength_eq_iff (mask : List Nat) (hm : ∀ b ∈ mask, b < 256) :
    prefixLengthOf mask = leadingOnes (mask.flatMap (natBits 8)) ↔
      ∀ byte, (mask.dropWhile (· = 255)).head? = some byte → byte < 128 ∨ LeftAligned byte := by
  rw [prefixLengthOf, prefixLengthLoop_eq mask hm, leadingOnes_mask mask hm, Nat.zero_add, Nat.add_left_cancel_iff]
  cases h : (mask.dropWhile (· = 255)).head? with
  | none => simp
  | some byte =>
      have hmem : byte ∈ mask := List.dropWhile_subset _ (List.mem_of_head? h)
      have hne : byte ≠ 255 := by
        have := List.head?_dropWhile_not (· = 255) mask
        simpa [h] using this
      simpa using (matchByte_spec byte (hm byte hmem) hne).2.2

theorem prefixLength_eq_iff_hole :
    prefixLengthOf [255, 0xF4, 0] = leadingOnes ([255, 0xF4, 0].flatMap (natBits 8)) ↔
      ∀ byte, (([255, 0xF4, 0] : List Nat).dropWhile (· = 255)).head? = some byte → byte < 128 ∨ LeftAligned byte :=
  prefixLength_eq_iff [255, 0xF4, 0] (by decide)

theorem matchByte_ones : ∀ byte < 256, ∀ n < 8,
    natBits 8 byte = List.replicate n true ++ List.replicate (8 - n) false → (matchByte byte 8 0xFF).1 = n := by
  decide +kernel

/-- The loop counts the ones of a contiguous netmask. -/
theorem prefixLengthLoop_contiguous {mask : List Nat} (hm : ∀ b ∈ mask, b < 256) {n m : Nat}
    (h : mask.flatMap (natBits 8) = List.replicate n true ++ List.replicate m false) (acc : Nat) :
    prefixLengthLoop mask 8 0xFF acc = acc + n := by
  induction mask generalizing n m acc with
  | nil =>
      have := congrArg List.length h
      simp only [List.flatMap_nil, List.length_nil, List.length_append, List.length_replicate] at this
      rw [prefixLengthLoop]
      omega
  | cons byte mask ih =>
      obtain ⟨hb, hmask⟩ := List.forall_mem_cons.mp hm
      rw [List.flatMap_cons] at h
      have hlen := congrArg List.length h
      simp only [List.length_append, length_natBits, List.length_replicate] at hlen
      by_cases hn : 8 ≤ n
      · obtain ⟨k, rfl⟩ := Nat.exists_eq_add_of_le hn
        rw [List.replicate_add, List.append_assoc] at h
        obtain ⟨hhead, htail⟩ := List.append_inj h (by rw [length_natBits, List.length_replicate])
        have h255 : byte = 255 := natBits_injective (k := 8) hb (by decide) (hhead.trans (by decide))
        subst h255
        show prefixLengthLoop mask 8 0xFF (acc + 8) = _
        rw [ih hmask htail]
        omega
      · have hsplit : List.replicate m false = List.replicate (8 - n) false ++ List.replicate (m - (8 - n)) false := by
          rw [← List.replicate_add]
          congr 1
          omega
        rw [hsplit, ← List.append_assoc] at h
        obtain ⟨hhead, -⟩ := List.append_inj h (by simp [length_natBits]; omega)
        have hcount := matchByte_ones byte hb n (by omega) hhead
        rw [prefixLengthLoop, if_pos rfl]
        show prefixLengthLoop mask (matchByte byte 8 0xFF).1 _ (acc + (matchByte byte 8 0xFF).1) = _
        rw [hcount, prefixLengthLoop_stop _ (by omega)]

/-- **The prefix of a contiguous netmask**: its length is that of the netmask, and the prefix address is the address
up to there. -/
theorem getIPv6Prefix_contiguous (nameOfInterface : Text) (ifa : List IfAddr) (inst : Int) (a m : List Nat) (n : Nat)
    (hrow : getIPv6AddressAndMask nameOfInterface ifa inst = .ok (some (a, m))) (ha : a.length = 16) (hm : m.length = 16)
    (hbytes : ∀ b ∈ m, b < 256)
    (hmask : m.flatMap (natBits 8) = List.replicate n true ++ List.replicate (128 - n) false) :
    ∃ p, getIPv6Prefix nameOfInterface ifa inst = .ok (some (p, n)) ∧
      p.flatMap (natBits 8) = (a.flatMap (natBits 8)).take n ++ List.replicate (128 - n) false := by
  have hlen := congrArg List.length hmask
  rw [length_flatMap_natBits, List.length_append, List.length_replicate, List.length_replicate] at hlen
  refine ⟨List.zipWith (· &&& ·) a m, ?_, ?_⟩
  · unfold getIPv6Prefix prefixLengthOf
    rw [hrow, Except.map, Option.map_some, prefixLengthLoop_contiguous hbytes hmask, Nat.zero_add]
  · rw [flatMap_natBits_and 8 (ha.trans hm.symm), hmask, zipWith_and_mask]
    rw [length_flatMap_natBits]
    omega

theorem getIPv6Prefix_contiguous_linkLocal :
    ∃ p, getIPv6Prefix ['e'] twoInterfaces 1 = .ok (some (p, 64)) ∧
      p.flatMap (natBits 8) =
        (([254, 128] ++ List.replicate 13 0 ++ [7]).flatMap (natBits 8)).take 64 ++ List.replicate (128 - 64) false :=
  getIPv6Prefix_contiguous ['e'] twoInterfaces 1 _ (List.replicate 8 255 ++ List.replicate 8 0) 64 rfl (by decide)
    (by decide) (by decide) (by decide)

end Tr69HostIf.IP
