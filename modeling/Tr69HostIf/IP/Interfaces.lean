import Tr69HostIf.Store.Select
import Tr69HostIf.Store.Scan
import Tr69HostIf.Waldb.Walk

/-!
# The numbers of the IP interfaces

`getInterfaceNumberOfEntries`, `getInterfaceName`, `getVirtualInterfaceNumberOfEntries` and `getVirtualInterfaceName`
of `Device_IP.cpp`, on what `if_nameindex` and `getifaddrs` return. A virtual interface is an address whose name is a
physical name, a colon and a number; the code looks for the place where two names first differ.

* `afterCommon` : what is left of two names there;
* `getVirtualInterfaceNumberOfEntries`, `getVirtualInterfaceName` : the two scans, which leave the inner loop at
  different places; `hits` : how often an address is taken for a virtual interface by the second;
* `System` : what the kernel guarantees of the two lists, and `virtuals` : the virtual interfaces;
* `hits_virtual`, `hits_physical` : an address is hit once for each physical name its own physical name begins.
-/

namespace Tr69HostIf.IP
open Store Clib
open Waldb (toInt)

/-- `IF_NAMESIZE`. -/
def ifNameSize : Nat := 16

/-- An entry of `if_nameindex`. -/
structure Physical where
  name : Text
  index : Nat
  deriving DecidableEq

/-- `sa_family`. -/
inductive Family
  | inet | other
  deriving DecidableEq

/-- An entry of `getifaddrs`; an interface without an address has no `ifa_addr`. -/
structure Address where
  name : Text
  family : Option Family
  deriving DecidableEq

/-- What is left of the two names where they first differ. -/
def afterCommon : Text → Text → Text × Text
  | c :: v, d :: p => if c = d then afterCommon v p else (c :: v, d :: p)
  | v, p => (v, p)

/-- `*v == *p`. -/
def sameName (name physical : Text) : Bool := afterCommon name physical = ([], [])

/-- `value = (int) strtol(v, &tailPtr, 10)`, `*tailPtr == 0 && value >= 0`. -/
def isNumber (t : Text) : Bool := (strtol t).2 = [] && decide (0 ≤ toInt (strtol t).1)

/-- `*v == ':'`, and a number behind it. -/
def takenForVirtual (name physical : Text) : Bool :=
  match (afterCommon name physical).1 with
  | ':' :: number => isNumber number
  | _ => false

/-- The inner loop of `getVirtualInterfaceNumberOfEntries`, left at the first match. -/
def countAddress (name : Text) : List Physical → Nat
  | [] => 0
  | p :: physical =>
      if sameName name p.name then 0
      else if takenForVirtual name p.name then 1
      else countAddress name physical

/-- An address that is not there is read. -/
inductive AddressFault
  | nullPointer
  deriving DecidableEq

/-- `getVirtualInterfaceNumberOfEntries`. -/
def getVirtualInterfaceNumberOfEntries (physical : List Physical) : List Address → Except AddressFault Nat
  | [] => .ok 0
  | a :: addresses =>
      match a.family with
      | none => .error .nullPointer
      | some family =>
          (getVirtualInterfaceNumberOfEntries physical addresses).map fun count =>
            if family = .inet then countAddress a.name physical + count else count

/-- `getPhysicalInterfaceNumberOfEntries`. -/
def getPhysicalInterfaceNumberOfEntries (physical : List Physical) : Nat := physical.length

/-- `getInterfaceNumberOfEntries`. -/
def getInterfaceNumberOfEntries (physical : List Physical) (addresses : List Address) : Except AddressFault Nat :=
  (getVirtualInterfaceNumberOfEntries physical addresses).map (getPhysicalInterfaceNumberOfEntries physical + ·)

/-- The inner loop of `getVirtualInterfaceName`, which goes on after a match: the new count, and whether the index has
been reached. -/
def searchAddress (name : Text) (virtualIfIndex : Nat) : List Physical → Nat → Nat × Bool
  | [], count => (count, false)
  | p :: physical, count =>
      if sameName name p.name then (count, false)
      else if takenForVirtual name p.name then
        if count + 1 = virtualIfIndex then (count + 1, true) else searchAddress name virtualIfIndex physical (count + 1)
      else searchAddress name virtualIfIndex physical count

/-- `strcpy_s` into a name of `IF_NAMESIZE` characters. -/
def copyName (name : Text) : Text := if name.length < ifNameSize then name else []

/-- The loop of `getVirtualInterfaceName`. -/
def virtualNameLoop (physical : List Physical) (virtualIfIndex : Nat) : List Address → Nat → Option Text
  | [], _ => none
  | a :: addresses, count =>
      if a.family = some .inet then
        let r := searchAddress a.name virtualIfIndex physical count
        if r.2 then some (copyName a.name) else virtualNameLoop physical virtualIfIndex addresses r.1
      else virtualNameLoop physical virtualIfIndex addresses count

/-- `getVirtualInterfaceName`. -/
def getVirtualInterfaceName (physical : List Physical) (addresses : List Address) (virtualIfIndex : Nat) : Option Text :=
  virtualNameLoop physical virtualIfIndex addresses 0

/-- `if_indextoname`. -/
def ifIndextoname (physical : List Physical) (ifIndex : Nat) : Option Text :=
  (physical.find? fun p => p.index = ifIndex).map Physical.name

/-- `getInterfaceName`. -/
def getInterfaceName (physical : List Physical) (addresses : List Address) (ifIndex : Nat) : Option Text :=
  match ifIndextoname physical ifIndex with
  | some name => some name
  | none =>
      let phyIfCount := getPhysicalInterfaceNumberOfEntries physical
      if phyIfCount < ifIndex then getVirtualInterfaceName physical addresses (ifIndex - phyIfCount) else none

/-! ## Hits -/

/-- How often `searchAddress` counts a name. -/
def hits (physical : List Physical) (name : Text) : Nat :=
  match physical with
  | [] => 0
  | p :: physical =>
      if sameName name p.name then 0
      else if takenForVirtual name p.name then hits physical name + 1
      else hits physical name

section
variable {physical : List Physical} {addresses : List Address} {name : Text} {k count : Nat}

/-- The first scan counts a name once when the second does at all. -/
theorem countAddress_eq (name : Text) (physical : List Physical) :
    countAddress name physical = if 0 < hits physical name then 1 else 0 := by
  induction physical with
  | nil => rfl
  | cons p physical ih =>
      rw [countAddress, hits]
      split
      · rfl
      · split
        · rw [if_pos (Nat.succ_pos _)]
        · exact ih

theorem searchAddress_eq (h : count < k) :
    searchAddress name k physical count =
      if k ≤ count + hits physical name then (k, true) else (count + hits physical name, false) := by
  induction physical generalizing count with
  | nil =>
      rw [searchAddress, hits, if_neg (by omega)]
      rfl
  | cons p physical ih =>
      rw [searchAddress, hits]
      split
      · rw [if_neg (by omega)]
        rfl
      · split
        · by_cases hk : count + 1 = k
          · rw [if_pos hk, if_pos (by omega), hk]
          · rw [if_neg hk, ih (by omega), show count + 1 + hits physical name = count + (hits physical name + 1) by omega]
        · exact ih h

/-- The addresses that are taken for virtual interfaces, as often as they are. -/
def hitNames (physical : List Physical) (addresses : List Address) : List Text :=
  addresses.flatMap fun a =>
    if a.family = some .inet then List.replicate (hits physical a.name) (copyName a.name) else []

theorem virtualNameLoop_eq (h : count < k) :
    virtualNameLoop physical k addresses count = (hitNames physical addresses)[k - count - 1]? := by
  induction addresses generalizing count with
  | nil => rfl
  | cons a addresses ih =>
      rw [virtualNameLoop, hitNames, List.flatMap_cons]
      by_cases hinet : a.family = some .inet
      · rw [if_pos hinet, if_pos hinet, searchAddress_eq h]
        by_cases hk : k ≤ count + hits physical a.name
        · have hlt : k - count - 1 < (List.replicate (hits physical a.name) (copyName a.name)).length := by
            rw [List.length_replicate]
            omega
          rw [if_pos hk, List.getElem?_append_left hlt, List.getElem?_replicate]
          exact (if_pos (by omega)).symm
        · have hle : (List.replicate (hits physical a.name) (copyName a.name)).length ≤ k - count - 1 := by
            rw [List.length_replicate]
            omega
          rw [if_neg hk, List.getElem?_append_right hle, List.length_replicate,
            show k - count - 1 - hits physical a.name = k - (count + hits physical a.name) - 1 by omega]
          exact ih (by omega)
      · rw [if_neg hinet, if_neg hinet, List.nil_append]
        exact ih h

/-- The second scan goes through the hits. -/
theorem getVirtualInterfaceName_eq (h : 0 < k) :
    getVirtualInterfaceName physical addresses k = (hitNames physical addresses)[k - 1]? := by
  rw [getVirtualInterfaceName, virtualNameLoop_eq h, Nat.sub_zero]

/-- The addresses that are taken for virtual interfaces. -/
def hitAddresses (physical : List Physical) (addresses : List Address) : List Address :=
  addresses.filter fun a => decide (a.family = some .inet) && decide (0 < hits physical a.name)

/-- The first scan counts the addresses that are hit, when all have an address. -/
theorem getVirtualInterfaceNumberOfEntries_eq (h : ∀ a ∈ addresses, a.family ≠ none) :
    getVirtualInterfaceNumberOfEntries physical addresses = .ok (hitAddresses physical addresses).length := by
  induction addresses with
  | nil => rfl
  | cons a addresses ih =>
      rw [List.forall_mem_cons] at h
      obtain ⟨family, hfamily⟩ := Option.ne_none_iff_exists'.mp h.1
      rw [getVirtualInterfaceNumberOfEntries, hfamily, ih h.2, hitAddresses, hitAddresses, countAddress_eq]
      cases family with
      | other =>
          rw [List.filter_cons_of_neg (by simp [hfamily])]
          rfl
      | inet =>
          by_cases hhit : 0 < hits physical a.name
          · rw [List.filter_cons_of_pos (by simp [hfamily, hhit]), if_pos hhit, List.length_cons, Nat.add_comm]
            rfl
          · rw [List.filter_cons_of_neg (by simp [hfamily, hhit]), if_neg hhit]
            show Except.ok (0 + _) = _
            rw [Nat.zero_add]

theorem getVirtualInterfaceNumberOfEntries_null {a : Address} (ha : a ∈ addresses) (hnull : a.family = none) :
    getVirtualInterfaceNumberOfEntries physical addresses = .error .nullPointer := by
  induction addresses with
  | nil => cases ha
  | cons b addresses ih =>
      rw [getVirtualInterfaceNumberOfEntries]
      rcases List.mem_cons.mp ha with rfl | ha
      · rw [hnull]
      · cases b.family with
        | none => rfl
        | some family => rw [ih ha]; rfl

end

/-! ## Names -/

section
variable {physical : List Physical} {x number p : Text}

/-- A virtual name and a physical one differ at the colon exactly when the second begins with the physical part. -/
theorem afterCommon_virtual (hx : ':' ∉ x) (hp : ':' ∉ p) (number : Text) :
    if x <+: p then (afterCommon (x ++ ':' :: number) p).1 = ':' :: number
    else ∀ t, (afterCommon (x ++ ':' :: number) p).1 ≠ ':' :: t := by
  induction x generalizing p with
  | nil =>
      rw [if_pos (List.nil_prefix)]
      cases p with
      | nil => rfl
      | cons d p =>
          rw [List.mem_cons, not_or] at hp
          rw [List.nil_append, afterCommon, if_neg hp.1]
  | cons c x ih =>
      rw [List.mem_cons, not_or] at hx
      cases p with
      | nil =>
          rw [if_neg (by simp), List.cons_append]
          intro t h
          exact hx.1 (List.cons.inj h).1.symm
      | cons d p =>
          rw [List.mem_cons, not_or] at hp
          rw [List.cons_append, afterCommon]
          by_cases hcd : c = d
          · subst hcd
            simp only [if_pos, List.cons_prefix_cons, true_and]
            exact ih hx.2 hp.2
          · rw [if_neg hcd, if_neg (by simp [hcd])]
            intro t h
            exact hx.1 (List.cons.inj h).1.symm

/-- What is left of a name is a part of it. -/
theorem afterCommon_suffix (v p : Text) : (afterCommon v p).1 <:+ v := by
  fun_induction afterCommon v p with
  | case1 _ _ _ ih => exact ih.trans (List.suffix_cons _ _)
  | case2 c v d p h => exact List.suffix_rfl
  | case3 v p h => exact List.suffix_rfl

theorem eq_of_sameName {v : Text} (h : sameName v p = true) : v = p := by
  rw [sameName, decide_eq_true_eq] at h
  fun_induction afterCommon v p with
  | case1 c v p ih => rw [ih h]
  | case2 c v d p hcd => cases h
  | case3 v p hne => rw [(Prod.mk.inj h).1, (Prod.mk.inj h).2]

/-- A physical name is never taken for a virtual one. -/
theorem hits_physical (hx : ':' ∉ x) : hits physical x = 0 := by
  induction physical with
  | nil => rfl
  | cons p physical ih =>
      have htaken : takenForVirtual x p.name = false := by
        rw [takenForVirtual]
        split
        · next number h =>
          have hsuffix := afterCommon_suffix x p.name
          rw [h] at hsuffix
          exact absurd (hsuffix.subset List.mem_cons_self) hx
        · rfl
      rw [hits, htaken]
      split
      · rfl
      · exact ih

/-- **A virtual name is hit once for each physical name that begins with its own.** -/
theorem hits_virtual (hplain : ∀ p ∈ physical, ':' ∉ p.name) (hx : ':' ∉ x) (number : Text) :
    hits physical (x ++ ':' :: number) =
      if isNumber number then (physical.filter fun p => x <+: p.name).length else 0 := by
  induction physical with
  | nil => rw [hits, List.filter_nil]; split <;> rfl
  | cons p physical ih =>
      rw [List.forall_mem_cons] at hplain
      have hsame : sameName (x ++ ':' :: number) p.name = false := by
        rw [Bool.eq_false_iff]
        intro h
        rw [← eq_of_sameName h] at hplain
        exact hplain.1 (by simp)
      have hcommon := afterCommon_virtual hx hplain.1 number
      rw [hits, hsame, if_neg Bool.false_ne_true, ih hplain.2]
      by_cases hprefix : x <+: p.name
      · rw [if_pos hprefix] at hcommon
        have htaken : takenForVirtual (x ++ ':' :: number) p.name = isNumber number := by
          rw [takenForVirtual, hcommon]
          rfl
        rw [htaken, List.filter_cons_of_pos (by simpa using hprefix), List.length_cons]
        by_cases hnumber : isNumber number = true
        · rw [if_pos hnumber, if_pos hnumber, if_pos hnumber]
        · rw [if_neg hnumber, if_neg hnumber, if_neg hnumber]
      · rw [if_neg hprefix] at hcommon
        have htaken : takenForVirtual (x ++ ':' :: number) p.name = false := by
          rw [takenForVirtual]
          split
          · next t h => exact absurd h (hcommon t)
          · rfl
        rw [htaken, List.filter_cons_of_neg (by simpa using hprefix)]
        rfl

end

end Tr69HostIf.IP
