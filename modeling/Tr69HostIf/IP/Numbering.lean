import Tr69HostIf.IP.Interfaces
import Mathlib.Order.Interval.Finset.Nat

/-!
# When the IP interfaces are numbered one to one

* `System` : what the kernel guarantees of its two lists; `virtuals` : the virtual interfaces;
* `Numbering` : the claim of the four functions;
* `virtual_iff` : the virtual interfaces are returned once each, in order, exactly when their numbers are no negative
  `int` and, but for the last, no other physical name begins with theirs;
* `enumerates_iff` : then the numbers are one to one exactly when the kernel's indexes leave no gap;
* `numbering_iff` : both, with an address for every interface.
-/

namespace Tr69HostIf.IP
open Store Clib

/-- The names with a colon. -/
def virtuals (addresses : List Address) : List Text := (addresses.map Address.name).filter fun name => ':' ∈ name

/-- What `if_nameindex` and `getifaddrs` return: physical interfaces with names and indexes of their own, and addresses
of these and of virtual interfaces, which are IPv4 addresses with a number behind the colon and are listed once. -/
structure System where
  physical : List Physical
  addresses : List Address
  names : (physical.map Physical.name).Nodup
  indexes : (physical.map Physical.index).Nodup
  positive : ∀ p ∈ physical, 0 < p.index
  plain : ∀ p ∈ physical, ':' ∉ p.name
  known : ∀ a ∈ addresses, (∃ p ∈ physical, a.name = p.name) ∨
    a.family = some .inet ∧ ∃ p ∈ physical, ∃ number, Digits number ∧ a.name = p.name ++ ':' :: number
  once : (virtuals addresses).Nodup
  fits : ∀ a ∈ addresses, a.name.length < ifNameSize

/-- What stands in front of the colon. -/
def physicalOf (name : Text) : Text := name.takeWhile fun c => c ≠ ':'

/-- What stands behind the colon. -/
def numberOf (name : Text) : Text := (name.dropWhile fun c => c ≠ ':').tail

section
variable {x : Text}

theorem physicalOf_virtual (hx : ':' ∉ x) (number : Text) : physicalOf (x ++ ':' :: number) = x := takeWhile_ne hx number

theorem numberOf_virtual (hx : ':' ∉ x) (number : Text) : numberOf (x ++ ':' :: number) = number := by
  rw [numberOf, dropWhile_ne hx, List.tail_cons]

end

/-! ## The virtual interfaces -/

namespace System

/-- The names of the physical interfaces. -/
def physicalNames (s : System) : List Text := s.physical.map Physical.name

/-- The names of the virtual interfaces. -/
def virtualNames (s : System) : List Text := virtuals s.addresses

variable {s : System} {a : Address} {name : Text}

/-- A virtual interface is a number on a physical one. -/
theorem exists_of_virtual (h : name ∈ s.virtualNames) :
    ∃ p ∈ s.physical, ∃ number, name = p.name ++ ':' :: number := by
  obtain ⟨hmem, hcolon⟩ := List.mem_filter.mp h
  obtain ⟨a, ha, rfl⟩ := List.mem_map.mp hmem
  rcases s.known a ha with ⟨p, hp, hname⟩ | ⟨-, p, hp, number, -, hname⟩
  · rw [hname] at hcolon
    exact absurd (of_decide_eq_true hcolon) (s.plain p hp)
  · exact ⟨p, hp, number, hname⟩

theorem physicalOf_mem (h : name ∈ s.virtualNames) : ∃ p ∈ s.physical, p.name = physicalOf name := by
  obtain ⟨p, hp, number, rfl⟩ := exists_of_virtual h
  exact ⟨p, hp, (physicalOf_virtual (s.plain p hp) number).symm⟩

/-- The two kinds of names are apart. -/
theorem not_physical_of_virtual (h : name ∈ s.virtualNames) : name ∉ s.physicalNames := by
  intro hphysical
  obtain ⟨p, hp, rfl⟩ := List.mem_map.mp hphysical
  exact s.plain p hp (of_decide_eq_true (List.mem_filter.mp h).2)

/-- A virtual name is hit once for each physical name that begins with its own. -/
theorem hits_eq (h : name ∈ s.virtualNames) :
    hits s.physical name =
      if isNumber (numberOf name) then (s.physical.filter fun p => physicalOf name <+: p.name).length else 0 := by
  obtain ⟨p, hp, number, rfl⟩ := exists_of_virtual h
  rw [hits_virtual s.plain (s.plain p hp), physicalOf_virtual (s.plain p hp), numberOf_virtual (s.plain p hp)]

theorem hits_pos_iff (h : name ∈ s.virtualNames) : 0 < hits s.physical name ↔ isNumber (numberOf name) = true := by
  obtain ⟨p, hp, hname⟩ := physicalOf_mem h
  have hmem : p ∈ s.physical.filter fun p => physicalOf name <+: p.name :=
    List.mem_filter.mpr ⟨hp, decide_eq_true (hname ▸ List.prefix_rfl)⟩
  have hpos := List.length_pos_of_mem hmem
  rw [hits_eq h]
  by_cases hnumber : isNumber (numberOf name) = true
  · rw [if_pos hnumber]
    exact ⟨fun _ => hnumber, fun _ => hpos⟩
  · rw [if_neg hnumber]
    exact ⟨fun h => absurd h (Nat.lt_irrefl 0), fun h => absurd h hnumber⟩

/-- It is hit once exactly when no other physical name begins with its own. -/
theorem hits_one_iff (h : name ∈ s.virtualNames) (hnumber : isNumber (numberOf name) = true) :
    hits s.physical name = 1 ↔ ∀ p ∈ s.physical, physicalOf name <+: p.name → p.name = physicalOf name := by
  obtain ⟨p, hp, hname⟩ := physicalOf_mem h
  rw [hits_eq h, if_pos hnumber,
    filter_length_one_iff (List.Nodup.of_map _ s.names) hp (decide_eq_true (hname ▸ List.prefix_rfl))]
  refine forall₂_congr fun q hq => ?_
  rw [decide_eq_true_eq]
  refine imp_congr_right fun _ => ⟨fun h => h ▸ hname, fun h => ?_⟩
  exact List.inj_on_of_nodup_map s.names hq hp (h.trans hname.symm)

/-- An address is hit exactly when it is that of a virtual interface with a number. -/
theorem hit_iff (ha : a ∈ s.addresses) :
    a.family = some .inet ∧ 0 < hits s.physical a.name ↔ ':' ∈ a.name ∧ isNumber (numberOf a.name) = true := by
  by_cases hcolon : ':' ∈ a.name
  · have hvirtual : a.name ∈ s.virtualNames :=
      List.mem_filter.mpr ⟨List.mem_map_of_mem ha, decide_eq_true hcolon⟩
    rw [hits_pos_iff hvirtual]
    rcases s.known a ha with ⟨p, hp, hname⟩ | ⟨hinet, -⟩
    · exact absurd (hname ▸ hcolon) (s.plain p hp)
    · exact ⟨fun h => ⟨hcolon, h.2⟩, fun h => ⟨hinet, h.2⟩⟩
  · rw [hits_physical hcolon]
    exact ⟨fun h => absurd h.2 (Nat.lt_irrefl 0), fun h => absurd h.1 hcolon⟩

/-- The virtual interfaces with a number. -/
def found (s : System) : List Text := s.virtualNames.filter fun name => isNumber (numberOf name)

theorem hitAddresses_names (s : System) : (hitAddresses s.physical s.addresses).map Address.name = s.found := by
  have hsame : hitAddresses s.physical s.addresses =
      s.addresses.filter fun a => isNumber (numberOf a.name) && decide (':' ∈ a.name) := by
    apply List.filter_congr
    intro a ha
    rw [Bool.eq_iff_iff, Bool.and_eq_true, Bool.and_eq_true, decide_eq_true_eq, decide_eq_true_eq, decide_eq_true_eq,
      hit_iff ha, and_comm]
  rw [hsame, found, virtualNames, virtuals, List.filter_filter, List.filter_map]
  rfl

theorem hitNames_eq (s : System) :
    hitNames s.physical s.addresses = s.found.flatMap fun name => List.replicate (hits s.physical name) name := by
  rw [← hitAddresses_names, List.flatMap_map, hitNames, hitAddresses]
  have hcopy : ∀ a ∈ s.addresses, copyName a.name = a.name := fun a ha => if_pos (s.fits a ha)
  generalize s.addresses = addresses at hcopy
  induction addresses with
  | nil => rfl
  | cons a addresses ih =>
      rw [List.forall_mem_cons] at hcopy
      rw [List.flatMap_cons, ih hcopy.2, hcopy.1]
      by_cases hinet : a.family = some .inet
      · by_cases hhit : 0 < hits s.physical a.name
        · rw [if_pos hinet, List.filter_cons_of_pos (by simp [hinet, hhit]), List.flatMap_cons]
        · rw [if_pos hinet, List.filter_cons_of_neg (by simp [hhit]), Nat.eq_zero_of_not_pos hhit]
          rfl
      · rw [if_neg hinet, List.filter_cons_of_neg (by simp [hinet])]
        rfl

/-- **The virtual interfaces are returned in order, once each, exactly when** all have a number and, but for the last, are
hit by one physical name. -/
theorem virtual_iff (s : System) :
    (List.range' 1 s.found.length).map (getVirtualInterfaceName s.physical s.addresses) = s.virtualNames.map some ↔
      (∀ name ∈ s.virtualNames, isNumber (numberOf name) = true) ∧
        ∀ name ∈ s.virtualNames.dropLast, ∀ p ∈ s.physical, physicalOf name <+: p.name → p.name = physicalOf name := by
  have hpos : ∀ name ∈ s.found, 0 < hits s.physical name := by
    intro name hname
    obtain ⟨hmem, hnumber⟩ := List.mem_filter.mp hname
    exact (hits_pos_iff hmem).mpr hnumber
  have hread : (List.range' 1 s.found.length).map (getVirtualInterfaceName s.physical s.addresses) =
      ((s.found.flatMap fun name => List.replicate (hits s.physical name) name).take s.found.length).map some := by
    rw [← map_getElem_range' (length_le_repeated hpos)]
    apply List.map_congr_left
    intro k hk
    rw [getVirtualInterfaceName_eq (by rw [List.mem_range'_1] at hk; omega), hitNames_eq]
  rw [hread, List.map_inj_right (fun _ _ h => Option.some.inj h)]
  constructor
  · intro h
    have hlen : s.found.length = s.virtualNames.length := by
      have := congrArg List.length h
      rwa [List.length_take, Nat.min_eq_left (length_le_repeated hpos)] at this
    have hnumbers : ∀ name ∈ s.virtualNames, isNumber (numberOf name) = true :=
      List.length_filter_eq_length_iff.mp hlen
    have hall : s.found = s.virtualNames := List.filter_eq_self.mpr hnumbers
    rw [hall] at h hpos
    have hone := (take_repeated_iff s.once hpos).mp h
    refine ⟨hnumbers, fun name hname => ?_⟩
    have hmem := List.mem_of_mem_dropLast hname
    exact (hits_one_iff hmem (hnumbers name hmem)).mp (hone name hname)
  · rintro ⟨hnumbers, hseparate⟩
    have hall : s.found = s.virtualNames := List.filter_eq_self.mpr hnumbers
    rw [hall] at hpos ⊢
    apply (take_repeated_iff s.once hpos).mpr
    intro name hname
    have hmem := List.mem_of_mem_dropLast hname
    exact (hits_one_iff hmem (hnumbers name hmem)).mpr (hseparate name hname)

/-! ## All interfaces -/

/-- The numbers `1..n` are mapped one to one to the physical and the virtual interfaces. -/
structure Enumerates (s : System) (n : Nat) : Prop where
  total : ∀ i, 1 ≤ i → i ≤ n → ∃ name, getInterfaceName s.physical s.addresses i = some name ∧
    (name ∈ s.physicalNames ∨ name ∈ s.virtualNames)
  injective : ∀ i j, 1 ≤ i → i ≤ n → 1 ≤ j → j ≤ n →
    getInterfaceName s.physical s.addresses i = getInterfaceName s.physical s.addresses j → i = j
  onto : ∀ name, name ∈ s.physicalNames ∨ name ∈ s.virtualNames →
    ∃ i, 1 ≤ i ∧ i ≤ n ∧ getInterfaceName s.physical s.addresses i = some name

section
variable {p : Physical} {i v : Nat}

theorem ifIndextoname_eq (hp : p ∈ s.physical) : ifIndextoname s.physical p.index = some p.name := by
  have hfind : s.physical.find? (fun q => q.index = p.index) = some p := by
    cases hq : s.physical.find? fun q => q.index = p.index with
    | none => exact absurd (decide_eq_true rfl) (List.find?_eq_none.mp hq p hp)
    | some q =>
        have hindex : q.index = p.index := by simpa using List.find?_some hq
        rw [List.inj_on_of_nodup_map s.indexes (List.mem_of_find?_eq_some hq) hp hindex]
  rw [ifIndextoname, hfind]
  rfl

/-- An index is that of a physical interface, or the name is that of a virtual one. -/
theorem getInterfaceName_cases (s : System) (i : Nat) :
    (∃ p ∈ s.physical, p.index = i ∧ getInterfaceName s.physical s.addresses i = some p.name) ∨
      (∀ p ∈ s.physical, p.index ≠ i) ∧ getInterfaceName s.physical s.addresses i =
        if s.physical.length < i then getVirtualInterfaceName s.physical s.addresses (i - s.physical.length) else none := by
  by_cases h : ∃ p ∈ s.physical, p.index = i
  · obtain ⟨p, hp, rfl⟩ := h
    refine Or.inl ⟨p, hp, rfl, ?_⟩
    rw [getInterfaceName, ifIndextoname_eq hp]
  · have hnone : ∀ p ∈ s.physical, p.index ≠ i := fun p hp hi => h ⟨p, hp, hi⟩
    refine Or.inr ⟨hnone, ?_⟩
    have hfind : s.physical.find? (fun q => q.index = i) = none := by
      rw [List.find?_eq_none]
      intro p hp hi
      exact hnone p hp (of_decide_eq_true hi)
    rw [getInterfaceName, ifIndextoname, hfind]
    rfl

/-- Indexes up to their number are all numbers up to it. -/
theorem exists_index (h : ∀ p ∈ s.physical, p.index ≤ s.physical.length) (hi : 1 ≤ i) (hi' : i ≤ s.physical.length) :
    ∃ p ∈ s.physical, p.index = i := by
  have hsubset : (s.physical.map Physical.index).toFinset ⊆ Finset.Icc 1 s.physical.length := by
    intro k hk
    obtain ⟨p, hp, rfl⟩ := List.mem_map.mp (List.mem_toFinset.mp hk)
    exact Finset.mem_Icc.mpr ⟨s.positive p hp, h p hp⟩
  have hcard : (Finset.Icc 1 s.physical.length).card ≤ (s.physical.map Physical.index).toFinset.card := by
    rw [List.toFinset_card_of_nodup s.indexes, List.length_map, Nat.card_Icc]
    omega
  have hmem : i ∈ (s.physical.map Physical.index).toFinset := by
    rw [Finset.eq_of_subset_of_card_le hsubset hcard]
    exact Finset.mem_Icc.mpr ⟨hi, hi'⟩
  exact List.mem_map.mp (List.mem_toFinset.mp hmem)

/-- The virtual interfaces are returned in order. -/
def VirtualsInOrder (s : System) : Prop := ∀ k, 1 ≤ k → k ≤ s.virtualNames.length →
  getVirtualInterfaceName s.physical s.addresses k = s.virtualNames[k - 1]?

/-- Behind the physical interfaces come the virtual ones, where the kernel's indexes leave them room. -/
theorem getInterfaceName_behind (h : s.VirtualsInOrder) (hnone : ∀ p ∈ s.physical, p.index ≠ i)
    (hlo : s.physical.length < i) (hhi : i ≤ s.physical.length + s.virtualNames.length) :
    getInterfaceName s.physical s.addresses i = s.virtualNames[i - s.physical.length - 1]? := by
  rcases getInterfaceName_cases s i with ⟨p, hp, hindex, -⟩ | ⟨-, hi⟩
  · exact absurd hindex (hnone p hp)
  · rw [hi, if_pos hlo]
    exact h _ (by omega) (by omega)

/-- The number of a physical name is its index. -/
theorem index_of_physical (h : s.VirtualsInOrder) (hi : i ≤ s.physical.length + s.virtualNames.length) (hp : p ∈ s.physical)
    (hname : getInterfaceName s.physical s.addresses i = some p.name) : p.index = i := by
  have hphysical : p.name ∈ s.physicalNames := List.mem_map_of_mem hp
  rcases getInterfaceName_cases s i with ⟨q, hq, hindex, hq'⟩ | ⟨hnone, hi'⟩
  · rw [hq', Option.some.injEq] at hname
    rw [← hindex, List.inj_on_of_nodup_map s.names hq hp hname]
  · by_cases hlo : s.physical.length < i
    · rw [getInterfaceName_behind h hnone hlo hi] at hname
      exact absurd hphysical (not_physical_of_virtual (List.mem_of_getElem? hname))
    · rw [hi', if_neg hlo] at hname
      cases hname

/-- The number of a virtual name is its place behind the physical interfaces. -/
theorem place_of_virtual (h : s.VirtualsInOrder) (hi : i ≤ s.physical.length + s.virtualNames.length)
    (hv : v < s.virtualNames.length) (hname : getInterfaceName s.physical s.addresses i = s.virtualNames[v]?) :
    (∀ p ∈ s.physical, p.index ≠ i) ∧ i = s.physical.length + v + 1 := by
  have hget : s.virtualNames[v]? = some s.virtualNames[v] := List.getElem?_eq_getElem hv
  rcases getInterfaceName_cases s i with ⟨q, hq, -, hq'⟩ | ⟨hnone, hi'⟩
  · rw [hq', hget, Option.some.injEq] at hname
    have hphysical : q.name ∈ s.physicalNames := List.mem_map_of_mem hq
    rw [hname] at hphysical
    exact absurd hphysical (not_physical_of_virtual (List.getElem_mem hv))
  · by_cases hlo : s.physical.length < i
    · rw [getInterfaceName_behind h hnone hlo hi] at hname
      have hlt : i - s.physical.length - 1 < s.virtualNames.length := by omega
      have hsame := (List.getElem?_inj hlt s.once).mp hname
      exact ⟨hnone, by omega⟩
    · rw [hi', if_neg hlo, hget] at hname
      cases hname

/-- Where the interfaces are numbered one to one, no index of the kernel leaves their number. -/
theorem index_le_of_enumerates (h : s.VirtualsInOrder) (henum : Enumerates s (s.physical.length + s.virtualNames.length))
    (hp : p ∈ s.physical) : p.index ≤ s.physical.length := by
  by_contra hlarge
  by_cases hin : p.index ≤ s.physical.length + s.virtualNames.length
  · -- the virtual interface whose place is taken has no number
    have hv : p.index - s.physical.length - 1 < s.virtualNames.length := by omega
    obtain ⟨i, -, hi, hname⟩ := henum.onto _ (Or.inr (List.getElem_mem hv))
    obtain ⟨hnone, hplace⟩ := place_of_virtual h hi hv (hname.trans (List.getElem?_eq_getElem hv).symm)
    exact hnone p hp (by omega)
  · -- the physical interface has no number
    obtain ⟨i, -, hi, hname⟩ := henum.onto p.name (Or.inl (List.mem_map_of_mem hp))
    have hindex := index_of_physical h hi hp hname
    omega

/-- With such indexes the numbers up to that of the physical interfaces are theirs. -/
theorem getInterfaceName_front (h : ∀ p ∈ s.physical, p.index ≤ s.physical.length) (hlo : 1 ≤ i)
    (hhi : i ≤ s.physical.length) :
    ∃ p ∈ s.physical, p.index = i ∧ getInterfaceName s.physical s.addresses i = some p.name := by
  obtain ⟨p, hp, rfl⟩ := exists_index h hlo hhi
  exact ⟨p, hp, rfl, by rw [getInterfaceName, ifIndextoname_eq hp]⟩

/-- **When the virtual interfaces are returned in order, all interfaces are numbered one to one exactly when** no index of
the kernel is larger than the number of physical interfaces. -/
theorem enumerates_iff (h : s.VirtualsInOrder) :
    Enumerates s (s.physical.length + s.virtualNames.length) ↔ ∀ p ∈ s.physical, p.index ≤ s.physical.length := by
  constructor
  · exact fun henum p hp => index_le_of_enumerates h henum hp
  · intro hindexes
    have hnone : ∀ i, s.physical.length < i → ∀ p ∈ s.physical, p.index ≠ i := by
      intro i hlo p hp hindex
      have := hindexes p hp
      omega
    refine ⟨fun i hlo hhi => ?_, fun i j hi hi' hj hj' heq => ?_, fun name hname => ?_⟩
    · by_cases hsmall : i ≤ s.physical.length
      · obtain ⟨p, hp, -, hi⟩ := getInterfaceName_front hindexes hlo hsmall
        exact ⟨p.name, hi, Or.inl (List.mem_map_of_mem hp)⟩
      · have hv : i - s.physical.length - 1 < s.virtualNames.length := by omega
        refine ⟨s.virtualNames[i - s.physical.length - 1], ?_, Or.inr (List.getElem_mem hv)⟩
        rw [getInterfaceName_behind h (hnone i (by omega)) (by omega) hhi]
        exact List.getElem?_eq_getElem hv
    · by_cases hsmall : i ≤ s.physical.length
      · obtain ⟨p, hp, hindex, hi⟩ := getInterfaceName_front hindexes hi hsmall
        rw [hi] at heq
        rw [← hindex]
        exact index_of_physical h hj' hp heq.symm
      · have hv : i - s.physical.length - 1 < s.virtualNames.length := by omega
        rw [getInterfaceName_behind h (hnone i (by omega)) (by omega) hi'] at heq
        have := (place_of_virtual h hj' hv heq.symm).2
        omega
    · rcases hname with hname | hname
      · obtain ⟨p, hp, rfl⟩ := List.mem_map.mp hname
        have hindex := hindexes p hp
        refine ⟨p.index, s.positive p hp, by omega, ?_⟩
        rw [getInterfaceName, ifIndextoname_eq hp]
      · obtain ⟨v, hv, rfl⟩ := List.mem_iff_getElem.mp hname
        refine ⟨s.physical.length + v + 1, by omega, by omega, ?_⟩
        rw [getInterfaceName_behind h (hnone _ (by omega)) (by omega) (by omega),
          show s.physical.length + v + 1 - s.physical.length - 1 = v by omega]
        exact List.getElem?_eq_getElem hv

end

end System

/-! ## The claim of the four functions -/

/-- The interfaces can be counted, the virtual ones are returned once each in order, and all are numbered one to one. -/
def Numbering (s : System) : Prop :=
  ∃ v n, getVirtualInterfaceNumberOfEntries s.physical s.addresses = .ok v ∧
    getInterfaceNumberOfEntries s.physical s.addresses = .ok n ∧
    (List.range' 1 v).map (getVirtualInterfaceName s.physical s.addresses) = s.virtualNames.map some ∧ s.Enumerates n

/-- When that is so: every interface has an address; the numbers of the virtual interfaces are no negative `int`; no other
physical name begins with that of a virtual interface, except of the last; the kernel's indexes have no gap. -/
structure Regular (s : System) : Prop where
  addressed : ∀ a ∈ s.addresses, a.family ≠ none
  numbers : ∀ name ∈ s.virtualNames, isNumber (numberOf name) = true
  separate : ∀ name ∈ s.virtualNames.dropLast, ∀ p ∈ s.physical, physicalOf name <+: p.name → p.name = physicalOf name
  indexes : ∀ p ∈ s.physical, p.index ≤ s.physical.length

section
variable {s : System}

theorem counts_eq (h : ∀ a ∈ s.addresses, a.family ≠ none) :
    getVirtualInterfaceNumberOfEntries s.physical s.addresses = .ok s.found.length ∧
      getInterfaceNumberOfEntries s.physical s.addresses = .ok (s.physical.length + s.found.length) := by
  have hcount : getVirtualInterfaceNumberOfEntries s.physical s.addresses = .ok s.found.length := by
    rw [getVirtualInterfaceNumberOfEntries_eq h, ← s.hitAddresses_names, List.length_map]
  refine ⟨hcount, ?_⟩
  rw [getInterfaceNumberOfEntries, hcount]
  rfl

/-- What is returned in order, read at each place. -/
theorem inOrder_of_map
    (h : (List.range' 1 s.found.length).map (getVirtualInterfaceName s.physical s.addresses) = s.virtualNames.map some) :
    s.found.length = s.virtualNames.length ∧ s.VirtualsInOrder := by
  have hlen := congrArg List.length h
  rw [List.length_map, List.length_map, List.length_range'] at hlen
  refine ⟨hlen, fun k hk hk' => ?_⟩
  have hget := congrArg (fun l => l[k - 1]?) h
  simp only [List.getElem?_map] at hget
  rw [List.getElem?_range' (by omega), show 1 + 1 * (k - 1) = k by omega] at hget
  rw [List.getElem?_eq_getElem (show k - 1 < s.virtualNames.length by omega)] at hget ⊢
  exact Option.some.inj hget

/-- **The numbering is one to one exactly for regular systems.** -/
theorem numbering_iff (s : System) : Numbering s ↔ Regular s := by
  by_cases haddressed : ∀ a ∈ s.addresses, a.family ≠ none
  · obtain ⟨hvirtuals, hall⟩ := counts_eq haddressed
    constructor
    · rintro ⟨v, n, hv, hn, hmap, henum⟩
      rw [hvirtuals, Except.ok.injEq] at hv
      rw [hall, Except.ok.injEq] at hn
      subst hv
      subst hn
      obtain ⟨hnumbers, hseparate⟩ := s.virtual_iff.mp hmap
      obtain ⟨hlen, horder⟩ := inOrder_of_map hmap
      rw [hlen] at henum
      exact ⟨haddressed, hnumbers, hseparate, (System.enumerates_iff horder).mp henum⟩
    · rintro ⟨-, hnumbers, hseparate, hindexes⟩
      have hmap := s.virtual_iff.mpr ⟨hnumbers, hseparate⟩
      obtain ⟨hlen, horder⟩ := inOrder_of_map hmap
      refine ⟨_, _, hvirtuals, hall, hmap, ?_⟩
      rw [hlen]
      exact (System.enumerates_iff horder).mpr hindexes
  · constructor
    · rintro ⟨v, n, hv, -⟩
      push Not at haddressed
      obtain ⟨a, ha, hnull⟩ := haddressed
      rw [getVirtualInterfaceNumberOfEntries_null ha hnull] at hv
      cases hv
    · exact fun h => absurd h.addressed haddressed

end

/-! ## Systems that are not regular -/

/-- An interface has been removed: `eth1` has the index 3. -/
def gapSystem : System where
  physical := [⟨"lo".toList, 1⟩, ⟨"eth1".toList, 3⟩]
  addresses := [⟨"lo".toList, some .inet⟩, ⟨"eth1".toList, some .inet⟩]
  names := by decide
  indexes := by decide
  positive := by decide
  plain := by decide
  known a ha := by
    rw [List.mem_cons, List.mem_singleton] at ha
    rcases ha with rfl | rfl
    · exact Or.inl ⟨_, List.mem_cons_self, rfl⟩
    · exact Or.inl ⟨_, List.mem_cons_of_mem _ List.mem_cons_self, rfl⟩
  once := by decide
  fits := by decide

/-- `eth1` with two virtual interfaces beside `eth10`. -/
def prefixSystem : System where
  physical := [⟨"eth1".toList, 1⟩, ⟨"eth10".toList, 2⟩]
  addresses := [⟨"eth1:0".toList, some .inet⟩, ⟨"eth1:1".toList, some .inet⟩]
  names := by decide
  indexes := by decide
  positive := by decide
  plain := by decide
  known a ha := by
    rw [List.mem_cons, List.mem_singleton] at ha
    rcases ha with rfl | rfl
    · exact Or.inr ⟨rfl, _, List.mem_cons_self, ['0'], by decide, rfl⟩
    · exact Or.inr ⟨rfl, _, List.mem_cons_self, ['1'], by decide, rfl⟩
  once := by decide
  fits := by decide

/-- Of two interfaces the second has no name, and the second virtual interface is the first once more. -/
theorem numbers_miss_interfaces :
    (getInterfaceName gapSystem.physical gapSystem.addresses 2 = none ∧ ¬Numbering gapSystem) ∧
      getVirtualInterfaceName prefixSystem.physical prefixSystem.addresses 2 = some "eth1:0".toList ∧
        ¬Numbering prefixSystem := by
  have hgap : getInterfaceName gapSystem.physical gapSystem.addresses 2 = none := by decide +kernel
  have hprefix : getVirtualInterfaceName prefixSystem.physical prefixSystem.addresses 2 = some "eth1:0".toList := by
    decide +kernel
  refine ⟨⟨hgap, ?_⟩, hprefix, ?_⟩
  · rintro ⟨v, n, -, hn, -, henum⟩
    have htwo : getInterfaceNumberOfEntries gapSystem.physical gapSystem.addresses = .ok 2 := by rfl
    rw [htwo, Except.ok.injEq] at hn
    obtain ⟨name, hname, -⟩ := henum.total 2 (by decide) (by omega)
    rw [hgap] at hname
    cases hname
  · rintro ⟨v, n, hv, -, hmap, -⟩
    have htwo : getVirtualInterfaceNumberOfEntries prefixSystem.physical prefixSystem.addresses = .ok 2 := by rfl
    rw [htwo, Except.ok.injEq] at hv
    subst hv
    revert hmap
    decide +kernel

end Tr69HostIf.IP
