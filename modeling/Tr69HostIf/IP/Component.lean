import Tr69HostIf.Clib.Scanf
import Tr69HostIf.IP.Dispatch

/-!
# The instance number in a name

Which names `matchComponent` of `hostIf_utils.cpp` takes for instances of a component, and with which numbers.

* `Field p k seg rest` : the name `p` is the key, a field `seg` that the copy can hold and a setting,
  `Field.unique`, `matchComponent_eq_some_iff`;
* `Instance p k i rest` : the field is a plain number;
* `decodes_iff` : the numbers are exact unless a field starts with a positive number and goes on with something else, or
  has blanks or a plus in front of it.
-/

namespace Tr69HostIf.IP
open Store Clib

/-- The name is the key up to case, a field of less than `MAX_NUM_LEN` characters and a setting. -/
def Field (p k seg rest : Text) : Prop :=
  (∃ k', p = k' ++ '.' :: (seg ++ '.' :: rest) ∧ strcasecmp k' k = true) ∧ '.' ∉ seg ∧ seg.length < maxNumLen

/-- The name is the key up to case, one to nine digits that denote `i`, and the setting. -/
def Instance (p k : Text) (i : Int) (rest : Text) : Prop :=
  ∃ k' d, p = k' ++ '.' :: (d ++ '.' :: rest) ∧ strcasecmp k' k = true ∧ Digits d ∧ d.length ≤ 9 ∧ (natOf d : Int) = i

section
variable {p k k' seg seg' rest rest' d : Text} {i : Int}

theorem length_of_strcasecmp (h : strcasecmp k' k = true) : k'.length = k.length := by
  rw [strcasecmp, beq_iff_eq] at h
  have hlen := congrArg List.length h
  rwa [List.length_map, List.length_map] at hlen

/-- A name has one field behind a key. -/
theorem Field.unique (h : Field p k seg rest) (h' : Field p k seg' rest') : seg = seg' ∧ rest = rest' := by
  obtain ⟨⟨k₁, hp, hk⟩, hdot, -⟩ := h
  obtain ⟨⟨k₂, hp', hk'⟩, hdot', -⟩ := h'
  rw [hp] at hp'
  have hlen : k₁.length = k₂.length := (length_of_strcasecmp hk).trans (length_of_strcasecmp hk').symm
  have hrest := (List.cons.inj (List.append_inj hp' hlen).2).2
  exact cut_unique hdot hdot' hrest

theorem Field.matchComponent_eq (h : Field p k seg rest) : matchComponent p k = some ((strtol seg).1, rest) := by
  obtain ⟨⟨k', rfl, hk⟩, hdot, hlen⟩ := h
  have hkey := length_of_strcasecmp hk
  have hstarts : startsWith (k' ++ '.' :: (seg ++ '.' :: rest)) k = true := by
    rw [startsWith, ← hkey, List.take_left]
    exact hk
  have hdrop : (k' ++ '.' :: (seg ++ '.' :: rest)).drop k.length = '.' :: (seg ++ '.' :: rest) := by
    rw [← hkey, List.drop_left]
  have hshort : seg.length < (seg ++ '.' :: rest).length := by
    rw [List.length_append, List.length_cons]
    omega
  have hset : (seg ++ '.' :: rest).drop (seg.length + 1) = rest := by
    rw [List.drop_length_add_append]
    rfl
  rw [matchComponent, if_pos hstarts, hdrop]
  simp only [takeWhile_ne hdot, hset]
  exact if_pos ⟨hshort, hlen⟩

/-- What `matchComponent` makes of a name. -/
theorem matchComponent_eq_some_iff :
    matchComponent p k = some (i, rest) ↔ ∃ seg, Field p k seg rest ∧ i = (strtol seg).1 := by
  constructor
  · intro h
    rw [matchComponent] at h
    split at h
    · next hstarts =>
      split at h
      · next r hdrop =>
        simp only at h
        split at h
        · next hbounds =>
          rw [Option.some.injEq, Prod.mk.injEq] at h
          obtain ⟨rfl, rfl⟩ := h
          -- the field ends before the text does, so it ends at a dot
          obtain ⟨y, hr, hdot⟩ := exists_cut hbounds.1
          have hset : r.drop ((r.takeWhile fun c => c ≠ '.').length + 1) = y := by
            refine (congrArg (List.drop _) hr).trans ?_
            rw [List.drop_length_add_append]
            rfl
          refine ⟨r.takeWhile fun c => c ≠ '.', ⟨⟨p.take k.length, ?_, hstarts⟩, hdot, hbounds.2⟩, rfl⟩
          rw [hset, ← hr, ← hdrop, List.take_append_drop]
        · cases h
      · cases h
    · cases h
  · rintro ⟨seg, hfield, rfl⟩
    exact hfield.matchComponent_eq

/-- A number of nine digits is read as it is. -/
theorem strtol_short (h : Digits d) (hlen : d.length ≤ 9) : (strtol d).1 = natOf d := by
  have hlt := (natOf_lt h.2).trans_le (Nat.pow_le_pow_right (show 0 < 10 by decide) hlen)
  rw [strtol_digits h]
  omega

theorem Instance.field (h : Instance p k i rest) : ∃ d, Field p k d rest ∧ Digits d ∧ i = (strtol d).1 := by
  obtain ⟨k', d, hp, hk, hd, hlen, rfl⟩ := h
  exact ⟨d, ⟨⟨k', hp, hk⟩, hd.not_mem rfl, Nat.lt_succ_of_le hlen⟩, hd, (strtol_short hd hlen).symm⟩

theorem Field.instance (h : Field p k d rest) (hd : Digits d) : Instance p k (strtol d).1 rest := by
  obtain ⟨⟨k', hp, hk⟩, -, hlen⟩ := h
  exact ⟨k', d, hp, hk, hd, Nat.le_of_lt_succ hlen, (strtol_short hd (Nat.le_of_lt_succ hlen)).symm⟩

end

/-- A positive number is decoded exactly where the name has it in digits only. -/
def Decodes (p k : Text) : Prop :=
  ∀ i rest, 0 < i → (matchComponent p k = some (i, rest) ↔ Instance p k i rest)

theorem Decodes.digits {p k seg rest : Text} (h : Decodes p k) (hfield : Field p k seg rest)
    (hpos : 0 < (strtol seg).1) : Digits seg := by
  obtain ⟨d, hfield', hd, -⟩ := ((h _ rest hpos).mp hfield.matchComponent_eq).field
  rw [(hfield.unique hfield').1]
  exact hd

/-- **Instance numbers are decoded exactly unless** a field starts like a positive number and is not all digits. -/
theorem decodes_iff (p k : Text) :
    Decodes p k ↔ ∀ seg rest, Field p k seg rest → StartsPositive seg → Digits seg := by
  constructor
  · intro hdecodes seg rest hfield hpos
    exact hdecodes.digits hfield (strtol_pos_iff.mpr hpos)
  · intro hdigits i rest hpos
    rw [matchComponent_eq_some_iff]
    constructor
    · rintro ⟨seg, hfield, rfl⟩
      exact hfield.instance (hdigits seg rest hfield (strtol_pos_iff.mp hpos))
    · intro hinstance
      obtain ⟨d, hfield, -, rfl⟩ := hinstance.field
      exact ⟨d, hfield, rfl⟩

/-- `1x`, `+1` and a blank with `1` are all taken for the first interface. -/
theorem lenient_fields :
    ¬Decodes "Device.IP.Interface.1x.Enable".toList interfaceKey ∧
      ¬Decodes "Device.IP.Interface.+1.Enable".toList interfaceKey ∧
      ¬Decodes "Device.IP.Interface. 1.Enable".toList interfaceKey := by
  refine ⟨fun h => ?_, fun h => ?_, fun h => ?_⟩
  · have hfield : Field "Device.IP.Interface.1x.Enable".toList interfaceKey "1x".toList "Enable".toList :=
      ⟨⟨interfaceKey, by decide +kernel, by decide +kernel⟩, by decide +kernel, by decide +kernel⟩
    exact absurd (h.digits hfield (by decide +kernel)) (by decide +kernel)
  · have hfield : Field "Device.IP.Interface.+1.Enable".toList interfaceKey "+1".toList "Enable".toList :=
      ⟨⟨interfaceKey, by decide +kernel, by decide +kernel⟩, by decide +kernel, by decide +kernel⟩
    exact absurd (h.digits hfield (by decide +kernel)) (by decide +kernel)
  · have hfield : Field "Device.IP.Interface. 1.Enable".toList interfaceKey " 1".toList "Enable".toList :=
      ⟨⟨interfaceKey, by decide +kernel, by decide +kernel⟩, by decide +kernel, by decide +kernel⟩
    exact absurd (h.digits hfield (by decide +kernel)) (by decide +kernel)

end Tr69HostIf.IP
