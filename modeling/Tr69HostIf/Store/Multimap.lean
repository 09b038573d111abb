import Mathlib.Data.List.Nodup

/-!
# Maps with equal keys

A `std::multimap` as the list of its pairs in the order of insertion: `find` gives the first pair with the key, and
iterating goes by increasing key, pairs with equal keys in the order of insertion.

* `keys l`, `modifyAt k f l` : the keys, and the first pair with the key changed in place;
* `keys_modifyAt` : what a change leaves, `exists_mem_modifyAt`, `exists_modified` : what is there after it;
* `modifyAt_append_left`, `modifyAt_append_right` : where it happens in a list of two parts;
* `modifyAt_eq_map` : with distinct keys it is a map over the list;
* `inOrder` : the iteration order, `perm_inOrder`.
-/

namespace Tr69HostIf.Store

section
variable {κ β : Type*}

/-- The keys. -/
def keys (l : List (κ × β)) : List κ := l.map Prod.fst

@[simp] theorem keys_nil : keys ([] : List (κ × β)) = [] := rfl

@[simp] theorem keys_cons (p : κ × β) (l : List (κ × β)) : keys (p :: l) = p.1 :: keys l := rfl

@[simp] theorem keys_append (l l' : List (κ × β)) : keys (l ++ l') = keys l ++ keys l' := List.map_append

theorem mem_keys_of_mem {p : κ × β} {l : List (κ × β)} (h : p ∈ l) : p.1 ∈ keys l := List.mem_map_of_mem h

theorem exists_of_mem_keys {k : κ} {l : List (κ × β)} (h : k ∈ keys l) : ∃ b, (k, b) ∈ l := by
  obtain ⟨⟨a, b⟩, hp, rfl⟩ := List.mem_map.mp h
  exact ⟨b, hp⟩

/-- The iteration order. -/
def inOrder (le : κ → κ → Bool) (l : List (κ × β)) : List (κ × β) := l.mergeSort fun p q => le p.1 q.1

theorem perm_inOrder (le : κ → κ → Bool) (l : List (κ × β)) : (inOrder le l).Perm l := List.mergeSort_perm l _

variable [DecidableEq κ]

/-- The first pair with the key `k`, changed by `f`. -/
def modifyAt (k : κ) (f : β → β) : List (κ × β) → List (κ × β)
  | [] => []
  | p :: l => if p.1 = k then (p.1, f p.2) :: l else p :: modifyAt k f l

section
variable {k : κ} {f : β → β} {l l' : List (κ × β)}

@[simp] theorem keys_modifyAt : keys (modifyAt k f l) = keys l := by
  induction l with
  | nil => rfl
  | cons p l ih =>
      rw [modifyAt]
      split
      · rfl
      · rw [keys_cons, keys_cons, ih]

/-- A pair is still there, changed or not. -/
theorem exists_mem_modifyAt {p : κ × β} (h : p ∈ l) : ∃ q ∈ modifyAt k f l, q.1 = p.1 ∧ (q.2 = p.2 ∨ q.2 = f p.2) := by
  induction l with
  | nil => cases h
  | cons r l ih =>
      rw [modifyAt]
      split
      · rcases List.mem_cons.mp h with rfl | h
        · exact ⟨_, List.mem_cons_self, rfl, Or.inr rfl⟩
        · exact ⟨p, List.mem_cons_of_mem _ h, rfl, Or.inl rfl⟩
      · rcases List.mem_cons.mp h with rfl | h
        · exact ⟨p, List.mem_cons_self, rfl, Or.inl rfl⟩
        · obtain ⟨q, hq, hqp⟩ := ih h
          exact ⟨q, List.mem_cons_of_mem _ hq, hqp⟩

/-- The key has a changed pair. -/
theorem exists_modified (h : k ∈ keys l) : ∃ b, (k, f b) ∈ modifyAt k f l := by
  induction l with
  | nil => cases h
  | cons r l ih =>
      rw [modifyAt]
      split
      · next hr =>
        refine ⟨r.2, ?_⟩
        rw [hr]
        exact List.mem_cons_self
      · next hr =>
        rw [keys_cons, List.mem_cons] at h
        obtain ⟨b, hb⟩ := ih (h.resolve_left fun he => hr he.symm)
        exact ⟨b, List.mem_cons_of_mem _ hb⟩

theorem modifyAt_append_left (h : k ∈ keys l) : modifyAt k f (l ++ l') = modifyAt k f l ++ l' := by
  induction l with
  | nil => cases h
  | cons p l ih =>
      rw [List.cons_append, modifyAt, modifyAt]
      split
      · rfl
      · next hp =>
        rw [keys_cons, List.mem_cons] at h
        rw [ih (h.resolve_left fun he => hp he.symm), List.cons_append]

theorem modifyAt_append_right (h : k ∉ keys l) : modifyAt k f (l ++ l') = l ++ modifyAt k f l' := by
  induction l with
  | nil => rfl
  | cons p l ih =>
      rw [keys_cons, List.mem_cons, not_or] at h
      rw [List.cons_append, modifyAt, if_neg fun he => h.1 he.symm, ih h.2, List.cons_append]

theorem modifyAt_eq_map (h : (keys l).Nodup) :
    modifyAt k f l = l.map fun p => if p.1 = k then (p.1, f p.2) else p := by
  induction l with
  | nil => rfl
  | cons p l ih =>
      obtain ⟨hp, hl⟩ := List.nodup_cons.mp h
      rw [modifyAt, List.map_cons]
      by_cases hk : p.1 = k
      · rw [if_pos hk, if_pos hk]
        congr 1
        symm
        refine List.map_congr_left (fun q hq => ?_) |>.trans (List.map_id l)
        rw [if_neg fun he => hp (by rw [hk, ← he]; exact mem_keys_of_mem hq)]
        rfl
      · rw [if_neg hk, if_neg hk, ih hl]

end

end

end Tr69HostIf.Store
