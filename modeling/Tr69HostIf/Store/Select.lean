import Mathlib.Data.List.Basic

/-!
# Selections from a list

* `filter_map_eq_iff` : a selection and a part of it show the same exactly when they are the same;
* `zipIdx_filter_fst` : a selection that does not look at the positions;
* `append_eq_append_of_not_mem` : two lists that end in the same elements, which stand nowhere else;
* `filter_length_one_iff` : a selection of one element;
* `map_getElem_range'` : the positions read one after the other;
* `countTo k l n` : the element of `l` a counter that starts at `n` has reached when it is `k`;
* `length_le_repeated`, `take_repeated_iff` : when the beginning of a list with repetitions is the list itself.
-/

namespace Tr69HostIf.Store

section
variable {α β : Type*} {p q : α → Bool} {l : List α}

theorem filter_map_eq_iff (f : α → β) (h : ∀ x ∈ l, p x = true → q x = true) :
    (l.filter p).map f = (l.filter q).map f ↔ ∀ x ∈ l, q x = true → p x = true := by
  have hboth : (l.filter q).filter p = l.filter p := by
    rw [List.filter_filter]
    apply List.filter_congr
    intro x hx
    cases hp : p x with
    | false => rfl
    | true => rw [h x hx hp]; rfl
  constructor
  · intro heq x hx hq
    have hlen := congrArg List.length heq
    rw [List.length_map, List.length_map, ← hboth, List.length_filter_eq_length_iff] at hlen
    exact hlen x (List.mem_filter.mpr ⟨hx, hq⟩)
  · intro hall
    have hsame : l.filter p = l.filter q := by
      apply List.filter_congr
      intro x hx
      rw [Bool.eq_iff_iff]
      exact ⟨h x hx, hall x hx⟩
    rw [hsame]

theorem zipIdx_filter_fst (p : α → Bool) (l : List α) (n : Nat) :
    ((l.zipIdx n).filter fun x => p x.1).map Prod.fst = l.filter p := by
  have h := List.filter_map (f := Prod.fst) (p := p) (l := l.zipIdx n)
  rw [List.zipIdx_map_fst] at h
  exact h.symm

/-- The elements of the end do not stand in front of it. -/
theorem append_eq_append_of_not_mem {a a' t t' : List α} (ha : ∀ x ∈ a, x ∉ t) (ha' : ∀ x ∈ a', x ∉ t)
    (ht : ∀ x ∈ t', x ∈ t) (h : a ++ t' = a' ++ t) : a = a' ∧ t' = t := by
  classical
  have hnone : ∀ b : List α, (∀ x ∈ b, x ∉ t) → b.filter (fun x => decide (x ∈ t)) = [] := by
    intro b hb
    rw [List.filter_eq_nil_iff]
    intro x hx hmem
    exact hb x hx (of_decide_eq_true hmem)
  have hall : ∀ b : List α, (∀ x ∈ b, x ∈ t) → b.filter (fun x => decide (x ∈ t)) = b := by
    intro b hb
    rw [List.filter_eq_self]
    exact fun x hx => decide_eq_true (hb x hx)
  have htail : t' = t := by
    have hfilter := congrArg (List.filter fun x => decide (x ∈ t)) h
    rw [List.filter_append, List.filter_append, hnone a ha, hnone a' ha', hall t' ht, hall t fun x hx => hx] at hfilter
    exact hfilter
  subst htail
  exact ⟨List.append_cancel_right h, rfl⟩

theorem filter_length_one_iff (hl : l.Nodup) {x : α} (hx : x ∈ l) (hp : p x = true) :
    (l.filter p).length = 1 ↔ ∀ y ∈ l, p y = true → y = x := by
  have hmem : x ∈ l.filter p := List.mem_filter.mpr ⟨hx, hp⟩
  constructor
  · intro h y hy hpy
    obtain ⟨z, hz⟩ := List.length_eq_one_iff.mp h
    have hmem' : y ∈ l.filter p := List.mem_filter.mpr ⟨hy, hpy⟩
    rw [hz, List.mem_singleton] at hmem hmem'
    rw [hmem', hmem]
  · intro h
    have hall : ∀ y ∈ l.filter p, y = x := fun y hy => h y (List.mem_filter.mp hy).1 (List.mem_filter.mp hy).2
    have hsame : l.filter p = List.replicate (l.filter p).length x := List.eq_replicate_iff.mpr ⟨rfl, hall⟩
    have hnodup : (l.filter p).Nodup := hl.filter p
    rw [hsame, List.nodup_replicate] at hnodup
    have hpos := List.length_pos_of_mem hmem
    omega

theorem map_getElem_range' {n : Nat} (h : n ≤ l.length) :
    (List.range' 1 n).map (fun k => l[k - 1]?) = (l.take n).map some := by
  apply List.ext_getElem
  · rw [List.length_map, List.length_map, List.length_range', List.length_take, Nat.min_eq_left h]
  · intro i hi _
    rw [List.length_map, List.length_range'] at hi
    have hindex : 1 + 1 * i - 1 = i := by omega
    rw [List.getElem_map, List.getElem_map, List.getElem_range', List.getElem_take, hindex]
    exact List.getElem?_eq_getElem (by omega)

/-- A loop that counts the elements from `n` on and stops at the one numbered `k`: the element, or the count
behind the last. -/
def countTo (k : Nat) : List α → Nat → Except α Nat
  | [], n => .ok n
  | x :: l, n => if k = n then .error x else countTo k l (n + 1)

theorem countTo_append (k : Nat) (l l' : List α) (n : Nat) :
    countTo k (l ++ l') n =
      match countTo k l n with
      | .ok n => countTo k l' n
      | .error x => .error x := by
  induction l generalizing n with
  | nil => rfl
  | cons x l ih =>
      rw [List.cons_append, countTo, countTo]
      by_cases h : k = n
      · simp [h]
      · simp [h, ih]

theorem countTo_eq (k : Nat) (l : List α) (n : Nat) :
    countTo k l n =
      match if n ≤ k then l[k - n]? else none with
      | some x => .error x
      | none => .ok (n + l.length) := by
  induction l generalizing n with
  | nil => simp [countTo]
  | cons x l ih =>
      rw [countTo]
      by_cases h : k = n
      · simp [h]
      · rw [if_neg h, ih (n + 1), List.length_cons, show n + 1 + l.length = n + (l.length + 1) by omega]
        by_cases hle : n ≤ k
        · rw [if_pos hle, if_pos (by omega), show k - n = k - (n + 1) + 1 by omega, List.getElem?_cons_succ]
        · rw [if_neg hle, if_neg (by omega)]

theorem length_le_repeated {m : α → Nat} (hm : ∀ x ∈ l, 0 < m x) :
    l.length ≤ (l.flatMap fun x => List.replicate (m x) x).length := by
  induction l with
  | nil => exact Nat.le_refl 0
  | cons x l ih =>
      rw [List.forall_mem_cons] at hm
      rw [List.flatMap_cons, List.length_append, List.length_replicate, List.length_cons]
      have := ih hm.2
      omega

/-- Of a list without duplicates whose elements are repeated, the beginning is the list itself when nothing but the last
element is repeated. -/
theorem take_repeated_iff {l : List α} (hl : l.Nodup) {m : α → Nat} (hm : ∀ x ∈ l, 0 < m x) :
    (l.flatMap fun x => List.replicate (m x) x).take l.length = l ↔ ∀ x ∈ l.dropLast, m x = 1 := by
  induction l with
  | nil => simp
  | cons x l ih =>
      rw [List.nodup_cons] at hl
      rw [List.forall_mem_cons] at hm
      obtain ⟨k, hk⟩ := Nat.exists_eq_succ_of_ne_zero (Nat.ne_of_gt hm.1)
      have hhead : ((x :: l).flatMap fun x => List.replicate (m x) x).take (x :: l).length =
          x :: (List.replicate k x ++ l.flatMap fun x => List.replicate (m x) x).take l.length := by
        rw [List.flatMap_cons, hk, List.replicate_succ, List.cons_append, List.length_cons, List.take_succ_cons]
      rw [hhead, List.cons.injEq]
      cases l with
      | nil => simp
      | cons y l =>
          rw [List.dropLast_cons_of_ne_nil (List.cons_ne_nil y l), List.forall_mem_cons, ← ih hl.2 hm.2, hk]
          cases k with
          | zero => simp
          | succ k =>
              -- the second element is the first once more
              have hne : y ≠ x := fun h => hl.1 (h ▸ List.mem_cons_self)
              constructor
              · rintro ⟨-, h⟩
                rw [List.replicate_succ, List.cons_append, List.length_cons, List.take_succ_cons, List.cons.injEq] at h
                exact absurd h.1.symm hne
              · rintro ⟨h, -⟩
                omega

end

end Tr69HostIf.Store
