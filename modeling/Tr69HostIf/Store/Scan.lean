import Mathlib.Data.List.TakeWhile

/-!
# Scanning for the first run of a kind of element

* `Free p l` : no element of `l` meets `p`;
* `Split p l x a d y` : `l` is `x`, free of `p`, then the maximal run `a :: d` of elements that meet `p`,
  then `y`; `exists_split` : every list that is not free has one, `Split.unique` : exactly one;
* `cut_unique`, `takeWhile_ne`, `dropWhile_ne` : what stands in front of the first `d`, and the rest;
* `Split.findIdx?`, `Split.length_run`, `Split.take`, `Split.drop`, … : what index arithmetic reads off it;
* `terminate a l` : the pieces `l`, each followed by `a`, `terminate_inj`.
-/

namespace Tr69HostIf.Store

section
variable {α : Type*} {p : α → Bool}

/-- No element meets `p`. -/
def Free (p : α → Bool) (l : List α) : Prop := ∀ c ∈ l, p c = false

instance (l : List α) : Decidable (Free p l) := inferInstanceAs (Decidable (∀ c ∈ l, p c = false))

@[simp] theorem free_nil : Free p [] := fun _ h => by cases h

@[simp] theorem free_cons {a : α} {l : List α} : Free p (a :: l) ↔ p a = false ∧ Free p l := List.forall_mem_cons

@[simp] theorem free_append {l l' : List α} : Free p (l ++ l') ↔ Free p l ∧ Free p l' := List.forall_mem_append

/-- The first element that meets `p` splits a list in one way. -/
theorem first_unique {x x' r r' : List α} {a a' : α} (hx : Free p x) (hx' : Free p x') (ha : p a = true)
    (ha' : p a' = true) (h : x ++ a :: r = x' ++ a' :: r') : x = x' ∧ a = a' ∧ r = r' := by
  induction x generalizing x' with
  | nil =>
      cases x' with
      | nil =>
          rw [List.nil_append, List.nil_append, List.cons.injEq] at h
          exact ⟨rfl, h⟩
      | cons c x' =>
          rw [List.nil_append, List.cons_append, List.cons.injEq] at h
          have hc := (free_cons.mp hx').1
          rw [← h.1, ha] at hc
          cases hc
  | cons b x ih =>
      cases x' with
      | nil =>
          rw [List.nil_append, List.cons_append, List.cons.injEq] at h
          have hb := (free_cons.mp hx).1
          rw [h.1, ha'] at hb
          cases hb
      | cons c x' =>
          rw [List.cons_append, List.cons_append, List.cons.injEq] at h
          obtain ⟨hxx, hr⟩ := ih (free_cons.mp hx).2 (free_cons.mp hx').2 h.2
          exact ⟨by rw [h.1, hxx], hr⟩

/-- The first `d` splits a list in one way. -/
theorem cut_unique [DecidableEq α] {d : α} {x x' r r' : List α} (hx : d ∉ x) (hx' : d ∉ x')
    (h : x ++ d :: r = x' ++ d :: r') : x = x' ∧ r = r' := by
  have hfree : ∀ {l : List α}, d ∉ l → Free (fun c => decide (c = d)) l := fun hl c hc =>
    decide_eq_false fun heq => hl (heq ▸ hc)
  obtain ⟨hxx, -, hr⟩ := first_unique (hfree hx) (hfree hx') (decide_eq_true rfl) (decide_eq_true rfl) h
  exact ⟨hxx, hr⟩

theorem exists_first {l : List α} (h : ¬Free p l) : ∃ x a r, l = x ++ a :: r ∧ Free p x ∧ p a = true := by
  induction l with
  | nil => exact absurd free_nil h
  | cons b l ih =>
      by_cases hb : p b = true
      · exact ⟨[], b, l, rfl, free_nil, hb⟩
      · have hb' : p b = false := by simpa using hb
        obtain ⟨x, a, r, rfl, hx, ha⟩ := ih fun hl => h (free_cons.mpr ⟨hb', hl⟩)
        exact ⟨b :: x, a, r, rfl, free_cons.mpr ⟨hb', hx⟩, ha⟩

theorem findIdx?_first {x : List α} (hx : Free p x) {a : α} (ha : p a = true) (r : List α) :
    (x ++ a :: r).findIdx? p = some x.length := by
  induction x with
  | nil => simp [List.findIdx?_cons, ha]
  | cons b x ih =>
      obtain ⟨hb, hx⟩ := free_cons.mp hx
      simp [List.findIdx?_cons, hb, ih hx]

theorem findIdx?_free {l : List α} (h : Free p l) : l.findIdx? p = none := List.findIdx?_eq_none_iff.mpr h

/-- The first maximal run of elements that meet `p`. -/
structure Split (p : α → Bool) (l x : List α) (a : α) (d y : List α) : Prop where
  eq : l = x ++ a :: (d ++ y)
  free : Free p x
  head : p a = true
  run : ∀ c ∈ d, p c = true
  rest : ∀ c ∈ y.head?, p c = false

theorem exists_split {l : List α} (h : ¬Free p l) : ∃ x a d y, Split p l x a d y := by
  obtain ⟨x, a, r, rfl, hx, ha⟩ := exists_first h
  refine ⟨x, a, r.takeWhile p, r.dropWhile p, ?_, hx, ha, fun c hc => List.mem_takeWhile_imp hc, fun c hc => ?_⟩
  · rw [List.takeWhile_append_dropWhile]
  · have := List.head?_dropWhile_not p r
    rw [Option.mem_def.mp hc] at this
    simpa using this

theorem takeWhile_run {d y : List α} (hd : ∀ c ∈ d, p c = true) (hy : ∀ c ∈ y.head?, p c = false) :
    (d ++ y).takeWhile p = d := by
  induction d with
  | nil =>
      cases y with
      | nil => rfl
      | cons c y => simp [hy c rfl]
  | cons b d ih =>
      rw [List.cons_append, List.takeWhile_cons, if_pos (hd b List.mem_cons_self),
        ih fun c hc => hd c (List.mem_cons_of_mem b hc)]

/-- What stands in front of the first `d`. -/
theorem takeWhile_ne [DecidableEq α] {d : α} {x : List α} (hx : d ∉ x) (y : List α) :
    (x ++ d :: y).takeWhile (fun c => c ≠ d) = x := by
  have hfree : ∀ c ∈ x, decide (c ≠ d) = true := fun c hc => decide_eq_true fun h => hx (h ▸ hc)
  rw [List.takeWhile_append_of_pos hfree, List.takeWhile_cons_of_neg (by simp), List.append_nil]

/-- The first `d` and what stands behind it. -/
theorem dropWhile_ne [DecidableEq α] {d : α} {x : List α} (hx : d ∉ x) (y : List α) :
    (x ++ d :: y).dropWhile (fun c => c ≠ d) = d :: y := by
  have hfree : ∀ c ∈ x, decide (c ≠ d) = true := fun c hc => decide_eq_true fun h => hx (h ▸ hc)
  rw [List.dropWhile_append_of_pos hfree, List.dropWhile_cons_of_neg (by simp)]

/-- What stands in front of the first `d` is shorter than the list only when there is one. -/
theorem exists_cut [DecidableEq α] {d : α} {l : List α} (h : (l.takeWhile fun c => c ≠ d).length < l.length) :
    ∃ y, l = (l.takeWhile fun c => c ≠ d) ++ d :: y ∧ d ∉ l.takeWhile fun c => c ≠ d := by
  have hmem : d ∈ l := by
    by_contra hfree
    have hall : (l.takeWhile fun c => c ≠ d) = l := List.takeWhile_eq_self_iff.mpr fun c hc =>
      decide_eq_true fun heq => hfree (heq ▸ hc)
    rw [hall] at h
    exact Nat.lt_irrefl _ h
  obtain ⟨x, y, rfl, hx⟩ := List.eq_append_cons_of_mem hmem
  rw [takeWhile_ne hx]
  exact ⟨y, rfl, hx⟩

/-- Runs in front of what does not meet `p` are equal. -/
theorem run_unique {d d' y y' : List α} (hd : ∀ c ∈ d, p c = true) (hd' : ∀ c ∈ d', p c = true)
    (hy : ∀ c ∈ y.head?, p c = false) (hy' : ∀ c ∈ y'.head?, p c = false) (h : d ++ y = d' ++ y') :
    d = d' ∧ y = y' := by
  have hdd : d = d' := by
    rw [← takeWhile_run hd hy, h, takeWhile_run hd' hy']
  refine ⟨hdd, ?_⟩
  rw [hdd] at h
  exact List.append_cancel_left h

namespace Split
variable {l x : List α} {a : α} {d y : List α} (h : Split p l x a d y)

include h

theorem findIdx? : l.findIdx? p = some x.length := by
  rw [h.eq]
  exact findIdx?_first h.free h.head _

theorem length_run : ((l.drop x.length).takeWhile p).length = d.length + 1 := by
  rw [h.eq, List.drop_left, List.takeWhile_cons, if_pos h.head, takeWhile_run h.run h.rest, List.length_cons]

theorem take : l.take x.length = x := by
  rw [h.eq, List.take_left]

theorem take_succ : l.take (x.length + 1) = x ++ [a] := by
  rw [h.eq, List.take_length_add_append]
  rfl

theorem drop_succ : l.drop (x.length + 1) = d ++ y := by
  rw [h.eq, List.drop_length_add_append]
  rfl

theorem drop_run : l.drop (x.length + (d.length + 1)) = y := by
  rw [h.eq, List.drop_length_add_append, List.drop_succ_cons, List.drop_left]

theorem getElem?_run : l[x.length + (d.length + 1)]? = y.head? := by
  rw [← List.head?_drop, h.drop_run]

theorem getElem?_before (hx : x ≠ []) : l[x.length - 1]? = x.getLast? := by
  have hlt : x.length - 1 < x.length := Nat.sub_lt (List.length_pos_iff.mpr hx) Nat.one_pos
  rw [h.eq, List.getElem?_append_left hlt, List.getLast?_eq_getElem?]

theorem length : l.length = x.length + 1 + d.length + y.length := by
  rw [h.eq, List.length_append, List.length_cons, List.length_append]
  omega

end Split

/-! ## Pieces with a terminator -/

/-- The pieces, each followed by `a`. -/
def terminate (a : α) (l : List (List α)) : List α := l.flatMap fun x => x ++ [a]

theorem terminate_cons (a : α) (x : List α) (l : List (List α)) : terminate a (x :: l) = x ++ a :: terminate a l := by
  simp [terminate]

theorem terminate_append (a : α) (l l' : List (List α)) : terminate a (l ++ l') = terminate a l ++ terminate a l' :=
  List.flatMap_append

/-- Pieces without the terminator can be told apart. -/
theorem terminate_inj [DecidableEq α] {a : α} {l l' : List (List α)} (hl : ∀ x ∈ l, a ∉ x) (hl' : ∀ x ∈ l', a ∉ x)
    (h : terminate a l = terminate a l') : l = l' := by
  induction l generalizing l' with
  | nil =>
      cases l' with
      | nil => rfl
      | cons y l' => simp [terminate] at h
  | cons x l ih =>
      cases l' with
      | nil => simp [terminate] at h
      | cons y l' =>
          rw [List.forall_mem_cons] at hl hl'
          rw [terminate_cons, terminate_cons] at h
          obtain ⟨rfl, hrest⟩ := cut_unique hl.1 hl'.1 h
          rw [ih hl.2 hl'.2 hrest]

end

end Tr69HostIf.Store
