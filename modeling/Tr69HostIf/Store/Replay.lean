import Mathlib.Data.List.Range
import Mathlib.Logic.Function.Basic

/-!
# Tables kept up to date by events

A subscriber holds the instance numbers of several tables. An `add` appends the next number to a table, a `remove`
deletes one.

* `Change τ` : what an event says about one of the tables `τ`, `Tables.replay` : the tables after a list of them;
* `upTo n` : the instances `1, …, n`;
* `replay_frame` : changes of one table leave the others alone, `replay_flatMap` : of changes of several tables each
  sees its own;
* `replay_adds`, `replay_removes` : adding `k` instances, and removing the last ones downwards;
* `replay_removes_up` : removing the same number of instances from `n` upwards does not lead to `upTo n`.
-/

namespace Tr69HostIf.Store

/-- An event about a table. -/
inductive Change (τ : Type*)
  | add (t : τ)
  | remove (t : τ) (j : Nat)
  deriving DecidableEq

/-- The table a change is about. -/
def Change.table {τ : Type*} : Change τ → τ
  | .add t => t
  | .remove t _ => t

/-- The instance numbers in each table. -/
abbrev Tables (τ : Type*) := τ → List Nat

/-- The next instance number: one more than the largest. -/
def next (l : List Nat) : Nat := l.foldr max 0 + 1

/-- The instances `1, …, n`. -/
def upTo (n : Nat) : List Nat := List.range' 1 n

/-- The removals of the instances `n + k, …, n + 1`, in this order. -/
def removals {τ : Type*} (t : τ) (n k : Nat) : List (Change τ) := (List.range' (n + 1) k).reverse.map (Change.remove t)

theorem removals_succ {τ : Type*} (t : τ) (n k : Nat) : removals t n (k + 1) = .remove t (n + k + 1) :: removals t n k := by
  rw [removals, List.range'_concat, List.reverse_append]
  simp [removals, Nat.add_right_comm]

section
variable {τ : Type*} [DecidableEq τ]

/-- The tables after one change. -/
def Tables.apply (T : Tables τ) : Change τ → Tables τ
  | .add t => Function.update T t (T t ++ [next (T t)])
  | .remove t j => Function.update T t ((T t).filter fun i => i ≠ j)

/-- The tables after a list of changes. -/
def Tables.replay (T : Tables τ) (l : List (Change τ)) : Tables τ := l.foldl Tables.apply T

@[simp] theorem replay_nil (T : Tables τ) : T.replay [] = T := rfl

@[simp] theorem replay_cons (T : Tables τ) (c : Change τ) (l : List (Change τ)) :
    T.replay (c :: l) = (T.apply c).replay l := rfl

theorem replay_append (T : Tables τ) (l l' : List (Change τ)) : T.replay (l ++ l') = (T.replay l).replay l' :=
  List.foldl_append

theorem apply_of_ne (T : Tables τ) {c : Change τ} {t : τ} (h : t ≠ c.table) : T.apply c t = T t := by
  cases c with
  | add u => exact Function.update_of_ne h _ T
  | remove u j => exact Function.update_of_ne h _ T

/-- Changes of other tables leave a table alone. -/
theorem replay_frame (T : Tables τ) {l : List (Change τ)} {t : τ} (h : ∀ c ∈ l, t ≠ c.table) : T.replay l t = T t := by
  induction l generalizing T with
  | nil => rfl
  | cons c l ih =>
      rw [replay_cons, ih _ fun d hd => h d (List.mem_cons_of_mem c hd), apply_of_ne T (h c List.mem_cons_self)]

theorem apply_congr {T T' : Tables τ} {t : τ} (h : T t = T' t) (c : Change τ) : T.apply c t = T'.apply c t := by
  by_cases ht : t = c.table
  · cases c with
    | add u =>
        obtain rfl : t = u := ht
        simp [Tables.apply, h]
    | remove u j =>
        obtain rfl : t = u := ht
        simp [Tables.apply, h]
  · rw [apply_of_ne T ht, apply_of_ne T' ht, h]

/-- What becomes of a table depends on that table alone. -/
theorem replay_congr {T T' : Tables τ} {t : τ} (h : T t = T' t) (l : List (Change τ)) : T.replay l t = T'.replay l t := by
  induction l generalizing T T' with
  | nil => exact h
  | cons c l ih => exact ih (apply_congr h c)

/-- Changes of several tables, each of its own table: one table sees only its own. -/
theorem replay_flatMap {γ : Type*} {f : γ → List (Change τ)} {g : γ → τ} (hg : Function.Injective g)
    (hf : ∀ d, ∀ c ∈ f d, c.table = g d) (T : Tables τ) {l : List γ} (hl : l.Nodup) {d : γ} (hd : d ∈ l) :
    T.replay (l.flatMap f) (g d) = T.replay (f d) (g d) := by
  induction l generalizing T with
  | nil => exact absurd hd List.not_mem_nil
  | cons e l ih =>
      rw [List.nodup_cons] at hl
      rw [List.flatMap_cons, replay_append]
      by_cases hde : d = e
      · subst hde
        refine replay_frame _ fun c hc => ?_
        obtain ⟨e', he', hc'⟩ := List.mem_flatMap.mp hc
        rw [hf e' c hc']
        exact fun h => hl.1 (hg h ▸ he')
      · rw [ih _ hl.2 ((List.mem_cons.mp hd).resolve_left hde)]
        refine replay_congr (replay_frame T fun c hc => ?_) _
        rw [hf e c hc]
        exact fun h => hde (hg h)

/-! ## Instances in order -/

theorem upTo_succ (n : Nat) : upTo (n + 1) = upTo n ++ [n + 1] := by
  rw [upTo, List.range'_concat, upTo, Nat.one_mul, Nat.add_comm 1 n]

theorem mem_upTo {n j : Nat} : j ∈ upTo n ↔ 1 ≤ j ∧ j ≤ n := by
  rw [upTo, List.mem_range'_1]
  omega

theorem length_upTo (n : Nat) : (upTo n).length = n := List.length_range'

theorem upTo_inj {m n : Nat} (h : upTo m = upTo n) : m = n := by
  rw [← length_upTo m, h, length_upTo]

theorem next_upTo (n : Nat) : next (upTo n) = n + 1 := by
  have h : ∀ m, (List.range' 1 m).foldr max 0 = m := by
    intro m
    induction m with
    | zero => rfl
    | succ m ih =>
        have hfold : ∀ (l : List Nat) (a : Nat), l.foldr max a = max (l.foldr max 0) a := by
          intro l a
          induction l with
          | nil => simp
          | cons b l ihl => rw [List.foldr_cons, List.foldr_cons, ihl, Nat.max_assoc]
        rw [List.range'_concat, List.foldr_append, hfold, ih]
        simp only [List.foldr_cons, List.foldr_nil]
        omega
  rw [next, upTo, h]

theorem filter_upTo_succ (n : Nat) : (upTo (n + 1)).filter (fun i => decide (i ≠ n + 1)) = upTo n := by
  rw [upTo_succ, List.filter_append]
  have hkeep : (upTo n).filter (fun i => decide (i ≠ n + 1)) = upTo n := by
    rw [List.filter_eq_self]
    intro i hi
    have := mem_upTo.mp hi
    simp only [decide_eq_true_eq]
    omega
  rw [hkeep]
  simp

/-! ## Runs of changes of one table -/

section
variable {T : Tables τ} {t : τ}

/-- Adding `k` instances to the first `n`. -/
theorem replay_adds {n : Nat} (h : T t = upTo n) (k : Nat) : T.replay (List.replicate k (.add t)) t = upTo (n + k) := by
  induction k generalizing T n with
  | zero => exact h
  | succ k ih =>
      rw [List.replicate_succ, replay_cons, ih (n := n + 1), Nat.add_assoc, Nat.add_comm 1 k]
      rw [Tables.apply, Function.update_self, h, next_upTo, upTo_succ]

/-- Removing the last `k` instances downwards leaves the first `n`. -/
theorem replay_removes {n k : Nat} (h : T t = upTo (n + k)) : T.replay (removals t n k) t = upTo n := by
  induction k generalizing T with
  | zero => exact h
  | succ k ih =>
      rw [removals_succ, replay_cons]
      refine ih ?_
      rw [Tables.apply, Function.update_self, h, ← Nat.add_assoc, filter_upTo_succ]

/-- A removal deletes only the instance it names. -/
theorem mem_replay_removes {l : List Nat} {j : Nat} (hj : j ∈ T t) (hl : j ∉ l) :
    j ∈ T.replay (l.map (Change.remove t)) t := by
  induction l generalizing T with
  | nil => exact hj
  | cons i l ih =>
      rw [List.mem_cons, not_or] at hl
      rw [List.map_cons, replay_cons]
      refine ih ?_ hl.2
      rw [Tables.apply, Function.update_self, List.mem_filter]
      exact ⟨hj, by simpa using hl.1⟩

/-- Removing the instances from `n` upwards leaves the last one. -/
theorem replay_removes_up {n s : Nat} (h : T t = upTo s) (hlt : n < s) :
    T.replay ((List.range' n (s - n)).map (Change.remove t)) t ≠ upTo n := by
  intro heq
  have hmem : s ∈ T.replay ((List.range' n (s - n)).map (Change.remove t)) t := by
    refine mem_replay_removes ?_ ?_
    · rw [h, mem_upTo]
      omega
    · rw [List.mem_range'_1]
      omega
  rw [heq, mem_upTo] at hmem
  omega

end

end

end Tr69HostIf.Store
