import Mathlib.Algebra.GroupWithZero.Nat
import Mathlib.Data.List.TakeWhile
import Mathlib.Data.List.Infix
import Mathlib.Data.List.Perm.Basic

/-!
# Trees listed by their paths

The nodes of a tree as a list of paths, each with what stands at its node. Walking along a path the state may
branch: `next s a` are the states behind the step `a`.

* `places next s path` : the states at the end of a path;
* `Through next s path s'` : the path has exactly one state behind each of its steps, `Dead` : it leads to no leaf;
* `expand next leaf s items` : the leaves below state `s`, in the order of the list; the consecutive items that
  share a first step are walked together, once for each state behind it;
* `expand_perm` : every leaf at every state of every path is there, once;
* `expand_regroup`, `expand_dead`, `expand_here`, `expand_block` : the first items of a list taken apart.
-/

namespace Tr69HostIf.Store

/-! ## Paths -/

section
variable {α β γ σ : Type} (next : σ → α → List σ) (leaf : σ → β → List γ)

/-- The states at the end of a path. -/
def places (s : σ) : List α → List σ
  | [] => [s]
  | a :: path => (next s a).flatMap fun s' => places s' path

/-- One state behind every step. -/
inductive Through : σ → List α → σ → Prop
  | nil (s : σ) : Through s [] s
  | cons {s s₁ s' : σ} {a : α} {path : List α} (h : next s a = [s₁]) (t : Through s₁ path s') : Through s (a :: path) s'

/-- A path to no leaf. -/
inductive Dead : σ → List α → Prop
  | leaf {s : σ} (h : ∀ b, leaf s b = []) : Dead s []
  | step {s : σ} {a : α} {path : List α} (h : ∀ s' ∈ next s a, Dead s' path) : Dead s (a :: path)

/-- The leaves of an item, at all states of its path. -/
def leaves (s : σ) (x : List α × β) : List γ :=
  (places next s x.1).flatMap fun s' => leaf s' x.2

variable {next leaf} {s s' s'' : σ} {path path' : List α}

theorem mem_places_append (h : s' ∈ places next s path) (h' : s'' ∈ places next s' path') :
    s'' ∈ places next s (path ++ path') := by
  induction path generalizing s with
  | nil =>
      rw [places, List.mem_singleton] at h
      rw [List.nil_append, ← h]
      exact h'
  | cons a path ih =>
      simp only [List.cons_append, places, List.mem_flatMap] at h ⊢
      obtain ⟨s₁, h₁, h⟩ := h
      exact ⟨s₁, h₁, ih h⟩

/-- A path is reached through the beginning of it. -/
theorem exists_place_of_append (h : s' ∈ places next s (path ++ path')) : ∃ s₁, s₁ ∈ places next s path := by
  induction path generalizing s with
  | nil => exact ⟨s, List.mem_singleton.mpr rfl⟩
  | cons a path ih =>
      simp only [List.cons_append, places, List.mem_flatMap] at h ⊢
      obtain ⟨s₁, h₁, h⟩ := h
      obtain ⟨s₂, h₂⟩ := ih h
      exact ⟨s₂, s₁, h₁, h₂⟩

theorem Through.mem_places (h : Through next s path s') : s' ∈ places next s path := by
  induction h with
  | nil s => exact List.mem_singleton.mpr rfl
  | cons h _ ih =>
      rw [places, h]
      simpa using ih

theorem leaves_cons (a : α) (path : List α) (b : β) :
    leaves next leaf s (a :: path, b) = (next s a).flatMap fun s' => leaves next leaf s' (path, b) := by
  simp only [leaves, places, List.flatMap_assoc]

/-- An item behind the first steps of its path. -/
def behind (n : Nat) (x : List α × β) : List α × β := (x.1.drop n, x.2)

/-- The steps and nodes of a list. -/
def pathsSize (items : List (List α × β)) : Nat := (items.map fun x => x.1.length + 1).sum

theorem pathsSize_append (xs ys : List (List α × β)) : pathsSize (xs ++ ys) = pathsSize xs + pathsSize ys := by
  simp [pathsSize]

theorem pathsSize_behind (n : Nat) (items : List (List α × β)) : pathsSize (items.map (behind n)) ≤ pathsSize items := by
  induction items with
  | nil => exact Nat.le_refl 0
  | cons x items ih =>
      simp only [pathsSize, List.map_cons, List.sum_cons, behind, List.length_drop] at ih ⊢
      omega

theorem flatMap_swap_perm {δ ε : Type} (xs : List δ) (ys : List ε) (f : δ → ε → List γ) :
    (xs.flatMap fun x => ys.flatMap fun y => f x y).Perm (ys.flatMap fun y => xs.flatMap fun x => f x y) := by
  induction ys with
  | nil => simp
  | cons y ys ih =>
      simp only [List.flatMap_cons]
      exact (List.flatMap_append_perm xs (fun x => f x y) _).symm.trans (ih.append_left _)

end

/-! ## Expansion -/

section
variable {α β γ σ : Type} [DecidableEq α]

/-- The path of an item begins with the step `a`. -/
def startsWith (a : α) (x : List α × β) : Bool := x.1.head? = some a

theorem startsWith_iff {a : α} {x : List α × β} : startsWith a x = true ↔ [a] <+: x.1 := by
  obtain ⟨p, b⟩ := x
  cases p with
  | nil => simp [startsWith]
  | cons d p => simp [startsWith, eq_comm]

/-- The first step of a path taken off. -/
theorem prefix_behind {a : α} {x : List α × β} (h : startsWith a x = true) (path : List α) :
    a :: path <+: x.1 ↔ path <+: (behind 1 x).1 := by
  obtain ⟨r, hr⟩ := startsWith_iff.mp h
  simp [behind, ← hr]

theorem leaves_behind {next : σ → α → List σ} {leaf : σ → β → List γ} {s : σ} {a : α} {x : List α × β}
    (h : startsWith a x = true) :
    leaves next leaf s x = (next s a).flatMap fun s' => leaves next leaf s' (behind 1 x) := by
  obtain ⟨p, b⟩ := x
  obtain ⟨r, hr⟩ := startsWith_iff.mp h
  have hp : p = a :: r := hr.symm
  rw [hp, leaves_cons]
  rfl

theorem pathsSize_takeWhile (a : α) (items : List (List α × β)) :
    pathsSize ((items.takeWhile (startsWith a)).map (behind 1)) + pathsSize (items.dropWhile (startsWith a)) ≤
      pathsSize items := by
  have h := pathsSize_append (items.takeWhile (startsWith a)) (items.dropWhile (startsWith a))
  rw [List.takeWhile_append_dropWhile] at h
  have := pathsSize_behind 1 (items.takeWhile (startsWith a))
  omega

variable (next : σ → α → List σ) (leaf : σ → β → List γ)

/-- The leaves below a state. -/
def expand (s : σ) : List (List α × β) → List γ
  | [] => []
  | ([], b) :: items => leaf s b ++ expand s items
  | (a :: path, b) :: items =>
      ((next s a).flatMap fun s' => expand s' ((path, b) :: (items.takeWhile (startsWith a)).map (behind 1))) ++
        expand s (items.dropWhile (startsWith a))
termination_by items => pathsSize items
decreasing_by
  · simp only [pathsSize, List.map_cons, List.sum_cons]
    omega
  · have := pathsSize_takeWhile a items
    simp only [pathsSize, List.map_cons, List.sum_cons, List.length_cons] at this ⊢
    omega
  · have := pathsSize_takeWhile a items
    simp only [pathsSize, List.map_cons, List.sum_cons, List.length_cons] at this ⊢
    omega

variable {next leaf} {s s' : σ} {path : List α}

theorem expand_nil : expand next leaf s [] = [] := by rw [expand]

theorem expand_leaf (b : β) (items : List (List α × β)) :
    expand next leaf s (([], b) :: items) = leaf s b ++ expand next leaf s items := by
  rw [expand]

theorem expand_cons (a : α) (path : List α) (b : β) (items : List (List α × β)) :
    expand next leaf s ((a :: path, b) :: items) =
      ((next s a).flatMap fun s' =>
        expand next leaf s' ((path, b) :: (items.takeWhile (startsWith a)).map (behind 1))) ++
        expand next leaf s (items.dropWhile (startsWith a)) := by
  rw [expand]

theorem dropWhile_of_takeWhile_nil {a : α} {items : List (List α × β)} (h : items.takeWhile (startsWith a) = []) :
    items.dropWhile (startsWith a) = items := by
  have := List.takeWhile_append_dropWhile (l := items) (p := startsWith a)
  rwa [h, List.nil_append] at this

/-- The items that begin with `a` can be walked together whether or not there are any. -/
theorem expand_regroup (a : α) (items : List (List α × β)) :
    expand next leaf s items =
      ((next s a).flatMap fun s' => expand next leaf s' ((items.takeWhile (startsWith a)).map (behind 1))) ++
        expand next leaf s (items.dropWhile (startsWith a)) := by
  have hempty : ∀ xs : List (List α × β), xs.takeWhile (startsWith a) = [] → expand next leaf s xs =
      ((next s a).flatMap fun s' => expand next leaf s' ((xs.takeWhile (startsWith a)).map (behind 1))) ++
        expand next leaf s (xs.dropWhile (startsWith a)) := by
    intro xs hxs
    simp [hxs, dropWhile_of_takeWhile_nil hxs, expand_nil]
  match items with
  | [] => exact hempty [] rfl
  | ([], b) :: items => exact hempty _ rfl
  | (c :: path, b) :: items =>
      by_cases hc : c = a
      · subst hc
        have hs : startsWith c ((c :: path, b) : List α × β) = true := by simp [startsWith]
        rw [expand_cons, List.takeWhile_cons_of_pos hs, List.dropWhile_cons_of_pos hs]
        rfl
      · have hs : ¬startsWith a ((c :: path, b) : List α × β) = true := by simp [startsWith, hc]
        exact hempty _ (List.takeWhile_cons_of_neg hs)

/-- An item whose path is dead adds nothing. -/
theorem expand_dead (h : Dead next leaf s path) (b : β) (items : List (List α × β)) :
    expand next leaf s ((path, b) :: items) = expand next leaf s items := by
  induction h generalizing items with
  | leaf h => rw [expand_leaf, h, List.nil_append]
  | @step s a path _ ih =>
      rw [expand_cons, expand_regroup (s := s) a items]
      congr 1
      apply List.flatMap_congr
      intro s' hs'
      exact ih s' hs' _

/-- The item at the end of a path without branches. -/
theorem expand_here (h : Through next s path s') (b : β) (items : List (List α × β)) :
    expand next leaf s ((path, b) :: items) = leaf s' b ++ expand next leaf s items := by
  induction h generalizing items with
  | nil s => exact expand_leaf b items
  | @cons s s₁ s' a path h _ ih =>
      rw [expand_cons, expand_regroup (s := s) a items, h]
      simp only [List.flatMap_cons, List.flatMap_nil, List.append_nil]
      rw [ih, List.append_assoc]

/-- **The leaves of all items, each once.** -/
theorem expand_perm (s : σ) (items : List (List α × β)) :
    (expand next leaf s items).Perm (items.flatMap (leaves next leaf s)) := by
  induction s, items using expand.induct with
  | case1 s =>
      rw [expand_nil]
      exact List.Perm.nil
  | case2 s b items ih =>
      have hleaf : leaves next leaf s ([], b) = leaf s b := by simp [leaves, places]
      rw [expand_leaf, List.flatMap_cons, hleaf]
      exact ih.append_left _
  | case3 s a path b items ihgroup ihrest =>
      have hgroup : ((next s a).flatMap fun s' =>
            expand next leaf s' ((path, b) :: (items.takeWhile (startsWith a)).map (behind 1))).Perm
          (((a :: path, b) :: items.takeWhile (startsWith a)).flatMap (leaves next leaf s)) := by
        refine (List.Perm.flatMap_left _ fun s' _ => ihgroup s').trans ?_
        refine (flatMap_swap_perm _ _ _).trans ?_
        rw [List.flatMap_cons, List.flatMap_cons, ← leaves_cons, List.flatMap_map]
        apply List.Perm.append_left
        apply List.Perm.flatMap_left
        intro x hx
        rw [leaves_behind (List.mem_takeWhile_imp hx)]
      rw [expand_cons]
      refine (hgroup.append ihrest).trans ?_
      rw [← List.flatMap_append, List.cons_append, List.takeWhile_append_dropWhile]

/-- The items below the step `a`, and no such item directly behind them. -/
theorem expand_group (a : α) {block items : List (List α × β)} (hblock : ∀ x ∈ block, startsWith a x = true)
    (hitems : ∀ x ∈ items.head?, ¬startsWith a x = true) :
    expand next leaf s (block ++ items) =
      ((next s a).flatMap fun s' => expand next leaf s' (block.map (behind 1))) ++ expand next leaf s items := by
  have hneg : items.takeWhile (startsWith a) = [] := by
    cases items with
    | nil => rfl
    | cons x items => exact List.takeWhile_cons_of_neg (hitems x rfl)
  rw [expand_regroup a, List.takeWhile_append_of_pos hblock, List.dropWhile_append_of_pos hblock, hneg,
    dropWhile_of_takeWhile_nil hneg, List.append_nil]

theorem head?_of_takeWhile {a : α} {items : List (List α × β)} {y : List α × β}
    (h : (items.takeWhile (startsWith a)).head? = some y) : items.head? = some y ∧ startsWith a y = true := by
  cases items with
  | nil => cases h
  | cons z zs =>
      by_cases hz : startsWith a z = true
      · rw [List.takeWhile_cons_of_pos hz, List.head?_cons, Option.some.injEq] at h
        subst h
        exact ⟨rfl, hz⟩
      · rw [List.takeWhile_cons_of_neg hz] at h
        cases h

/-- Items below the step `a` at the end of a path without branches, and no such item directly behind them. -/
theorem expand_block (h : Through next s path s') (a : α) {block items : List (List α × β)}
    (hblock : ∀ x ∈ block, path ++ [a] <+: x.1) (hitems : ∀ x ∈ items.head?, ¬path ++ [a] <+: x.1) :
    expand next leaf s (block ++ items) =
      ((next s' a).flatMap fun s'' => expand next leaf s'' (block.map (behind (path.length + 1)))) ++
        expand next leaf s items := by
  induction h generalizing block items with
  | nil s =>
      exact expand_group a (fun x hx => startsWith_iff.mpr (hblock x hx))
        fun x hx hstart => hitems x hx (startsWith_iff.mp hstart)
  | @cons s s₁ s' c path h _ ih =>
      have hpos : ∀ x ∈ block, startsWith c x = true := by
        intro x hx
        apply startsWith_iff.mpr
        exact List.IsPrefix.trans ⟨path ++ [a], rfl⟩ (hblock x hx)
      have hblock' : ∀ x ∈ block.map (behind 1), path ++ [a] <+: x.1 := by
        intro x hx
        obtain ⟨y, hy, rfl⟩ := List.mem_map.mp hx
        exact (prefix_behind (hpos y hy) _).mp (hblock y hy)
      have hitems' : ∀ x ∈ ((items.takeWhile (startsWith c)).map (behind 1)).head?, ¬path ++ [a] <+: x.1 := by
        intro x hx hpre
        rw [List.head?_map, Option.mem_def, Option.map_eq_some_iff] at hx
        obtain ⟨y, hy, rfl⟩ := hx
        obtain ⟨hhead, hstart⟩ := head?_of_takeWhile hy
        exact hitems y hhead ((prefix_behind hstart _).mpr hpre)
      have hbehind : ∀ x : List α × β, behind (path.length + 1) (behind 1 x) = behind ((c :: path).length + 1) x := by
        intro x
        simp [behind, Nat.add_comm]
      rw [expand_regroup c, List.takeWhile_append_of_pos hpos, List.dropWhile_append_of_pos hpos, List.map_append,
        expand_regroup (s := s) c items, h]
      simp only [List.flatMap_cons, List.flatMap_nil, List.append_nil]
      rw [ih hblock' hitems', List.append_assoc]
      simp only [List.map_map, Function.comp_def, hbehind]

end

end Tr69HostIf.Store
