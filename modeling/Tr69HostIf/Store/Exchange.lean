import Mathlib.Data.List.Nodup
import Mathlib.Data.List.Perm.Subperm
import Mathlib.Logic.Function.Basic
import Tr69HostIf.Store.Run

/-!
# Threads that put an item into a shared queue and then take one out

Each thread pushes an item, pops whatever stands at the head of the queue and works on it, again and again; the
threads' steps interleave in any order. The items are numbered in the order they are pushed.

* `Exchange ι α` : the queue, where each thread stands, and what has been pushed, popped and finished so far;
* `push`, `pop`, `finish` : the three steps of a thread, without effect when the thread is not there;
* `Exchange.Fair` : as many threads wait for an item as there are items, and each popped item is finished or in
  the hands of one thread; `Fair.push`, `Fair.pop`, `Fair.finish` : every step preserves it;
* `Fair.subperm`, `Fair.quiet` : no item is finished twice, and none is left when no thread is under way.
-/

namespace Tr69HostIf.Store

/-- Where a thread stands: outside, between its push and its pop, or at work on the item it popped. -/
inductive Phase (α : Type*)
  | idle | waiting | holds (x : α)
  deriving DecidableEq

/-- Threads `ι` exchanging items `α` through a queue. -/
structure Exchange (ι α : Type*) where
  queue : List (Nat × α)
  phase : ι → Phase (Nat × α)
  /-- the items pushed so far, in order -/
  pushed : List (Nat × α)
  /-- the items popped so far, in order -/
  popped : List (Nat × α)
  /-- the items that have been worked on -/
  finished : List (Nat × α)
  /-- the number of pops that found the queue empty -/
  missed : Nat

namespace Exchange

/-- No thread is under way and nothing has been pushed. -/
def start (ι α : Type*) : Exchange ι α := ⟨[], fun _ => .idle, [], [], [], 0⟩

section
variable {ι α : Type*} [DecidableEq ι]

/-- Thread `i` pushes `a`. -/
def push (i : ι) (a : α) (s : Exchange ι α) : Exchange ι α :=
  match s.phase i with
  | .idle => { s with queue := s.queue ++ [(s.pushed.length, a)]
                      pushed := s.pushed ++ [(s.pushed.length, a)]
                      phase := Function.update s.phase i .waiting }
  | _ => s

/-- Thread `i` pops the head of the queue. -/
def pop (i : ι) (s : Exchange ι α) : Exchange ι α :=
  match s.phase i, s.queue with
  | .waiting, x :: q => { s with queue := q, popped := s.popped ++ [x], phase := Function.update s.phase i (.holds x) }
  | .waiting, [] => { s with missed := s.missed + 1, phase := Function.update s.phase i .idle }
  | _, _ => s

/-- Thread `i` is done with its item. -/
def finish (i : ι) (s : Exchange ι α) : Exchange ι α :=
  match s.phase i with
  | .holds x => { s with finished := s.finished ++ [x], phase := Function.update s.phase i .idle }
  | _ => s

end

section
variable {ι α : Type*}

/-- The threads `w` are those that wait. -/
structure Waiters (s : Exchange ι α) (w : List ι) : Prop where
  nodup : w.Nodup
  mem : ∀ i, i ∈ w ↔ s.phase i = .waiting

/-- The pairs `h` are the threads at work with their items. -/
structure Holders (s : Exchange ι α) (h : List (ι × (Nat × α))) : Prop where
  nodup : (h.map Prod.fst).Nodup
  mem : ∀ i x, (i, x) ∈ h ↔ s.phase i = .holds x

/-- Every popped item has a thread that popped it, and every waiting thread an item to pop. -/
structure Fair (s : Exchange ι α) : Prop where
  waiters : ∃ w, s.Waiters w ∧ w.length = s.queue.length
  holders : ∃ h, s.Holders h ∧ (s.finished ++ h.map Prod.snd).Perm s.popped
  order : s.pushed = s.popped ++ s.queue
  numbered : s.pushed.map Prod.fst = List.range s.pushed.length
  missed : s.missed = 0

theorem fair_start : (start ι α).Fair where
  waiters := ⟨[], ⟨List.nodup_nil, by simp [start]⟩, rfl⟩
  holders := ⟨[], ⟨List.nodup_nil, by simp [start]⟩, List.Perm.refl _⟩
  order := rfl
  numbered := rfl
  missed := rfl

/-- A thread that has pushed finds an item. -/
theorem Fair.queue_ne_nil {s : Exchange ι α} (hs : s.Fair) {i : ι} (hp : s.phase i = .waiting) : s.queue ≠ [] := by
  obtain ⟨w, hw, hlen⟩ := hs.waiters
  have hmem : i ∈ w := (hw.mem i).mpr hp
  intro hq
  rw [hq, List.length_nil, List.length_eq_zero_iff] at hlen
  rw [hlen] at hmem
  exact List.not_mem_nil hmem

/-! ## One thread changes its place -/

variable [DecidableEq ι]

section
variable {s t : Exchange ι α} {i : ι}

theorem Waiters.add {w : List ι} (hw : s.Waiters w) (hi : s.phase i ≠ .waiting)
    (ht : t.phase = Function.update s.phase i .waiting) : t.Waiters (i :: w) where
  nodup := List.nodup_cons.mpr ⟨fun h => hi ((hw.mem i).mp h), hw.nodup⟩
  mem j := by
    rw [List.mem_cons, ht]
    by_cases hj : j = i
    · simp [hj]
    · rw [Function.update_of_ne hj, hw.mem j]
      simp [hj]

theorem Waiters.remove {w₁ w₂ : List ι} {p : Phase (Nat × α)} (hw : s.Waiters (w₁ ++ i :: w₂)) (hp : p ≠ .waiting)
    (ht : t.phase = Function.update s.phase i p) : t.Waiters (w₁ ++ w₂) := by
  have hnd : i ∉ w₁ ++ w₂ ∧ (w₁ ++ w₂).Nodup := List.nodup_middle.mp hw.nodup |> List.nodup_cons.mp
  refine ⟨hnd.2, fun j => ?_⟩
  rw [ht]
  by_cases hj : j = i
  · subst hj
    simp only [Function.update_self, hp, iff_false]
    exact hnd.1
  · rw [Function.update_of_ne hj, ← hw.mem j]
    simp [hj]

theorem Waiters.same {w : List ι} {p : Phase (Nat × α)} (hw : s.Waiters w) (hi : s.phase i ≠ .waiting)
    (hp : p ≠ .waiting) (ht : t.phase = Function.update s.phase i p) : t.Waiters w := by
  refine ⟨hw.nodup, fun j => ?_⟩
  rw [ht, hw.mem j]
  by_cases hj : j = i
  · subst hj
    simp [hi, hp]
  · rw [Function.update_of_ne hj]

theorem Holders.add {h : List (ι × (Nat × α))} {x : Nat × α} (hh : s.Holders h) (hi : ∀ y, s.phase i ≠ .holds y)
    (ht : t.phase = Function.update s.phase i (.holds x)) : t.Holders ((i, x) :: h) where
  nodup := by
    rw [List.map_cons, List.nodup_cons]
    refine ⟨fun hm => ?_, hh.nodup⟩
    obtain ⟨⟨j, y⟩, hy, rfl⟩ := List.mem_map.mp hm
    exact hi y ((hh.mem j y).mp hy)
  mem j y := by
    rw [List.mem_cons, ht, hh.mem j y]
    by_cases hj : j = i
    · subst hj
      simp [hi y, eq_comm]
    · rw [Function.update_of_ne hj]
      simp [hj]

theorem Holders.remove {h₁ h₂ : List (ι × (Nat × α))} {x : Nat × α} (hh : s.Holders (h₁ ++ (i, x) :: h₂))
    (ht : t.phase = Function.update s.phase i .idle) : t.Holders (h₁ ++ h₂) := by
  have hnd := hh.nodup
  rw [List.map_append, List.map_cons, List.nodup_middle, List.nodup_cons, ← List.map_append] at hnd
  refine ⟨hnd.2, fun j y => ?_⟩
  rw [ht]
  by_cases hj : j = i
  · subst hj
    simp only [Function.update_self, reduceCtorEq, iff_false]
    exact fun hm => hnd.1 (List.mem_map.mpr ⟨(j, y), hm, rfl⟩)
  · rw [Function.update_of_ne hj, ← hh.mem j y]
    simp [hj]

theorem Holders.same {h : List (ι × (Nat × α))} {p : Phase (Nat × α)} (hh : s.Holders h)
    (hi : ∀ y, s.phase i ≠ .holds y) (hp : ∀ y, p ≠ .holds y) (ht : t.phase = Function.update s.phase i p) :
    t.Holders h := by
  refine ⟨hh.nodup, fun j y => ?_⟩
  rw [ht, hh.mem j y]
  by_cases hj : j = i
  · subst hj
    simp [hi y, hp y]
  · rw [Function.update_of_ne hj]

end

/-! ## The steps -/

section
variable {s : Exchange ι α} (hs : s.Fair) (i : ι)
include hs

theorem Fair.push (a : α) : (s.push i a).Fair := by
  cases hp : s.phase i with
  | idle =>
      rw [Exchange.push, hp]
      obtain ⟨w, hw, hlen⟩ := hs.waiters
      obtain ⟨h, hh, hperm⟩ := hs.holders
      refine ⟨⟨i :: w, hw.add (by simp [hp]) rfl, by simp [hlen]⟩,
        ⟨h, hh.same (by simp [hp]) (by simp) rfl, hperm⟩, ?_, ?_, hs.missed⟩
      · simp only
        rw [← List.append_assoc, ← hs.order]
      · simp only [List.map_append, List.map_cons, List.map_nil, List.length_append, List.length_singleton]
        rw [hs.numbered, List.range_succ]
  | waiting => rwa [Exchange.push, hp]
  | holds x => rwa [Exchange.push, hp]

theorem Fair.pop : (s.pop i).Fair := by
  cases hp : s.phase i with
  | idle => rwa [Exchange.pop, hp]
  | holds x => rwa [Exchange.pop, hp]
  | waiting =>
      cases hq : s.queue with
      | nil => exact absurd hq (hs.queue_ne_nil hp)
      | cons x q =>
          rw [Exchange.pop, hp, hq]
          obtain ⟨w, hw, hlen⟩ := hs.waiters
          obtain ⟨h, hh, hperm⟩ := hs.holders
          obtain ⟨w₁, w₂, rfl⟩ := List.append_of_mem ((hw.mem i).mpr hp)
          refine ⟨⟨w₁ ++ w₂, hw.remove (by simp) rfl, ?_⟩,
            ⟨(i, x) :: h, hh.add (by simp [hp]) rfl, ?_⟩, ?_, hs.numbered, hs.missed⟩
          · rw [hq] at hlen
            simp only [List.length_append, List.length_cons] at hlen ⊢
            omega
          · simp only [List.map_cons]
            exact List.perm_middle.trans ((hperm.cons x).trans (List.perm_append_singleton x _).symm)
          · simp only [List.append_assoc, List.singleton_append]
            rw [hs.order, hq]

theorem Fair.finish : (s.finish i).Fair := by
  cases hp : s.phase i with
  | idle => rwa [Exchange.finish, hp]
  | waiting => rwa [Exchange.finish, hp]
  | holds x =>
      rw [Exchange.finish, hp]
      obtain ⟨w, hw, hlen⟩ := hs.waiters
      obtain ⟨h, hh, hperm⟩ := hs.holders
      obtain ⟨h₁, h₂, rfl⟩ := List.append_of_mem ((hh.mem i x).mpr hp)
      refine ⟨⟨w, hw.same (by simp [hp]) (by simp) rfl, hlen⟩, ⟨h₁ ++ h₂, hh.remove rfl, ?_⟩, hs.order, hs.numbered,
        hs.missed⟩
      refine List.Perm.trans ?_ hperm
      simp only [List.map_append, List.map_cons, List.append_assoc, List.singleton_append]
      exact List.Perm.append_left s.finished List.perm_middle.symm

end

end

/-! ## What holds in every state -/

section
variable {ι α : Type*} {s : Exchange ι α} (hs : s.Fair)
include hs

/-- **No item is finished twice, and none that was not pushed.** -/
theorem Fair.subperm : s.finished.Subperm s.pushed := by
  obtain ⟨h, -, hperm⟩ := hs.holders
  rw [hs.order]
  exact ((List.sublist_append_left _ _).subperm.trans hperm.subperm).trans (List.sublist_append_left _ _).subperm

/-- **When no thread is under way, the queue is empty and every item is finished.** -/
theorem Fair.quiet (hidle : ∀ i, s.phase i = .idle) : s.queue = [] ∧ s.finished.Perm s.pushed := by
  obtain ⟨w, hw, hlen⟩ := hs.waiters
  obtain ⟨h, hh, hperm⟩ := hs.holders
  have hwn : w = [] := List.eq_nil_iff_forall_not_mem.mpr fun i hi => by
    have := (hw.mem i).mp hi
    rw [hidle i] at this
    cases this
  have hhn : h = [] := List.eq_nil_iff_forall_not_mem.mpr fun p hp => by
    have := (hh.mem p.1 p.2).mp hp
    rw [hidle p.1] at this
    cases this
  have hq : s.queue = [] := by
    rw [← List.length_eq_zero_iff, ← hlen, hwn]
    rfl
  refine ⟨hq, ?_⟩
  rw [hs.order, hq, List.append_nil]
  rwa [hhn, List.map_nil, List.append_nil] at hperm

end

end Exchange

end Tr69HostIf.Store
