import Tr69HostIf.Store.Dict
import Tr69HostIf.Store.Run

/-!
# Telling that a value has changed

A reader remembers what it has read: flags that say whether something was read, and backups of the values, several
parameters perhaps sharing one.

* `Changed h p v` : what the last read of `p` in the history `h` returned is not `v`;
* `TellsChanges read s l` : along the reads `l` the reader tells exactly the changes;
* `Remembers` : the flags and the backups are those of a history, `Remembers.read` : a read keeps it so;
* `tellsChanges_iff` : an invariant between history and state turns this into a condition on the history.
-/

namespace Tr69HostIf.Store

section
variable {π ν : Type} [DecidableEq π] {σ ι : Type}

/-- The last read of the parameter returned another value. -/
def Changed (h : List (π × ν)) (p : π) (v : ν) : Prop := ∃ u, lastOf h p = some u ∧ u ≠ v

/-- What each read of a run is preceded by. -/
def AtEach (l : List ι) (P : List ι → ι → Prop) : Prop := ∀ h i t, l = h ++ i :: t → P h i

theorem AtEach.congr {l : List ι} {P Q : List ι → ι → Prop} (h : ∀ h i, P h i ↔ Q h i) : AtEach l P ↔ AtEach l Q := by
  constructor
  · exact fun hP g i t hl => (h g i).mp (hP g i t hl)
  · exact fun hQ g i t hl => (h g i).mpr (hQ g i t hl)

/-- The reader says of every read of the run whether the value has changed. -/
def TellsChanges (read : σ → ι → Bool × σ) (param : ι → π) (value : ι → ν) (s : σ) (l : List ι) : Prop :=
  AtEach l fun h i =>
    (read (run (fun s i => (read s i).2) s h) i).1 = true ↔
      Changed (h.map fun i => (param i, value i)) (param i) (value i)

/-- An invariant between what has been read and the state decides exactness. -/
theorem tellsChanges_iff {read : σ → ι → Bool × σ} {param : ι → π} {value : ι → ν} {s : σ} {l : List ι}
    {I : List ι → σ → Prop} {ok : List ι → ι → Prop} (hnil : I [] s)
    (hstep : ∀ h s i, I h s → I (h ++ [i]) (read s i).2)
    (hok : ∀ h s i, I h s → (((read s i).1 = true ↔
      Changed (h.map fun i => (param i, value i)) (param i) (value i)) ↔ ok h i)) :
    TellsChanges read param value s l ↔ AtEach l ok := by
  have hI : ∀ h, I h (run (fun s i => (read s i).2) s h) := by
    intro h
    induction h using List.reverseRecOn with
    | nil => exact hnil
    | append_singleton h i ih =>
        rw [run_append]
        exact hstep h _ i ih
  exact AtEach.congr fun h i => hok h _ i (hI h)

end

/-! ## Flags and backups -/

section
variable {ν φ β ι : Type} [DecidableEq β] {flagOf : ι → φ} {backupOf : ι → β} {value : ι → ν} {given : β → ν}
  {called : φ → Bool} {backup : β → ν} {h : List ι}

/-- The flags say what has been read; the backups hold what was read last, or at first what they were given. -/
structure Remembers (flagOf : ι → φ) (backupOf : ι → β) (value : ι → ν) (given : β → ν) (called : φ → Bool)
    (backup : β → ν) (h : List ι) : Prop where
  called_iff : ∀ f, called f = true ↔ f ∈ h.map flagOf
  backup_eq : ∀ b, backup b = (lastOf (h.map fun i => (backupOf i, value i)) b).getD (given b)

theorem remembers_nil : Remembers flagOf backupOf value given (fun _ => false) given [] where
  called_iff f := by simp
  backup_eq b := rfl

/-- A read sets its flag and its backup. -/
theorem Remembers.read [DecidableEq φ] (hr : Remembers flagOf backupOf value given called backup h) (i : ι) :
    Remembers flagOf backupOf value given (Function.update called (flagOf i) true)
      (Function.update backup (backupOf i) (value i)) (h ++ [i]) where
  called_iff f := by
    rw [List.map_append, List.mem_append, List.map_singleton, List.mem_singleton, ← hr.called_iff, Function.update_apply]
    by_cases hf : f = flagOf i
    · simp [hf]
    · simp [hf]
  backup_eq b := by
    rw [List.map_append, List.map_singleton, lastOf_concat, Function.update_apply]
    by_cases hb : b = backupOf i
    · rw [if_pos hb, if_pos hb]
      rfl
    · rw [if_neg hb, if_neg hb]
      exact hr.backup_eq b

end

section
variable {ν β ι : Type} [DecidableEq β] {slot : ι → β} {value : ι → ν} {given : β → ν} {called : β → Bool}
  {backup : β → ν} {h : List ι}

theorem Remembers.called_slot_iff (hr : Remembers slot slot value given called backup h) (i : ι) :
    called (slot i) = true ↔ (lastOf (h.map fun i => (slot i, value i)) (slot i)).isSome = true := by
  rw [hr.called_iff, lastOf_isSome, List.map_map]
  rfl

/-- With a flag and a backup for each parameter, the comparison tells exactly the changes. -/
theorem Remembers.changed_iff [DecidableEq ν] (hr : Remembers slot slot value given called backup h) (i : ι) :
    (called (slot i) && decide (backup (slot i) ≠ value i)) = true ↔
      Changed (h.map fun i => (slot i, value i)) (slot i) (value i) := by
  rw [Bool.and_eq_true, decide_eq_true_eq, hr.called_slot_iff, hr.backup_eq, Changed]
  cases lastOf (h.map fun i => (slot i, value i)) (slot i) with
  | none => simp
  | some u => simp

/-- Without the comparison every value must be new. -/
theorem Remembers.called_changed_iff (hr : Remembers slot slot value given called backup h) (i : ι) :
    (called (slot i) = true ↔ Changed (h.map fun i => (slot i, value i)) (slot i) (value i)) ↔
      ∀ u, lastOf (h.map fun i => (slot i, value i)) (slot i) = some u → u ≠ value i := by
  rw [hr.called_slot_iff, Changed]
  cases lastOf (h.map fun i => (slot i, value i)) (slot i) with
  | none => simp
  | some u => simp

end

end Tr69HostIf.Store
