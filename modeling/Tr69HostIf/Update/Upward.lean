import Tr69HostIf.Store.Run
import Tr69HostIf.Update.Events

/-!
# The add and remove loops written out in the handlers

`DeviceClientReqHandler::checkForUpdates` announces the tables of processes and processors, and
`EthernetClientReqHandler::checkForUpdates` that of Ethernet interfaces, with their own loops instead of
`sendAddRemoveEvents`. When a count falls from `s` to `n` they remove `n, …, s - 1` where the helper removes
`s, …, n + 1`.

* `checkForUpdates` : one poll of a handler;
* `Refines` : the poll announces what the helper would, up to order, and saves the new counts;
* `announces_right_iff` : a poll does so exactly when no count falls, and a subscriber is right after every poll of
  a run exactly when no count ever falls.
-/

namespace Tr69HostIf.Update
open Store Clib

/-- The tables these handlers count. -/
inductive Counted
  | process | processor | ethernet
  deriving DecidableEq

/-- `tmp_buff`. -/
def Counted.tmpBuff : Counted → Text
  | .process => "Device.DeviceInfo.ProcessStatus.Process".toList
  | .processor => "Device.DeviceInfo.Processor".toList
  | .ethernet => "Device.Ethernet.Interface".toList

def Counted.table : Counted → Table
  | .process => .process
  | .processor => .processor
  | .ethernet => .ethernet

/-- The two handlers. -/
inductive Handler
  | deviceClient | ethernetClient
  deriving DecidableEq

/-- The tables a handler polls, in order. -/
def Handler.tables : Handler → List Counted
  | .deviceClient => [.process, .processor]
  | .ethernetClient => [.ethernet]

/-- `curNumOfProcess[1]`, `curNumOfProcessor[1]` and `curNumOfDevices[1]`. -/
abbrev Saved := Counted → Nat

/-- What the getters of the numbers of entries return, `none` when one does not return `OK`. -/
abbrev Poll := Counted → Option Nat

/-- One `if` of `checkForUpdates`. -/
def pollTable (p : Poll) (s : Saved) (c : Counted) : List Event × Saved :=
  match p c with
  | none => ([], s)
  | some n =>
      let r := announce c.tmpBuff n (s c)
      (r.1, Function.update s c r.2)

/-- The handler's tables one after the other. -/
def pollTables (p : Poll) : Saved → List Counted → List Event × Saved
  | s, [] => ([], s)
  | s, c :: cs =>
      let r := pollTable p s c
      let rest := pollTables p r.2 cs
      (r.1 ++ rest.1, rest.2)

/-- `checkForUpdates` of a handler, with a registered callback. -/
def checkForUpdates (h : Handler) (p : Poll) (s : Saved) : List Event × Saved := pollTables p s h.tables

/-- What the shared helper would announce for the same counts. -/
def sharedEvents (h : Handler) (p : Poll) (s : Saved) : List Event :=
  h.tables.flatMap fun c =>
    match p c with
    | none => []
    | some n => (sendAddRemoveEvents n (s c) c.table.path).1

/-- The poll announces what the shared helper would, in some order, and saves the new counts. -/
def Refines (h : Handler) (p : Poll) (s : Saved) : Prop :=
  (checkForUpdates h p s).1.Perm (sharedEvents h p s) ∧
    ∀ c ∈ h.tables, ∀ n, p c = some n → (checkForUpdates h p s).2 c = n

/-- No count the poll reports is below the saved one. -/
def NotFalling (h : Handler) (p : Poll) (s : Saved) : Prop := ∀ c ∈ h.tables, ∀ n, p c = some n → s c ≤ n

/-! ## One poll -/

theorem path_table (c : Counted) : c.table.path = c.tmpBuff ++ ['.'] := by
  cases c <;> rfl

/-- The changes of one table that a poll announces. -/
def tableChanges (p : Poll) (s : Saved) (c : Counted) : List (Change Table) :=
  match p c with
  | none => []
  | some n => upwardChanges c.table n (s c)

/-- The counts saved after a poll of some tables. -/
def savedAfter (p : Poll) (s : Saved) (cs : List Counted) : Saved := fun c => if c ∈ cs then (p c).getD (s c) else s c

theorem pollTable_eq (p : Poll) (s : Saved) (c : Counted) :
    pollTable p s c = ((tableChanges p s c).map eventOf, savedAfter p s [c]) := by
  unfold pollTable tableChanges savedAfter
  cases hp : p c with
  | none =>
      refine Prod.ext rfl ?_
      funext d
      by_cases hd : d = c
      · simp [hd, hp]
      · simp [hd]
  | some n =>
      simp only [announce_eq (path_table c)]
      refine Prod.ext rfl ?_
      funext d
      by_cases hd : d = c
      · simp [hd, hp]
      · simp [hd]

theorem pollTables_eq (p : Poll) (s : Saved) {cs : List Counted} (hcs : cs.Nodup) :
    pollTables p s cs = ((cs.flatMap (tableChanges p s)).map eventOf, savedAfter p s cs) := by
  induction cs generalizing s with
  | nil =>
      refine Prod.ext rfl ?_
      funext d
      simp [pollTables, savedAfter]
  | cons c cs ih =>
      rw [List.nodup_cons] at hcs
      have hsame : cs.flatMap (tableChanges p (savedAfter p s [c])) = cs.flatMap (tableChanges p s) := by
        refine List.flatMap_congr fun d hd => ?_
        have hdc : d ≠ c := fun h => hcs.1 (h ▸ hd)
        simp [tableChanges, savedAfter, hdc]
      rw [pollTables, pollTable_eq]
      simp only [ih _ hcs.2, hsame]
      refine Prod.ext (by simp) ?_
      funext d
      by_cases hd : d = c
      · subst hd
        simp [savedAfter, hcs.1]
      · simp [savedAfter, hd]

theorem nodup_tables (h : Handler) : h.tables.Nodup := by
  cases h <;> decide

theorem checkForUpdates_eq (h : Handler) (p : Poll) (s : Saved) :
    checkForUpdates h p s = ((h.tables.flatMap (tableChanges p s)).map eventOf, savedAfter p s h.tables) :=
  pollTables_eq p s (nodup_tables h)

theorem table_inj {c d : Counted} (h : c.table = d.table) : c = d := by
  cases c <;> cases d <;> first | rfl | cases h

theorem table_of_mem_tableChanges {p : Poll} {s : Saved} {c : Counted} {x : Change Table}
    (h : x ∈ tableChanges p s c) : x.table = c.table := by
  unfold tableChanges at h
  split at h
  · exact absurd h List.not_mem_nil
  · exact table_of_mem_upwardChanges h

/-- The same with the changes of the shared helper. -/
def sharedTableChanges (p : Poll) (s : Saved) (c : Counted) : List (Change Table) :=
  match p c with
  | none => []
  | some n => sharedChanges c.table n (s c)

theorem sharedEvents_eq (h : Handler) (p : Poll) (s : Saved) :
    sharedEvents h p s = (h.tables.flatMap (sharedTableChanges p s)).map eventOf := by
  rw [sharedEvents, List.map_flatMap]
  refine List.flatMap_congr fun c _ => ?_
  unfold sharedTableChanges
  cases p c with
  | none => rfl
  | some n => simp only [sendAddRemoveEvents_eq]

/-- When no count falls the loops do what the helper does. -/
theorem tableChanges_eq_shared {p : Poll} {s : Saved} {c : Counted} (h : ∀ n, p c = some n → s c ≤ n) :
    tableChanges p s c = sharedTableChanges p s c := by
  unfold tableChanges sharedTableChanges
  cases hp : p c with
  | none => rfl
  | some n =>
      have hn := h n hp
      simp only [upwardChanges, sharedChanges, removals]
      rw [show s c - n = 0 by omega]
      rfl

/-- The helper removes the last instance when a count falls, the loops do not. -/
theorem le_of_remove_mem {p : Poll} {s : Saved} {h : Handler} {c : Counted} {n : Nat} (hp : p c = some n)
    (hmem : Change.remove c.table (s c) ∈ h.tables.flatMap (tableChanges p s)) : s c ≤ n := by
  obtain ⟨d, -, hd⟩ := List.mem_flatMap.mp hmem
  obtain rfl : c = d := table_inj (table_of_mem_tableChanges hd)
  simp only [tableChanges, hp, upwardChanges, List.mem_append, List.mem_map, List.mem_replicate, reduceCtorEq,
    and_false, or_false] at hd
  obtain ⟨j, hj, hjs⟩ := hd
  injection hjs with _ hjs
  rw [List.mem_range'_1] at hj
  omega

theorem remove_mem_shared {p : Poll} {s : Saved} {h : Handler} {c : Counted} (hc : c ∈ h.tables) {n : Nat}
    (hp : p c = some n) (hlt : n < s c) : Change.remove c.table (s c) ∈ h.tables.flatMap (sharedTableChanges p s) := by
  refine List.mem_flatMap.mpr ⟨c, hc, ?_⟩
  simp only [sharedTableChanges, hp, sharedChanges, removals]
  refine List.mem_append_left _ (List.mem_map.mpr ⟨s c, ?_, rfl⟩)
  rw [List.mem_reverse, List.mem_range'_1]
  omega

/-- A poll announces what the shared helper would exactly when no count falls. -/
theorem refines_iff (h : Handler) (p : Poll) (s : Saved) : Refines h p s ↔ NotFalling h p s := by
  unfold Refines
  rw [checkForUpdates_eq, sharedEvents_eq]
  constructor
  · rintro ⟨hperm, -⟩ c hc n hp
    by_contra hlt
    have hmem := List.mem_map_of_mem (f := eventOf) (remove_mem_shared hc hp (Nat.lt_of_not_le hlt))
    obtain ⟨x, hx, hxe⟩ := List.mem_map.mp (hperm.mem_iff.mpr hmem)
    rw [eventOf_inj hxe] at hx
    exact hlt (le_of_remove_mem hp hx)
  · intro hn
    refine ⟨?_, fun c hc n hp => by simp [savedAfter, hc, hp]⟩
    rw [List.flatMap_congr fun c hc => tableChanges_eq_shared (hn c hc)]

/-! ## Runs of polls -/

/-- The handlers' counts and the tables of a subscriber to their events. -/
structure Watched where
  saved : Saved
  tables : Tables Table

/-- The counts are reset and the subscriber has no instances. -/
def Watched.reset : Watched := ⟨fun _ => 0, fun _ => []⟩

/-- One poll of one handler. -/
def Watched.step (w : Watched) (i : Handler × Poll) : Watched :=
  let r := checkForUpdates i.1 i.2 w.saved
  ⟨r.2, receiveAll w.tables r.1⟩

/-- The subscriber holds the instances `1, …, n` of each table the poll reported. -/
def Watched.Shows (w : Watched) (i : Handler × Poll) : Prop :=
  ∀ c ∈ i.1.tables, ∀ n, i.2 c = some n → w.tables c.table = upTo n

/-- The subscriber holds what the handlers have saved. -/
def Watched.InStep (w : Watched) : Prop := ∀ c : Counted, w.tables c.table = upTo (w.saved c)

theorem tables_step {w : Watched} (hw : w.InStep) (i : Handler × Poll) (c : Counted) :
    (w.step i).tables c.table =
      if c ∈ i.1.tables then w.tables.replay (tableChanges i.2 w.saved c) c.table else upTo (w.saved c) := by
  rw [Watched.step, checkForUpdates_eq]
  simp only
  rw [receiveAll_map_eventOf]
  split
  · next hc =>
    exact replay_flatMap (fun _ _ => table_inj) (fun _ _ => table_of_mem_tableChanges) w.tables (nodup_tables i.1) hc
  · next hc =>
    rw [replay_frame, hw c]
    intro x hx
    obtain ⟨d, hd, hxd⟩ := List.mem_flatMap.mp hx
    rw [table_of_mem_tableChanges hxd]
    exact fun h => hc (table_inj h ▸ hd)

/-- After a poll the subscriber is right exactly when no count fell. -/
theorem shows_iff {w : Watched} (hw : w.InStep) (i : Handler × Poll) :
    (w.step i).Shows i ↔ NotFalling i.1 i.2 w.saved := by
  unfold Watched.Shows NotFalling
  refine forall₂_congr fun c hc => forall₂_congr fun n hp => ?_
  rw [tables_step hw, if_pos hc]
  simp only [tableChanges, hp]
  exact replay_upwardChanges_iff (hw c)

theorem inStep_step {w : Watched} (hw : w.InStep) {i : Handler × Poll} (hn : NotFalling i.1 i.2 w.saved) :
    (w.step i).InStep := by
  intro c
  rw [tables_step hw, Watched.step, checkForUpdates_eq]
  simp only [savedAfter]
  split
  · next hc =>
    cases hp : i.2 c with
    | none =>
        simp only [tableChanges, hp]
        exact hw c
    | some n =>
        simp only [tableChanges, hp]
        exact (replay_upwardChanges_iff (hw c)).mpr (hn c hc n hp)
  · rfl

/-- **The loops written out refine the shared helper, poll by poll and over runs, exactly as long as no count
falls.** -/
theorem announces_right_iff (h : Handler) (p : Poll) (s : Saved) (l : List (Handler × Poll)) :
    (Refines h p s ↔ NotFalling h p s) ∧
      (Along Watched.step (fun w i => (w.step i).Shows i) Watched.reset l ↔
        Along Watched.step (fun w i => NotFalling i.1 i.2 w.saved) Watched.reset l) :=
  ⟨refines_iff h p s, Along.congr (fun _ _ hw hn => inStep_step hw hn) (fun _ i hw => shows_iff hw i)
    (fun _ => rfl) l⟩

/-- Two processors, then one: the second poll removes instance 1 where the helper removes instance 2. -/
theorem falling_count_misnamed :
    let p : Poll := fun c => if c = .processor then some 1 else none
    let s : Saved := fun c => if c = .processor then 2 else 0
    (checkForUpdates .deviceClient p s).1 = [⟨.remove, "Device.DeviceInfo.Processor.1.".toList⟩] ∧
      sharedEvents .deviceClient p s = [⟨.remove, "Device.DeviceInfo.Processor.2.".toList⟩] ∧
      ¬ Refines .deviceClient p s := by
  refine ⟨by decide, by decide, fun h => ?_⟩
  have hmem := h.1.mem_iff (a := ⟨.remove, "Device.DeviceInfo.Processor.2.".toList⟩)
  revert hmem
  decide

end Tr69HostIf.Update
