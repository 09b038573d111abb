import Tr69HostIf.Clib.Decimal
import Tr69HostIf.Store.Lines
import Tr69HostIf.Store.Replay
import Tr69HostIf.Store.Scan

/-!
# Add and remove events

The two ways in which the handlers announce that the number of instances of a table has changed: the shared
`sendAddRemoveEvents` of `hostIf_updateHandler.cpp`, which moves the saved count to the new one, and the loops
written out in `DeviceClientReqHandler` and `EthernetClientReqHandler`, which move the new count to the saved one.

* `Table` : the tables announced so, with their paths; `path_inj`, `instancePath_inj` : the paths tell them apart;
* `sendAddRemoveEvents`, `announce` : the two, with the saved count afterwards;
* `sendAddRemoveEvents_eq`, `announce_eq` : their events as changes of the table;
* `receive` : what a subscriber does with an event, `receiveAll_map_eventOf` : it replays the changes.
-/

namespace Tr69HostIf.Update
open Store Clib

/-- `IARM_BUS_TR69HOSTIFMGR_EVENT_ADD` and `IARM_BUS_TR69HOSTIFMGR_EVENT_REMOVE`. -/
inductive EventKind
  | add | remove
  deriving DecidableEq

/-- What the update callback is called with. -/
structure Event where
  kind : EventKind
  path : Text
  deriving DecidableEq

/-! ## The loops -/

/-- The first loop of `sendAddRemoveEvents`: the events and `savedValue` afterwards. -/
def removeLoop (newValue : Nat) (objectPath : Text) : Nat → List Event × Nat
  | 0 => ([], 0)
  | savedValue + 1 =>
      if newValue < savedValue + 1 then
        let r := removeLoop newValue objectPath savedValue
        (⟨.remove, objectPath ++ printNat (savedValue + 1) ++ ['.']⟩ :: r.1, r.2)
      else ([], savedValue + 1)

/-- The second loop of `sendAddRemoveEvents`, at most `rounds` times. -/
def addLoop (newValue : Nat) (objectPath : Text) : Nat → Nat → List Event × Nat
  | 0, savedValue => ([], savedValue)
  | rounds + 1, savedValue =>
      if savedValue < newValue then
        let r := addLoop newValue objectPath rounds (savedValue + 1)
        (⟨.add, objectPath⟩ :: r.1, r.2)
      else ([], savedValue)

/-- `sendAddRemoveEvents`. -/
def sendAddRemoveEvents (newValue savedValue : Nat) (objectPath : Text) : List Event × Nat :=
  let r := removeLoop newValue objectPath savedValue
  let a := addLoop newValue objectPath newValue r.2
  (r.1 ++ a.1, a.2)

/-- `while (saved > tmpNoDev)` with `tmpNoDev++`, at most `rounds` times: the events and `tmpNoDev` afterwards. -/
def removeUpLoop (saved : Nat) (tmpBuff : Text) : Nat → Nat → List Event × Nat
  | 0, tmpNoDev => ([], tmpNoDev)
  | rounds + 1, tmpNoDev =>
      if tmpNoDev < saved then
        let r := removeUpLoop saved tmpBuff rounds (tmpNoDev + 1)
        (⟨.remove, tmpBuff ++ '.' :: printNat tmpNoDev ++ ['.']⟩ :: r.1, r.2)
      else ([], tmpNoDev)

/-- `while (saved < tmpNoDev)` with `tmpNoDev--`. -/
def addDownLoop (saved : Nat) (tmpBuff : Text) : Nat → List Event × Nat
  | 0 => ([], 0)
  | tmpNoDev + 1 =>
      if saved < tmpNoDev + 1 then
        let r := addDownLoop saved tmpBuff tmpNoDev
        (⟨.add, tmpBuff ++ ['.']⟩ :: r.1, r.2)
      else ([], tmpNoDev + 1)

/-- The two loops of `DeviceClientReqHandler::checkForUpdates` and `EthernetClientReqHandler::checkForUpdates` for
the table `tmpBuff`, and the count they save. -/
def announce (tmpBuff : Text) (polled saved : Nat) : List Event × Nat :=
  let r := removeUpLoop saved tmpBuff saved polled
  (r.1 ++ (addDownLoop saved tmpBuff r.2).1, polled)

theorem removeLoop_eq (n s : Nat) (path : Text) :
    removeLoop n path s =
      ((List.range' (n + 1) (s - n)).reverse.map fun j => ⟨.remove, path ++ printNat j ++ ['.']⟩, min s n) := by
  induction s with
  | zero => simp [removeLoop]
  | succ s ih =>
      rw [removeLoop]
      by_cases h : n < s + 1
      · rw [if_pos h, ih, show s + 1 - n = s - n + 1 by omega, List.range'_concat, List.reverse_append]
        simp only [List.reverse_singleton, List.singleton_append, List.map_cons, Nat.one_mul]
        rw [show n + 1 + (s - n) = s + 1 by omega, show min s n = min (s + 1) n by omega]
      · rw [if_neg h, show s + 1 - n = 0 by omega, show min (s + 1) n = s + 1 by omega]
        rfl

theorem addLoop_eq {n rounds s : Nat} (path : Text) (h : n ≤ s + rounds) :
    addLoop n path rounds s = (List.replicate (n - s) ⟨.add, path⟩, max s n) := by
  induction rounds generalizing s with
  | zero =>
      rw [addLoop, show n - s = 0 by omega, show max s n = s by omega]
      rfl
  | succ rounds ih =>
      rw [addLoop]
      by_cases hs : s < n
      · rw [if_pos hs, ih (by omega), show n - s = n - (s + 1) + 1 by omega, List.replicate_succ,
          show max (s + 1) n = max s n by omega]
      · rw [if_neg hs, show n - s = 0 by omega, show max s n = s by omega]
        rfl

theorem removeUpLoop_eq {s rounds n : Nat} (path : Text) (h : s ≤ n + rounds) :
    removeUpLoop s path rounds n =
      ((List.range' n (s - n)).map fun j => ⟨.remove, path ++ '.' :: printNat j ++ ['.']⟩, max n s) := by
  induction rounds generalizing n with
  | zero =>
      rw [removeUpLoop, show s - n = 0 by omega, show max n s = n by omega]
      rfl
  | succ rounds ih =>
      rw [removeUpLoop]
      by_cases hs : n < s
      · rw [if_pos hs, ih (by omega), show s - n = s - (n + 1) + 1 by omega, List.range'_succ,
          show max (n + 1) s = max n s by omega]
        rfl
      · rw [if_neg hs, show s - n = 0 by omega, show max n s = n by omega]
        rfl

theorem addDownLoop_eq (s n : Nat) (path : Text) :
    addDownLoop s path n = (List.replicate (n - s) ⟨.add, path ++ ['.']⟩, min n s) := by
  induction n with
  | zero => simp [addDownLoop]
  | succ n ih =>
      rw [addDownLoop]
      by_cases h : s < n + 1
      · rw [if_pos h, ih, show n + 1 - s = n - s + 1 by omega, List.replicate_succ,
          show min n s = min (n + 1) s by omega]
      · rw [if_neg h, show n + 1 - s = 0 by omega, show min (n + 1) s = n + 1 by omega]
        rfl

/-! ## The tables -/

/-- The tables whose instances are announced. -/
inductive Table
  | process | processor | ethernet | ipInterface
  | ipv4Address (i : Nat) | ipv6Address (i : Nat) | ipv6Prefixes (i : Nat)
  deriving DecidableEq

/-- The object path of a table, as an ADD event names it. -/
def Table.path : Table → Text
  | .process => "Device.DeviceInfo.ProcessStatus.Process.".toList
  | .processor => "Device.DeviceInfo.Processor.".toList
  | .ethernet => "Device.Ethernet.Interface.".toList
  | .ipInterface => "Device.IP.Interface.".toList
  | .ipv4Address i => "Device.IP.Interface.".toList ++ printNat i ++ ".IPv4Address.".toList
  | .ipv6Address i => "Device.IP.Interface.".toList ++ printNat i ++ ".IPv6Address.".toList
  | .ipv6Prefixes i => "Device.IP.Interface.".toList ++ printNat i ++ ".IPv6Prefix.".toList

/-- The path of an instance, as a REMOVE event names it. -/
def Table.instancePath (t : Table) (j : Nat) : Text := t.path ++ printNat j ++ ['.']

/-- The parts of a table's path between its dots. -/
def Table.parts : Table → List Text
  | .process => ["Device".toList, "DeviceInfo".toList, "ProcessStatus".toList, "Process".toList]
  | .processor => ["Device".toList, "DeviceInfo".toList, "Processor".toList]
  | .ethernet => ["Device".toList, "Ethernet".toList, "Interface".toList]
  | .ipInterface => ["Device".toList, "IP".toList, "Interface".toList]
  | .ipv4Address i => ["Device".toList, "IP".toList, "Interface".toList, printNat i, "IPv4Address".toList]
  | .ipv6Address i => ["Device".toList, "IP".toList, "Interface".toList, printNat i, "IPv6Address".toList]
  | .ipv6Prefixes i => ["Device".toList, "IP".toList, "Interface".toList, printNat i, "IPv6Prefix".toList]

theorem terminate_interface (x name : Text) :
    terminate '.' ["Device".toList, "IP".toList, "Interface".toList, x, name] =
      "Device.IP.Interface.".toList ++ (x ++ '.' :: (name ++ ['.'])) := by
  simp only [terminate_cons]
  rfl

theorem path_eq_terminate (t : Table) : t.path = terminate '.' t.parts := by
  cases t with
  | process => rfl
  | processor => rfl
  | ethernet => rfl
  | ipInterface => rfl
  | ipv4Address i => exact (List.append_assoc _ _ _).trans (terminate_interface (printNat i) "IPv4Address".toList).symm
  | ipv6Address i => exact (List.append_assoc _ _ _).trans (terminate_interface (printNat i) "IPv6Address".toList).symm
  | ipv6Prefixes i => exact (List.append_assoc _ _ _).trans (terminate_interface (printNat i) "IPv6Prefix".toList).symm

theorem dot_not_mem_printNat (n : Nat) : '.' ∉ printNat n := (digits_printNat n).not_mem (by decide)

theorem dot_not_mem_parts (t : Table) : ∀ x ∈ t.parts, '.' ∉ x := by
  cases t <;> simp [Table.parts, dot_not_mem_printNat]

theorem parts_inj {t u : Table} (h : t.parts = u.parts) : t = u := by
  cases t <;> cases u <;> simp [Table.parts] at h <;> first | rfl | exact congrArg _ (printNat_injective h)

theorem path_inj {t u : Table} (h : t.path = u.path) : t = u := by
  rw [path_eq_terminate, path_eq_terminate] at h
  exact parts_inj (terminate_inj (dot_not_mem_parts t) (dot_not_mem_parts u) h)

theorem instancePath_eq_terminate (t : Table) (j : Nat) :
    t.instancePath j = terminate '.' (t.parts ++ [printNat j]) := by
  rw [Table.instancePath, path_eq_terminate, terminate_append, List.append_assoc]
  simp [terminate]

/-- **The paths tell tables and instances apart.** -/
theorem instancePath_inj {t u : Table} {i j : Nat} (h : t.instancePath i = u.instancePath j) : t = u ∧ i = j := by
  have hfree : ∀ (v : Table) (k : Nat), ∀ x ∈ v.parts ++ [printNat k], '.' ∉ x := fun v k x hx => by
    rcases List.mem_append.mp hx with hx | hx
    · exact dot_not_mem_parts v x hx
    · rw [List.mem_singleton.mp hx]
      exact dot_not_mem_printNat k
  rw [instancePath_eq_terminate, instancePath_eq_terminate] at h
  have hparts := terminate_inj (hfree t i) (hfree u j) h
  obtain ⟨htu, hij⟩ := List.append_inj' hparts rfl
  exact ⟨parts_inj htu, printNat_injective (List.cons.inj hij).1⟩

/-! ## Events as changes -/

/-- The event that announces a change. -/
def eventOf : Change Table → Event
  | .add t => ⟨.add, t.path⟩
  | .remove t j => ⟨.remove, t.instancePath j⟩

theorem eventOf_inj {c d : Change Table} (h : eventOf c = eventOf d) : c = d := by
  cases c with
  | add t =>
      cases d with
      | add u => rw [path_inj (congrArg Event.path h)]
      | remove u j => exact absurd (congrArg Event.kind h) (by simp [eventOf])
  | remove t i =>
      cases d with
      | add u => exact absurd (congrArg Event.kind h) (by simp [eventOf])
      | remove u j =>
          obtain ⟨rfl, rfl⟩ := instancePath_inj (congrArg Event.path h)
          rfl

/-- The changes `sendAddRemoveEvents` announces: the last instances removed downwards, or new ones added. -/
def sharedChanges (t : Table) (newValue savedValue : Nat) : List (Change Table) :=
  removals t newValue (savedValue - newValue) ++ List.replicate (newValue - savedValue) (.add t)

/-- The changes of the loops written out: the same number of instances, but removed upwards from the new count. -/
def upwardChanges (t : Table) (polled saved : Nat) : List (Change Table) :=
  (List.range' polled (saved - polled)).map (Change.remove t) ++ List.replicate (polled - saved) (.add t)

/-- **What `sendAddRemoveEvents` announces, and that it saves the new count.** -/
theorem sendAddRemoveEvents_eq (t : Table) (n s : Nat) :
    sendAddRemoveEvents n s t.path = ((sharedChanges t n s).map eventOf, n) := by
  rw [sendAddRemoveEvents, removeLoop_eq]
  simp only
  rw [addLoop_eq t.path (by omega), sharedChanges, removals, List.map_append, List.map_map, List.map_replicate,
    show n - min s n = n - s by omega, show max (min s n) n = n by omega]
  rfl

/-- **What the loops written out announce.** -/
theorem announce_eq {t : Table} {tmpBuff : Text} (ht : t.path = tmpBuff ++ ['.']) (n s : Nat) :
    announce tmpBuff n s = ((upwardChanges t n s).map eventOf, n) := by
  have hinst : ∀ j, eventOf (.remove t j) = ⟨.remove, tmpBuff ++ '.' :: printNat j ++ ['.']⟩ := fun j => by
    simp [eventOf, Table.instancePath, ht]
  rw [announce, removeUpLoop_eq tmpBuff (by omega)]
  simp only
  rw [addDownLoop_eq, upwardChanges, List.map_append, List.map_map, List.map_replicate,
    show max n s - s = n - s by omega, eventOf, ht]
  simp only [Function.comp_def, hinst]

theorem sharedChanges_self (t : Table) (n : Nat) : sharedChanges t n n = [] := by
  simp [sharedChanges, removals]

theorem table_of_mem_sharedChanges {t : Table} {n s : Nat} {c : Change Table} (h : c ∈ sharedChanges t n s) :
    c.table = t := by
  rcases List.mem_append.mp h with h | h
  · obtain ⟨j, -, rfl⟩ := List.mem_map.mp h
    rfl
  · rw [List.eq_of_mem_replicate h]
    rfl

theorem table_of_mem_upwardChanges {t : Table} {n s : Nat} {c : Change Table} (h : c ∈ upwardChanges t n s) :
    c.table = t := by
  rcases List.mem_append.mp h with h | h
  · obtain ⟨j, -, rfl⟩ := List.mem_map.mp h
    rfl
  · rw [List.eq_of_mem_replicate h]
    rfl

/-- Replaying the shared helper's changes turns the saved instances into the new ones. -/
theorem replay_sharedChanges {T : Tables Table} {t : Table} {n s : Nat} (h : T t = upTo s) :
    T.replay (sharedChanges t n s) t = upTo n := by
  rw [sharedChanges, replay_append]
  have hremoved : T.replay (removals t n (s - n)) t = upTo (min n s) := by
    by_cases hns : n ≤ s
    · rw [Nat.min_eq_left hns]
      exact replay_removes (by rw [h, show n + (s - n) = s by omega])
    · rw [show s - n = 0 by omega, Nat.min_eq_right (by omega)]
      exact h
  rw [replay_adds hremoved, show min n s + (n - s) = n by omega]

/-- The changes of the loops written out lead to the new instances exactly when the count does not fall. -/
theorem replay_upwardChanges_iff {T : Tables Table} {t : Table} {n s : Nat} (h : T t = upTo s) :
    T.replay (upwardChanges t n s) t = upTo n ↔ s ≤ n := by
  rw [upwardChanges, replay_append]
  by_cases hns : s ≤ n
  · rw [show s - n = 0 by omega]
    refine iff_of_true ?_ hns
    rw [List.range'_zero, List.map_nil, replay_nil, replay_adds h, show s + (n - s) = n by omega]
  · rw [show n - s = 0 by omega]
    exact iff_of_false (replay_removes_up h (by omega)) hns

/-! ## The subscriber -/

/-- What a subscriber does with an event: an ADD of a table appends its next instance number, a REMOVE deletes the
instance whose path it names. -/
def receive (T : Tables Table) (e : Event) : Tables Table := fun t =>
  match e.kind with
  | .add => if e.path = t.path then T t ++ [next (T t)] else T t
  | .remove => (T t).filter fun j => e.path ≠ t.instancePath j

/-- The tables after a list of events. -/
def receiveAll (T : Tables Table) (l : List Event) : Tables Table := l.foldl receive T

theorem receive_eventOf (T : Tables Table) (c : Change Table) : receive T (eventOf c) = T.apply c := by
  funext t
  cases c with
  | add u =>
      by_cases h : t = u
      · subst h
        simp [receive, eventOf, Tables.apply]
      · have hp : u.path ≠ t.path := fun hp => h (path_inj hp).symm
        simp [receive, eventOf, Tables.apply, h, hp]
  | remove u j =>
      by_cases h : t = u
      · subst h
        have hj : ∀ i, t.instancePath j ≠ t.instancePath i ↔ i ≠ j := fun i =>
          ⟨fun hne hij => hne (by rw [hij]), fun hne hp => hne (instancePath_inj hp).2.symm⟩
        simp only [receive, eventOf, Tables.apply, Function.update_self, hj]
      · have hp : ∀ i, u.instancePath j ≠ t.instancePath i := fun i hp => h (instancePath_inj hp).1.symm
        simp [receive, eventOf, Tables.apply, h, hp]

/-- **A subscriber that reads paths replays the changes.** -/
theorem receiveAll_map_eventOf (T : Tables Table) (l : List (Change Table)) :
    receiveAll T (l.map eventOf) = T.replay l := by
  rw [receiveAll, List.foldl_map, Tables.replay]
  simp only [receive_eventOf]

end Tr69HostIf.Update
