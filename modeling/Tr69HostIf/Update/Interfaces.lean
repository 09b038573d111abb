import Tr69HostIf.Store.Run
import Tr69HostIf.Update.Events

/-!
# The events of the IP handler

`IPClientReqHandler::checkForUpdates`, built with `IPV6_SUPPORT`. The counts of the address and prefix tables are
handed to `sendAddRemoveEvents` by reference; the number of interfaces is handed over as a local copy that is never
written back, so every poll announces all interfaces again.

* `checkForUpdates`, `Monitor.step` : one poll, and what a subscriber makes of its events;
* `Monitor.Right` : after the poll the subscriber holds exactly what was reported, and unchanged counts are silent;
* `Monitor.Reportable` : nothing has been announced for the interface table yet, and the interfaces the poll does
  not visit have not changed;
* `interfaces_right_iff` : over every run of polls the two agree.
-/

namespace Tr69HostIf.Update.IP
open Store Clib

/-- `MAX_IFCS`. -/
def maxIfcs : Nat := 256

/-- The length of `curNumOfInterfaceIPv4Addresses` and of the two arrays for IPv6. -/
def maxIndex : Nat := 100

/-- What one poll finds. -/
structure Poll where
  /-- `get_Device_IP_InterfaceNumberOfEntries`, `none` when it does not return `OK` -/
  interfaceNumberOfEntries : Option Nat
  /-- the array `getIPIfcIDs` fills -/
  ifindexes : Nat → Nat
  /-- the numbers of addresses and prefixes of the interfaces -/
  count : Table → Nat

/-- `curNumOfIPInterface` and the arrays of saved counts. -/
abbrev Saved := Table → Nat

/-- The tables of one interface. -/
def tablesOf (i : Nat) : List Table := [.ipv4Address i, .ipv6Address i, .ipv6Prefixes i]

/-- The tables the loop of `checkForUpdates` visits. -/
def Poll.visited (p : Poll) : List Table :=
  (((List.range (min (p.interfaceNumberOfEntries.getD 0) maxIfcs)).map p.ifindexes).filter
    fun i => 0 < i && i < maxIndex).flatMap tablesOf

/-- The calls of `sendAddRemoveEvents` for a list of tables. -/
def sendAll (count : Table → Nat) : Saved → List Table → List Event × Saved
  | s, [] => ([], s)
  | s, t :: ts =>
      let r := sendAddRemoveEvents (count t) (s t) t.path
      let rest := sendAll count (Function.update s t r.2) ts
      (r.1 ++ rest.1, rest.2)

/-- `IPClientReqHandler::checkForUpdates`, with a registered callback. -/
def checkForUpdates (p : Poll) (s : Saved) : List Event × Saved :=
  let interfaces := match p.interfaceNumberOfEntries with
    | none => []
    | some n =>
        let currentNumOfIPInterface := s .ipInterface
        (sendAddRemoveEvents n currentNumOfIPInterface Table.ipInterface.path).1
  let rest := sendAll p.count s p.visited
  (interfaces ++ rest.1, rest.2)

/-! ## What a poll announces -/

/-- The saved counts after the tables `ts`. -/
def savedAfter (count : Table → Nat) (s : Saved) (ts : List Table) : Saved := fun t => if t ∈ ts then count t else s t

/-- The calls announce changes of the visited tables that lead a subscriber who holds the saved instances to the
reported ones. -/
theorem sendAll_spec (count : Table → Nat) (s : Saved) (ts : List Table) :
    ∃ cs : List (Change Table), sendAll count s ts = (cs.map eventOf, savedAfter count s ts) ∧
      (∀ c ∈ cs, c.table ∈ ts) ∧
      ∀ T : Tables Table, (∀ t ∈ ts, T t = upTo (s t)) → ∀ t ∈ ts, T.replay cs t = upTo (count t) := by
  induction ts generalizing s with
  | nil =>
      refine ⟨[], Prod.ext rfl ?_, by simp, by simp⟩
      funext t
      simp [sendAll, savedAfter]
  | cons t ts ih =>
      obtain ⟨cs, hcs, hmem, hreplay⟩ := ih (Function.update s t (count t))
      refine ⟨sharedChanges t (count t) (s t) ++ cs, ?_, ?_, ?_⟩
      · rw [sendAll, sendAddRemoveEvents_eq]
        simp only [hcs]
        refine Prod.ext (by simp) ?_
        funext u
        by_cases hu : u = t
        · subst hu
          simp [savedAfter]
        · simp [savedAfter, hu]
      · intro c hc
        rcases List.mem_append.mp hc with hc | hc
        · rw [table_of_mem_sharedChanges hc]
          exact List.mem_cons_self
        · exact List.mem_cons_of_mem t (hmem c hc)
      · intro T hT u hu
        have hself : T.replay (sharedChanges t (count t) (s t)) t = upTo (count t) :=
          replay_sharedChanges (hT t List.mem_cons_self)
        have hother : ∀ v, v ≠ t → T.replay (sharedChanges t (count t) (s t)) v = T v := fun v hv =>
          replay_frame T fun c hc => by rw [table_of_mem_sharedChanges hc]; exact hv
        rw [replay_append]
        have hrest : ∀ v ∈ ts, T.replay (sharedChanges t (count t) (s t)) v = upTo (Function.update s t (count t) v) := by
          intro v hv
          by_cases hvt : v = t
          · rw [hvt, hself, Function.update_self]
          · rw [hother v hvt, Function.update_of_ne hvt, hT v (List.mem_cons_of_mem t hv)]
        by_cases hut : u ∈ ts
        · exact hreplay _ hrest u hut
        · obtain rfl : u = t := (List.mem_cons.mp hu).resolve_right hut
          rw [replay_frame, hself]
          intro c hc hcu
          exact hut (hcu ▸ hmem c hc)

theorem ipInterface_not_mem_visited (p : Poll) : Table.ipInterface ∉ p.visited := by
  intro h
  obtain ⟨i, -, hi⟩ := List.mem_flatMap.mp h
  simp [tablesOf] at hi

/-! ## Runs of polls -/

/-- The handler's counts, the tables of a subscriber, and the poll before. -/
structure Monitor where
  saved : Saved
  tables : Tables Table
  last : Option Poll

namespace Monitor

/-- After `reset`, with a subscriber that holds no instances. -/
def reset : Monitor := ⟨fun _ => 0, fun _ => [], none⟩

/-- One poll. -/
def step (m : Monitor) (p : Poll) : Monitor :=
  let r := checkForUpdates p m.saved
  ⟨r.2, receiveAll m.tables r.1, some p⟩

variable (interfaces : List Nat)

/-- The tables hold exactly the instances the poll reports, for the number of interfaces and the given ones. -/
def Holds (T : Tables Table) (p : Poll) : Prop :=
  (∀ n, p.interfaceNumberOfEntries = some n → T .ipInterface = upTo n) ∧
    ∀ i ∈ interfaces, ∀ t ∈ tablesOf i, T t = upTo (p.count t)

/-- Two polls report the same counts. -/
def SameCounts (p q : Poll) : Prop :=
  p.interfaceNumberOfEntries = q.interfaceNumberOfEntries ∧
    ∀ i ∈ interfaces, ∀ t ∈ tablesOf i, p.count t = q.count t

/-- After the poll the subscriber is right, and a poll that reports what the last one did says nothing. -/
def Right (m : Monitor) (p : Poll) : Prop :=
  Holds interfaces (m.step p).tables p ∧
    ∀ q, m.last = some q → SameCounts interfaces p q → (checkForUpdates p m.saved).1 = []

/-- The number of interfaces is not reported, or no interface has been announced before; and the counts of the
interfaces that the poll does not visit are the saved ones. -/
def Reportable (m : Monitor) (p : Poll) : Prop :=
  (p.interfaceNumberOfEntries = none ∨ m.tables .ipInterface = []) ∧
    ∀ i ∈ interfaces, ∀ t ∈ tablesOf i, t ∉ p.visited → p.count t = m.saved t

/-- What holds in every run: the count of interfaces is never saved, the other counts are those of the subscriber,
and while no interface has been announced none has been reported. -/
structure InStep (m : Monitor) : Prop where
  interfaceSaved : m.saved .ipInterface = 0
  interfaceTable : ∃ k, m.tables .ipInterface = upTo k
  tables : ∀ t, t ≠ .ipInterface → m.tables t = upTo (m.saved t)
  last : ∀ q n, m.last = some q → q.interfaceNumberOfEntries = some n → m.tables .ipInterface = [] → n = 0

variable {m : Monitor} (hm : m.InStep) (p : Poll)

theorem inStep_reset : reset.InStep := ⟨rfl, ⟨0, rfl⟩, fun _ _ => rfl, fun _ _ h => by cases h⟩

include hm

/-- **What one poll does**: the reported number of interfaces is added to those announced before, the visited tables
become right and the others stay. -/
theorem step_spec :
    (m.step p).saved = savedAfter p.count m.saved p.visited ∧
      (m.step p).tables .ipInterface =
        (m.tables.replay (List.replicate (p.interfaceNumberOfEntries.getD 0) (.add .ipInterface))) .ipInterface ∧
      ∀ t, t ≠ .ipInterface → (m.step p).tables t = upTo (savedAfter p.count m.saved p.visited t) := by
  obtain ⟨cs, hcs, hmem, hreplay⟩ := sendAll_spec p.count m.saved p.visited
  have hinterfaces : (checkForUpdates p m.saved).1 =
      (List.replicate (p.interfaceNumberOfEntries.getD 0) (Change.add Table.ipInterface) ++ cs).map eventOf := by
    unfold checkForUpdates
    rw [hcs, List.map_append]
    cases p.interfaceNumberOfEntries with
    | none => rfl
    | some n =>
        simp only [sendAddRemoveEvents_eq, hm.interfaceSaved]
        simp [sharedChanges, removals]
  have hsaved : (checkForUpdates p m.saved).2 = savedAfter p.count m.saved p.visited := by
    simp only [checkForUpdates, hcs]
  refine ⟨hsaved, ?_, ?_⟩
  · rw [step, hinterfaces]
    simp only
    rw [receiveAll_map_eventOf, replay_append]
    exact replay_frame _ fun c hc h => ipInterface_not_mem_visited p (h ▸ hmem c hc)
  · intro t ht
    rw [step, hinterfaces]
    simp only
    rw [receiveAll_map_eventOf, replay_append]
    have hframe : ∀ u, u ≠ .ipInterface →
        m.tables.replay (List.replicate (p.interfaceNumberOfEntries.getD 0) (.add .ipInterface)) u = m.tables u :=
      fun u hu => replay_frame _ fun c hc => by rw [List.eq_of_mem_replicate hc]; exact hu
    by_cases hv : t ∈ p.visited
    · rw [hreplay _ (fun u hu => ?_) t hv, savedAfter, if_pos hv]
      have hne : u ≠ .ipInterface := fun h => ipInterface_not_mem_visited p (h ▸ hu)
      rw [hframe u hne, hm.tables u hne]
    · have hother : ∀ c ∈ cs, t ≠ c.table := fun c hc h => hv (h ▸ hmem c hc)
      rw [replay_frame _ hother, hframe t ht, hm.tables t ht, savedAfter, if_neg hv]

theorem inStep_step : (m.step p).InStep := by
  obtain ⟨hsaved, hiface, htables⟩ := step_spec hm p
  obtain ⟨k, hk⟩ := hm.interfaceTable
  rw [replay_adds hk] at hiface
  refine ⟨?_, ⟨_, hiface⟩, fun t ht => by rw [htables t ht, hsaved], fun q n hq hn hempty => ?_⟩
  · rw [hsaved, savedAfter, if_neg (ipInterface_not_mem_visited p), hm.interfaceSaved]
  · obtain rfl : p = q := Option.some.inj hq
    rw [hiface, hn] at hempty
    have := congrArg List.length hempty
    rw [length_upTo, Option.getD_some, List.length_nil] at this
    omega

/-- A poll that reports no interfaces announces nothing. -/
theorem silent_of_zero (h : p.interfaceNumberOfEntries.getD 0 = 0) : (checkForUpdates p m.saved).1 = [] := by
  have hv : p.visited = [] := by
    simp [Poll.visited, h]
  rw [checkForUpdates, hv]
  cases hn : p.interfaceNumberOfEntries with
  | none => rfl
  | some n =>
      rw [hn, Option.getD_some] at h
      subst h
      simp only [sendAddRemoveEvents_eq, hm.interfaceSaved, sharedChanges_self]
      rfl

/-- The subscriber is right after a poll exactly when the poll is reportable. -/
theorem right_iff : m.Right interfaces p ↔ m.Reportable interfaces p := by
  obtain ⟨-, hiface, htables⟩ := step_spec hm p
  obtain ⟨k, hk⟩ := hm.interfaceTable
  rw [replay_adds hk] at hiface
  have hne : ∀ i, ∀ t ∈ tablesOf i, t ≠ Table.ipInterface := fun i t ht h => by
    rw [h] at ht
    simp [tablesOf] at ht
  constructor
  · rintro ⟨⟨hnum, hcount⟩, -⟩
    refine ⟨?_, fun i hi t ht hv => ?_⟩
    · cases hn : p.interfaceNumberOfEntries with
      | none => exact Or.inl rfl
      | some n =>
          have hkn := hnum n hn
          rw [hiface, hn] at hkn
          have := upTo_inj hkn
          rw [Option.getD_some] at this
          obtain rfl : k = 0 := by omega
          exact Or.inr hk
    · have := hcount i hi t ht
      rw [htables t (hne i t ht), savedAfter, if_neg hv] at this
      exact (upTo_inj this).symm
  · rintro ⟨hnone, hrest⟩
    refine ⟨⟨fun n hn => ?_, fun i hi t ht => ?_⟩, fun q hq hsame => ?_⟩
    · rcases hnone with h | h
      · rw [h] at hn
        cases hn
      · rw [hk] at h
        have hk0 := congrArg List.length h
        rw [length_upTo, List.length_nil] at hk0
        rw [hiface, hn, hk0, Option.getD_some, Nat.zero_add]
    · rw [htables t (hne i t ht), savedAfter]
      split
      · rfl
      · next hv => rw [hrest i hi t ht hv]
    · refine silent_of_zero hm p ?_
      rcases hnone with h | h
      · rw [h]
        rfl
      · cases hn : p.interfaceNumberOfEntries with
        | none => rfl
        | some n => exact hm.last q n hq (hsame.1 ▸ hn) h

omit hm in
/-- **Over every run of polls from the reset state, the subscriber is right after each poll exactly when each poll is
reportable.** -/
theorem interfaces_right_iff (polls : List Poll) :
    Along step (Right interfaces) reset polls ↔ Along step (Reportable interfaces) reset polls :=
  Along.congr (I := InStep) (fun _ p hm _ => inStep_step hm p) (fun _ p hm => right_iff interfaces hm p) inStep_reset polls

end Monitor

/-- One interface without addresses. -/
def oneInterface : Poll := ⟨some 1, fun _ => 1, fun _ => 0⟩

/-- The second of two equal polls announces the interface again. -/
theorem unchanged_count_announced :
    (checkForUpdates oneInterface (Monitor.reset.step oneInterface).saved).1 = [⟨.add, "Device.IP.Interface.".toList⟩] ∧
      ¬ Along Monitor.step (Monitor.Right [1]) Monitor.reset [oneInterface, oneInterface] := by
  refine ⟨by decide, fun h => ?_⟩
  have htable := h.2.1.1.1 1 rfl
  revert htable
  decide

end Tr69HostIf.Update.IP
