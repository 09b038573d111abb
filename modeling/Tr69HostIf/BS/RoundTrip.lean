import Tr69HostIf.BS.Codec

/-!
# The journal's round trip

`JournalOp` lists the operations of the journal. Whatever their order and their arguments, the times and the
sources of the records they build fit a line (`recordOk_run`), so that the file of a journal gives it back
exactly when keys, values and build times do (`journal_round_trip`). In the append mode a key may have several
lines and only the last one counts.
-/

namespace Tr69HostIf.BS
open Store

/-- The operations of the journal. -/
inductive JournalOp
  | setJournalValue (key value : Text) (bsSource : SourceType)
  | setInitialUpdate (initialUpdate : Bool)
  | rfcUpdateStarted
  | rfcUpdateEnd
  | clearRfcAndGetDefaultValue (key : Text)
  | resetClearRfc (key : Text)
  | removeRecord (key : Text)

/-- The journal after one operation; every open succeeds. -/
def journalStep (j : XBSStoreJournal) (i : (Order Text × Tm) × JournalOp) : XBSStoreJournal :=
  match i.2 with
  | .setJournalValue key value src => (setJournalValue i.1.1 true i.1.2 key value src j).2
  | .setInitialUpdate b => { j with initialUpdate := b }
  | .rfcUpdateStarted => rfcUpdateStarted i.1.1 j
  | .rfcUpdateEnd => rfcUpdateEnd i.1.1 true j
  | .clearRfcAndGetDefaultValue key => (clearRfcAndGetDefaultValue key j).2
  | .resetClearRfc key => resetClearRfc key j
  | .removeRecord key => removeRecord key j

/-- The sources that sets come from. -/
def SetsBySource : JournalOp → Prop
  | .setJournalValue _ _ src => JournalSource src
  | _ => True

instance : DecidablePred SetsBySource
  | .setJournalValue _ _ _ => inferInstanceAs (Decidable (JournalSource _))
  | .setInitialUpdate _ | .rfcUpdateStarted | .rfcUpdateEnd | .clearRfcAndGetDefaultValue _ | .resetClearRfc _
  | .removeRecord _ => inferInstanceAs (Decidable True)

/-- What holds of every record, whatever the arguments of the operations. -/
structure RecordOk (r : JournalData) : Prop where
  source : JournalSource r.updatedSource
  updatedTime : CleanField r.updatedTime
  buildQuote : '"' ∉ r.buildTime
  buildLine : '\n' ∉ r.buildTime

/-- What a record needs besides, and what the arguments of the operations decide. -/
structure FieldsFit (k : Text) (r : JournalData) : Prop where
  key : CleanField k
  fwValue : CleanField r.fwValue
  buildTime : ',' ∉ r.buildTime
  updatedValue : CleanField r.updatedValue

theorem cleanRecord_iff {k : Text} {r : JournalData} (h : RecordOk r) : CleanRecord k r ↔ FieldsFit k r := by
  constructor
  · exact fun hc => ⟨hc.key, hc.fwValue, hc.buildTime.comma, hc.updatedValue⟩
  · exact fun hf => ⟨hf.key, hf.fwValue, ⟨hf.buildTime, h.buildQuote, h.buildLine⟩, hf.updatedValue, h.updatedTime⟩

/-- The journals the operations build. -/
structure JournalOk (j : XBSStoreJournal) : Prop where
  records : AllEntries (fun _ r => RecordOk r) j.dict
  buildQuote : '"' ∉ j.buildTime
  buildLine : '\n' ∉ j.buildTime

/-! ## One operation -/

theorem recordOk_updatedRecord {buildTime value : Text} {now : Tm} {src : SourceType} {o : Option JournalData}
    (hq : '"' ∉ buildTime) (hb : '\n' ∉ buildTime) (hs : JournalSource src) (ho : ∀ r, o = some r → RecordOk r) :
    RecordOk (updatedRecord buildTime now value src o) := by
  unfold updatedRecord
  split
  · split
    · exact ⟨hs, cleanField_getTime now, hq, hb⟩
    · exact ⟨Or.inl rfl, cleanField_dash, hq, hb⟩
  · next r =>
    have hr := ho r rfl
    split
    · exact ⟨hr.source, hr.updatedTime, hq, hb⟩
    · exact ⟨hs, cleanField_getTime now, hr.buildQuote, hr.buildLine⟩

theorem journalOk_start (version file : Option Text) : JournalOk (.start version true file) := by
  refine ⟨fun k r hr => ?_, quote_not_mem_dropQuotes _, newline_not_mem_getBuildTime version⟩
  have hr' : (loadJournal (file.getD [])).lookup k = some r := hr
  obtain ⟨hc, hs, -⟩ := lookup_loadJournal hr'
  exact ⟨hs, hc.updatedTime, hc.buildTime.quote, hc.buildTime.line⟩

theorem journalOk_step (j : XBSStoreJournal) (i : (Order Text × Tm) × JournalOp) (h : JournalOk j)
    (hi : SetsBySource i.2) : JournalOk (journalStep j i) := by
  obtain ⟨⟨ord, now⟩, op⟩ := i
  cases op with
  | setJournalValue key value src =>
      refine ⟨AllEntries.insert h.records ?_, h.buildQuote, h.buildLine⟩
      exact recordOk_updatedRecord h.buildQuote h.buildLine hi fun r hr => h.records key r hr
  | setInitialUpdate b => exact ⟨h.records, h.buildQuote, h.buildLine⟩
  | rfcUpdateStarted =>
      refine ⟨fun k r hr => ?_, h.buildQuote, h.buildLine⟩
      have hlookup := lookup_rewriteAll_enum ord JournalData.marked j.dict k
      obtain ⟨r', hr', rfl⟩ := Option.map_eq_some_iff.mp (hlookup.symm.trans hr)
      have hok := h.records k r' hr'
      unfold JournalData.marked
      split
      · exact ⟨hok.source, hok.updatedTime, hok.buildQuote, hok.buildLine⟩
      · exact hok
  | rfcUpdateEnd => exact ⟨h.records, h.buildQuote, h.buildLine⟩
  | clearRfcAndGetDefaultValue key =>
      show JournalOk (clearRfcAndGetDefaultValue key j).2
      unfold clearRfcAndGetDefaultValue
      split
      · next r hr =>
        have hok := h.records key r hr
        split
        · refine ⟨AllEntries.insert h.records ?_, h.buildQuote, h.buildLine⟩
          exact ⟨Or.inl rfl, cleanField_dash, hok.buildQuote, hok.buildLine⟩
        · exact h
      · exact h
  | resetClearRfc key =>
      show JournalOk (resetClearRfc key j)
      unfold resetClearRfc
      split
      · next r hr =>
        have hok := h.records key r hr
        split
        · refine ⟨AllEntries.insert h.records ?_, h.buildQuote, h.buildLine⟩
          exact ⟨hok.source, hok.updatedTime, hok.buildQuote, hok.buildLine⟩
        · exact h
      · exact h
  | removeRecord key => exact ⟨AllEntries.erase h.records key, h.buildQuote, h.buildLine⟩

theorem journalOk_run (version file : Option Text) {l : List ((Order Text × Tm) × JournalOp)}
    (hl : ∀ i ∈ l, SetsBySource i.2) : JournalOk (run journalStep (.start version true file) l) :=
  Along.invariant journalOk_step (journalOk_start version file) (along_of_forall hl)

/-- Loading the journal's file gives its records back, without their marks. -/
def Restored (j : XBSStoreJournal) : Prop :=
  ∀ k, (loadJournal (j.file.getD [])).lookup k = (j.dict.lookup k).map JournalData.unmarked

/-- A journal whose file was written as a whole. -/
theorem restored_iff {j : XBSStoreJournal} (h : JournalOk j) (ord : Order Text)
    (hf : j.file = some (renderJournal (ord.enum j.dict))) : Restored j ↔ AllEntries FieldsFit j.dict := by
  unfold Restored
  rw [hf, Option.getD_some, loadJournal_renderJournal_iff ord j.dict fun k r hr => (h.records k r hr).source]
  constructor
  · exact fun hc k r hr => (cleanRecord_iff (h.records k r hr)).mp (hc k r hr)
  · exact fun hc k r hr => (cleanRecord_iff (h.records k r hr)).mpr (hc k r hr)

/-! ## The append mode -/

/-- The journal of a first start, in the append mode. -/
def appendJournal (version : Option Text) : XBSStoreJournal :=
  { dict := ∅, file := none, buildTime := getBuildTime version, initialUpdate := true }

/-- A set whose arguments are `key` and `value`. -/
def IsSet (i : (Order Text × Tm) × JournalOp) : Prop :=
  ∃ key value src, i.2 = .setJournalValue key value src ∧ JournalSource src

/-- The record that the line of `(k, r)` is read as, when the line has no line break. -/
def lineRecord (k : Text) (r : JournalData) : JournalData := (recordOfLine (joinFields (lineFields k r))).2

/-- Every key has a line of its own, the last of which is the line of its record. -/
structure Appended (j : XBSStoreJournal) : Prop where
  initial : j.initialUpdate = true
  terminated : Terminated (j.file.getD [])
  oneLine : AllEntries (fun k r => ∀ f ∈ lineFields k r, '\n' ∉ f) j.dict
  buildLine : '\n' ∉ j.buildTime
  lookup : ∀ k, (loadJournal (j.file.getD [])).lookup k = (j.dict.lookup k).map (lineRecord k)

theorem oneLine_updatedRecord {buildTime key value : Text} (now : Tm) (src : SourceType) {o : Option JournalData}
    (hb : '\n' ∉ buildTime) (hk : '\n' ∉ key) (hv : '\n' ∉ value)
    (ho : ∀ r, o = some r → ∀ f ∈ lineFields key r, '\n' ∉ f) :
    ∀ f ∈ lineFields key (updatedRecord buildTime now value src o), '\n' ∉ f := by
  have htime : '\n' ∉ getTime now := (cleanField_getTime now).line
  have hdash : '\n' ∉ dash := cleanField_dash.line
  have hsource : ∀ src, '\n' ∉ getUpdatedSourceString src := fun src => (cleanField_source src).line
  unfold updatedRecord
  split
  · split <;> simp [lineFields, hb, hk, hv, htime, hdash, hsource]
  · next r =>
    have hr := ho r rfl
    simp only [lineFields, List.mem_cons, List.not_mem_nil, or_false, forall_eq_or_imp, forall_eq] at hr
    split <;> simp [lineFields, hb, hv, htime, hsource, hr]

theorem records_journalLine_oneLine {k : Text} {r : JournalData} (hk : CleanField k)
    (h : ∀ f ∈ lineFields k r, '\n' ∉ f) : records (journalLine (k, r)) = [(k, lineRecord k r)] := by
  have hkey : (recordOfLine (joinFields (lineFields k r))).1 = k := by
    have := fields_joinFields_first (f := r.fwValue) hk
      [r.buildTime, r.updatedValue, r.updatedTime, getUpdatedSourceString r.updatedSource]
    show (fields (joinFields (lineFields k r))).getD 0 [] = k
    rw [List.getD_eq_getElem?_getD, ← List.head?_eq_getElem?]
    unfold lineFields
    rw [this]
    rfl
  unfold records
  rw [journalLine_eq, getlines_line (newline_not_mem_joinFields h)]
  show [recordOfLine (joinFields (lineFields k r))] = _
  rw [lineRecord, ← Prod.eta (recordOfLine (joinFields (lineFields k r))), hkey]

theorem appended_set {j : XBSStoreJournal} (h : Appended j) (ord : Order Text) (now : Tm) {key value : Text}
    (src : SourceType) (hk : CleanField key) (hv : '\n' ∉ value) :
    Appended (journalStep j ((ord, now), .setJournalValue key value src)) := by
  have hline := oneLine_updatedRecord now src h.buildLine hk.line hv fun r hr => h.oneLine key r hr
  have hfile : (journalStep j ((ord, now), .setJournalValue key value src)).file =
      some (j.file.getD [] ++ journalLine (key, updatedRecord j.buildTime now value src (j.dict.lookup key))) := by
    show some (if j.initialUpdate then _ else _) = _
    rw [if_pos h.initial]
  refine ⟨h.initial, ?_, AllEntries.insert h.oneLine hline, h.buildLine, fun k => ?_⟩
  · rw [hfile]
    exact h.terminated.append (terminated_journalLine _)
  · rw [hfile, Option.getD_some, loadJournal, records_append h.terminated, records_journalLine_oneLine hk hline,
      lookup_ofList, lastOf_concat]
    show _ = ((j.dict.insert key _).lookup k).map (lineRecord k)
    rw [lookup_insert_ite]
    by_cases hkey : k = key
    · rw [if_pos hkey, if_pos hkey, hkey]
      rfl
    · rw [if_neg hkey, if_neg hkey, ← h.lookup k, loadJournal, lookup_ofList]

theorem mem_journalStep_set {j : XBSStoreJournal} {i : (Order Text × Tm) × JournalOp} (hi : IsSet i) {k : Text}
    (hk : k ∈ j.dict) : k ∈ (journalStep j i).dict := by
  obtain ⟨⟨ord, now⟩, op⟩ := i
  obtain ⟨key, value, src, rfl, -⟩ := hi
  exact Finmap.mem_insert.mpr (Or.inr hk)

theorem mem_run_sets {j : XBSStoreJournal} {l : List ((Order Text × Tm) × JournalOp)} (hl : ∀ i ∈ l, IsSet i)
    {k : Text} (hk : k ∈ j.dict) : k ∈ (run journalStep j l).dict :=
  Along.invariant (I := fun j : XBSStoreJournal => k ∈ j.dict) (fun _ _ hj hi => mem_journalStep_set hi hj) hk
    (along_of_forall hl)

theorem appended_run {j : XBSStoreJournal} (h : Appended j) {l : List ((Order Text × Tm) × JournalOp)}
    (hl : ∀ i ∈ l, IsSet i)
    (hline : ∀ i ∈ l, ∀ key value src, i.2 = .setJournalValue key value src → '\n' ∉ value)
    (hfit : AllEntries FieldsFit (run journalStep j l).dict) : Appended (run journalStep j l) := by
  induction l generalizing j with
  | nil => exact h
  | cons i l ih =>
      obtain ⟨⟨ord, now⟩, op⟩ := i
      obtain ⟨key, value, src, rfl, hsrc⟩ := hl _ List.mem_cons_self
      have hrest : ∀ i ∈ l, IsSet i := fun i hi => hl i (List.mem_cons_of_mem _ hi)
      -- a key that was set is there at the end, where it fits
      have hkey : CleanField key := by
        have hmem : key ∈ (run journalStep j (((ord, now), .setJournalValue key value src) :: l)).dict :=
          mem_run_sets hrest (Finmap.mem_insert.mpr (Or.inl rfl))
        obtain ⟨r, hr⟩ := Finmap.mem_iff.mp hmem
        exact (hfit key r hr).key
      have hstep := appended_set h ord now src hkey (hline _ List.mem_cons_self key value src rfl)
      exact ih hstep hrest (fun i hi => hline i (List.mem_cons_of_mem _ hi)) hfit

theorem journalOk_append (version : Option Text) : JournalOk (appendJournal version) :=
  ⟨allEntries_empty, quote_not_mem_dropQuotes _, newline_not_mem_getBuildTime version⟩

theorem appended_append (version : Option Text) : Appended (appendJournal version) :=
  ⟨rfl, terminated_nil, allEntries_empty, newline_not_mem_getBuildTime version, fun _ => rfl⟩

theorem IsSet.setsBySource {i : (Order Text × Tm) × JournalOp} (h : IsSet i) : SetsBySource i.2 := by
  obtain ⟨key, value, src, hi, hsrc⟩ := h
  rw [hi]
  exact hsrc

theorem fieldsFit_of_restored {j : XBSStoreJournal} (h : Restored j) : AllEntries FieldsFit j.dict := by
  intro k r hr
  have hk := h k
  rw [hr, Option.map_some] at hk
  obtain ⟨hc, -, -⟩ := lookup_loadJournal hk
  exact ⟨hc.key, hc.fwValue, hc.buildTime.comma, hc.updatedValue⟩

theorem restored_of_appended {j : XBSStoreJournal} (hj : JournalOk j) (h : Appended j)
    (hfit : AllEntries FieldsFit j.dict) : Restored j := by
  intro k
  rw [h.lookup k]
  cases hr : j.dict.lookup k with
  | none => rfl
  | some r =>
      have hok := hj.records k r hr
      rw [Option.map_some, Option.map_some, lineRecord,
        recordOfLine_joinFields ((cleanRecord_iff hok).mpr (hfit k r hr)) hok.source]

/-- **The journal's file gives the journal back exactly when its keys, values and build times fit their
fields**: a file written as a whole, by `rfcUpdateEnd` or by `setJournalValue`, and a file built line by
line. -/
theorem journal_round_trip (version file : Option Text) (l : List ((Order Text × Tm) × JournalOp))
    (hl : ∀ i ∈ l, SetsBySource i.2) (sets : List ((Order Text × Tm) × JournalOp)) (hsets : ∀ i ∈ sets, IsSet i) :
    let j := run journalStep (.start version true file) l
    let a := run journalStep (appendJournal version) sets
    (∀ ord, Restored (rfcUpdateEnd ord true j) ↔ AllEntries FieldsFit j.dict) ∧
      (∀ ord now key value src, JournalSource src → j.initialUpdate = false →
        let j' := (setJournalValue ord true now key value src j).2
        (Restored j' ↔ AllEntries FieldsFit j'.dict)) ∧
      (Restored a → AllEntries FieldsFit a.dict) ∧
      ((∀ i ∈ sets, ∀ key value src, i.2 = .setJournalValue key value src → '\n' ∉ value) →
        AllEntries FieldsFit a.dict → Restored a) := by
  intro j a
  have hj : JournalOk j := journalOk_run version file hl
  refine ⟨fun ord => ?_, fun ord now key value src hsrc hi => ?_, fieldsFit_of_restored, fun hline hfit => ?_⟩
  · have hend : JournalOk (rfcUpdateEnd ord true j) := journalOk_step j ((ord, ⟨0, 0, 0, 0, 0, 0⟩), .rfcUpdateEnd) hj trivial
    exact restored_iff hend ord rfl
  · have hset := journalOk_step j ((ord, now), .setJournalValue key value src) hj hsrc
    refine restored_iff hset ord ?_
    show some (if j.initialUpdate then _ else _) = _
    rw [hi]
    rfl
  · have hok : JournalOk a := Along.invariant journalOk_step (journalOk_append version)
      (along_of_forall fun i hi => (hsets i hi).setsBySource)
    exact restored_of_appended hok (appended_run (appended_append version) hsets hline hfit) hfit

/-- A moment of the clock. -/
def noon : Tm := { year := 2024, mon := 5, mday := 17, hour := 12, min := 0, sec := 0 }

/-- RFC sets one parameter. -/
def rfcValue (value : String) : List ((Order Text × Tm) × JournalOp) :=
  [((byKey, noon), .setJournalValue "Device.A".toList value.toList .rfc)]

theorem journal_round_trip_plainValue :
    Restored (rfcUpdateEnd byKey true (run journalStep (.start none true none) (rfcValue "on"))) := by
  refine ((journal_round_trip none none (rfcValue "on") (by decide) [] (by simp)).1 byKey).mpr ?_
  refine AllEntries.insert allEntries_empty ?_
  exact ⟨by decide, by decide, by decide, by decide⟩

/-- A value with a comma shifts the fields behind it: RFC's record comes back with half of the value and the
source of a default. -/
theorem journal_comma_shifts_source :
    let j := rfcUpdateEnd byKey true (run journalStep (.start none true none) (rfcValue "on,off"))
    (∀ i ∈ rfcValue "on,off", SetsBySource i.2) ∧
      (j.dict.lookup "Device.A".toList).map (fun r => (r.updatedValue, r.updatedSource)) =
        some ("on,off".toList, .rfc) ∧
      ((loadJournal (j.file.getD [])).lookup "Device.A".toList).map (fun r => (r.updatedValue, r.updatedSource)) =
        some ("on".toList, .default) ∧
      ¬Restored j := by
  refine ⟨by decide, by decide, by decide, fun h => ?_⟩
  have := h "Device.A".toList
  revert this
  decide

end Tr69HostIf.BS
