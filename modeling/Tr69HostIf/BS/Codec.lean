import Tr69HostIf.BS.Journal
import Tr69HostIf.Store.Run
import Mathlib.Data.List.GetD

/-!
# Writing and loading the journal

* `records_renderJournal` : clean records are read back, in order, without their marks;
* `mem_records` : a record that was read is clean, whatever the file holds;
* `loadJournal_renderJournal_iff` : writing a journal and loading the file gives it back exactly when all of
  its records are clean;
* `cleanField_getTime`, `cleanField_getBuildTime` : the times that the program itself writes.
-/

namespace Tr69HostIf.BS
open Store

/-- The record as it comes back from the file, without its mark. -/
def JournalData.unmarked (r : JournalData) : JournalData := { r with clearRfc := false }

/-- The sources a journal line can tell apart. -/
def JournalSource (src : SourceType) : Prop := src = .default ∨ src = .rfc ∨ src = .webpa

instance (src : SourceType) : Decidable (JournalSource src) := inferInstanceAs (Decidable (_ ∨ _ ∨ _))

/-- A record that survives its own line. -/
structure CleanRecord (k : Text) (r : JournalData) : Prop where
  key : CleanField k
  fwValue : CleanField r.fwValue
  buildTime : CleanField r.buildTime
  updatedValue : CleanField r.updatedValue
  updatedTime : CleanField r.updatedTime

/-- The six fields of a line. -/
def lineFields (k : Text) (r : JournalData) : List Text :=
  [k, r.fwValue, r.buildTime, r.updatedValue, r.updatedTime, getUpdatedSourceString r.updatedSource]

theorem journalLine_eq (k : Text) (r : JournalData) : journalLine (k, r) = joinFields (lineFields k r) ++ ['\n'] := by
  simp [journalLine, joinFields, lineFields, quoted, List.intercalate_cons_cons]

theorem cleanField_dash : CleanField dash := by decide

theorem cleanField_source (src : SourceType) : CleanField (getUpdatedSourceString src) := by
  cases src <;> decide

theorem sourceOfString_getUpdatedSourceString {src : SourceType} (h : JournalSource src) :
    sourceOfString (getUpdatedSourceString src) = src := by
  rcases h with rfl | rfl | rfl <;> decide

theorem journalSource_sourceOfString (t : Text) : JournalSource (sourceOfString t) := by
  unfold sourceOfString JournalSource
  split
  · simp
  · split <;> simp

theorem CleanRecord.fields {k : Text} {r : JournalData} (h : CleanRecord k r) : ∀ f ∈ lineFields k r, CleanField f := by
  intro f hf
  simp only [lineFields, List.mem_cons, List.not_mem_nil, or_false] at hf
  rcases hf with rfl | rfl | rfl | rfl | rfl | rfl
  · exact h.key
  · exact h.fwValue
  · exact h.buildTime
  · exact h.updatedValue
  · exact h.updatedTime
  · exact cleanField_source _

theorem recordOfLine_joinFields {k : Text} {r : JournalData} (h : CleanRecord k r) (hs : JournalSource r.updatedSource) :
    recordOfLine (joinFields (lineFields k r)) = (k, r.unmarked) := by
  unfold recordOfLine
  rw [fields_joinFields (by simp [lineFields]) h.fields]
  simp [lineFields, sourceOfString_getUpdatedSourceString hs, JournalData.unmarked]

theorem terminated_journalLine (p : Text × JournalData) : Terminated (journalLine p) := by
  obtain ⟨k, r⟩ := p
  rw [journalLine_eq]
  exact terminated_append_newline _

theorem renderJournal_cons (p : Text × JournalData) (l : List (Text × JournalData)) :
    renderJournal (p :: l) = journalLine p ++ renderJournal l := rfl

theorem terminated_renderJournal (l : List (Text × JournalData)) : Terminated (renderJournal l) := by
  induction l with
  | nil => exact terminated_nil
  | cons p l ih =>
      rw [renderJournal_cons]
      exact (terminated_journalLine p).append ih

theorem records_append {t : Text} (ht : Terminated t) (u : Text) : records (t ++ u) = records t ++ records u := by
  unfold records
  rw [getlines_append ht, List.map_append]

theorem records_journalLine {k : Text} {r : JournalData} (h : CleanRecord k r) (hs : JournalSource r.updatedSource)
    (u : Text) : records (journalLine (k, r) ++ u) = (k, r.unmarked) :: records u := by
  have hl : '\n' ∉ joinFields (lineFields k r) := newline_not_mem_joinFields fun f hf => (h.fields f hf).line
  unfold records
  rw [journalLine_eq, List.append_assoc, List.singleton_append, getlines_line hl, List.map_cons,
    recordOfLine_joinFields h hs]

/-- **Clean records are read back, in order, without their marks.** -/
theorem records_renderJournal {l : List (Text × JournalData)}
    (h : ∀ p ∈ l, CleanRecord p.1 p.2 ∧ JournalSource p.2.updatedSource) :
    records (renderJournal l) = l.map fun p => (p.1, p.2.unmarked) := by
  induction l with
  | nil => rfl
  | cons p l ih =>
      have hp := h p List.mem_cons_self
      rw [renderJournal_cons, records_journalLine hp.1 hp.2, ih fun q hq => h q (List.mem_cons_of_mem p hq)]
      rfl

theorem cleanField_getD {line : Text} (hl : '\n' ∉ line) (i : Nat) : CleanField ((fields line).getD i []) := by
  by_cases hi : i < (fields line).length
  · rw [List.getD_eq_getElem _ _ hi]
    exact mem_fields_clean hl (List.getElem_mem hi)
  · rw [List.getD_eq_default _ _ (not_lt.mp hi)]
    exact cleanField_nil

theorem not_mem_getD {line : Text} {c : Char} (hc : c ∉ line) (i : Nat) : c ∉ (fields line).getD i [] := by
  by_cases hi : i < (fields line).length
  · rw [List.getD_eq_getElem _ _ hi]
    exact fun h => hc (mem_of_mem_fields (List.getElem_mem hi) h)
  · rw [List.getD_eq_default _ _ (not_lt.mp hi)]
    exact List.not_mem_nil

theorem not_mem_fwValue {t k : Text} {r : JournalData} {c : Char} (hc : c ∉ t)
    (h : (loadJournal t).lookup k = some r) : c ∉ r.fwValue := by
  unfold loadJournal at h
  rw [lookup_ofList] at h
  obtain ⟨line, hline, heq⟩ := List.mem_map.mp (mem_of_lastOf h)
  obtain ⟨-, rfl⟩ := Prod.mk.inj heq
  exact not_mem_getD (fun hl => hc (mem_of_mem_getlines hline hl)) 1

/-- **A record that was read is clean and has no mark.** -/
theorem mem_records {t k : Text} {r : JournalData} (h : (k, r) ∈ records t) :
    CleanRecord k r ∧ JournalSource r.updatedSource ∧ r.clearRfc = false := by
  obtain ⟨line, hline, heq⟩ := List.mem_map.mp h
  have hl := not_mem_getlines hline
  obtain ⟨rfl, rfl⟩ := Prod.mk.inj heq
  exact ⟨⟨cleanField_getD hl 0, cleanField_getD hl 1, cleanField_getD hl 2, cleanField_getD hl 3, cleanField_getD hl 4⟩,
    journalSource_sourceOfString _, rfl⟩

theorem lookup_loadJournal {t k : Text} {r : JournalData} (h : (loadJournal t).lookup k = some r) :
    CleanRecord k r ∧ JournalSource r.updatedSource ∧ r.clearRfc = false := by
  unfold loadJournal at h
  rw [lookup_ofList] at h
  exact mem_records (mem_of_lastOf h)

/-- **Writing a journal and loading the file gives it back, without the marks, exactly when its records are
clean.** -/
theorem loadJournal_renderJournal_iff (ord : Order Text) (d : Dict Text JournalData)
    (hs : ∀ k r, d.lookup k = some r → JournalSource r.updatedSource) :
    (∀ k, (loadJournal (renderJournal (ord.enum d))).lookup k = (d.lookup k).map JournalData.unmarked) ↔
      ∀ k r, d.lookup k = some r → CleanRecord k r := by
  constructor
  · intro h k r hr
    have hk := h k
    rw [hr, Option.map_some] at hk
    obtain ⟨hc, -, -⟩ := lookup_loadJournal hk
    exact ⟨hc.key, hc.fwValue, hc.buildTime, hc.updatedValue, hc.updatedTime⟩
  · intro h k
    have hclean : ∀ p ∈ ord.enum d, CleanRecord p.1 p.2 ∧ JournalSource p.2.updatedSource := by
      intro p hp
      have hp' := (ord.mem d p.1 p.2).mp hp
      exact ⟨h p.1 p.2 hp', hs p.1 p.2 hp'⟩
    rw [loadJournal, lookup_ofList, records_renderJournal hclean, lastOf_map, lastOf_enum]

/-! ## Times -/

theorem cleanField_of_forall {t : Text} (h : ∀ c ∈ t, c ≠ ',' ∧ c ≠ '"' ∧ c ≠ '\n') : CleanField t :=
  ⟨fun hc => (h _ hc).1 rfl, fun hc => (h _ hc).2.1 rfl, fun hc => (h _ hc).2.2 rfl⟩

theorem digit_clean {n : Nat} {c : Char} (h : c ∈ Nat.toDigits 10 n) : c ≠ ',' ∧ c ≠ '"' ∧ c ≠ '\n' := by
  have hd := Nat.isDigit_of_mem_toDigits (by decide) (by decide) h
  refine ⟨?_, ?_, ?_⟩ <;>
  · rintro rfl
    exact absurd hd (by decide)

theorem twoDigits_clean {n : Nat} {c : Char} (h : c ∈ twoDigits n) : c ≠ ',' ∧ c ≠ '"' ∧ c ≠ '\n' := by
  unfold twoDigits at h
  split at h
  · rcases List.mem_cons.mp h with rfl | h
    · decide
    · exact digit_clean h
  · exact digit_clean h

theorem cleanField_getTime (t : Tm) : CleanField (getTime t) := by
  apply cleanField_of_forall
  intro c hc
  simp only [getTime, List.cons_append, List.append_assoc, List.mem_append, List.mem_cons, List.not_mem_nil,
    or_false] at hc
  rcases hc with h | rfl | h | rfl | h | rfl | h | rfl | h | rfl | h | rfl
  · exact digit_clean h
  · decide
  · exact twoDigits_clean h
  · decide
  · exact twoDigits_clean h
  · decide
  · exact twoDigits_clean h
  · decide
  · exact twoDigits_clean h
  · decide
  · exact twoDigits_clean h
  · decide

theorem newline_not_mem_getBuildTime (version : Option Text) : '\n' ∉ getBuildTime version := by
  have hmem : ∀ (l : List (Text × Text)) (b : Text), '\n' ∉ b → (∀ p ∈ l, '\n' ∉ p.2) →
      '\n' ∉ l.foldl (fun b p => if cStr p.1 = "BUILD_TIME".toList then p.2 else b) b := by
    intro l
    induction l with
    | nil => exact fun b hb _ => hb
    | cons p l ih =>
        intro b hb hl
        rw [List.foldl_cons]
        refine ih _ ?_ fun q hq => hl q (List.mem_cons_of_mem p hq)
        split
        · exact hl p List.mem_cons_self
        · exact hb
  apply not_mem_dropQuotes
  exact hmem _ _ (by simp) fun p hp => (mem_entries_clean hp).val_line

/-- The build time is one line without quotes; only a comma in it can break a record. -/
theorem cleanField_getBuildTime {version : Option Text} (h : ',' ∉ getBuildTime version) :
    CleanField (getBuildTime version) :=
  ⟨h, quote_not_mem_dropQuotes _, newline_not_mem_getBuildTime version⟩

end Tr69HostIf.BS
