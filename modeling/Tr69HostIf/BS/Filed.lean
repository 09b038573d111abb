import Tr69HostIf.BS.Load
import Tr69HostIf.BS.RoundTrip

/-!
# The store, the journal and their files

`Filed s` : loading the two files of `s` gives its dictionary and its journal back. Each operation keeps it
as long as keys and values fit their lines (`CleanParam`): `RawStep.filed` for `setRawValue`,
`filed_loadFromJson`, `filed_clearDb`, `filed_clearDbDone`.
-/

namespace Tr69HostIf.BS
open Store

/-- A key and a value that fit a line of the store and a line of the journal. -/
structure CleanParam (k v : Text) : Prop where
  key_eq : '=' ∉ k
  key : CleanField k
  value : CleanField v

instance (k v : Text) : Decidable (CleanParam k v) :=
  decidable_of_iff ('=' ∉ k ∧ CleanField k ∧ CleanField v) ⟨fun h => ⟨h.1, h.2.1, h.2.2⟩, fun h => ⟨h.1, h.2, h.3⟩⟩

theorem CleanParam.entry {k v : Text} (h : CleanParam k v) : CleanEntry k v := ⟨h.key_eq, h.key.line, h.value.line⟩

/-- Caches and files agree. -/
structure Filed (s : XBSStore) : Prop where
  store : load (s.file.getD []) = s.dict
  journal : Restored s.journal
  buildTime : CleanField s.journal.buildTime
  appendStore : s.initialUpdate = true → Terminated (s.file.getD [])
  appendJournal : s.journal.initialUpdate = true → Terminated (s.journal.file.getD [])

theorem Restored.clean {j : XBSStoreJournal} (h : Restored j) {k : Text} {r : JournalData}
    (hr : j.dict.lookup k = some r) : CleanRecord k r ∧ JournalSource r.updatedSource := by
  have hk := h k
  rw [hr, Option.map_some] at hk
  obtain ⟨hc, hs, -⟩ := lookup_loadJournal hk
  exact ⟨⟨hc.key, hc.fwValue, hc.buildTime, hc.updatedValue, hc.updatedTime⟩, hs⟩

/-- A journal whose file was just written as a whole. -/
theorem restored_of_clean {j : XBSStoreJournal} (ord : Order Text)
    (hf : j.file = some (renderJournal (ord.enum j.dict)))
    (hc : ∀ k r, j.dict.lookup k = some r → CleanRecord k r ∧ JournalSource r.updatedSource) : Restored j := by
  unfold Restored
  rw [hf, Option.getD_some, loadJournal_renderJournal_iff ord j.dict fun k r hr => (hc k r hr).2]
  exact fun k r hr => (hc k r hr).1

theorem Filed.cleanDict {s : XBSStore} (h : Filed s) : CleanDict s.dict := by
  rw [← h.store]
  exact load_clean _

/-! ## `setRawValue` -/

theorem cleanRecord_updatedRecord {buildTime key value : Text} (now : Tm) {src : SourceType} {o : Option JournalData}
    (hb : CleanField buildTime) (hk : CleanField key) (hv : CleanField value) (hs : JournalSource src)
    (ho : ∀ r, o = some r → CleanRecord key r ∧ JournalSource r.updatedSource) :
    CleanRecord key (updatedRecord buildTime now value src o) ∧
      JournalSource (updatedRecord buildTime now value src o).updatedSource := by
  unfold updatedRecord
  split
  · split
    · exact ⟨⟨hk, cleanField_dash, hb, hv, cleanField_getTime now⟩, hs⟩
    · exact ⟨⟨hk, hv, hb, cleanField_dash, cleanField_dash⟩, Or.inl rfl⟩
  · next r =>
    obtain ⟨hr, hs'⟩ := ho r rfl
    split
    · exact ⟨⟨hk, hv, hb, hr.updatedValue, hr.updatedTime⟩, hs'⟩
    · exact ⟨⟨hk, hr.fwValue, hr.buildTime, hv, cleanField_getTime now⟩, hs⟩

theorem restored_setJournalValue {j : XBSStoreJournal} (h : Restored j) (hb : CleanField j.buildTime)
    (hterm : j.initialUpdate = true → Terminated (j.file.getD [])) (ord : Order Text) (now : Tm) {key value : Text}
    {src : SourceType} (hk : CleanField key) (hv : CleanField value) (hs : JournalSource src) :
    let j' := (setJournalValue ord true now key value src j).2
    Restored j' ∧ (j'.initialUpdate = true → Terminated (j'.file.getD [])) := by
  intro j'
  have hnew := cleanRecord_updatedRecord now hb hk hv hs fun r hr => h.clean (k := key) hr
  cases hi : j.initialUpdate
  · have hf : j'.file = some (renderJournal (ord.enum j'.dict)) := by
      show some (if j.initialUpdate then _ else _) = _
      rw [hi]
      rfl
    refine ⟨restored_of_clean ord hf ?_, fun hi' => ?_⟩
    · exact AllEntries.insert (P := fun k r => CleanRecord k r ∧ JournalSource r.updatedSource)
        (fun k r hr => h.clean hr) hnew
    · exact absurd (hi.symm.trans hi') (by decide)
  · have hf : j'.file = some (j.file.getD [] ++
        journalLine (key, updatedRecord j.buildTime now value src (j.dict.lookup key))) := by
      show some (if j.initialUpdate then _ else _) = _
      rw [hi]
      rfl
    refine ⟨fun k => ?_, fun _ => ?_⟩
    · have hline : records (journalLine (key, updatedRecord j.buildTime now value src (j.dict.lookup key))) =
          [(key, (updatedRecord j.buildTime now value src (j.dict.lookup key)).unmarked)] := by
        have := records_journalLine hnew.1 hnew.2 []
        rwa [List.append_nil] at this
      rw [hf, Option.getD_some, loadJournal, records_append (hterm hi), hline, lookup_ofList, lastOf_concat]
      show _ = ((j.dict.insert key _).lookup k).map JournalData.unmarked
      rw [lookup_insert_ite]
      by_cases hkey : k = key
      · rw [if_pos hkey, if_pos hkey]
        rfl
      · rw [if_neg hkey, if_neg hkey, ← h k, loadJournal, lookup_ofList]
    · rw [hf]
      exact (hterm hi).append (terminated_journalLine _)

section
variable {w : World} {key value : Text} {src : SourceType} {s t : XBSStore}

theorem filed_setJournal (h : Filed s) (hp : CleanParam key value) (hs : JournalSource src) :
    Filed (setJournal w.ok key value src s) := by
  obtain ⟨hres, hterm⟩ := restored_setJournalValue h.journal h.buildTime h.appendJournal w.journalOrder w.now
    hp.key hp.value hs
  exact ⟨h.store, hres, h.buildTime, h.appendStore, hterm⟩

theorem RawStep.filed (hs : RawStep w key value src s t) (h : Filed s) (hp : CleanParam key value)
    (hsrc : JournalSource src) : Filed t := by
  cases hs with
  | append hi =>
      refine filed_setJournal ⟨?_, h.journal, h.buildTime, fun _ => ?_, h.appendJournal⟩ hp hsrc
      · show load (s.file.getD [] ++ entryLine (key, value)) = s.dict.insert key value
        have he : entries (entryLine (key, value)) = [(key, value)] := by
          rw [← render_singleton, entries_render (by simpa using hp.entry)]
        rw [load_append (h.appendStore hi), he, h.store]
        rfl
      · exact (h.appendStore hi).append (terminated_append_newline _)
  | same hi hne heq hs => exact h
  | sameJournal hi hne heq hs => exact filed_setJournal h hp hsrc
  | inactive hi hd hj => exact filed_setJournal h hp hsrc
  | rewrite hi hj =>
      refine filed_setJournal ⟨?_, h.journal, h.buildTime, fun hi' => ?_, h.appendJournal⟩ hp hsrc
      · exact load_render_enum w.order (h.cleanDict.insert hp.entry)
      · exact absurd (hi.symm.trans hi') (by decide)

theorem filed_setOverride (msg : MsgData) (h : Filed s) (hp : CleanParam msg.paramName.chars msg.value.chars)
    (hsrc : msg.requestor = .rfc ∨ msg.requestor = .webpa) : Filed (setOverride w.ok msg s).2 := by
  have hsrc' : JournalSource msg.requestor := Or.inr hsrc
  unfold setOverride
  split
  · have hu : Filed { s with journal := resetClearRfc msg.paramName.chars s.journal } := by
      obtain ⟨hf, hb, hi⟩ := resetClearRfc_rest msg.paramName.chars s.journal
      refine ⟨h.store, fun k => ?_, ?_, h.appendStore, ?_⟩
      · show (loadJournal ((resetClearRfc _ _).file.getD [])).lookup k = _
        rw [hf, h.journal k, lookup_resetClearRfc, Option.map_map]
        congr 1
        funext r
        show r.unmarked = (if k = msg.paramName.chars then _ else r : JournalData).unmarked
        split <;> rfl
      · show CleanField (resetClearRfc _ _).buildTime
        rw [hb]
        exact h.buildTime
      · show (resetClearRfc _ _).initialUpdate = true → Terminated ((resetClearRfc _ _).file.getD [])
        rw [hf, hi]
        exact h.appendJournal
    exact (setRawValue_rawStep w _ _ _ _).filed hu hp hsrc'
  · exact (setRawValue_rawStep w _ _ _ _).filed h hp hsrc'

/-! ## `loadFromJson` -/

/-- Items that fit their lines. -/
def CleanItems (config : Items) : Prop := ∀ p ∈ config, CleanParam p.1.chars p.2.chars

theorem filed_removeDropped (config : Items) (h : Filed s) : Filed (removeDropped w.ok config s).2 := by
  unfold removeDropped
  simp only [World.ok]
  split
  · next hr =>
    rw [hr]
    exact ⟨h.store, h.journal, h.buildTime, h.appendStore, h.appendJournal⟩
  · refine ⟨?_, ?_, h.buildTime, fun _ => terminated_render _, fun _ => terminated_renderJournal _⟩
    · exact load_render_enum w.order (AllEntries.eraseAll h.cleanDict _)
    · exact restored_of_clean w.journalOrder rfl (AllEntries.eraseAll
        (P := fun k r => CleanRecord k r ∧ JournalSource r.updatedSource) (fun k r hr => h.journal.clean hr) _)

theorem filed_loadItems (config : Items) (hc : CleanItems config) (h : Filed s) : Filed (loadItems w.ok config s) := by
  induction config generalizing s with
  | nil => exact h
  | cons p config ih =>
      have hstep := setRawValue_rawStep w p.1.chars p.2.chars .default s
      exact ih (fun q hq => hc q (List.mem_cons_of_mem p hq)) (hstep.filed h (hc p List.mem_cons_self) (Or.inl rfl))

theorem getlines_eq_nil {t : Text} (h : getlines t = []) : t = [] := by
  cases t with
  | nil => rfl
  | cons c t =>
      rw [getlines] at h
      split at h
      · cases h
      · split at h <;> cases h

/-- The file of an empty journal is empty. -/
theorem file_of_empty {j : XBSStoreJournal} (h : Restored j) (hj : ∀ k, j.dict.lookup k = none) :
    j.file.getD [] = [] := by
  have hrec : records (j.file.getD []) = [] := by
    by_contra hne
    obtain ⟨p, hp⟩ := List.exists_mem_of_ne_nil _ hne
    have hlast : lastOf (records (j.file.getD [])) p.1 = none := by
      have := h p.1
      rwa [hj p.1, loadJournal, lookup_ofList] at this
    exact lastOf_eq_none.mp hlast (List.mem_map_of_mem hp)
  exact getlines_eq_nil (List.map_eq_nil_iff.mp hrec)

theorem filed_prepared (hs : Quiet s) (h : Filed s) : Filed (prepared s) := by
  unfold prepared
  split
  · exact h
  · next hf =>
    have hnone : s.file = none := by simpa using hf
    have hj : ∀ k, s.journal.dict.lookup k = none := by
      intro k
      have := hs.active k
      rwa [hs.fileCovers hnone, Finmap.lookup_empty, eq_comm, Option.map_eq_none_iff, view_eq_none] at this
    refine ⟨h.store, h.journal, h.buildTime, fun _ => ?_, fun _ => ?_⟩
    · show Terminated (s.file.getD [])
      rw [hnone]
      exact terminated_nil
    · show Terminated (s.journal.file.getD [])
      rw [file_of_empty h.journal hj]
      exact terminated_nil

theorem filed_loadFromJson (hs : Quiet s) (h : Filed s) (hc : ∀ config, w.config = .items config → CleanItems config) :
    Filed (loadFromJson w.ok s).2 := by
  cases hw : w.config with
  | failed =>
      have : (loadFromJson w.ok s).2 = s := by simp [loadFromJson, World.ok, hw]
      rw [this]
      exact h
  | skipped =>
      have : (loadFromJson w.ok s).2 = s := by simp [loadFromJson, World.ok, hw]
      rw [this]
      exact h
  | items config =>
      rw [loadFromJson_items hw]
      have hl := filed_loadItems (w := w) config (hc config hw) (filed_removeDropped (w := w) config (filed_prepared hs h))
      exact ⟨hl.store, hl.journal, hl.buildTime, (fun hi => by cases hi), (fun hi => by cases hi)⟩

/-! ## The RFC update -/

theorem filed_clearDb (h : Filed s) : Filed (clearDb w.ok s) := by
  refine ⟨h.store, fun k => ?_, h.buildTime, h.appendStore, h.appendJournal⟩
  show (loadJournal (s.journal.file.getD [])).lookup k = _
  have hlookup := lookup_rewriteAll_enum w.journalOrder JournalData.marked s.journal.dict k
  rw [h.journal k]
  show _ = ((rewriteAll JournalData.marked s.journal.dict (w.journalOrder.enum s.journal.dict)).lookup k).map _
  rw [hlookup, Option.map_map]
  congr 1
  funext r
  show r.unmarked = ((r.marked).getD r).unmarked
  unfold JournalData.marked
  split <;> rfl

theorem cleanRecord_clearedRecord {k : Text} {r : JournalData} (h : CleanRecord k r ∧ JournalSource r.updatedSource) :
    CleanRecord k (clearedRecord r) ∧ JournalSource (clearedRecord r).updatedSource := by
  unfold clearedRecord
  split
  · exact ⟨⟨h.1.key, h.1.fwValue, h.1.buildTime, cleanField_dash, cleanField_dash⟩, Or.inl rfl⟩
  · exact h

theorem filed_clearDbDone (hs : Settled s) (h : Filed s) : Filed (clearDbDone w.ok s) := by
  obtain ⟨hact, hlookup, hf, hjf, hji, hkept⟩ := clearRfcValues_spec (w := w) hs
  have hrec : ∀ k r, (clearRfcValues w.ok s).journal.dict.lookup k = some r →
      (CleanRecord k r ∧ JournalSource r.updatedSource) ∧ k ∈ s.dict := by
    intro k r hr
    obtain ⟨r', hr', rfl⟩ := Option.map_eq_some_iff.mp ((hlookup k).symm.trans hr)
    exact ⟨cleanRecord_clearedRecord (h.journal.clean hr'), (hs.mem_iff k).mpr (Finmap.mem_of_lookup_eq_some hr')⟩
  have hclean : CleanDict (clearRfcValues w.ok s).dict := by
    intro k v hv
    rw [hact k, view, viewJournal, Option.map_map] at hv
    obtain ⟨r, hr, rfl⟩ := Option.map_eq_some_iff.mp hv
    obtain ⟨⟨hc, -⟩, hmem⟩ := hrec k r hr
    obtain ⟨u, hu⟩ := Finmap.mem_iff.mp hmem
    have hkey := h.cleanDict k u hu
    refine ⟨hkey.key_eq, hkey.key_line, ?_⟩
    show '\n' ∉ r.setting.active
    by_cases ho : r.updatedSource = .rfc ∨ r.updatedSource = .webpa
    · rw [active_over ho]
      exact hc.updatedValue.line
    · have hnone : r.setting.override = none := by
        rw [override_eq_none]
        tauto
      simp only [Setting.active, hnone]
      exact hc.fwValue.line
  refine ⟨?_, ?_, ?_, fun hi => ?_, fun hi => ?_⟩
  · show load ((clearRfcValues w.ok s).file.getD []) = (clearRfcValues w.ok s).dict
    rw [hf]
    exact load_render_enum w.order hclean
  · exact restored_of_clean w.journalOrder rfl fun k r hr => (hrec k r hr).1
  · show CleanField (clearRfcValues w.ok s).journal.buildTime
    rw [hkept.buildTime]
    exact h.buildTime
  · show Terminated ((clearRfcValues w.ok s).file.getD [])
    rw [hf]
    exact terminated_render _
  · exact terminated_renderJournal _

end

end Tr69HostIf.BS
