import Tr69HostIf.BS.Spec

/-!
# `loadFromJson` and the RFC update on the settings

`loadFromJson_spec` : a load acts on every parameter as `loadConfig`, whether it appends to a new file or
rewrites an old one; `clearDb_spec` and `clearDbDone_spec` : the two ends of an RFC update act as `mark` and
`revert`.
-/

namespace Tr69HostIf.BS
open Store

section
variable {w : World} {s : XBSStore}

/-! ## Removal -/

theorem Coherent.mem_iff (h : Coherent s) (k : Text) : k ∈ s.dict ↔ k ∈ s.journal.dict := by
  rw [← Finmap.lookup_isSome, ← Finmap.lookup_isSome, h.active k]
  simp [view, viewJournal]

theorem mem_removedKeys (ord : Order Text) (config : Items) (k : Text) :
    k ∈ removedKeys ord config s ↔ k ∈ s.dict ∧ removable config s.journal k = true := by
  rw [removedKeys, List.mem_filter, mem_keys_enum]

/-- Exactly the settings that `dropMissing` drops are removed. -/
theorem view_removed (ord : Order Text) (config : Items) (h : Coherent s) (k : Text) :
    viewJournal (eraseAll s.journal.dict (removedKeys ord config s)) k = dropMissing config k (view s k) := by
  unfold view viewJournal
  rw [lookup_eraseAll]
  cases hr : s.journal.dict.lookup k with
  | none => simp [dropMissing]
  | some r =>
      have hmem : k ∈ s.dict := (h.mem_iff k).mpr (Finmap.mem_of_lookup_eq_some hr)
      have hover : r.setting.override.isSome = false ↔ r.updatedSource = .default := by
        rw [Option.isSome_eq_false_iff, Option.isNone_iff_eq_none, override_eq_none]
        have := h.source k r hr
        constructor
        · tauto
        · intro hd
          rw [hd]
          decide
      have hiff : k ∈ removedKeys ord config s ↔
          ((getObjectItem config (cStr k)).isSome || decide (k = partnerIdKey) || r.setting.override.isSome) = false := by
        rw [mem_removedKeys, removable, getJournalSource_some hr, Bool.or_eq_false_iff, hover]
        simp [hmem, and_assoc]
      simp only [dropMissing, Option.map_some, Option.filter_some]
      by_cases hk : k ∈ removedKeys ord config s
      · rw [if_pos hk, hiff.mp hk]
        rfl
      · rw [if_neg hk, if_pos (Bool.eq_true_of_not_eq_false fun hf => hk (hiff.mpr hf))]
        rfl

/-- The store after the removal. -/
theorem removeDropped_ok (config : Items) :
    (removeDropped w.ok config s).1 = true ∧
      (removeDropped w.ok config s).2.dict = eraseAll s.dict (removedKeys w.order config s) ∧
      (removeDropped w.ok config s).2.journal.dict = eraseAll s.journal.dict (removedKeys w.order config s) ∧
      (removeDropped w.ok config s).2.journal.initialUpdate = s.journal.initialUpdate ∧
      Kept s (removeDropped w.ok config s).2 := by
  unfold removeDropped
  simp only [World.ok]
  split
  · exact ⟨rfl, rfl, rfl, rfl, rfl, rfl, rfl, rfl⟩
  · exact ⟨rfl, rfl, rfl, rfl, rfl, rfl, rfl, rfl⟩

theorem fileCovers_removeDropped (config : Items) (h : FileCovers s) : FileCovers (removeDropped w.ok config s).2 := by
  unfold removeDropped FileCovers
  simp only [World.ok]
  split
  · intro hf
    have hd : s.dict = ∅ := h hf
    refine Finmap.ext_lookup fun k => ?_
    rw [lookup_eraseAll, hd]
    simp
  · intro hf
    cases hf

theorem removeDropped_view (config : Items) (h : Coherent s) (k : Text) :
    view (removeDropped w.ok config s).2 k = dropMissing config k (view s k) := by
  unfold view
  rw [removeDropped_ok config |>.2.2.1]
  exact view_removed w.order config h k

theorem coherent_removeDropped (config : Items) (h : Coherent s) : Coherent (removeDropped w.ok config s).2 := by
  obtain ⟨-, hd, hj, hf, hkept⟩ := removeDropped_ok (w := w) (s := s) config
  have hall : ∀ {P : Text → JournalData → Prop}, AllEntries P s.journal.dict →
      AllEntries P (removeDropped w.ok config s).2.journal.dict := by
    intro P hP
    rw [hj]
    exact AllEntries.eraseAll hP _
  refine ⟨fun k => ?_, hall h.source, ?_, hall h.noNulFw, ?_, ?_⟩
  · rw [hd, lookup_eraseAll, h.active k]
    unfold view viewJournal
    rw [hj, lookup_eraseAll]
    split <;> rfl
  · rw [hd]
    exact AllEntries.eraseAll (P := fun _ v => '\x00' ∉ v) h.noNul _
  · rw [hf, hkept.initialUpdate, h.flags]
  · rw [hkept.initialUpdate]
    exact fun hi => hall (h.initial hi)

theorem marks_removeDropped (config : Items) (h : Marks s) : Marks (removeDropped w.ok config s).2 := by
  obtain ⟨-, -, hj, -, hkept⟩ := removeDropped_ok (w := w) (s := s) config
  unfold Marks
  rw [hj, hkept.rfcUpdateInProgress]
  exact AllEntries.eraseAll h _

/-! ## The items -/

theorem loadItems_cons (env : Env) (p : CString × CString) (config : Items) (s : XBSStore) :
    loadItems env (p :: config) s = loadItems env config (setRawValue env p.1.chars p.2.chars .default s).2 := rfl

theorem loadItems_spec (config : Items) (h : Coherent s) :
    let t := loadItems w.ok config s
    Coherent t ∧ Kept s t ∧ (FileCovers s → FileCovers t) ∧ ∀ k, view t k = setDefaults (pairs config) k (view s k) := by
  induction config generalizing s with
  | nil => exact ⟨h, ⟨rfl, rfl, rfl, rfl⟩, id, fun k => rfl⟩
  | cons p config ih =>
      have hstep := setRawValue_rawStep w p.1.chars p.2.chars .default s
      obtain ⟨hcoh, hkept, hfile, hview⟩ := ih (hstep.coherent_default h p.2.noNul)
      refine ⟨hcoh, hstep.kept.trans hkept, fun hf => hfile (hstep.fileCovers hf), fun k => ?_⟩
      rw [loadItems_cons, hview k, hstep.view_default h p.2.noNul k]
      show _ = setDefaults ((p.1.chars, p.2.chars) :: pairs config) k (view s k)
      rw [setDefaults_cons]
      congr 1
      by_cases hk : k = p.1.chars
      · rw [if_pos hk, if_pos hk, hk]
      · rw [if_neg hk, if_neg hk]

theorem marks_loadItems (config : Items) (h : Marks s) : Marks (loadItems w.ok config s) := by
  induction config generalizing s with
  | nil => exact h
  | cons p config ih => exact ih ((setRawValue_rawStep w p.1.chars p.2.chars .default s).marks_default h)

/-! ## `loadFromJson` -/

theorem coherent_setInitialUpdate_true (h : Coherent s) (hd : s.dict = ∅) : Coherent (setInitialUpdate true s) := by
  have hj : ∀ k, s.journal.dict.lookup k = none := by
    intro k
    have := h.active k
    rw [hd, Finmap.lookup_empty, eq_comm, Option.map_eq_none_iff, view_eq_none] at this
    exact this
  refine ⟨h.active, h.source, h.noNul, h.noNulFw, rfl, fun _ k r hr => ?_⟩
  have hr' : s.journal.dict.lookup k = some r := hr
  rw [hj k] at hr'
  cases hr'

theorem coherent_setInitialUpdate_false (h : Coherent s) : Coherent (setInitialUpdate false s) :=
  ⟨h.active, h.source, h.noNul, h.noNulFw, rfl, fun hf => by cases hf⟩

/-- A coherent store that is not in the middle of a load. -/
structure Quiet (s : XBSStore) : Prop extends Coherent s where
  notInitial : s.initialUpdate = false
  fileCovers : FileCovers s

/-- What the store looks like between two requests. -/
structure Settled (s : XBSStore) : Prop extends Quiet s where
  marks : Marks s

/-- What a load leaves alone. -/
structure LoadKept (s t : XBSStore) : Prop where
  initDone : t.initDone = s.initDone
  rfcUpdateInProgress : t.rfcUpdateInProgress = s.rfcUpdateInProgress
  buildTime : t.journal.buildTime = s.journal.buildTime

/-- The configuration of the world on one setting. -/
def applyConfig (c : Config) (k : Text) (t : Option Setting) : Option Setting :=
  match c with
  | .items config => loadConfig config k t
  | _ => t

/-- The state in which the items are loaded. -/
def prepared (s : XBSStore) : XBSStore := if s.file.isSome then s else setInitialUpdate true s

theorem coherent_prepared (h : Quiet s) : Coherent (prepared s) := by
  unfold prepared
  split
  · exact h.toCoherent
  · next hf => exact coherent_setInitialUpdate_true h.toCoherent (h.fileCovers (by simpa using hf))

theorem loadFromJson_items {config : Items} (hc : w.config = .items config) :
    loadFromJson w.ok s =
      (true, setInitialUpdate false (loadItems w.ok config (removeDropped w.ok config (prepared s)).2)) := by
  unfold loadFromJson prepared
  have hc' : w.ok.world.config = .items config := hc
  have ho : (w.ok.opens.readStore && s.file.isSome) = s.file.isSome := rfl
  rw [hc']
  simp only [ho, (removeDropped_ok config).1, if_pos]

/-- **A load acts on every parameter as `loadConfig`.** -/
theorem loadFromJson_spec (h : Quiet s) :
    let t := (loadFromJson w.ok s).2
    Quiet t ∧ LoadKept s t ∧ ∀ k, view t k = applyConfig w.config k (view s k) := by
  cases hc : w.config with
  | failed =>
      have : (loadFromJson w.ok s).2 = s := by simp [loadFromJson, World.ok, hc]
      rw [this]
      exact ⟨h, ⟨rfl, rfl, rfl⟩, fun k => rfl⟩
  | skipped =>
      have : (loadFromJson w.ok s).2 = s := by simp [loadFromJson, World.ok, hc]
      rw [this]
      exact ⟨h, ⟨rfl, rfl, rfl⟩, fun k => rfl⟩
  | items config =>
      rw [loadFromJson_items hc]
      have hprep := coherent_prepared h
      have hdict : (prepared s).dict = s.dict ∧ (prepared s).file = s.file ∧ (prepared s).journal.dict = s.journal.dict ∧
          (prepared s).initDone = s.initDone ∧ (prepared s).rfcUpdateInProgress = s.rfcUpdateInProgress ∧
          (prepared s).journal.buildTime = s.journal.buildTime := by
        unfold prepared
        split <;> exact ⟨rfl, rfl, rfl, rfl, rfl, rfl⟩
      obtain ⟨hdict, hfile, hj, hinit, hrfc, hbt⟩ := hdict
      have hcov : FileCovers (prepared s) := by
        unfold FileCovers
        rw [hfile, hdict]
        exact h.fileCovers
      obtain ⟨-, -, -, -, hkept⟩ := removeDropped_ok (w := w) (s := prepared s) config
      obtain ⟨hcoh, hkept', hcov', hview⟩ := loadItems_spec (w := w) config (coherent_removeDropped (w := w) config hprep)
      refine ⟨⟨coherent_setInitialUpdate_false hcoh, rfl, hcov' (fileCovers_removeDropped config hcov)⟩,
        ⟨?_, ?_, ?_⟩, fun k => ?_⟩
      · exact (hkept'.initDone.trans hkept.initDone).trans hinit
      · exact (hkept'.rfcUpdateInProgress.trans hkept.rfcUpdateInProgress).trans hrfc
      · exact (hkept'.buildTime.trans hkept.buildTime).trans hbt
      · have := hview k
        rw [removeDropped_view config hprep k] at this
        have hv : view (prepared s) k = view s k := by
          unfold view
          rw [hj]
        rw [hv] at this
        exact this

theorem marks_loadFromJson (h : Marks s) : Marks (loadFromJson w.ok s).2 := by
  cases hc : w.config with
  | failed =>
      have : (loadFromJson w.ok s).2 = s := by simp [loadFromJson, World.ok, hc]
      rw [this]
      exact h
  | skipped =>
      have : (loadFromJson w.ok s).2 = s := by simp [loadFromJson, World.ok, hc]
      rw [this]
      exact h
  | items config =>
      rw [loadFromJson_items hc]
      have hprep : Marks (prepared s) := by
        unfold prepared
        split <;> exact h
      exact marks_loadItems (w := w) config (marks_removeDropped (w := w) config hprep)

theorem settled_loadFromJson (h : Settled s) : Settled (loadFromJson w.ok s).2 :=
  ⟨(loadFromJson_spec h.toQuiet).1, marks_loadFromJson h.marks⟩

/-! ## The RFC update -/

theorem view_rfcUpdateStarted (ord : Order Text) (j : XBSStoreJournal) (k : Text) :
    viewJournal (rfcUpdateStarted ord j).dict k = mark (viewJournal j.dict k) := by
  unfold viewJournal rfcUpdateStarted mark
  rw [lookup_rewriteAll_enum, Option.map_map, Option.map_map]
  congr 1
  funext r
  exact setting_marked r

theorem active_mark (t : Setting) :
    (if t.override.any (fun p => p.1 = .rfc) then { t with marked := true } else t : Setting).active = t.active := by
  split <;> rfl

/-- What `rfcUpdateStarted` makes of one record. -/
def markedRecord (r : JournalData) : JournalData := r.marked.getD r

theorem lookup_clearDb (k : Text) :
    (clearDb w.ok s).journal.dict.lookup k = (s.journal.dict.lookup k).map markedRecord :=
  lookup_rewriteAll_enum w.journalOrder JournalData.marked s.journal.dict k

theorem markedRecord_source (r : JournalData) : (markedRecord r).updatedSource = r.updatedSource := by
  unfold markedRecord JournalData.marked
  split <;> rfl

theorem markedRecord_fwValue (r : JournalData) : (markedRecord r).fwValue = r.fwValue := by
  unfold markedRecord JournalData.marked
  split <;> rfl

theorem markedRecord_of_ne {r : JournalData} (h : r.updatedSource ≠ .rfc) : markedRecord r = r := by
  unfold markedRecord JournalData.marked
  rw [if_neg h]
  rfl

/-- **`ClearDB` marks what RFC has set.** -/
theorem clearDb_spec (h : Settled s) :
    Settled (clearDb w.ok s) ∧ (clearDb w.ok s).initDone = s.initDone ∧
      (clearDb w.ok s).journal.buildTime = s.journal.buildTime ∧ ∀ k, view (clearDb w.ok s) k = mark (view s k) := by
  have hview : ∀ k, view (clearDb w.ok s) k = mark (view s k) := view_rfcUpdateStarted _ _
  have hcoh : Coherent (clearDb w.ok s) := by
    refine h.mapRecords lookup_clearDb (fun k => ?_) h.noNul (fun _ r => Or.inr (markedRecord_source r))
      (fun _ => markedRecord_fwValue) rfl rfl
    rw [hview k]
    show s.dict.lookup k = _
    rw [h.active k, mark, Option.map_map]
    congr 1
    funext t
    exact (active_mark t).symm
  refine ⟨⟨⟨hcoh, h.notInitial, h.fileCovers⟩, fun k r hr hc => ⟨?_, rfl⟩⟩, rfl, rfl, hview⟩
  rw [lookup_clearDb] at hr
  obtain ⟨r', hr', rfl⟩ := Option.map_eq_some_iff.mp hr
  rw [markedRecord_source]
  by_contra hne
  rw [markedRecord_of_ne hne] at hc
  exact hne (h.marks k r' hr' hc).1

/-- What the loop of `clearRfcValues` makes of one key. -/
def clearedRecord (r : JournalData) : JournalData := if r.clearRfc then r.cleared else r

theorem lookup_clearRfcKey (d : Dict Text Text) (j : XBSStoreJournal) (key k : Text) :
    (clearRfcKey (d, j) key).2.dict.lookup k = (j.dict.lookup k).map (fun r => if k = key then clearedRecord r else r) ∧
      (clearRfcKey (d, j) key).1.lookup k =
        if k = key ∧ ∃ r, j.dict.lookup key = some r ∧ r.clearRfc = true then
          (j.dict.lookup key).map (·.fwValue) else d.lookup k := by
  unfold clearRfcKey clearRfcAndGetDefaultValue
  by_cases hk : k = key
  · subst hk
    cases hr : j.dict.lookup k with
    | none => simp [hr]
    | some r => cases hc : r.clearRfc <;> simp [hc, hr, clearedRecord]
  · simp only [hk, false_and, if_false, Option.map_id']
    cases hr : j.dict.lookup key with
    | none => exact ⟨rfl, rfl⟩
    | some r =>
        cases hc : r.clearRfc
        · exact ⟨by simp [hc], by simp [hc]⟩
        · simp only [hc, if_true]
          exact ⟨Finmap.lookup_insert_of_ne _ hk, Finmap.lookup_insert_of_ne _ hk⟩

theorem clearedRecord_clearedRecord (r : JournalData) : clearedRecord (clearedRecord r) = clearedRecord r := by
  unfold clearedRecord
  cases hc : r.clearRfc
  · simp [hc]
  · simp [JournalData.cleared]

theorem setting_clearedRecord (r : JournalData) :
    (clearedRecord r).setting =
      if r.setting.marked then { r.setting with override := none, marked := false } else r.setting := by
  unfold clearedRecord
  cases hc : r.clearRfc
  · have hm : r.setting.marked = false := hc
    rw [hm]
    rfl
  · have hm : r.setting.marked = true := hc
    rw [if_pos hm, if_pos rfl, setting_cleared]

/-- One turn of the loop keeps the dictionary at the active values. -/
theorem clearRfcKey_active {d : Dict Text Text} {j : XBSStoreJournal}
    (h : ∀ k, d.lookup k = (viewJournal j.dict k).map Setting.active) (key k : Text) :
    (clearRfcKey (d, j) key).1.lookup k = (viewJournal (clearRfcKey (d, j) key).2.dict k).map Setting.active := by
  obtain ⟨hj, hd⟩ := lookup_clearRfcKey d j key k
  unfold viewJournal at h ⊢
  rw [hd, hj]
  by_cases hk : k = key
  · subst hk
    simp only [true_and, if_true]
    cases hr : j.dict.lookup k with
    | none =>
        have := h k
        rw [hr] at this
        simpa using this
    | some r =>
        cases hc : r.clearRfc
        · have := h k
          rw [hr] at this
          simpa [clearedRecord, hc] using this
        · have hact : (clearedRecord r).setting.active = r.fwValue := by
            rw [setting_clearedRecord]
            simp [JournalData.setting, hc, Setting.active]
          simp [hc, hact]
  · simp only [hk, false_and, if_false, Option.map_id']
    exact h k

theorem clearRfcKey_rest (d : Dict Text Text) (j : XBSStoreJournal) (key : Text) :
    (clearRfcKey (d, j) key).2.file = j.file ∧ (clearRfcKey (d, j) key).2.buildTime = j.buildTime ∧
      (clearRfcKey (d, j) key).2.initialUpdate = j.initialUpdate := by
  have hsnd : (clearRfcKey (d, j) key).2 = (clearRfcAndGetDefaultValue key j).2 := by
    unfold clearRfcKey
    split <;> next heq => rw [heq]
  rw [hsnd]
  unfold clearRfcAndGetDefaultValue
  split
  · split <;> exact ⟨rfl, rfl, rfl⟩
  · exact ⟨rfl, rfl, rfl⟩

/-- The whole loop: every key of the list is cleared, and the dictionary follows. -/
theorem clearRfcKeys_spec (ks : List Text) {d : Dict Text Text} {j : XBSStoreJournal}
    (h : ∀ k, d.lookup k = (viewJournal j.dict k).map Setting.active) :
    let r := ks.foldl clearRfcKey (d, j)
    (∀ k, r.1.lookup k = (viewJournal r.2.dict k).map Setting.active) ∧
      (∀ k, r.2.dict.lookup k = (j.dict.lookup k).map fun r => if k ∈ ks then clearedRecord r else r) ∧
      r.2.file = j.file ∧ r.2.buildTime = j.buildTime ∧ r.2.initialUpdate = j.initialUpdate := by
  induction ks generalizing d j with
  | nil => exact ⟨h, fun k => by simp, rfl, rfl, rfl⟩
  | cons key ks ih =>
      have hrest := clearRfcKey_rest d j key
      obtain ⟨hact, hlookup, hf, hb, hi⟩ := ih (clearRfcKey_active h key)
      refine ⟨hact, fun k => ?_, hf.trans hrest.1, hb.trans hrest.2.1, hi.trans hrest.2.2⟩
      rw [List.foldl_cons, hlookup k, (lookup_clearRfcKey d j key k).1, Option.map_map]
      congr 1
      funext r
      by_cases hk : k = key <;> by_cases hmem : k ∈ ks <;> simp [hk, hmem, clearedRecord_clearedRecord]

/-- The journal and the dictionary after `clearRfcValues`. -/
theorem clearRfcValues_spec (h : Settled s) :
    let t := clearRfcValues w.ok s
    (∀ k, t.dict.lookup k = (view t k).map Setting.active) ∧
      (∀ k, t.journal.dict.lookup k = (s.journal.dict.lookup k).map clearedRecord) ∧
      t.file = some (render (w.order.enum t.dict)) ∧ t.journal.file = s.journal.file ∧
      t.journal.initialUpdate = s.journal.initialUpdate ∧ Kept s t := by
  intro t
  obtain ⟨hact, hlookup, hf, hb, hi⟩ := clearRfcKeys_spec ((w.order.enum s.dict).map Prod.fst) h.active
  refine ⟨hact, fun k => ?_, rfl, hf, hi, rfl, rfl, rfl, hb⟩
  refine (hlookup k).trans ?_
  cases hr : s.journal.dict.lookup k with
  | none => rfl
  | some r =>
      have hmem : k ∈ s.dict := (h.mem_iff k).mpr (Finmap.mem_of_lookup_eq_some hr)
      rw [Option.map_some, if_pos ((mem_keys_enum w.order s.dict k).mpr hmem), Option.map_some]

theorem clearedRecord_noNul (h : Coherent s) {k : Text} {r : JournalData} (hr : s.journal.dict.lookup k = some r) :
    '\x00' ∉ (clearedRecord r).setting.active := by
  unfold clearedRecord
  split
  · exact h.noNulFw k r hr
  · refine h.noNul k _ ?_
    rw [h.active k, view, viewJournal, hr]
    rfl

theorem clearedRecord_clearRfc (r : JournalData) : (clearedRecord r).clearRfc = false := by
  unfold clearedRecord
  cases hc : r.clearRfc
  · simpa using hc
  · rfl

theorem clearedRecord_source (r : JournalData) :
    (clearedRecord r).updatedSource = .default ∨ (clearedRecord r).updatedSource = r.updatedSource := by
  unfold clearedRecord
  split
  · exact Or.inl rfl
  · exact Or.inr rfl

theorem clearedRecord_fwValue (r : JournalData) : (clearedRecord r).fwValue = r.fwValue := by
  unfold clearedRecord
  split <;> rfl

theorem coherent_clearRfcValues (h : Settled s) : Coherent (clearRfcValues w.ok s) := by
  obtain ⟨hact, hlookup, -, -, hi, hkept⟩ := clearRfcValues_spec (w := w) h
  refine h.mapRecords hlookup hact (fun k v hv => ?_) (fun _ => clearedRecord_source) (fun _ => clearedRecord_fwValue) hi
    hkept.initialUpdate
  rw [hact k] at hv
  unfold view viewJournal at hv
  rw [hlookup k, Option.map_map, Option.map_map] at hv
  obtain ⟨r, hr, rfl⟩ := Option.map_eq_some_iff.mp hv
  exact clearedRecord_noNul h.toCoherent hr

/-- **`ClearDBEnd` reverts what is still marked.** -/
theorem clearDbDone_spec (h : Settled s) :
    Settled (clearDbDone w.ok s) ∧ (clearDbDone w.ok s).initDone = s.initDone ∧
      (clearDbDone w.ok s).journal.buildTime = s.journal.buildTime ∧
      ∀ k, view (clearDbDone w.ok s) k = revert (view s k) := by
  obtain ⟨-, hlookup, hf, -, -, hkept⟩ := clearRfcValues_spec (w := w) h
  obtain ⟨hact, hsource, hnul, hfw, hflags, hinitial⟩ := coherent_clearRfcValues (w := w) h
  have hcoh : Coherent (clearDbDone w.ok s) := ⟨hact, hsource, hnul, hfw, hflags, hinitial⟩
  have hview : ∀ k, view (clearDbDone w.ok s) k = revert (view s k) := by
    intro k
    show viewJournal (clearRfcValues w.ok s).journal.dict k = _
    unfold view viewJournal revert
    rw [hlookup k, Option.map_map, Option.map_map]
    congr 1
    funext r
    exact setting_clearedRecord r
  refine ⟨⟨⟨hcoh, hkept.initialUpdate.trans h.notInitial, fun hn => ?_⟩, fun k r hr hc => ?_⟩, hkept.initDone,
    hkept.buildTime, hview⟩
  · have : (clearRfcValues w.ok s).file = none := hn
    rw [hf] at this
    cases this
  · obtain ⟨r', -, rfl⟩ := Option.map_eq_some_iff.mp ((hlookup k).symm.trans hr)
    rw [clearedRecord_clearRfc] at hc
    cases hc

end

end Tr69HostIf.BS
