import Tr69HostIf.BS.Setting
import Tr69HostIf.Store.Run

/-!
# What each operation does to the settings

`Coherent s` : the dictionary of the store holds exactly the active values of the journal's settings. Under
it, and with every open successful, each function of the store acts on `view s` as the function of the same
purpose in `Setting`, parameter by parameter, and keeps `Coherent`: `RawStep.view_default` and
`RawStep.view_over` for `setRawValue`, `loadFromJson_view`, `clearDb_view`, `clearDbDone_view`.
-/

namespace Tr69HostIf.BS
open Store

/-- The dictionary holds the active values. -/
structure Coherent (s : XBSStore) : Prop where
  active : ∀ k, s.dict.lookup k = (view s k).map Setting.active
  source : ∀ k r, s.journal.dict.lookup k = some r →
    r.updatedSource = .default ∨ r.updatedSource = .rfc ∨ r.updatedSource = .webpa
  noNul : ∀ k v, s.dict.lookup k = some v → '\x00' ∉ v
  noNulFw : ∀ k r, s.journal.dict.lookup k = some r → '\x00' ∉ r.fwValue
  flags : s.journal.initialUpdate = s.initialUpdate
  initial : s.initialUpdate = true → ∀ k r, s.journal.dict.lookup k = some r → r.updatedSource = .default

/-- Only records that RFC has set are marked, and only during an update. -/
def Marks (s : XBSStore) : Prop :=
  ∀ k r, s.journal.dict.lookup k = some r → r.clearRfc = true → r.updatedSource = .rfc ∧ s.rfcUpdateInProgress = true

/-! ## The ways through `setRawValue` -/

/-- The dictionary and the file after an append. -/
def XBSStore.appendValue (key value : Text) (s : XBSStore) : XBSStore :=
  { s with dict := s.dict.insert key value, file := some (s.file.getD [] ++ entryLine (key, value)) }

/-- The dictionary and the file after a rewrite. -/
def XBSStore.rewriteValue (order : Order Text) (key value : Text) (s : XBSStore) : XBSStore :=
  { s with dict := s.dict.insert key value, file := some (render (order.enum (s.dict.insert key value))) }

/-- What `setRawValue` can do, one constructor per way through it. -/
inductive RawStep (w : World) (key value : Text) (src : SourceType) (s : XBSStore) : XBSStore → Prop
  | append (hi : s.initialUpdate = true) :
      RawStep w key value src s (setJournal w.ok key value src (s.appendValue key value))
  | same (hi : s.initialUpdate = false) (hne : cStr (getRawValue s key) ≠ [])
      (heq : cStr (getRawValue s key) = cStr value) (hs : src = getJournalSource s.journal key) :
      RawStep w key value src s s
  | sameJournal (hi : s.initialUpdate = false) (hne : cStr (getRawValue s key) ≠ [])
      (heq : cStr (getRawValue s key) = cStr value) (hs : src ≠ getJournalSource s.journal key) :
      RawStep w key value src s (setJournal w.ok key value src s)
  | inactive (hi : s.initialUpdate = false) (hd : src = .default)
      (hj : getJournalSource s.journal key = .rfc ∨ getJournalSource s.journal key = .webpa) :
      RawStep w key value src s (setJournal w.ok key value src s)
  | rewrite (hi : s.initialUpdate = false)
      (hj : ¬(src = .default ∧ (getJournalSource s.journal key = .rfc ∨ getJournalSource s.journal key = .webpa))) :
      RawStep w key value src s (setJournal w.ok key value src (s.rewriteValue w.order key value))

theorem setRawValue_rawStep (w : World) (key value : Text) (src : SourceType) (s : XBSStore) :
    RawStep w key value src s (setRawValue w.ok key value src s).2 := by
  unfold setRawValue
  split
  · next hi => exact .append hi
  · next hi =>
    have hi' : s.initialUpdate = false := Bool.eq_false_of_not_eq_true hi
    split
    · next hc =>
      by_cases hs : src ≠ getJournalSource s.journal key
      · simp only [if_pos hs]
        exact .sameJournal hi' hc.1 hc.2 hs
      · simp only [if_neg hs]
        exact .same hi' hc.1 hc.2 (not_not.mp hs)
    · split
      · next hj => exact .inactive hi' hj.1 hj.2
      · next hj => exact .rewrite hi' hj

section
variable {w : World} {key value : Text} {src : SourceType} {s t : XBSStore}

/-- The record `setRawValue` leaves in the journal when it writes it. -/
def newRecord (w : World) (key value : Text) (src : SourceType) (s : XBSStore) : JournalData :=
  updatedRecord s.journal.buildTime w.now value src (s.journal.dict.lookup key)

/-- One record and its active value are replaced, nothing else. -/
theorem Coherent.update (h : Coherent s) (key : Text) (r : JournalData) (hj : t.journal.dict = s.journal.dict.insert key r)
    (hd : ∀ k, k ≠ key → t.dict.lookup k = s.dict.lookup k) (hk : t.dict.lookup key = some r.setting.active)
    (hflags : t.initialUpdate = s.initialUpdate ∧ t.journal.initialUpdate = s.journal.initialUpdate)
    (hsrc : r.updatedSource = .default ∨ r.updatedSource = .rfc ∨ r.updatedSource = .webpa)
    (hnul : '\x00' ∉ r.setting.active) (hfw : '\x00' ∉ r.fwValue)
    (hinit : s.initialUpdate = true → r.updatedSource = .default) : Coherent t := by
  obtain ⟨hf1, hf2⟩ := hflags
  have hlookup : ∀ {P : Text → JournalData → Prop}, P key r →
      (∀ k r', s.journal.dict.lookup k = some r' → P k r') → ∀ k r', t.journal.dict.lookup k = some r' → P k r' := by
    intro P hP hall
    rw [hj]
    exact AllEntries.insert hall hP
  refine ⟨fun k => ?_, hlookup hsrc h.source, fun k v hv => ?_, hlookup hfw h.noNulFw,
    by rw [hf2, hf1, h.flags], fun hi => ?_⟩
  · unfold view
    rw [hj, viewJournal_insert]
    by_cases hkey : k = key
    · rw [if_pos hkey, hkey, hk]
      rfl
    · rw [if_neg hkey, hd k hkey]
      exact h.active k
  · by_cases hkey : k = key
    · rw [hkey, hk] at hv
      injection hv with hv
      exact hv ▸ hnul
    · rw [hd k hkey] at hv
      exact h.noNul k v hv
  · rw [hf1] at hi
    exact hlookup (hinit hi) (h.initial hi)

theorem Coherent.view_of_dict (h : Coherent s) {k v : Text} (hk : s.dict.lookup k = some v) :
    ∃ r, s.journal.dict.lookup k = some r ∧ r.setting.active = v := by
  have := h.active k
  rw [hk] at this
  unfold view viewJournal at this
  rw [Option.map_map, eq_comm, Option.map_eq_some_iff] at this
  exact this

theorem Coherent.current (h : Coherent s) (hv : '\x00' ∉ value) (hne : cStr (getRawValue s key) ≠ [])
    (heq : cStr (getRawValue s key) = cStr value) : s.dict.lookup key = some value := by
  unfold getRawValue at hne heq
  cases hk : s.dict.lookup key with
  | none =>
      rw [hk] at hne
      exact absurd rfl hne
  | some u =>
      rw [hk, Option.getD_some, cStr_of_noNul (h.noNul key u hk), cStr_of_noNul hv] at heq
      rw [heq]

theorem getJournalSource_some {r : JournalData} (h : s.journal.dict.lookup key = some r) :
    getJournalSource s.journal key = r.updatedSource := by
  unfold getJournalSource
  rw [h]

theorem getJournalSource_none (h : s.journal.dict.lookup key = none) :
    getJournalSource s.journal key = .none := by
  unfold getJournalSource
  rw [h]

theorem active_default {r : JournalData} (h : r.updatedSource = .default) : r.setting.active = r.fwValue := by
  simp [JournalData.setting, Setting.active, h]

theorem active_over {r : JournalData} (h : r.updatedSource = .rfc ∨ r.updatedSource = .webpa) :
    r.setting.active = r.updatedValue := by
  simp [JournalData.setting, Setting.active, h]

/-! ### What the ways have in common -/

/-- Either the value is the current one and stays, or the journal gets a record. -/
theorem RawStep.same_or_journal (hs : RawStep w key value src s t) :
    (t = s ∧ cStr (getRawValue s key) ≠ [] ∧ cStr (getRawValue s key) = cStr value ∧
        src = getJournalSource s.journal key) ∨
      ∃ u : XBSStore, u.journal = s.journal ∧ u.rfcUpdateInProgress = s.rfcUpdateInProgress ∧
        t = setJournal w.ok key value src u := by
  cases hs with
  | append hi => exact Or.inr ⟨s.appendValue key value, rfl, rfl, rfl⟩
  | same hi hne heq hs => exact Or.inl ⟨rfl, hne, heq, hs⟩
  | sameJournal hi hne heq hs => exact Or.inr ⟨s, rfl, rfl, rfl⟩
  | inactive hi hd hj => exact Or.inr ⟨s, rfl, rfl, rfl⟩
  | rewrite hi hj => exact Or.inr ⟨s.rewriteValue w.order key value, rfl, rfl, rfl⟩

theorem view_setJournal {u : XBSStore} (hu : u.journal = s.journal) (k : Text) :
    view (setJournal w.ok key value src u) k =
      if k = key then some (newRecord w key value src s).setting else view s k := by
  unfold view newRecord
  rw [← viewJournal_insert, ← hu]
  rfl

/-- The journal gets the record, and the dictionary holds its active value. -/
theorem Coherent.journaled (h : Coherent s) {u : XBSStore} (hj : u.journal = s.journal)
    (hi : u.initialUpdate = s.initialUpdate) (hd : ∀ k, k ≠ key → u.dict.lookup k = s.dict.lookup k)
    (hk : u.dict.lookup key = some (newRecord w key value src s).setting.active)
    (hsrc : (newRecord w key value src s).updatedSource = .default ∨
      (newRecord w key value src s).updatedSource = .rfc ∨ (newRecord w key value src s).updatedSource = .webpa)
    (hnul : '\x00' ∉ (newRecord w key value src s).setting.active)
    (hfw : '\x00' ∉ (newRecord w key value src s).fwValue)
    (hinit : s.initialUpdate = true → (newRecord w key value src s).updatedSource = .default) :
    Coherent (setJournal w.ok key value src u) := by
  refine h.update key (newRecord w key value src s) ?_ hd hk ⟨hi, ?_⟩ hsrc hnul hfw hinit
  · unfold newRecord
    rw [← hj]
    rfl
  · rw [← hj]
    rfl

theorem Marks.journaled (h : Marks s) {u : XBSStore} (hu : u.journal = s.journal)
    (hp : u.rfcUpdateInProgress = s.rfcUpdateInProgress)
    (hrec : (newRecord w key value src s).clearRfc = true →
      (newRecord w key value src s).updatedSource = .rfc ∧ s.rfcUpdateInProgress = true) :
    Marks (setJournal w.ok key value src u) := by
  unfold Marks
  show ∀ k r, (u.journal.dict.insert key _).lookup k = some r → _ → _ ∧ u.rfcUpdateInProgress = true
  rw [hu, hp]
  exact AllEntries.insert h hrec

/-! ### A firmware value -/

theorem newRecord_default_source :
    (newRecord w key value .default s).updatedSource =
      ((s.journal.dict.lookup key).map (·.updatedSource)).getD .default := by
  unfold newRecord
  cases s.journal.dict.lookup key <;> rfl

theorem newRecord_default_clearRfc :
    (newRecord w key value .default s).clearRfc = ((s.journal.dict.lookup key).map (·.clearRfc)).getD false := by
  unfold newRecord
  cases s.journal.dict.lookup key <;> rfl

theorem newRecord_default_fwValue : (newRecord w key value .default s).fwValue = value := by
  unfold newRecord
  cases s.journal.dict.lookup key <;> rfl

theorem newRecord_default_setting :
    some (newRecord w key value .default s).setting = setDefault value (view s key) :=
  setting_updatedRecord_default _ _ _ _

/-- The new record satisfies what `Coherent` asks of a record. -/
theorem Coherent.newRecord_default (h : Coherent s) (w : World) (key value : Text) :
    let r := newRecord w key value .default s
    (r.updatedSource = .default ∨ r.updatedSource = .rfc ∨ r.updatedSource = .webpa) ∧
      (s.initialUpdate = true → r.updatedSource = .default) := by
  intro r
  have hsrc : r.updatedSource = _ := newRecord_default_source
  rw [hsrc]
  cases hr : s.journal.dict.lookup key with
  | none => simp
  | some r' => exact ⟨h.source key r' hr, fun hi => h.initial hi key r' hr⟩

theorem RawStep.view_default (hs : RawStep w key value .default s t) (h : Coherent s) (hv : '\x00' ∉ value)
    (k : Text) : view t k = if k = key then setDefault value (view s key) else view s k := by
  rcases hs.same_or_journal with ⟨rfl, hne, heq, hs⟩ | ⟨u, hu, -, rfl⟩
  · obtain ⟨r, hr, hact⟩ := h.view_of_dict (h.current hv hne heq)
    rw [getJournalSource_some hr] at hs
    rw [active_default hs.symm] at hact
    by_cases hk : k = key
    · rw [if_pos hk, hk]
      unfold view viewJournal
      rw [hr]
      simp [setDefault, JournalData.setting, hact]
    · rw [if_neg hk]
  · rw [view_setJournal hu, newRecord_default_setting]

theorem RawStep.coherent_default (hs : RawStep w key value .default s t) (h : Coherent s) (hv : '\x00' ∉ value) :
    Coherent t := by
  obtain ⟨hsrc, hinit⟩ := h.newRecord_default w key value
  have hnul : '\x00' ∉ (newRecord w key value .default s).fwValue := by
    rw [newRecord_default_fwValue]
    exact hv
  -- the active value is the new one unless RFC or WebPA has set the parameter
  have hfw : (newRecord w key value .default s).updatedSource = .default →
      (newRecord w key value .default s).setting.active = value := by
    intro hd
    rw [active_default hd, newRecord_default_fwValue]
  have hkeep : ∀ r, s.journal.dict.lookup key = some r → (r.updatedSource = .rfc ∨ r.updatedSource = .webpa) →
      s.dict.lookup key = some (newRecord w key value .default s).setting.active := by
    intro r hr ho
    have hr' : (newRecord w key value .default s).setting.active = r.updatedValue := by
      rw [active_over (by rw [newRecord_default_source, hr]; exact ho)]
      unfold newRecord
      rw [hr]
      rfl
    have := h.active key
    unfold view viewJournal at this
    rw [this, hr, hr', ← active_over ho]
    rfl
  have hover : ∀ r, s.journal.dict.lookup key = some r → (r.updatedSource = .rfc ∨ r.updatedSource = .webpa) →
      Coherent (setJournal w.ok key value .default s) := by
    intro r hr ho
    have hd := hkeep r hr ho
    exact h.journaled rfl rfl (fun k hk => rfl) hd hsrc (h.noNul key _ hd) hnul hinit
  have hwrite : (newRecord w key value .default s).updatedSource = .default → ∀ u : XBSStore,
      u.dict = s.dict.insert key value → u.journal = s.journal → u.initialUpdate = s.initialUpdate →
      Coherent (setJournal w.ok key value .default u) := by
    intro hd u hu hj hi
    refine h.journaled hj hi (fun k hk => ?_) ?_ hsrc (by rw [hfw hd]; exact hv) hnul hinit
    · rw [hu, lookup_insert_ite, if_neg hk]
    · rw [hu, lookup_insert_ite, if_pos rfl, hfw hd]
  cases hs with
  | append hi => exact hwrite (hinit hi) _ rfl rfl rfl
  | same hi hne heq hs => exact h
  | sameJournal hi hne heq hs =>
      obtain ⟨r, hr, -⟩ := h.view_of_dict (h.current hv hne heq)
      rw [getJournalSource_some hr] at hs
      exact hover r hr ((h.source key r hr).resolve_left (Ne.symm hs))
  | inactive hi hd hj =>
      cases hr : s.journal.dict.lookup key with
      | none =>
          rw [getJournalSource_none hr] at hj
          rcases hj with hj | hj <;> cases hj
      | some r =>
          rw [getJournalSource_some hr] at hj
          exact hover r hr hj
  | rewrite hi hj =>
      have hd : (newRecord w key value .default s).updatedSource = .default := by
        rw [newRecord_default_source]
        cases hr : s.journal.dict.lookup key with
        | none => rfl
        | some r =>
            rw [getJournalSource_some hr] at hj
            have := h.source key r hr
            simp only [Option.map_some, Option.getD_some]
            tauto
      exact hwrite hd _ rfl rfl rfl

/-! ### A value set by RFC or WebPA -/

theorem newRecord_over_setting (hsrc : src = .rfc ∨ src = .webpa) :
    some (newRecord w key value src s).setting = setOver src value (view s key) :=
  setting_updatedRecord_over _ _ _ hsrc _

theorem newRecord_over (w : World) (key value : Text) (s : XBSStore) (hsrc : src = .rfc ∨ src = .webpa) :
    (newRecord w key value src s).updatedSource = src ∧ (newRecord w key value src s).updatedValue = value ∧
      (newRecord w key value src s).clearRfc = false := by
  have hd : src ≠ .default := by rcases hsrc with rfl | rfl <;> decide
  unfold newRecord updatedRecord
  cases s.journal.dict.lookup key <;> simp [hd]

theorem RawStep.view_over (hs : RawStep w key value src s t) (h : Coherent s) (hv : '\x00' ∉ value)
    (hsrc : src = .rfc ∨ src = .webpa) (hclear : ∀ r, s.journal.dict.lookup key = some r → r.clearRfc = false)
    (k : Text) : view t k = if k = key then setOver src value (view s key) else view s k := by
  rcases hs.same_or_journal with ⟨rfl, hne, heq, hs⟩ | ⟨u, hu, -, rfl⟩
  · obtain ⟨r, hr, hact⟩ := h.view_of_dict (h.current hv hne heq)
    rw [getJournalSource_some hr] at hs
    rw [active_over (hs ▸ hsrc)] at hact
    by_cases hk : k = key
    · rw [if_pos hk, hk]
      unfold view viewJournal
      rw [hr]
      have hr' := hclear r hr
      simp [setOver, JournalData.setting, hact, ← hs, hsrc, hr']
    · rw [if_neg hk]
  · rw [view_setJournal hu, newRecord_over_setting hsrc]

theorem RawStep.coherent_over (hs : RawStep w key value src s t) (h : Coherent s) (hv : '\x00' ∉ value)
    (hsrc : src = .rfc ∨ src = .webpa) (hi : s.initialUpdate = false) : Coherent t := by
  obtain ⟨hs', hval, -⟩ := newRecord_over w key value s hsrc
  have hact : (newRecord w key value src s).setting.active = value := by
    rw [active_over (by rw [hs']; exact hsrc), hval]
  have hfw : '\x00' ∉ (newRecord w key value src s).fwValue := by
    have hd : src ≠ .default := by rcases hsrc with rfl | rfl <;> decide
    unfold newRecord updatedRecord
    cases hr : s.journal.dict.lookup key with
    | none =>
        simp only [ne_eq, hd, not_false_eq_true, if_true]
        decide
    | some r =>
        simp only [hd, if_false]
        exact h.noNulFw key r hr
  have hwrite : ∀ u : XBSStore, (∀ k, k ≠ key → u.dict.lookup k = s.dict.lookup k) →
      u.dict.lookup key = some value → u.journal = s.journal → u.initialUpdate = s.initialUpdate →
      Coherent (setJournal w.ok key value src u) := by
    intro u hframe hkey hj hi'
    refine h.journaled hj hi' hframe (by rw [hact]; exact hkey) (by rw [hs']; exact Or.inr hsrc)
      (by rw [hact]; exact hv) hfw fun hf => ?_
    rw [hi] at hf
    cases hf
  cases hs with
  | append hi' =>
      rw [hi] at hi'
      cases hi'
  | same hi hne heq hs => exact h
  | sameJournal hi hne heq hs => exact hwrite s (fun k hk => rfl) (h.current hv hne heq) rfl rfl
  | inactive hi hd hj => rcases hsrc with rfl | rfl <;> cases hd
  | rewrite hi hj =>
      refine hwrite _ (fun k hk => ?_) (Finmap.lookup_insert s.dict) rfl rfl
      exact Finmap.lookup_insert_of_ne s.dict hk

/-! ### Marks -/

theorem RawStep.marks_default (hs : RawStep w key value .default s t) (h : Marks s) : Marks t := by
  rcases hs.same_or_journal with ⟨rfl, -⟩ | ⟨u, hu, hp, rfl⟩
  · exact h
  · refine h.journaled hu hp ?_
    rw [newRecord_default_source, newRecord_default_clearRfc]
    cases hr : s.journal.dict.lookup key with
    | none => simp
    | some r => exact h key r hr

theorem RawStep.marks_over (hs : RawStep w key value src s t) (hsrc : src = .rfc ∨ src = .webpa) (h : Marks s) :
    Marks t := by
  rcases hs.same_or_journal with ⟨rfl, -⟩ | ⟨u, hu, hp, rfl⟩
  · exact h
  · refine h.journaled hu hp ?_
    rw [(newRecord_over w key value s hsrc).2.2]
    intro hc
    cases hc

/-! ### What stays -/

/-- The members that no value touches. -/
structure Kept (s t : XBSStore) : Prop where
  initDone : t.initDone = s.initDone
  initialUpdate : t.initialUpdate = s.initialUpdate
  rfcUpdateInProgress : t.rfcUpdateInProgress = s.rfcUpdateInProgress
  buildTime : t.journal.buildTime = s.journal.buildTime

theorem Kept.trans {u : XBSStore} (h : Kept s t) (h' : Kept t u) : Kept s u :=
  ⟨h'.1.trans h.1, h'.2.trans h.2, h'.3.trans h.3, h'.4.trans h.4⟩

/-- A store without a file is empty. -/
def FileCovers (s : XBSStore) : Prop := s.file = none → s.dict = ∅

theorem RawStep.kept (hs : RawStep w key value src s t) : Kept s t := by
  cases hs <;> exact ⟨rfl, rfl, rfl, rfl⟩

theorem RawStep.fileCovers (hs : RawStep w key value src s t) (h : FileCovers s) : FileCovers t := by
  cases hs with
  | append hi => exact fun hf => by cases hf
  | same hi hne heq hs => exact h
  | sameJournal hi hne heq hs => exact h
  | inactive hi hd hj => exact h
  | rewrite hi hj => exact fun hf => by cases hf

end

/-! ## `overrideValue` -/

section
variable {w : World} {s : XBSStore}

theorem view_eq_none {k : Text} : view s k = none ↔ s.journal.dict.lookup k = none := by
  simp [view, viewJournal]

theorem lookup_resetClearRfc (key : Text) (j : XBSStoreJournal) (k : Text) :
    (resetClearRfc key j).dict.lookup k =
      (j.dict.lookup k).map fun r => if k = key then { r with clearRfc := false } else r := by
  unfold resetClearRfc
  by_cases hk : k = key
  · subst hk
    cases hr : j.dict.lookup k with
    | none => simp [hr]
    | some r =>
        cases hc : r.clearRfc
        · have hr' : { r with clearRfc := false } = r := by rw [← hc]
          simp [hc, hr, hr']
        · simp [hc]
  · simp only [if_neg hk, Option.map_id']
    split
    · split
      · exact Finmap.lookup_insert_of_ne _ hk
      · rfl
    · rfl

theorem resetClearRfc_rest (key : Text) (j : XBSStoreJournal) :
    (resetClearRfc key j).file = j.file ∧ (resetClearRfc key j).buildTime = j.buildTime ∧
      (resetClearRfc key j).initialUpdate = j.initialUpdate := by
  unfold resetClearRfc
  split
  · split <;> exact ⟨rfl, rfl, rfl⟩
  · exact ⟨rfl, rfl, rfl⟩

/-- Every record is rewritten, with its firmware value kept and its source kept or put back to `DEFAULT`. -/
theorem Coherent.mapRecords {t : XBSStore} (h : Coherent s) {f : Text → JournalData → JournalData}
    (hj : ∀ k, t.journal.dict.lookup k = (s.journal.dict.lookup k).map (f k))
    (hd : ∀ k, t.dict.lookup k = (view t k).map Setting.active) (hnul : ∀ k v, t.dict.lookup k = some v → '\x00' ∉ v)
    (hsrc : ∀ k r, (f k r).updatedSource = .default ∨ (f k r).updatedSource = r.updatedSource)
    (hfw : ∀ k r, (f k r).fwValue = r.fwValue) (hflag : t.journal.initialUpdate = s.journal.initialUpdate)
    (hinit : t.initialUpdate = s.initialUpdate) : Coherent t := by
  have hrec : ∀ k r, t.journal.dict.lookup k = some r → ∃ r', s.journal.dict.lookup k = some r' ∧ f k r' = r := by
    intro k r hr
    rw [hj k] at hr
    exact Option.map_eq_some_iff.mp hr
  refine ⟨hd, fun k r hr => ?_, hnul, fun k r hr => ?_, by rw [hflag, hinit, h.flags], fun hi k r hr => ?_⟩
  · obtain ⟨r', hr', rfl⟩ := hrec k r hr
    rcases hsrc k r' with hs | hs
    · exact Or.inl hs
    · rw [hs]
      exact h.source k r' hr'
  · obtain ⟨r', hr', rfl⟩ := hrec k r hr
    rw [hfw]
    exact h.noNulFw k r' hr'
  · obtain ⟨r', hr', rfl⟩ := hrec k r hr
    rcases hsrc k r' with hs | hs
    · exact hs
    · rw [hs]
      exact h.initial (hinit ▸ hi) k r' hr'

theorem coherent_resetClearRfc (key : Text) (h : Coherent s) :
    Coherent { s with journal := resetClearRfc key s.journal } := by
  refine h.mapRecords (lookup_resetClearRfc key s.journal) (fun k => ?_) h.noNul (fun k r => Or.inr ?_) (fun k r => ?_)
    (resetClearRfc_rest key s.journal).2.2 rfl
  · show s.dict.lookup k = _
    rw [h.active k]
    unfold view viewJournal
    rw [lookup_resetClearRfc, Option.map_map, Option.map_map, Option.map_map]
    congr 1
    funext r
    show r.setting.active = (if k = key then _ else r : JournalData).setting.active
    split <;> rfl
  · split <;> rfl
  · split <;> rfl

theorem marks_resetClearRfc (key : Text) (h : Marks s) : Marks { s with journal := resetClearRfc key s.journal } := by
  intro k r hr hc
  have hr' : (resetClearRfc key s.journal).dict.lookup k = some r := hr
  rw [lookup_resetClearRfc] at hr'
  obtain ⟨r', hlookup, rfl⟩ := Option.map_eq_some_iff.mp hr'
  split at hc
  · cases hc
  · next hk =>
    rw [if_neg hk]
    exact h k r' hlookup hc

theorem setOver_clearRfc (src : SourceType) (v : Text) (o : Option JournalData) :
    setOver src v ((o.map fun r => ({ r with clearRfc := false } : JournalData)).map JournalData.setting) =
      setOver src v (o.map JournalData.setting) := by
  cases o <;> rfl

/-- `u` is `s` with the mark of one parameter taken off, as far as a set of that parameter can tell. -/
structure MarkReset (key : Text) (s u : XBSStore) : Prop where
  coherent : Coherent u
  marks : Marks u
  kept : Kept s u
  fileCovers : FileCovers s → FileCovers u
  clear : ∀ r, u.journal.dict.lookup key = some r → r.clearRfc = false
  set : ∀ src v, setOver src v (view u key) = setOver src v (view s key)
  frame : ∀ k, k ≠ key → view u k = view s k

/-- Outside an update nothing is marked. -/
theorem markReset_of_idle (key : Text) (h : Coherent s) (hm : Marks s) (hp : s.rfcUpdateInProgress = false) :
    MarkReset key s s := by
  refine ⟨h, hm, ⟨rfl, rfl, rfl, rfl⟩, id, fun r hr => ?_, fun _ _ => rfl, fun _ _ => rfl⟩
  by_contra hc
  have := (hm _ r hr (Bool.eq_true_of_not_eq_false hc)).2
  rw [hp] at this
  cases this

theorem markReset_resetClearRfc (key : Text) (h : Coherent s) (hm : Marks s) :
    MarkReset key s { s with journal := resetClearRfc key s.journal } := by
  have hbt := (resetClearRfc_rest key s.journal).2.1
  refine ⟨coherent_resetClearRfc key h, marks_resetClearRfc key hm, ⟨rfl, rfl, rfl, hbt⟩, id, fun r hr => ?_,
    fun src v => ?_, fun k hk => ?_⟩
  · have hr' : (resetClearRfc key s.journal).dict.lookup key = some r := hr
    rw [lookup_resetClearRfc] at hr'
    obtain ⟨r', -, rfl⟩ := Option.map_eq_some_iff.mp hr'
    simp
  · unfold view viewJournal
    rw [lookup_resetClearRfc]
    simp only [if_pos]
    exact setOver_clearRfc _ _ _
  · unfold view viewJournal
    rw [lookup_resetClearRfc]
    simp only [if_neg hk, Option.map_id']

/-- A set by RFC or WebPA is a set over the firmware's value. -/
theorem setOverride_spec (msg : MsgData) (hsrc : msg.requestor = .rfc ∨ msg.requestor = .webpa) (h : Coherent s)
    (hm : Marks s) (hi : s.initialUpdate = false) :
    let t := (setOverride w.ok msg s).2
    Coherent t ∧ Marks t ∧ Kept s t ∧ (FileCovers s → FileCovers t) ∧
      ∀ k, view t k = if k = msg.paramName.chars then setOver msg.requestor msg.value.chars (view s k)
        else view s k := by
  intro t
  have hset : ∃ u, MarkReset msg.paramName.chars s u ∧
      RawStep w msg.paramName.chars msg.value.chars msg.requestor u t := by
    have ht : t = (setOverride w.ok msg s).2 := rfl
    unfold setOverride at ht
    cases hp : s.rfcUpdateInProgress
    · rw [if_neg (by rw [hp]; decide)] at ht
      refine ⟨s, markReset_of_idle _ h hm hp, ?_⟩
      rw [ht]
      exact setRawValue_rawStep _ _ _ _ _
    · rw [if_pos hp] at ht
      refine ⟨_, markReset_resetClearRfc msg.paramName.chars h hm, ?_⟩
      rw [ht]
      exact setRawValue_rawStep _ _ _ _ _
  obtain ⟨u, hu, hstep⟩ := hset
  refine ⟨hstep.coherent_over hu.coherent msg.value.noNul hsrc (hu.kept.initialUpdate.trans hi),
    hstep.marks_over hsrc hu.marks, hu.kept.trans hstep.kept, fun hf => hstep.fileCovers (hu.fileCovers hf), fun k => ?_⟩
  rw [hstep.view_over hu.coherent msg.value.noNul hsrc hu.clear k]
  by_cases hk : k = msg.paramName.chars
  · rw [if_pos hk, if_pos hk, hk, hu.set]
  · rw [if_neg hk, if_neg hk, hu.frame k hk]

end

end Tr69HostIf.BS
