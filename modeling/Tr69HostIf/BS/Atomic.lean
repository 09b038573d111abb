import Tr69HostIf.BS.Load

/-!
# What a bootstrap set records

`AllOpens` : each open of a request has an outcome of its own, those of the items that `init` loads included. A set
that fails has loaded what `init` loads and has taken a mark off; a set that succeeds has written the store but not
always the journal, whose result nobody reads. `failsClean_iff` and `records_iff` say when the two maps are the same
after a failure, and when both hold the value after a success.
-/

namespace Tr69HostIf.BS
open Store

/-- Outcomes of the opens of one request: of reading the files and removing parameters, of each item, of the set. -/
structure AllOpens where
  load : Opens := {}
  item : Nat → Opens := fun _ => {}
  set : Opens := {}

section
variable (w : World) (o : AllOpens) (msg : MsgData) (s : XBSStore)

/-- `loadItems`, with the opens of each item. -/
def loadEach (config : Items) (s : XBSStore) : XBSStore :=
  config.zipIdx.foldl (fun s p => (setRawValue ⟨w, o.item p.2⟩ p.1.1.chars p.1.2.chars .default s).2) s

/-- `loadBSPropertiesIntoCache`, with the opens of each item. -/
def loadAll (s : XBSStore) : Bool × XBSStore :=
  let s := { s with dict := if o.load.readStore then load (s.file.getD []) else ∅ }
  match w.config with
  | .failed => (false, s)
  | .skipped => (true, s)
  | .items config =>
      let s := if o.load.readStore && s.file.isSome then s else setInitialUpdate true s
      let r := removeDropped ⟨w, o.load⟩ config s
      if r.1 then (true, setInitialUpdate false (loadEach w o config r.2)) else (false, r.2)

/-- `init`, with the opens of each item. -/
def initAll : Bool × XBSStore :=
  if s.initDone then (true, s)
  else
    let r := loadAll w o s
    (r.1, { r.2 with initDone := r.1 })

/-- `overrideValue` of an initialised store. -/
def overrideInitialised (env : Env) (msg : MsgData) (s : XBSStore) : FaultCode × XBSStore :=
  if foldCase msg.paramName.chars = foldCase clearDbStart then (.noFault, clearDb env s)
  else if foldCase msg.paramName.chars = foldCase clearDbEnd then (.noFault, clearDbDone env s)
  else
    let t := setOverride env msg s
    (if t.1 then .noFault else .internalError, t.2)

/-- `overrideValue`, with an outcome for every open. -/
def overrideAll : FaultCode × XBSStore :=
  let r := initAll w o s
  if r.1 then overrideInitialised ⟨w, o.set⟩ msg r.2 else (.internalError, r.2)

theorem loadEach_const (p : Opens) (config : Items) :
    loadEach w ⟨p, fun _ => p, p⟩ config s = loadItems ⟨w, p⟩ config s := by
  unfold loadEach loadItems
  rw [← List.foldl_map (f := Prod.fst) (g := fun s (q : CString × CString) =>
    (setRawValue ⟨w, p⟩ q.1.chars q.2.chars .default s).2), List.zipIdx_map_fst]

/-- With one outcome for each file the request is `overrideValue`. -/
theorem overrideAll_const (p : Opens) : overrideAll w ⟨p, fun _ => p, p⟩ msg s = overrideValue ⟨w, p⟩ msg s := by
  have hload : loadAll w ⟨p, fun _ => p, p⟩ s = loadBSPropertiesIntoCache ⟨w, p⟩ s := by
    cases hconfig : w.config with
    | failed => simp only [loadAll, loadBSPropertiesIntoCache, loadFromJson, hconfig]
    | skipped => simp only [loadAll, loadBSPropertiesIntoCache, loadFromJson, hconfig]
    | items config => simp only [loadAll, loadBSPropertiesIntoCache, loadFromJson, hconfig, loadEach_const]
  have hinit : initAll w ⟨p, fun _ => p, p⟩ s = init ⟨w, p⟩ s := by
    rw [initAll, init, hload]
  rw [overrideAll, overrideValue, hinit]
  rfl

/-! ## What a set may leave, and when it does -/

/-- A set that fails leaves both maps as they were. -/
def FailsClean : Prop :=
  (overrideAll w o msg s).1 ≠ .noFault →
    (overrideAll w o msg s).2.dict = s.dict ∧ (overrideAll w o msg s).2.journal.dict = s.journal.dict

/-- The record holds the value with this source: the firmware's value for `HOSTIF_SRC_DEFAULT`. -/
def JournalRecords (src : SourceType) (value : Text) (rec? : Option JournalData) : Prop :=
  ∃ r, rec? = some r ∧ r.updatedSource = src ∧ (if src = .default then r.fwValue else r.updatedValue) = value

/-- The store and the journal hold the value of the message, the journal with its source. -/
def Recorded : Prop :=
  (s.dict.lookup msg.paramName.chars).map cStr = some msg.value.chars ∧
    JournalRecords msg.requestor msg.value.chars (s.journal.dict.lookup msg.paramName.chars)

/-- A set that succeeds is recorded. -/
def Records : Prop := (overrideAll w o msg s).1 = .noFault → Recorded msg (overrideAll w o msg s).2

/-- `init`, if it has to run, changes neither map. -/
def InitKeeps : Prop := (initAll w o s).2.dict = s.dict ∧ (initAll w o s).2.journal.dict = s.journal.dict

/-- The store already holds the value, as `strcmp` compares it. -/
def Held (key value : Text) : Prop := cStr (getRawValue s key) ≠ [] ∧ cStr (getRawValue s key) = cStr value

instance (key value : Text) : Decidable (Held s key value) := inferInstanceAs (Decidable (_ ∧ _))

/-- A value of the firmware under one that RFC or WebPA has set. -/
def Inactive (key : Text) (src : SourceType) : Prop :=
  src = .default ∧ (getJournalSource s.journal key = .rfc ∨ getJournalSource s.journal key = .webpa)

/-- The file of the store cannot be opened, and has to be. -/
def CannotWrite (opens : Opens) (key value : Text) (src : SourceType) : Prop :=
  opens.writeStore = false ∧ (s.initialUpdate = true ∨ ¬ Held s key value ∧ ¬ Inactive s key src)

/-- An RFC update has marked the record of the parameter. -/
def Marked (key : Text) : Prop := (s.journal.dict.lookup key).map JournalData.clearRfc = some true

instance (key : Text) : Decidable (Marked s key) := inferInstanceAs (Decidable (_ = _))

/-- The journal ends up with the value and the source of the message: it is not written because it has the source
already or because its file does not open, or what is written is not put under another source. -/
def Journalled : Prop :=
  if o.set.writeJournal = false ∨
      s.initialUpdate = false ∧ Held s msg.paramName.chars msg.value.chars ∧
        msg.requestor = getJournalSource s.journal msg.paramName.chars then
    JournalRecords msg.requestor msg.value.chars (s.journal.dict.lookup msg.paramName.chars)
  else msg.requestor = .default →
    ∀ r, s.journal.dict.lookup msg.paramName.chars = some r → r.updatedSource = .default

/-- A command is recorded already, or the end of an RFC update gives it the firmware's value. -/
def CommandRecorded : Prop :=
  if foldCase msg.paramName.chars = foldCase clearDbStart ∨ o.set.writeStore = false ∨
      s.dict.lookup msg.paramName.chars = none ∨ ¬ Marked s msg.paramName.chars then Recorded msg s
  else msg.requestor = .default ∧
    ∀ r, s.journal.dict.lookup msg.paramName.chars = some r → r.fwValue = msg.value.chars

/-- A name that `overrideValue` takes for a command. -/
def IsCommand (name : Text) : Prop := foldCase name = foldCase clearDbStart ∨ foldCase name = foldCase clearDbEnd

instance (name : Text) : Decidable (IsCommand name) := inferInstanceAs (Decidable (_ ∨ _))

/-- The set is refused: `init` fails, or the file of the store cannot be opened and has to be. -/
def Refused : Prop :=
  (initAll w o s).1 = true → ¬ IsCommand msg.paramName.chars ∧
    CannotWrite (initAll w o s).2 o.set msg.paramName.chars msg.value.chars msg.requestor

/-- What a set does before it fails changes nothing: what `init` loads, and the mark it takes off. -/
def KeepsMaps : Prop :=
  InitKeeps w o s ∧
    ((initAll w o s).1 = true → ¬ (s.rfcUpdateInProgress = true ∧ Marked s msg.paramName.chars))

/-- The value of an accepted set is in the journal, of the initialised store. -/
def Noted : Prop :=
  if IsCommand msg.paramName.chars then CommandRecorded o msg (initAll w o s).2 else Journalled o msg (initAll w o s).2

end

/-! ## The ways through a set -/

section
variable {w : World} {o : AllOpens} {msg : MsgData} {s : XBSStore} {env : Env} {key value : Text} {src : SourceType}

theorem setRawValue_append (hi : s.initialUpdate = true) (hw : env.opens.writeStore = true) :
    setRawValue env key value src s = (true, setJournal env key value src (s.appendValue key value)) := by
  rw [setRawValue, if_pos hi, if_pos hw]
  rfl

theorem setRawValue_held (hi : s.initialUpdate = false) (h : Held s key value) :
    setRawValue env key value src s =
      (true, if src ≠ getJournalSource s.journal key then setJournal env key value src s else s) := by
  unfold Held at h
  rw [setRawValue, if_neg (by rw [hi]; decide), if_pos h]

theorem setRawValue_inactive (hi : s.initialUpdate = false) (hh : ¬ Held s key value) (h : Inactive s key src) :
    setRawValue env key value src s = (true, setJournal env key value src s) := by
  unfold Held at hh
  unfold Inactive at h
  rw [setRawValue, if_neg (by rw [hi]; decide), if_neg hh, if_pos h]

theorem setRawValue_rewrite (hi : s.initialUpdate = false) (hh : ¬ Held s key value) (h : ¬ Inactive s key src)
    (hw : env.opens.writeStore = true) :
    setRawValue env key value src s =
      (true, setJournal env key value src (s.rewriteValue env.world.order key value)) := by
  unfold Held at hh
  unfold Inactive at h
  rw [setRawValue, if_neg (by rw [hi]; decide), if_neg hh, if_neg h, if_pos hw]
  rfl

theorem setRawValue_refused (h : CannotWrite s env.opens key value src) :
    setRawValue env key value src s = (false, s) := by
  obtain ⟨hw, h⟩ := h
  unfold Held Inactive at h
  unfold setRawValue
  by_cases hi : s.initialUpdate = true
  · rw [if_pos hi, hw]
    rfl
  · obtain ⟨hh, hinact⟩ := h.resolve_left hi
    rw [if_neg hi, if_neg hh, if_neg hinact, hw]
    rfl

theorem setRawValue_accepted (h : ¬ CannotWrite s env.opens key value src) :
    (setRawValue env key value src s).1 = true := by
  cases hi : s.initialUpdate with
  | true =>
      cases hw : env.opens.writeStore with
      | false => exact absurd ⟨hw, Or.inl hi⟩ h
      | true => rw [setRawValue_append hi hw]
  | false =>
      by_cases hh : Held s key value
      · rw [setRawValue_held hi hh]
      by_cases hinact : Inactive s key src
      · rw [setRawValue_inactive hi hh hinact]
      cases hw : env.opens.writeStore with
      | false => exact absurd ⟨hw, Or.inr ⟨hh, hinact⟩⟩ h
      | true => rw [setRawValue_rewrite hi hh hinact hw]

/-- The journal after `setRawValue`: the record is rewritten or left as it is. -/
theorem setRawValue_journal :
    (setRawValue env key value src s).2.journal.dict = s.journal.dict ∨
      (setRawValue env key value src s).2.journal.dict =
        s.journal.dict.insert key
          (updatedRecord s.journal.buildTime env.world.now value src (s.journal.dict.lookup key)) := by
  have hset : ∀ t : XBSStore, t.journal = s.journal →
      (setJournal env key value src t).journal.dict = s.journal.dict ∨
        (setJournal env key value src t).journal.dict =
          s.journal.dict.insert key
            (updatedRecord s.journal.buildTime env.world.now value src (s.journal.dict.lookup key)) := by
    intro t ht
    unfold setJournal setJournalValue
    rw [ht]
    cases env.opens.writeJournal
    · exact Or.inl rfl
    · exact Or.inr rfl
  unfold setRawValue
  split
  · split
    · exact hset _ rfl
    · exact Or.inl rfl
  · split
    · simp only []
      split
      · exact hset _ rfl
      · exact Or.inl rfl
    · split
      · exact hset _ rfl
      · split
        · exact hset _ rfl
        · exact Or.inl rfl

/-! ## Successful sets -/

theorem journalRecords_updatedRecord {buildTime : Text} {now : Tm} {rec? : Option JournalData} :
    JournalRecords src value (some (updatedRecord buildTime now value src rec?)) ↔
      (src = .default → ∀ r, rec? = some r → r.updatedSource = .default) := by
  unfold JournalRecords
  by_cases hd : src = .default
  · subst hd
    cases rec? with
    | none => simp [updatedRecord]
    | some r => simp [updatedRecord]
  · cases rec? with
    | none => simp [updatedRecord, hd]
    | some r => simp [updatedRecord, hd]

/-- Only the source and the two values count. -/
theorem journalRecords_map {f : JournalData → JournalData} {rec? : Option JournalData}
    (hf : ∀ r, (f r).updatedSource = r.updatedSource ∧ (f r).fwValue = r.fwValue ∧
      (f r).updatedValue = r.updatedValue) :
    JournalRecords src value (rec?.map f) ↔ JournalRecords src value rec? := by
  unfold JournalRecords
  cases rec? with
  | none => simp
  | some r => simp [hf r]

theorem recorded_setJournal {u : XBSStore} (hj : u.journal = s.journal)
    (hd : (u.dict.lookup msg.paramName.chars).map cStr = some msg.value.chars) :
    Recorded msg (setJournal env msg.paramName.chars msg.value.chars msg.requestor u) ↔
      if env.opens.writeJournal = false then
        JournalRecords msg.requestor msg.value.chars (s.journal.dict.lookup msg.paramName.chars)
      else msg.requestor = .default →
        ∀ r, s.journal.dict.lookup msg.paramName.chars = some r → r.updatedSource = .default := by
  have hdict : (setJournal env msg.paramName.chars msg.value.chars msg.requestor u).dict = u.dict := rfl
  rw [Recorded, hdict, and_iff_right hd]
  unfold setJournal setJournalValue
  cases env.opens.writeJournal with
  | false => simp [hj]
  | true =>
      simp only [if_true, Bool.true_eq_false, if_false, hj, Finmap.lookup_insert]
      exact journalRecords_updatedRecord

theorem held_lookup (h : Held s msg.paramName.chars msg.value.chars) :
    (s.dict.lookup msg.paramName.chars).map cStr = some msg.value.chars := by
  obtain ⟨hne, heq⟩ := h
  unfold getRawValue at hne heq
  cases hl : s.dict.lookup msg.paramName.chars with
  | none =>
      rw [hl] at hne
      exact absurd rfl hne
  | some v =>
      rw [hl, Option.getD_some, CString.cStr_chars] at heq
      rw [Option.map_some, heq]

theorem inserted_lookup {u : XBSStore} (h : u.dict = s.dict.insert msg.paramName.chars msg.value.chars) :
    (u.dict.lookup msg.paramName.chars).map cStr = some msg.value.chars := by
  rw [h, Finmap.lookup_insert, Option.map_some, CString.cStr_chars]

/-- A record of RFC or WebPA stays under it. -/
theorem recorded_inactive (h : Inactive s msg.paramName.chars msg.requestor) :
    Recorded msg (setJournal env msg.paramName.chars msg.value.chars msg.requestor s) ↔
      if env.opens.writeJournal = false then
        JournalRecords msg.requestor msg.value.chars (s.journal.dict.lookup msg.paramName.chars)
      else msg.requestor = .default →
        ∀ r, s.journal.dict.lookup msg.paramName.chars = some r → r.updatedSource = .default := by
  obtain ⟨hd, hsrc⟩ := h
  obtain ⟨r, hl, hne⟩ : ∃ r, s.journal.dict.lookup msg.paramName.chars = some r ∧ r.updatedSource ≠ .default := by
    cases hl : s.journal.dict.lookup msg.paramName.chars with
    | none =>
        rw [getJournalSource_none hl] at hsrc
        rcases hsrc with hsrc | hsrc <;> cases hsrc
    | some r =>
        rw [getJournalSource_some hl] at hsrc
        refine ⟨r, rfl, fun he => ?_⟩
        rw [he] at hsrc
        rcases hsrc with hsrc | hsrc <;> cases hsrc
  have hkeep : ¬ JournalRecords msg.requestor msg.value.chars (s.journal.dict.lookup msg.paramName.chars) := by
    rintro ⟨r', hr', hs, -⟩
    rw [hl, Option.some.injEq] at hr'
    rw [← hr', hd] at hs
    exact hne hs
  have hall : ¬ (msg.requestor = .default →
      ∀ r, s.journal.dict.lookup msg.paramName.chars = some r → r.updatedSource = .default) :=
    fun hall => hne (hall hd r hl)
  unfold Recorded setJournal setJournalValue
  cases hw : env.opens.writeJournal with
  | false => exact iff_of_false (fun hrec => hkeep hrec.2) hkeep
  | true =>
      simp only [if_true, Bool.true_eq_false, if_false, Finmap.lookup_insert]
      exact iff_of_false (fun hrec => hall (journalRecords_updatedRecord.mp hrec.2)) hall

theorem recorded_setRawValue
    (h : ¬ CannotWrite s o.set msg.paramName.chars msg.value.chars msg.requestor) :
    Recorded msg (setRawValue ⟨w, o.set⟩ msg.paramName.chars msg.value.chars msg.requestor s).2 ↔
      Journalled o msg s := by
  unfold Journalled
  cases hi : s.initialUpdate with
  | true =>
      have hw : o.set.writeStore = true := Bool.eq_true_of_not_eq_false fun hw => h ⟨hw, Or.inl hi⟩
      simp only [Bool.true_eq_false, false_and, or_false]
      rw [setRawValue_append hi hw]
      exact recorded_setJournal (s := s) rfl (inserted_lookup (s := s) rfl)
  | false =>
      by_cases hh : Held s msg.paramName.chars msg.value.chars
      · simp only [hh, true_and]
        rw [setRawValue_held hi hh]
        by_cases hsrc : msg.requestor = getJournalSource s.journal msg.paramName.chars
        · rw [if_neg (not_not.mpr hsrc), if_pos (Or.inr hsrc), Recorded, and_iff_right (held_lookup hh)]
        · simp only [if_pos hsrc]
          rw [recorded_setJournal rfl (held_lookup hh)]
          simp only [hsrc, or_false]
      simp only [hh, false_and, and_false, or_false]
      by_cases hinact : Inactive s msg.paramName.chars msg.requestor
      · rw [setRawValue_inactive hi hh hinact]
        exact recorded_inactive hinact
      · have hw : o.set.writeStore = true := Bool.eq_true_of_not_eq_false fun hw => h ⟨hw, Or.inr ⟨hh, hinact⟩⟩
        rw [setRawValue_rewrite hi hh hinact hw]
        exact recorded_setJournal (s := s) rfl (inserted_lookup (s := s) rfl)

/-! ## Commands -/

theorem lookup_clearRfcKeys (ks : List Text) (d : Dict Text Text) (j : XBSStoreJournal) (k : Text) :
    (ks.foldl clearRfcKey (d, j)).2.dict.lookup k =
        (j.dict.lookup k).map (fun r => if k ∈ ks then clearedRecord r else r) ∧
      (ks.foldl clearRfcKey (d, j)).1.lookup k =
        if k ∈ ks ∧ (j.dict.lookup k).map JournalData.clearRfc = some true then
          (j.dict.lookup k).map JournalData.fwValue else d.lookup k := by
  induction ks generalizing d j with
  | nil => simp
  | cons key ks ih =>
      obtain ⟨hj, hd⟩ := ih (clearRfcKey (d, j) key).1 (clearRfcKey (d, j) key).2
      obtain ⟨hj', hd'⟩ := lookup_clearRfcKey d j key k
      rw [List.foldl_cons, hj, hd, hj', hd']
      constructor
      · rw [Option.map_map]
        congr 1
        funext r
        by_cases hk : k = key <;> by_cases hmem : k ∈ ks <;> simp [hk, hmem, clearedRecord_clearedRecord]
      · by_cases hk : k = key
        · subst hk
          cases hl : j.dict.lookup k with
          | none => simp
          | some r => cases hc : r.clearRfc <;> simp [hc, clearedRecord, JournalData.cleared]
        · simp only [hk, false_and, if_false, Option.map_id', List.mem_cons, false_or]

theorem clearDb_recorded : Recorded msg (clearDb env s) ↔ Recorded msg s := by
  have hd : (clearDb env s).dict = s.dict := rfl
  have hj : (clearDb env s).journal.dict.lookup msg.paramName.chars =
      (s.journal.dict.lookup msg.paramName.chars).map markedRecord := lookup_clearDb (w := env.world) _
  unfold Recorded
  rw [hd, hj, journalRecords_map fun r => ⟨markedRecord_source r, markedRecord_fwValue r, ?_⟩]
  unfold markedRecord JournalData.marked
  split <;> rfl

theorem clearDbDone_recorded (hs : ¬ foldCase msg.paramName.chars = foldCase clearDbStart) :
    Recorded msg (clearDbDone ⟨w, o.set⟩ s) ↔ CommandRecorded o msg s := by
  have hend : ∀ u : XBSStore, (rfcUpdateEnd w.journalOrder o.set.writeJournal u.journal).dict = u.journal.dict := by
    intro u
    unfold rfcUpdateEnd
    split <;> rfl
  have heq : Recorded msg (clearDbDone ⟨w, o.set⟩ s) ↔ Recorded msg (clearRfcValues ⟨w, o.set⟩ s) := by
    unfold clearDbDone Recorded
    simp only [hend]
  rw [heq]
  simp only [CommandRecorded, hs, false_or]
  unfold clearRfcValues
  cases hw : o.set.writeStore with
  | false => simp
  | true =>
      obtain ⟨hj, hd⟩ := lookup_clearRfcKeys ((w.order.enum s.dict).map Prod.fst) s.dict s.journal msg.paramName.chars
      simp only [if_true, Bool.true_eq_false, false_or]
      unfold Recorded
      simp only [hj, hd, mem_keys_enum, ← Finmap.lookup_isSome]
      by_cases hc : s.dict.lookup msg.paramName.chars = none ∨ ¬ Marked s msg.paramName.chars
      · -- nothing is cleared
        rw [if_pos hc, if_neg fun h => hc.elim (fun hn => by simp [hn] at h) fun hm => hm h.2]
        rcases hc with hn | hm
        · simp [hn]
        · cases hr : s.journal.dict.lookup msg.paramName.chars with
          | none => simp
          | some r =>
              have hclear : clearedRecord r = r := by
                unfold Marked at hm
                rw [hr, Option.map_some, Option.some.injEq] at hm
                rw [clearedRecord, if_neg hm]
              simp [hclear]
      · rw [if_neg hc]
        rw [not_or, not_not] at hc
        obtain ⟨hn, hm⟩ := hc
        obtain ⟨r, hr, hclear⟩ := Option.map_eq_some_iff.mp hm
        have hsome : (s.dict.lookup msg.paramName.chars).isSome = true := Option.isSome_iff_ne_none.mpr hn
        rw [hr]
        simp only [hsome, Option.map_some, hclear, and_self, if_true, clearedRecord, Option.some.injEq, forall_eq']
        unfold JournalRecords JournalData.cleared
        constructor
        · rintro ⟨-, r', hr', hsrc, hval⟩
          rw [← Option.some.inj hr'] at hsrc hval
          have hdef : msg.requestor = .default := hsrc.symm
          rw [if_pos hdef] at hval
          exact ⟨hdef, hval⟩
        · rintro ⟨hdef, hval⟩
          refine ⟨by rw [hval, CString.cStr_chars], _, rfl, hdef.symm, ?_⟩
          rw [if_pos hdef]
          exact hval

/-! ## The mark -/

/-- The mark of a parameter is taken off while an update runs. -/
def takeMark (key : Text) (s : XBSStore) : XBSStore :=
  if s.rfcUpdateInProgress then { s with journal := resetClearRfc key s.journal } else s

theorem setOverride_takeMark :
    setOverride env msg s =
      setRawValue env msg.paramName.chars msg.value.chars msg.requestor (takeMark msg.paramName.chars s) := rfl

theorem takeMark_rest (key : Text) (s : XBSStore) :
    (takeMark key s).dict = s.dict ∧ (takeMark key s).initialUpdate = s.initialUpdate := by
  unfold takeMark
  split <;> exact ⟨rfl, rfl⟩

theorem lookup_takeMark (key : Text) (s : XBSStore) :
    ∃ f : JournalData → JournalData, (takeMark key s).journal.dict.lookup key = (s.journal.dict.lookup key).map f ∧
      ∀ r, (f r).updatedSource = r.updatedSource ∧ (f r).fwValue = r.fwValue ∧ (f r).updatedValue = r.updatedValue := by
  unfold takeMark
  split
  · refine ⟨_, lookup_resetClearRfc key s.journal key, fun r => ?_⟩
    rw [if_pos rfl]
    exact ⟨rfl, rfl, rfl⟩
  · exact ⟨id, by rw [Option.map_id]; rfl, fun r => ⟨rfl, rfl, rfl⟩⟩

theorem getJournalSource_takeMark (key : Text) (s : XBSStore) :
    getJournalSource (takeMark key s).journal key = getJournalSource s.journal key := by
  obtain ⟨f, hl, hf⟩ := lookup_takeMark key s
  unfold getJournalSource
  rw [hl]
  cases s.journal.dict.lookup key with
  | none => rfl
  | some r => exact (hf r).1

theorem held_takeMark : Held (takeMark key s) key value ↔ Held s key value := by
  unfold Held getRawValue
  rw [(takeMark_rest key s).1]

theorem cannotWrite_takeMark {opens : Opens} :
    CannotWrite (takeMark key s) opens key value src ↔ CannotWrite s opens key value src := by
  unfold CannotWrite Inactive
  rw [held_takeMark, getJournalSource_takeMark, (takeMark_rest key s).2]

theorem journalled_takeMark : Journalled o msg (takeMark msg.paramName.chars s) ↔ Journalled o msg s := by
  obtain ⟨f, hl, hf⟩ := lookup_takeMark msg.paramName.chars s
  unfold Journalled
  simp only [held_takeMark, getJournalSource_takeMark, (takeMark_rest msg.paramName.chars s).2]
  split
  · rw [hl, journalRecords_map hf]
  · rw [hl]
    refine forall_congr' fun _ => ?_
    cases s.journal.dict.lookup msg.paramName.chars with
    | none => simp
    | some r => simp [(hf r).1]

/-- A marked record loses its mark, and nothing else happens. -/
theorem takeMark_journal (key : Text) (s : XBSStore) :
    (¬ (s.rfcUpdateInProgress = true ∧ Marked s key) → takeMark key s = s) ∧
      (s.rfcUpdateInProgress = true → ¬ Marked (takeMark key s) key) := by
  unfold takeMark Marked
  cases hp : s.rfcUpdateInProgress with
  | false => exact ⟨fun _ => rfl, fun h => by cases h⟩
  | true =>
      simp only [true_and, if_true]
      constructor
      · intro hm
        have hreset : resetClearRfc key s.journal = s.journal := by
          unfold resetClearRfc
          split
          · next r hr =>
            rw [hr, Option.map_some, Option.some.injEq] at hm
            rw [if_neg hm]
          · rfl
        rw [hreset, ← hp]
      · rw [lookup_resetClearRfc, Option.map_map]
        cases s.journal.dict.lookup key <;> simp

/-! ### `init` marks nothing -/

/-- The update goes on or not as before, and what is marked was marked. -/
structure NoNewMark (key : Text) (s t : XBSStore) : Prop where
  inProgress : t.rfcUpdateInProgress = s.rfcUpdateInProgress
  marked : Marked t key → Marked s key

theorem NoNewMark.trans {t u : XBSStore} (h : NoNewMark key s t) (h' : NoNewMark key t u) : NoNewMark key s u :=
  ⟨h'.inProgress.trans h.inProgress, fun hm => h.marked (h'.marked hm)⟩

theorem updatedRecord_default_mark {buildTime : Text} {now : Tm} {rec? : Option JournalData} :
    (updatedRecord buildTime now value .default rec?).clearRfc = true → rec?.map JournalData.clearRfc = some true := by
  unfold updatedRecord
  cases rec? with
  | none => simp
  | some r => simp

theorem setRawValue_inProgress :
    (setRawValue env key value src s).2.rfcUpdateInProgress = s.rfcUpdateInProgress := by
  unfold setRawValue setJournal
  repeat' split
  all_goals rfl

theorem setRawValue_noNewMark (k : Text) : NoNewMark k s (setRawValue env key value .default s).2 := by
  refine ⟨setRawValue_inProgress, fun hm => ?_⟩
  unfold Marked at hm ⊢
  rcases setRawValue_journal  with hj | hj
  · rw [hj] at hm
    exact hm
  · rw [hj, lookup_insert_ite] at hm
    split at hm
    · next hk =>
      subst hk
      rw [Option.map_some, Option.some.injEq] at hm
      exact updatedRecord_default_mark hm
    · exact hm

theorem loadEach_noNewMark (k : Text) (config : Items) : NoNewMark k s (loadEach w o config s) := by
  unfold loadEach
  induction config.zipIdx generalizing s with
  | nil => exact ⟨rfl, id⟩
  | cons p l ih => exact (setRawValue_noNewMark k).trans ih

theorem removeDropped_noNewMark (env : Env) (k : Text) (config : Items) : NoNewMark k s (removeDropped env config s).2 := by
  have herase : ∀ keys : List Text,
      ((eraseAll s.journal.dict keys).lookup k).map JournalData.clearRfc = some true → Marked s k := by
    intro keys hm
    rw [lookup_eraseAll] at hm
    split at hm
    · cases hm
    · exact hm
  unfold removeDropped
  simp only []
  split
  · exact ⟨rfl, herase _⟩
  · split
    · refine ⟨rfl, fun hm => ?_⟩
      unfold Marked rfcUpdateEnd at hm
      split at hm
      · exact herase _ hm
      · exact herase _ hm
    · exact ⟨rfl, herase _⟩

theorem loadAll_noNewMark (k : Text) : NoNewMark k s (loadAll w o s).2 := by
  have hload : ∀ (config : Items) (u : XBSStore), NoNewMark k s u →
      NoNewMark k s (if (removeDropped ⟨w, o.load⟩ config u).1 then
        (true, setInitialUpdate false (loadEach w o config (removeDropped ⟨w, o.load⟩ config u).2))
        else (false, (removeDropped ⟨w, o.load⟩ config u).2)).2 := by
    intro config u hu
    have hr := hu.trans (removeDropped_noNewMark ⟨w, o.load⟩ k config)
    split
    · exact (hr.trans (loadEach_noNewMark (w := w) (o := o) k config)).trans ⟨rfl, id⟩
    · exact hr
  unfold loadAll
  cases w.config with
  | failed => exact ⟨rfl, id⟩
  | skipped => exact ⟨rfl, id⟩
  | items config =>
      have hflag : ∀ (b : Bool) (u : XBSStore), NoNewMark k s u →
          NoNewMark k s (if b then u else setInitialUpdate true u) := by
        intro b u hu
        cases b
        · exact hu.trans ⟨rfl, id⟩
        · exact hu
      exact hload config _ (hflag _ _ ⟨rfl, id⟩)

theorem initAll_noNewMark (k : Text) : NoNewMark k s (initAll w o s).2 := by
  unfold initAll
  split
  · exact ⟨rfl, id⟩
  · exact (loadAll_noNewMark (w := w) (o := o) k).trans ⟨rfl, id⟩

/-! ## Failed and successful sets -/

theorem overrideInitialised_refused (env : Env)
    (h : ¬ IsCommand msg.paramName.chars ∧ CannotWrite s env.opens msg.paramName.chars msg.value.chars msg.requestor) :
    overrideInitialised env msg s = (.internalError, takeMark msg.paramName.chars s) := by
  obtain ⟨hcmd, hcannot⟩ := h
  rw [IsCommand, not_or] at hcmd
  unfold overrideInitialised
  rw [if_neg hcmd.1, if_neg hcmd.2, setOverride_takeMark,
    setRawValue_refused (cannotWrite_takeMark.mpr hcannot)]
  rfl

theorem overrideInitialised_accepted (env : Env)
    (h : ¬ (¬ IsCommand msg.paramName.chars ∧
      CannotWrite s env.opens msg.paramName.chars msg.value.chars msg.requestor)) :
    (overrideInitialised env msg s).1 = .noFault := by
  unfold overrideInitialised
  split
  · rfl
  · next hstart =>
    split
    · rfl
    · next hend =>
      have hcannot : ¬ CannotWrite s env.opens msg.paramName.chars msg.value.chars msg.requestor :=
        fun hc => h ⟨not_or.mpr ⟨hstart, hend⟩, hc⟩
      simp only [setOverride_takeMark, setRawValue_accepted (cannotWrite_takeMark.not.mpr hcannot), if_true]

theorem recorded_overrideInitialised
    (h : ¬ (¬ IsCommand msg.paramName.chars ∧
      CannotWrite s o.set msg.paramName.chars msg.value.chars msg.requestor)) :
    Recorded msg (overrideInitialised ⟨w, o.set⟩ msg s).2 ↔
      if IsCommand msg.paramName.chars then CommandRecorded o msg s else Journalled o msg s := by
  unfold overrideInitialised
  by_cases hstart : foldCase msg.paramName.chars = foldCase clearDbStart
  · have hcmd : IsCommand msg.paramName.chars := Or.inl hstart
    rw [if_pos hstart, if_pos hcmd, CommandRecorded, if_pos (Or.inl hstart)]
    exact clearDb_recorded
  rw [if_neg hstart]
  by_cases hend : foldCase msg.paramName.chars = foldCase clearDbEnd
  · have hcmd : IsCommand msg.paramName.chars := Or.inr hend
    rw [if_pos hend, if_pos hcmd]
    exact clearDbDone_recorded hstart
  have hcmd : ¬ IsCommand msg.paramName.chars := not_or.mpr ⟨hstart, hend⟩
  have hcannot : ¬ CannotWrite s o.set msg.paramName.chars msg.value.chars msg.requestor := fun hc => h ⟨hcmd, hc⟩
  rw [if_neg hend, if_neg hcmd, ← journalled_takeMark]
  exact recorded_setRawValue (cannotWrite_takeMark.not.mpr hcannot)

theorem overrideAll_failed (msg : MsgData) (hi : (initAll w o s).1 = false) :
    overrideAll w o msg s = (.internalError, (initAll w o s).2) := by
  rw [overrideAll, hi]
  rfl

theorem overrideAll_initialised (msg : MsgData) (hi : (initAll w o s).1 = true) :
    overrideAll w o msg s = overrideInitialised ⟨w, o.set⟩ msg (initAll w o s).2 := by
  rw [overrideAll, hi]
  rfl

theorem overrideAll_refused_iff : (overrideAll w o msg s).1 ≠ .noFault ↔ Refused w o msg s := by
  unfold Refused
  cases hi : (initAll w o s).1 with
  | false =>
      rw [overrideAll_failed msg hi]
      exact iff_of_true (fun h => FaultCode.noConfusion h) fun h => by cases h
  | true =>
      rw [overrideAll_initialised msg hi, forall_prop_of_true rfl]
      by_cases h : ¬ IsCommand msg.paramName.chars ∧
          CannotWrite (initAll w o s).2 o.set msg.paramName.chars msg.value.chars msg.requestor
      · rw [overrideInitialised_refused ⟨w, o.set⟩ h]
        exact iff_of_true (fun h => FaultCode.noConfusion h) h
      · exact iff_of_false (fun hne => hne (overrideInitialised_accepted ⟨w, o.set⟩ h)) h

theorem kept_of_refused (h : Refused w o msg s) :
    ((overrideAll w o msg s).2.dict = s.dict ∧ (overrideAll w o msg s).2.journal.dict = s.journal.dict) ↔
      KeepsMaps w o msg s := by
  unfold KeepsMaps InitKeeps
  cases hi : (initAll w o s).1 with
  | false =>
      rw [overrideAll_failed msg hi]
      simp
  | true =>
      have heq : overrideAll w o msg s = (.internalError, takeMark msg.paramName.chars (initAll w o s).2) :=
        (overrideAll_initialised msg hi).trans (overrideInitialised_refused ⟨w, o.set⟩ (h hi))
      have hmark := initAll_noNewMark (w := w) (o := o) (s := s) msg.paramName.chars
      obtain ⟨hkeep, hclear⟩ := takeMark_journal msg.paramName.chars (initAll w o s).2
      rw [heq]
      simp only [(takeMark_rest _ _).1, forall_const]
      constructor
      · rintro ⟨hd, hj⟩
        have hnot : ¬ (s.rfcUpdateInProgress = true ∧ Marked s msg.paramName.chars) := by
          rintro ⟨hp, hm⟩
          refine hclear (hmark.inProgress.trans hp) ?_
          unfold Marked
          rw [hj]
          exact hm
        have hsame : takeMark msg.paramName.chars (initAll w o s).2 = (initAll w o s).2 :=
          hkeep fun h => hnot ⟨hmark.inProgress.symm.trans h.1, hmark.marked h.2⟩
        rw [hsame] at hj
        exact ⟨⟨hd, hj⟩, hnot⟩
      · rintro ⟨⟨hd, hj⟩, hnot⟩
        rw [hkeep fun h => hnot ⟨hmark.inProgress.symm.trans h.1, hmark.marked h.2⟩]
        exact ⟨hd, hj⟩

/-- **A set that fails keeps both maps exactly when it is accepted or what it does before it fails keeps them.** -/
theorem failsClean_iff : FailsClean w o msg s ↔ (Refused w o msg s → KeepsMaps w o msg s) := by
  unfold FailsClean
  rw [overrideAll_refused_iff]
  exact forall_congr' kept_of_refused

/-- **A set that succeeds is recorded exactly when it is refused or its value reaches the journal.** -/
theorem records_iff : Records w o msg s ↔ (¬ Refused w o msg s → Noted w o msg s) := by
  unfold Records
  rw [← overrideAll_refused_iff, not_not]
  refine forall_congr' fun hok => ?_
  cases hi : (initAll w o s).1 with
  | false =>
      rw [overrideAll_failed msg hi] at hok
      cases hok
  | true =>
      have heq := overrideAll_initialised msg hi
      have hacc : ¬ (¬ IsCommand msg.paramName.chars ∧
          CannotWrite (initAll w o s).2 o.set msg.paramName.chars msg.value.chars msg.requestor) := fun hr => by
        rw [heq, overrideInitialised_refused ⟨w, o.set⟩ hr] at hok
        cases hok
      rw [heq]
      exact recorded_overrideInitialised hacc

end

end Tr69HostIf.BS
