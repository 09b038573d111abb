import Tr69HostIf.BS.Filed

/-!
# Who has the last word

`Precedence d j` : the store and the journal hold the same parameters, and the active value of each is the
one its journal source says. `good_step` : every request keeps it, together with the agreement of the two
files, as long as keys and values fit their lines; `precedence_run` : so it holds along every run, over
restarts and firmware updates, that starts from files which hold it.
-/

namespace Tr69HostIf.BS
open Store

/-- The active values are those of the journal's sources. -/
structure Precedence (d : Dict Text Text) (j : Dict Text JournalData) : Prop where
  keys : ∀ k, k ∈ d ↔ k ∈ j
  overridden : ∀ k r, j.lookup k = some r → r.updatedSource = .rfc ∨ r.updatedSource = .webpa →
    d.lookup k = some r.updatedValue
  firmware : ∀ k r, j.lookup k = some r → r.updatedSource = .default → d.lookup k = some r.fwValue

theorem Precedence.active {d : Dict Text Text} {j : Dict Text JournalData} (h : Precedence d j)
    (hs : ∀ k r, j.lookup k = some r → JournalSource r.updatedSource) (k : Text) :
    d.lookup k = (viewJournal j k).map Setting.active := by
  unfold viewJournal
  cases hr : j.lookup k with
  | none =>
      rw [Option.map_none, Option.map_none, Finmap.lookup_eq_none, h.keys k, ← Finmap.lookup_eq_none]
      exact hr
  | some r =>
      rw [Option.map_some, Option.map_some]
      rcases hs k r hr with hd | ho
      · rw [active_default hd, h.firmware k r hr hd]
      · rw [active_over ho, h.overridden k r hr ho]

theorem Coherent.precedence {s : XBSStore} (h : Coherent s) : Precedence s.dict s.journal.dict := by
  refine ⟨h.mem_iff, fun k r hr ho => ?_, fun k r hr hd => ?_⟩
  · rw [h.active k, view, viewJournal, hr, Option.map_some, Option.map_some, active_over ho]
  · rw [h.active k, view, viewJournal, hr, Option.map_some, Option.map_some, active_default hd]

/-- What holds between two requests. -/
structure Good (s : XBSStore) : Prop extends Settled s where
  filed : Filed s

/-- A world whose configuration and build time fit their lines. -/
structure CleanWorld (w : World) : Prop where
  items : ∀ config, w.config = .items config → CleanItems config
  partnerId : CleanField w.partnerId.chars
  buildTime : ',' ∉ getBuildTime w.version

/-- A request of RFC or WebPA that fits its lines, or one of the others. -/
def CleanRequest : Request → Prop
  | .overrideValue msg =>
      CleanParam msg.paramName.chars msg.value.chars ∧ (msg.requestor = .rfc ∨ msg.requestor = .webpa)
  | _ => True

section
variable {w : World} {s : XBSStore}

/-! ## One request -/

theorem good_loadFromJson (h : Good s) (hw : CleanWorld w) : Good (loadFromJson w.ok s).2 :=
  ⟨settled_loadFromJson h.toSettled, filed_loadFromJson h.toQuiet h.filed hw.items⟩

theorem good_initDone (b : Bool) (h : Good s) : Good { s with initDone := b } :=
  ⟨⟨⟨⟨h.active, h.source, h.noNul, h.noNulFw, h.flags, h.initial⟩, h.notInitial, h.fileCovers⟩, h.marks⟩,
    ⟨h.filed.store, h.filed.journal, h.filed.buildTime, h.filed.appendStore, h.filed.appendJournal⟩⟩

theorem init_done (hi : s.initDone = true) : init w.ok s = (true, s) := by
  unfold init
  rw [if_pos hi]

/-- A store that is not initialised loads its own dictionary again and the configuration. -/
theorem init_not_done (h : Filed s) (hi : s.initDone = false) :
    init w.ok s = ((loadFromJson w.ok s).1, { (loadFromJson w.ok s).2 with initDone := (loadFromJson w.ok s).1 }) := by
  have hload : { s with dict := load (s.file.getD []) } = s := by rw [h.store]
  unfold init loadBSPropertiesIntoCache
  rw [if_neg (by rw [hi]; decide)]
  simp only [World.ok, if_pos]
  rw [hload]

theorem good_init (h : Good s) (hw : CleanWorld w) : Good (init w.ok s).2 := by
  cases hi : s.initDone
  · rw [init_not_done h.filed hi]
    exact good_initDone _ (good_loadFromJson h hw)
  · rw [init_done hi]
    exact h

theorem good_overrideValue (msg : MsgData) (h : Good s) (hw : CleanWorld w) (hm : CleanRequest (.overrideValue msg)) :
    Good (overrideValue w.ok msg s).2 := by
  have hinit := good_init h hw
  obtain ⟨hp, hsrc⟩ := hm
  unfold overrideValue
  dsimp only
  split
  · split
    · exact ⟨(clearDb_spec hinit.toSettled).1, filed_clearDb hinit.filed⟩
    · split
      · exact ⟨(clearDbDone_spec hinit.toSettled).1, filed_clearDbDone hinit.toSettled hinit.filed⟩
      · obtain ⟨hcoh, hmarks, hkept, hfile, -⟩ :=
          setOverride_spec (w := w) msg hsrc hinit.toCoherent hinit.marks hinit.notInitial
        exact ⟨⟨⟨hcoh, hkept.initialUpdate.trans hinit.notInitial, hfile hinit.fileCovers⟩, hmarks⟩,
          filed_setOverride msg hinit.filed hp hsrc⟩
  · exact hinit

theorem good_reset (h : Good s) : Good (resetCacheAndStore s) := by
  have hnone : ∀ {P : Prop} {k : Text} {r : JournalData},
      (resetCacheAndStore s).journal.dict.lookup k = some r → P := by
    intro P k r hr
    have hr' : (∅ : Dict Text JournalData).lookup k = some r := hr
    simp at hr'
  refine ⟨⟨⟨⟨fun k => rfl, fun _ _ => hnone, fun k v hv => ?_, fun _ _ => hnone, h.flags, fun _ _ _ => hnone⟩,
    h.notInitial, fun _ => rfl⟩, fun _ _ => hnone⟩, ?_⟩
  · have hv' : (∅ : Dict Text Text).lookup k = some v := hv
    simp at hv'
  · exact ⟨rfl, fun k => rfl, h.filed.buildTime, fun _ => terminated_nil, fun _ => terminated_nil⟩

theorem good_partnerIdUpdated (h : Good s) (hw : CleanWorld w) : Good (partnerIdUpdated w.ok s) := by
  unfold partnerIdUpdated
  simp only
  split
  · have hstep := setRawValue_rawStep w partnerIdKey w.partnerId.chars .default s
    have hclean : CleanParam partnerIdKey w.partnerId.chars := ⟨by decide, by decide, hw.partnerId⟩
    refine good_loadFromJson
      ⟨⟨⟨hstep.coherent_default h.toCoherent w.partnerId.noNul, ?_, ?_⟩, hstep.marks_default h.marks⟩, ?_⟩ hw
    · exact hstep.kept.initialUpdate.trans h.notInitial
    · exact hstep.fileCovers h.fileCovers
    · exact hstep.filed h.filed hclean (Or.inl rfl)
  · exact h

/-! ## A new process -/

/-- The store of a new process before it loads the configuration. -/
def fresh (w : World) (file journalFile : Option Text) : XBSStore :=
  { initDone := false, initialUpdate := false, rfcUpdateInProgress := false, dict := load (file.getD []), file := file
    journal := .start w.version true journalFile }

/-- What a new process needs of the files it finds. -/
structure Consistent (file journalFile : Option Text) : Prop where
  precedence : Precedence (load (file.getD [])) (loadJournal (journalFile.getD []))
  noNul : '\x00' ∉ file.getD []
  noNulJournal : '\x00' ∉ journalFile.getD []

theorem good_fresh_of {file journalFile : Option Text} (hw : CleanWorld w)
    (hact : ∀ k, (load (file.getD [])).lookup k =
      (viewJournal (loadJournal (journalFile.getD [])) k).map Setting.active)
    (hnul : ∀ k v, (load (file.getD [])).lookup k = some v → '\x00' ∉ v)
    (hfw : ∀ k r, (loadJournal (journalFile.getD [])).lookup k = some r → '\x00' ∉ r.fwValue) :
    Good (fresh w file journalFile) := by
  refine ⟨⟨⟨⟨hact, fun k r hr => (lookup_loadJournal hr).2.1, hnul, hfw, rfl, (fun hi => by cases hi)⟩, rfl,
    fun hf => ?_⟩, fun k r hr hc => ?_⟩, ⟨rfl, fun k => ?_, ?_, (fun hi => by cases hi), (fun hi => by cases hi)⟩⟩
  · have hf' : file = none := hf
    show load (file.getD []) = ∅
    rw [hf']
    rfl
  · rw [(lookup_loadJournal hr).2.2] at hc
    cases hc
  · show (loadJournal (journalFile.getD [])).lookup k = ((loadJournal (journalFile.getD [])).lookup k).map _
    cases hr : (loadJournal (journalFile.getD [])).lookup k with
    | none => rfl
    | some r =>
        have hc := (lookup_loadJournal hr).2.2
        rw [Option.map_some, JournalData.unmarked, ← hc]
  · exact cleanField_getBuildTime hw.buildTime

theorem good_fresh {file journalFile : Option Text} (hf : Consistent file journalFile) (hw : CleanWorld w) :
    Good (fresh w file journalFile) := by
  refine good_fresh_of hw (hf.precedence.active fun k r hr => (lookup_loadJournal hr).2.1) (fun k v hv hn => ?_)
    fun k r hr => not_mem_fwValue hf.noNulJournal hr
  rw [lookup_load] at hv
  exact hf.noNul (mem_of_mem_entries (mem_of_lastOf hv) hn)

/-- A restart loses the marks. -/
theorem view_restart (h : Filed s) (k : Text) :
    viewJournal (loadJournal (s.journal.file.getD [])) k = unmark (view s k) := by
  unfold view viewJournal unmark
  rw [h.journal k, Option.map_map, Option.map_map]
  rfl

/-- The files of a good store are consistent, whatever marks are lost. -/
theorem good_fresh_restart (h : Good s) (hw : CleanWorld w) : Good (fresh w s.file s.journal.file) := by
  refine good_fresh_of hw (fun k => ?_) (fun k v hv => ?_) fun k r hr => ?_
  · rw [view_restart h.filed k, h.filed.store, h.active k, unmark, Option.map_map]
    rfl
  · rw [h.filed.store] at hv
    exact h.noNul k v hv
  · rw [h.filed.journal k] at hr
    obtain ⟨r', hr', rfl⟩ := Option.map_eq_some_iff.mp hr
    exact h.noNulFw k r' hr'

theorem start_eq (w : World) (file journalFile : Option Text) :
    start w.ok file journalFile =
      { (loadFromJson w.ok (fresh w file journalFile)).2 with
        initDone := (loadFromJson w.ok (fresh w file journalFile)).1 } := rfl

theorem good_start_of {file journalFile : Option Text} (h : Good (fresh w file journalFile)) (hw : CleanWorld w) :
    Good (start w.ok file journalFile) := by
  rw [start_eq]
  exact good_initDone _ (good_loadFromJson h hw)

end

/-! ## Whole runs -/

/-- **Every request keeps the store good.** -/
theorem good_step (s : XBSStore) (i : World × Request) (h : Good s) (hi : CleanWorld i.1 ∧ CleanRequest i.2) :
    Good (step s i) := by
  obtain ⟨w, r⟩ := i
  obtain ⟨hw, hr⟩ := hi
  cases r with
  | overrideValue msg => exact good_overrideValue msg h hw hr
  | getValue name => exact good_init h hw
  | loadFromJson => exact good_loadFromJson h hw
  | partnerIdUpdated => exact good_partnerIdUpdated h hw
  | resetCacheAndStore => exact good_reset h
  | restart => exact good_start_of (good_fresh_restart h hw) hw

theorem good_run {file journalFile : Option Text} (hf : Consistent file journalFile) {w : World} (hw : CleanWorld w)
    {l : List (World × Request)} (hl : ∀ i ∈ l, CleanWorld i.1 ∧ CleanRequest i.2) :
    Good (run step (start w.ok file journalFile) l) :=
  Along.invariant good_step (good_start_of (good_fresh hf hw) hw) (along_of_forall hl)

/-- **The journal's source decides every active value, along every run.** -/
theorem precedence_run (file journalFile : Option Text) (hf : Consistent file journalFile) (w : World)
    (hw : CleanWorld w) (l : List (World × Request)) (hl : ∀ i ∈ l, CleanWorld i.1 ∧ CleanRequest i.2) :
    let s := run step (start w.ok file journalFile) l
    Precedence s.dict s.journal.dict ∧ ∀ k r, s.journal.dict.lookup k = some r → JournalSource r.updatedSource := by
  intro s
  have h : Good s := good_run hf hw hl
  exact ⟨h.toCoherent.precedence, h.source⟩

/-- Items with literal names and values. -/
def literalItems (l : List (String × String)) : Items := l.map fun p => (.ofLiteral p.1, .ofLiteral p.2)

/-- A device without a partner id, whose `default` partner has the given items. -/
def bootWorld (l : List (String × String)) : World :=
  { order := byKey, journalOrder := byKey, now := noon, version := none, partnerId := .ofLiteral ""
    partners := some [(.ofLiteral "default", .object (literalItems l))], device := .missing }

theorem bootWorld_config (l : List (String × String)) : (bootWorld l).config = .items (literalItems l) := by
  rfl

theorem cleanWorld_bootWorld {l : List (String × String)} (h : ∀ p ∈ literalItems l, CleanParam p.1.chars p.2.chars) :
    CleanWorld (bootWorld l) := by
  have hid : CleanField (CString.ofLiteral "").chars := by decide
  have hbuild : ',' ∉ getBuildTime none := by decide
  refine ⟨fun config hc => ?_, hid, hbuild⟩
  rw [bootWorld_config] at hc
  injection hc with hc
  rw [← hc]
  exact h

/-- A set request with literal name and value. -/
def overrideLiteral (name value : String) (requestor : SourceType) : Request :=
  .overrideValue ⟨.ofLiteral name, .ofLiteral value, requestor⟩

theorem precedence_run_firmwareUpdate :
    let s := run step (start (bootWorld [("Device.A", "1")]).ok none none)
      [(bootWorld [], overrideLiteral "Device.A" "2" .webpa), (bootWorld [("Device.A", "3")], .restart)]
    s.dict.lookup "Device.A".toList = some "2".toList ∧
      (s.journal.dict.lookup "Device.A".toList).map (·.fwValue) = some "3".toList ∧
      Precedence s.dict s.journal.dict := by
  refine ⟨by decide, by decide, (precedence_run none none ⟨⟨fun k => Iff.rfl, ?_, ?_⟩, by simp, by simp⟩ _
    (cleanWorld_bootWorld (by decide)) _ ?_).1⟩
  · intro k r hr
    cases hr
  · intro k r hr
    cases hr
  · intro i hi
    simp only [List.mem_cons, List.not_mem_nil, or_false] at hi
    rcases hi with rfl | rfl
    · exact ⟨cleanWorld_bootWorld (by decide), by decide, Or.inr rfl⟩
    · exact ⟨cleanWorld_bootWorld (by decide), trivial⟩

/-- Two files that are there but do not belong together: the journal has no record of the store's parameter,
and a load that does not name it leaves it so. -/
theorem precedence_needs_consistent_files :
    let s := start (bootWorld []).ok (some "Device.A=1\n".toList) (some [])
    CleanWorld (bootWorld []) ∧ "Device.A".toList ∈ s.dict ∧ "Device.A".toList ∉ s.journal.dict :=
  ⟨cleanWorld_bootWorld (by decide), by decide, by decide⟩

end Tr69HostIf.BS
