import Tr69HostIf.IniFile
import Tr69HostIf.RFC.Agreement
import Tr69HostIf.BS.Precedence

/-!
# One set, one key

The three stores write `key=value` lines and escape nothing. `store_isolation` : a set followed by a fresh
load of the file it wrote changes the one key, to the value given, exactly when that value and what else the
store holds fit their lines. A set rewrites the file from the cache, or appends to it while an update (RFC)
or a first load (bootstrap) is going on; `content` is what the store holds in either case, and the file that
is appended to ends with a line break (`RFC.appendable_run`, `BS.appendable_loadItems`).
-/

namespace Tr69HostIf
open Store

namespace RFC

/-- What the main store holds: the file while an update fills it, else the cache. -/
def content (s : XRFCStore) : Dict Text Text :=
  if s.updateInProgress then load (s.files.main.getD []) else s.dict

/-- The file an update appends to ends with a line break. -/
structure Appendable (s : XRFCStore) : Prop where
  initDone : s.initDone = true
  main : s.updateInProgress = true → Terminated (s.files.main.getD [])

theorem SetStep.appendable {ord : Order Text} {msg : MsgData} {s t : XRFCStore} (hs : SetStep ord msg s t)
    (h : Appendable s) : Appendable t := by
  cases hs with
  | clearNone hk hc => exact ⟨h.initDone, h.main⟩
  | clearSome hk hc => exact ⟨h.initDone, fun _ => terminated_render _⟩
  | nonpersist hn hr => exact ⟨h.initDone, h.main⟩
  | refused hn hr => exact h
  | localOnly hk hn hr hu => exact ⟨h.initDone, h.main⟩
  | localMain hk hn hr hu => exact ⟨h.initDone, fun _ => terminated_render _⟩
  | localSame hk hn hr hu v hv hc => exact ⟨h.initDone, h.main⟩
  | append hk hn hr hu =>
      refine ⟨h.initDone, fun _ => ?_⟩
      exact (h.main hu).append (terminated_append_newline (msg.paramName.chars ++ '=' :: msg.value.chars))
  | main hk hn hr hu => exact ⟨h.initDone, fun _ => terminated_render _⟩
  | same hk hn hr hu v hv hc => exact h

theorem appendable_start (ord : Order Text) (f : Files) : Appendable (start (Env.ok ord) f) := by
  rw [start_ok]
  exact ⟨rfl, fun hu => by cases hu⟩

theorem appendable_step (s : XRFCStore) (i : Order Text × Request) (h : Appendable s) : Appendable (step s i) := by
  obtain ⟨ord, r⟩ := i
  cases r with
  | setValue msg => exact (setValue_setStep ord msg h.initDone).appendable h
  | getValue name =>
      have : step s (ord, .getValue name) = s := congrArg Prod.snd (getValue_ok ord name h.initDone)
      rw [this]
      exact h
  | clearAll =>
      show Appendable (clearAll (Env.ok ord) s)
      cases hu : s.updateInProgress
      · rw [clearAll_idle ord h.initDone hu]
        exact ⟨h.initDone, fun _ => terminated_nil⟩
      · rw [clearAll_updating ord h.initDone hu]
        exact h
  | reloadCache =>
      show Appendable (reloadCache (Env.ok ord) s)
      cases hu : s.updateInProgress
      · rw [reloadCache_idle ord hu]
        exact h
      · rw [reloadCache_updating ord hu]
        exact ⟨rfl, fun hf => by cases hf⟩
  | restart => exact appendable_start ord s.files

theorem appendable_run (ord : Order Text) (f : Files) (l : List (Order Text × Request)) :
    Appendable (run step (start (Env.ok ord) f) l) := by
  have hl : Along step (fun _ _ => True) (start (Env.ok ord) f) l := along_of_forall fun _ _ => trivial
  exact Along.invariant (fun s i hs _ => appendable_step s i hs) (appendable_start ord f) hl

section
variable {key : Text} (hk : '=' ∉ key) (hk' : '\n' ∉ key) (hc : key ≠ clearParam) (value : Text)

include hk hk' hc

theorem writeHashToFile_isolation (ord : Order Text) (d : Dict Text Text) (file : Option Text) :
    SetInto key value d (loadFileToCache true (writeHashToFile ord true key value d file).2.2) ↔ Fits key value d := by
  rw [writeHashToFile_ok ord value d file hc]
  exact setInto_render_iff hk hk' value ord d

theorem setRawValue_isolation (ord : Order Text) {s : XRFCStore} (h : Appendable s) :
    SetInto key value (content s)
        (loadFileToCache true (setRawValue (Env.ok ord) key value s).2.files.main) ↔
      Fits key value (content s) := by
  unfold content setRawValue
  cases hu : s.updateInProgress
  · exact writeHashToFile_isolation hk hk' hc value ord s.dict s.files.main
  · exact setInto_append_iff hk hk' value (h.main hu)

end

end RFC

namespace BS

/-- What the store holds: the file while a first load fills it, else the cache. -/
def content (s : XBSStore) : Dict Text Text := if s.initialUpdate then load (s.file.getD []) else s.dict

/-- The file a first load appends to ends with a line break. -/
def Appendable (s : XBSStore) : Prop := s.initialUpdate = true → Terminated (s.file.getD [])

/-- The set goes to the file: it is part of a first load, or it neither repeats the current value nor gives
a firmware value under one of RFC or WebPA. -/
def Writes (key value : Text) (src : SourceType) (s : XBSStore) : Prop :=
  s.initialUpdate = true ∨
    ¬(cStr (getRawValue s key) ≠ [] ∧ cStr (getRawValue s key) = cStr value) ∧
      ¬(src = .default ∧ (getJournalSource s.journal key = .rfc ∨ getJournalSource s.journal key = .webpa))

theorem RawStep.appendable {w : World} {key value : Text} {src : SourceType} {s t : XBSStore}
    (hs : RawStep w key value src s t) (h : Appendable s) : Appendable t := by
  cases hs with
  | append hi => exact fun _ => (h hi).append (terminated_append_newline (key ++ '=' :: value))
  | same hi hne heq hs => exact h
  | sameJournal hi hne heq hs => exact h
  | inactive hi hd hj => exact h
  | rewrite hi hj => exact fun _ => terminated_render _

/-- Every call of `setRawValue` in the loop of `loadFromJson` finds such a file: the loop appends only when
there was none. -/
theorem appendable_loadItems (w : World) (config l : Items) {s : XBSStore} (h : s.initialUpdate = false) :
    Appendable (loadItems w.ok l (removeDropped w.ok config (prepared s)).2) := by
  have hprep : Appendable (prepared s) := by
    unfold prepared
    split
    · intro hi
      exact absurd (h.symm.trans hi) (by decide)
    · next hf =>
      have hnone : s.file = none := by simpa using hf
      intro _
      show Terminated (s.file.getD [])
      rw [hnone]
      exact terminated_nil
  have hdrop : Appendable (removeDropped w.ok config (prepared s)).2 := by
    unfold removeDropped
    simp only [World.ok]
    split
    · exact hprep
    · exact fun _ => terminated_render _
  generalize (removeDropped w.ok config (prepared s)).2 = t at hdrop
  induction l generalizing t with
  | nil => exact hdrop
  | cons p l ih => exact ih _ ((setRawValue_rawStep w p.1.chars p.2.chars .default t).appendable hdrop)

theorem setRawValue_isolation {key : Text} (hk : '=' ∉ key) (hk' : '\n' ∉ key) (value : Text) (w : World)
    (src : SourceType) {s : XBSStore} (h : Appendable s) (hw : Writes key value src s) :
    SetInto key value (content s) (load ((setRawValue w.ok key value src s).2.file.getD [])) ↔
      Fits key value (content s) := by
  unfold content setRawValue
  cases hi : s.initialUpdate
  · rcases hw with hw | ⟨hne, hd⟩
    · exact absurd (hi.symm.trans hw) (by decide)
    · simp only [Bool.false_eq_true, if_false, if_neg hne, if_neg hd]
      exact setInto_render_iff hk hk' value w.order s.dict
  · exact setInto_append_iff hk hk' value (h hi)

end BS

/-- **A set changes one key, and to the value given, exactly when everything fits its line.** -/
theorem store_isolation (key value : Text) (hk : '=' ∉ key) (hk' : '\n' ∉ key) :
    -- the main, the local and the non-persistent file of `XRFCStore`, written as a whole
    (key ≠ RFC.clearParam → ∀ (ord : Order Text) (d : Dict Text Text) (file : Option Text),
      SetInto key value d (RFC.loadFileToCache true (RFC.writeHashToFile ord true key value d file).2.2) ↔
        Fits key value d) ∧
    -- the main file in every reachable state
    (key ≠ RFC.clearParam → ∀ (ord ord' : Order Text) (f : RFC.Files) (l : List (Order Text × RFC.Request)),
      let s := run RFC.step (RFC.start (RFC.Env.ok ord) f) l
      SetInto key value (RFC.content s)
          (RFC.loadFileToCache true (RFC.setRawValue (RFC.Env.ok ord') key value s).2.files.main) ↔
        Fits key value (RFC.content s)) ∧
    -- `XBSStore`, whenever the set writes its file
    (∀ (w : BS.World) (src : SourceType) (s : BS.XBSStore), BS.Appendable s → BS.Writes key value src s →
      (SetInto key value (BS.content s) (load ((BS.setRawValue w.ok key value src s).2.file.getD [])) ↔
        Fits key value (BS.content s))) ∧
    -- `IniFile`, once it has a file
    (∀ (fs : Ini.FileSystem) (f : Ini.IniFile), f.filename ≠ [] →
      (SetInto key value f.dict (Ini.IniFile.load true (f.setValue true fs key value).2.2 f.filename).2.dict ↔
        Fits key value f.dict)) := by
  refine ⟨fun hc ord d file => ?_, fun hc ord ord' f l => ?_, fun w src s ha hw => ?_, fun fs f hf => ?_⟩
  · exact RFC.writeHashToFile_isolation hk hk' hc value ord d file
  · exact RFC.setRawValue_isolation hk hk' hc value ord' (RFC.appendable_run ord f l)
  · exact BS.setRawValue_isolation hk hk' value w src ha hw
  · rw [Ini.load_setValue fs key value hf]
    exact setInto_render_iff hk hk' value byKey f.dict

/-- An `IniFile` with one entry. -/
def Ini.literal (name key value : String) : Ini.IniFile :=
  ⟨Ini.eraseQuotes name.toList, Ini.not_mem_eraseQuotes _, (∅ : Dict Text Text).insert key.toList value.toList⟩

/-- A value with an equals sign goes through all three stores. -/
theorem store_isolation_equalsSign :
    let key := "Device.A".toList
    let value := "x=y".toList
    let s := run RFC.step (RFC.start (RFC.Env.ok byKey) RFC.noFiles) []
    let b := BS.start (BS.bootWorld []).ok none none
    let f := Ini.literal "/opt/hostif.ini" "Device.B" "2"
    SetInto key value (RFC.content s)
        (RFC.loadFileToCache true (RFC.writeHashToFile byKey true key value (RFC.content s) none).2.2) ∧
      SetInto key value (RFC.content s)
        (RFC.loadFileToCache true (RFC.setRawValue (RFC.Env.ok byKey) key value s).2.files.main) ∧
      SetInto key value (BS.content b) (load ((BS.setRawValue (BS.bootWorld []).ok key value .rfc b).2.file.getD [])) ∧
      SetInto key value f.dict (Ini.IniFile.load true (f.setValue true ∅ key value).2.2 f.filename).2.dict := by
  intro key value s b f
  obtain ⟨hall, hmain, hbs, hini⟩ := store_isolation key value (by decide) (by decide)
  have hfits : ∀ {d : Dict Text Text}, CleanDict d → Fits key value d := fun hd => ⟨by decide, fun k v _ hv => hd k v hv⟩
  have hempty : CleanDict (RFC.content s) := by
    have hs : RFC.content s = ∅ := by decide
    rw [hs]
    exact cleanDict_empty
  refine ⟨(hall (by decide) byKey _ none).mpr (hfits hempty),
    (hmain (by decide) byKey byKey RFC.noFiles []).mpr (hfits hempty), (hbs (BS.bootWorld []) .rfc b ?_ ?_).mpr ?_, ?_⟩
  · intro hi
    exact absurd hi (by decide)
  · exact Or.inr ⟨by decide, by decide⟩
  · have hb : BS.content b = ∅ := by decide
    rw [hb]
    exact hfits cleanDict_empty
  · refine (hini ∅ f (by decide)).mpr (hfits ?_)
    have hclean : CleanEntry "Device.B".toList "2".toList := by decide
    exact cleanDict_empty.insert hclean

/-- A value with a line break plants the value of another key in each of the three stores. -/
theorem newline_plants_key :
    let key := "Device.A".toList
    let value := "x\nDevice.B=y".toList
    let other := "Device.B".toList
    let s := RFC.start (RFC.Env.ok byKey) RFC.noFiles
    let b := BS.start (BS.bootWorld []).ok none none
    let f := Ini.literal "/opt/hostif.ini" "Device.C" "2"
    (s.dict.lookup other = none ∧
      (RFC.loadFileToCache true (RFC.setRawValue (RFC.Env.ok byKey) key value s).2.files.main).lookup other =
        some "y".toList) ∧
    (b.dict.lookup other = none ∧
      (load ((BS.setRawValue (BS.bootWorld []).ok key value .rfc b).2.file.getD [])).lookup other =
        some "y".toList) ∧
    (f.dict.lookup other = none ∧
      (Ini.IniFile.load true (f.setValue true ∅ key value).2.2 f.filename).2.dict.lookup other =
        some "y".toList) := by
  decide

end Tr69HostIf
