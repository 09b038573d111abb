import Tr69HostIf.RFC.Spec

/-!
# The caches and the files of the RFC store

`Agree s` : the local dictionary is always the parsed local file, and outside an update the main and the
non-persistent dictionaries are their parsed files. Every request whose key and value fit a line preserves
it (`agree_step`), a new process establishes it (`agree_start`), and an idle store that agrees with its
files is the one a new process would build (`start_files`).
-/

namespace Tr69HostIf.RFC
open Store

/-- The agreement between caches and files. -/
structure Agree (s : XRFCStore) : Prop where
  initDone : s.initDone = true
  loc : load (s.files.loc.getD []) = s.localDict
  main : s.updateInProgress = false → load (s.files.main.getD []) = s.dict
  nonpersist : s.updateInProgress = false → load (s.files.nonpersist.getD []) = s.nonpersistDict
  defaults : ∃ t, s.files.rfcdefaults = some t ∧ s.rfcdefaultsDict = load t
  cleanDict : CleanDict s.dict
  cleanNonpersist : CleanDict s.nonpersistDict

/-- A request whose key and value fit one line of a store file. -/
def CleanRequest : Request → Prop
  | .setValue msg => CleanEntry msg.paramName.chars msg.value.chars
  | _ => True

instance : DecidablePred CleanRequest
  | .setValue _ => inferInstanceAs (Decidable (CleanEntry _ _))
  | .getValue _ | .clearAll | .reloadCache | .restart => inferInstanceAs (Decidable True)

/-- A set request with literal name and value. -/
def setLiteral (name value : String) (requestor : SourceType) : Request :=
  .setValue ⟨.ofLiteral name, .ofLiteral value, requestor⟩

/-! ## One request -/

theorem agree_withLocal (ord : Order Text) {s : XRFCStore} (h : Agree s) {k v : Text} (hkv : CleanEntry k v) :
    Agree (withLocal ord k v s) := by
  have hc : CleanDict ((load (s.files.loc.getD [])).insert k v) := (load_clean _).insert hkv
  exact ⟨h.initDone, load_render_enum ord hc, h.main, h.nonpersist, h.defaults, h.cleanDict, h.cleanNonpersist⟩

theorem agree_withMain (ord : Order Text) {s : XRFCStore} (h : Agree s) {k v : Text} (hkv : CleanEntry k v) :
    Agree (withMain ord k v s) := by
  have hc : CleanDict (s.dict.insert k v) := h.cleanDict.insert hkv
  exact ⟨h.initDone, h.loc, fun _ => load_render_enum ord hc, h.nonpersist, h.defaults, hc, h.cleanNonpersist⟩

theorem SetStep.agree {ord : Order Text} {msg : MsgData} {s t : XRFCStore} (hs : SetStep ord msg s t) (h : Agree s)
    (hm : CleanEntry msg.paramName.chars msg.value.chars) : Agree t := by
  cases hs with
  | clearNone hk hc =>
      exact ⟨h.initDone, rfl, h.main, h.nonpersist, h.defaults, h.cleanDict, h.cleanNonpersist⟩
  | clearSome hk hc =>
      have hl := AllEntries.eraseAll (load_clean (s.files.loc.getD [])) (clearedKeys ord msg.value.chars s)
      have hd := AllEntries.eraseAll h.cleanDict (clearedKeys ord msg.value.chars s)
      exact ⟨h.initDone, load_render_enum ord hl, fun _ => load_render_enum ord hd, h.nonpersist, h.defaults, hd,
        h.cleanNonpersist⟩
  | nonpersist hn hr =>
      have hc := h.cleanNonpersist.insert hm
      exact ⟨h.initDone, h.loc, h.main, fun _ => load_render_enum ord hc, h.defaults, h.cleanDict, hc⟩
  | refused hn hr => exact h
  | localOnly hk hn hr hu => exact agree_withLocal ord h hm
  | localMain hk hn hr hu => exact agree_withMain ord (agree_withLocal ord h hm) hm
  | localSame hk hn hr hu v hv hc => exact agree_withLocal ord h hm
  | append hk hn hr hu =>
      refine ⟨h.initDone, h.loc, fun hu' => ?_, h.nonpersist, h.defaults, h.cleanDict, h.cleanNonpersist⟩
      exact absurd (hu.symm.trans hu') (by decide)
  | main hk hn hr hu => exact agree_withMain ord h hm
  | same hk hn hr hu v hv hc => exact h

theorem agree_start (ord : Order Text) (f : Files) : Agree (start (Env.ok ord) f) := by
  rw [start_ok]
  exact ⟨rfl, rfl, fun _ => rfl, fun _ => rfl, ⟨_, rfl, rfl⟩, load_clean _, load_clean _⟩

theorem agree_clearAll (ord : Order Text) {s : XRFCStore} (h : Agree s) : Agree (clearAll (Env.ok ord) s) := by
  cases hu : s.updateInProgress
  · rw [clearAll_idle ord h.initDone hu]
    exact ⟨h.initDone, h.loc, (fun hf => by cases hf), (fun hf => by cases hf), h.defaults, h.cleanDict,
      h.cleanNonpersist⟩
  · rw [clearAll_updating ord h.initDone hu]
    exact h

theorem agree_reloadCache (ord : Order Text) {s : XRFCStore} (h : Agree s) : Agree (reloadCache (Env.ok ord) s) := by
  cases hu : s.updateInProgress
  · rw [reloadCache_idle ord hu]
    exact h
  · rw [reloadCache_updating ord hu]
    obtain ⟨t, ht, hd⟩ := h.defaults
    have hc := copyLocal_clean ord (load_clean (s.files.main.getD [])) (load_clean (s.files.loc.getD []))
    refine ⟨rfl, rfl, fun _ => load_render_enum ord hc, fun _ => rfl, ⟨t, ?_, ?_⟩, hc, load_clean _⟩
    · simp [loaded, defaultsText, ht]
    · simp only [loaded, defaultsText, ht, Option.getD_some, hd]
      exact assign_self ∅ (entries t)

/-- **Every request that fits its lines preserves the agreement.** -/
theorem agree_step (s : XRFCStore) (i : Order Text × Request) (h : Agree s) (hi : CleanRequest i.2) :
    Agree (step s i) := by
  obtain ⟨ord, r⟩ := i
  cases r with
  | setValue msg => exact (setValue_setStep ord msg h.initDone).agree h hi
  | getValue name =>
      have : step s (ord, .getValue name) = s := congrArg Prod.snd (getValue_ok ord name h.initDone)
      rw [this]
      exact h
  | clearAll => exact agree_clearAll ord h
  | reloadCache => exact agree_reloadCache ord h
  | restart => exact agree_start ord s.files

/-! ## Whole runs -/

theorem agree_run {s : XRFCStore} (h : Agree s) {l : List (Order Text × Request)}
    (hl : ∀ i ∈ l, CleanRequest i.2) : Agree (run step s l) :=
  Along.invariant (fun s i hs hi => agree_step s i hs hi) h (along_of_forall hl)

/-- An idle store that agrees with its files is the one a new process builds from them. -/
theorem start_files (ord : Order Text) {s : XRFCStore} (h : Agree s) (hu : s.updateInProgress = false) :
    start (Env.ok ord) s.files = s := by
  obtain ⟨t, ht, hd⟩ := h.defaults
  obtain ⟨initDone, updateInProgress, dict, localDict, nonpersistDict, rfcdefaultsDict, files⟩ := s
  obtain ⟨main, loc, nonpersist, rfcdefaults, rfcdefaultsDir, rfcSyncDone⟩ := files
  have h1 := h.initDone
  have h2 := h.loc
  have h3 := h.main hu
  have h4 := h.nonpersist hu
  simp only at h1 h2 h3 h4 hu ht hd
  subst h1 h2 h3 h4 hu ht hd
  rw [start_ok]
  rfl

/-- **Caches and files agree along every run, and a restart of an idle store changes no answer.** -/
theorem caches_agree_with_files (f : Files) (ord : Order Text) (l : List (Order Text × Request))
    (hl : ∀ i ∈ l, CleanRequest i.2) :
    let s := run step (start (Env.ok ord) f) l
    load (s.files.loc.getD []) = s.localDict ∧
      (s.updateInProgress = false → load (s.files.main.getD []) = s.dict) ∧
      (s.updateInProgress = false → load (s.files.nonpersist.getD []) = s.nonpersistDict) ∧
      (s.updateInProgress = false → ∀ (ord' : Order Text) (name : CString),
        (getValue (Env.ok ord') name (start (Env.ok ord') s.files)).1 = (getValue (Env.ok ord') name s).1) := by
  intro s
  have h : Agree s := agree_run (agree_start ord f) hl
  refine ⟨h.loc, h.main, h.nonpersist, fun hu ord' name => ?_⟩
  rw [start_files ord' h hu]

/-- No file but an empty `RFCDEFAULTS_FILE`. -/
def noFiles : Files :=
  { main := none, loc := none, nonpersist := none, rfcdefaults := some [], rfcdefaultsDir := [], rfcSyncDone := true }

theorem caches_agree_with_files_webpaInCycle :
    let s := run step (start (Env.ok byKey) noFiles)
      [(byKey, .clearAll), (byKey, setLiteral "Device.A" "1" .webpa), (byKey, .reloadCache)]
    s.updateInProgress = false ∧ s.localDict.lookup "Device.A".toList = some "1".toList ∧
      load (s.files.main.getD []) = s.dict :=
  ⟨by decide, by decide, (caches_agree_with_files noFiles byKey _ (by decide)).2.1 (by decide)⟩

/-- During an update the non-persistent file is already empty while the dictionary still serves the values
of before. -/
theorem nonpersist_file_behind_cache :
    let l := [(byKey, setLiteral "Device.DeviceInfo.X_RDKCENTRAL-COM_RFC.Feature.NonPersistent.A" "1" .rfc),
      (byKey, .clearAll)]
    let s := run step (start (Env.ok byKey) noFiles) l
    (∀ i ∈ l, CleanRequest i.2) ∧ load (s.files.nonpersist.getD []) ≠ s.nonpersistDict := by
  refine ⟨by decide, fun h => ?_⟩
  have := congrArg (Finmap.lookup "Device.DeviceInfo.X_RDKCENTRAL-COM_RFC.Feature.NonPersistent.A".toList) h
  revert this
  decide

end Tr69HostIf.RFC
