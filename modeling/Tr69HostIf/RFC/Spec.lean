import Tr69HostIf.RFC.Store
import Tr69HostIf.Store.Run

/-!
# What each request does when every open succeeds

One equation per function of the store under `Env.ok`, in an initialised state, so that no later proof
unfolds the functions themselves. `SetStep` lists the ways a set request can go and `setValue_setStep` says
that there is no other; `clearAll_idle`, `clearAll_updating`, `reloadCache_idle` and `reloadCache_updating`
do the same for the update cycle, `start_ok` for a new process.
-/

namespace Tr69HostIf.RFC
open Store

/-! ## Loading -/

@[simp] theorem loadFileToCache_true (file : Option Text) : loadFileToCache true file = load (file.getD []) := by
  cases file <;> rfl

/-- The text of `RFCDEFAULTS_FILE`, created from the directory when it is missing. -/
def defaultsText (f : Files) : Text := f.rfcdefaults.getD (combineDefaults [] f.rfcdefaultsDir)

/-- The store after a load in which every open succeeds. -/
def loaded (s : XRFCStore) : XRFCStore :=
  { s with dict := load (s.files.main.getD [])
           localDict := load (s.files.loc.getD [])
           nonpersistDict := load (s.files.nonpersist.getD [])
           rfcdefaultsDict := assign s.rfcdefaultsDict (entries (defaultsText s.files))
           files := { s.files with rfcdefaults := some (defaultsText s.files) } }

theorem loadTR181PropertiesIntoCache_ok (s : XRFCStore) : loadTR181PropertiesIntoCache {} s = (true, loaded s) := by
  unfold loadTR181PropertiesIntoCache loaded defaultsText
  cases hd : s.files.rfcdefaults with
  | some t =>
      have hf : s.files = { s.files with rfcdefaults := some t } := by rw [← hd]
      simp only [if_pos, loadFileToCache_true, openRead, hd, Option.getD_some, ← hf]
  | none => simp [openRead, initRfcdefaults, hd]

theorem init_ok (s : XRFCStore) :
    init {} s = (true, if s.initDone then s else { loaded s with initDone := true }) := by
  unfold init
  cases h : s.initDone
  · rw [if_neg (by decide), loadTR181PropertiesIntoCache_ok]
    rfl
  · rfl

theorem init_of_initDone {s : XRFCStore} (h : s.initDone = true) : init {} s = (true, s) := by
  rw [init_ok, if_pos h]

theorem init_initDone (s : XRFCStore) : (init {} s).2.initDone = true := by
  rw [init_ok]
  cases h : s.initDone <;> simp [h]

theorem init_updateInProgress (s : XRFCStore) : (init {} s).2.updateInProgress = s.updateInProgress := by
  rw [init_ok]
  cases h : s.initDone <;> simp [loaded]

/-- The state a new process starts from. -/
theorem start_ok (ord : Order Text) (f : Files) :
    start (Env.ok ord) f =
      { initDone := true, updateInProgress := false
        dict := load (f.main.getD [])
        localDict := load (f.loc.getD [])
        nonpersistDict := load (f.nonpersist.getD [])
        rfcdefaultsDict := load (defaultsText f)
        files := { f with rfcdefaults := some (defaultsText f) } } := by
  unfold start
  rw [show (Env.ok ord).opens.load = {} from rfl, init_ok]
  rfl

/-! ## Setting a value -/

section
variable (ord : Order Text) {s : XRFCStore} (msg : MsgData)

theorem writeHashToFile_ok {key : Text} (value : Text) (dict : Dict Text Text) (file : Option Text)
    (hk : key ≠ clearParam) :
    writeHashToFile ord true key value dict file =
      (true, dict.insert key value, some (render (ord.enum (dict.insert key value)))) := by
  simp only [writeHashToFile, if_pos, if_neg hk]

theorem writeHashToFile_clearParam (value : Text) (dict : Dict Text Text) (file : Option Text) :
    writeHashToFile ord true clearParam value dict file = (true, dict, some (render (ord.enum dict))) := by
  simp only [writeHashToFile, if_pos]

theorem nonPersistent_clearParam : nonPersistent clearParam = false := by decide

theorem setValue_ok (hi : s.initDone = true) : setValue (Env.ok ord) msg s = setInitialised (Env.ok ord) msg s := by
  unfold setValue
  rw [show (Env.ok ord).opens.load = {} from rfl, init_of_initDone hi]
  rfl

/-- The keys of the local file that a clear request removes. -/
def clearedKeys (value : Text) (s : XRFCStore) : List Text :=
  ((ord.enum (load (s.files.loc.getD []))).map Prod.fst).filter fun k => clears value k

theorem mem_clearedKeys {value k : Text} :
    k ∈ clearedKeys ord value s ↔ k ∈ load (s.files.loc.getD []) ∧ clears value k = true := by
  rw [clearedKeys, List.mem_filter, mem_keys_enum]

/-- The state after a clear request that removes something. -/
def withCleared (value : Text) (s : XRFCStore) : XRFCStore :=
  let l := eraseAll (load (s.files.loc.getD [])) (clearedKeys ord value s)
  let d := eraseAll s.dict (clearedKeys ord value s)
  { s with localDict := l, dict := d
           files := { s.files with loc := some (render (ord.enum l)), main := some (render (ord.enum d)) } }

/-- A clear request that removes nothing only reloads the local dictionary. -/
theorem setValue_clearParam_none (hi : s.initDone = true) (hk : msg.paramName.chars = clearParam)
    (hc : clearedKeys ord msg.value.chars s = []) :
    (setValue (Env.ok ord) msg s).2 = { s with localDict := load (s.files.loc.getD []) } := by
  unfold clearedKeys at hc
  rw [setValue_ok ord msg hi, setInitialised, if_pos hk, hk, clearValue]
  simp [Env.ok, hc, eraseAll]

/-- A clear request that removes something rewrites both files from the caches, also during an update. -/
theorem setValue_clearParam_some (hi : s.initDone = true) (hk : msg.paramName.chars = clearParam)
    (hc : clearedKeys ord msg.value.chars s ≠ []) :
    (setValue (Env.ok ord) msg s).2 = withCleared ord msg.value.chars s := by
  unfold withCleared clearedKeys at *
  rw [setValue_ok ord msg hi, setInitialised, if_pos hk, hk, clearValue]
  simp only [Env.ok, if_pos, loadFileToCache_true, if_neg hc, writeHashToFile_clearParam]

/-- The state after a set of a non-persistent parameter. -/
def withNonpersist (key value : Text) (s : XRFCStore) : XRFCStore :=
  let d := s.nonpersistDict.insert key value
  { s with nonpersistDict := d, files := { s.files with nonpersist := some (render (ord.enum d)) } }

theorem setValue_nonpersist_rfc (hi : s.initDone = true) (hn : nonPersistent msg.paramName.chars = true)
    (hr : msg.requestor = .rfc) :
    (setValue (Env.ok ord) msg s).2 = withNonpersist ord msg.paramName.chars msg.value.chars s := by
  have hk : msg.paramName.chars ≠ clearParam := fun h => by
    rw [h, nonPersistent_clearParam] at hn
    cases hn
  rw [setValue_ok ord msg hi, setInitialised, if_neg hk, if_pos hn, setNonpersist, if_pos hr]
  simp only [Env.ok, writeHashToFile_ok ord _ _ _ hk, withNonpersist]

theorem setValue_nonpersist_other (hi : s.initDone = true) (hn : nonPersistent msg.paramName.chars = true)
    (hr : msg.requestor ≠ .rfc) : (setValue (Env.ok ord) msg s).2 = s := by
  have hk : msg.paramName.chars ≠ clearParam := fun h => by
    rw [h, nonPersistent_clearParam] at hn
    cases hn
  rw [setValue_ok ord msg hi, setInitialised, if_neg hk, if_pos hn, setNonpersist, if_neg hr]

/-- The state after the local half of a WebPA set. -/
def withLocal (key value : Text) (s : XRFCStore) : XRFCStore :=
  let l := (load (s.files.loc.getD [])).insert key value
  { s with localDict := l, files := { s.files with loc := some (render (ord.enum l)) } }

/-- The state after a main set outside an update. -/
def withMain (key value : Text) (s : XRFCStore) : XRFCStore :=
  let d := s.dict.insert key value
  { s with dict := d, files := { s.files with main := some (render (ord.enum d)) } }

/-- The state after a main set during an update. -/
def withAppended (key value : Text) (s : XRFCStore) : XRFCStore :=
  { s with files := { s.files with main := some (s.files.main.getD [] ++ entryLine (key, value)) } }

theorem setLocal_ok {key : Text} (value : Text) (hk : key ≠ clearParam) :
    setLocal (Env.ok ord) key value s = (true, withLocal ord key value s) := by
  simp only [setLocal, Env.ok, loadFileToCache_true, writeHashToFile_ok ord _ _ _ hk, withLocal]

theorem setMain_updating (key value : Text) (hu : s.updateInProgress = true) :
    (setMain (Env.ok ord) key value s).2 = withAppended key value s := by
  rw [setMain, setRawValue]
  simp [hu, Env.ok, withAppended]

/-- Outside an update the value is written, unless a value is there that no C string tells apart. -/
theorem setMain_idle {key : Text} (value : Text) (hk : key ≠ clearParam) (hn : nonPersistent key = false)
    (hu : s.updateInProgress = false) :
    (setMain (Env.ok ord) key value s).2 = withMain ord key value s ∨
      (setMain (Env.ok ord) key value s).2 = s ∧ ∃ v, s.dict.lookup key = some v ∧ cStr v = cStr value := by
  rw [setMain]
  split
  · next h =>
    right
    simp only [hu, Bool.not_false, Bool.true_and, Bool.and_eq_true, decide_eq_true_eq, getRawValue, hn] at h
    refine ⟨rfl, ?_⟩
    cases hl : s.dict.lookup key with
    | some v =>
        refine ⟨v, rfl, ?_⟩
        simpa [hl] using h.2
    | none =>
        rw [hl] at h
        exact absurd rfl h.1
  · left
    rw [setRawValue, if_neg (by rw [hu]; decide)]
    simp only [Env.ok, writeHashToFile_ok ord _ _ _ hk, withMain]

theorem setValue_webpa_updating (hi : s.initDone = true) (hk : msg.paramName.chars ≠ clearParam)
    (hn : nonPersistent msg.paramName.chars = false) (hr : msg.requestor = .webpa)
    (hu : s.updateInProgress = true) :
    (setValue (Env.ok ord) msg s).2 = withLocal ord msg.paramName.chars msg.value.chars s := by
  have hu' : (withLocal ord msg.paramName.chars msg.value.chars s).updateInProgress = true := hu
  rw [setValue_ok ord msg hi, setInitialised, if_neg hk, if_neg (by rw [hn]; decide), if_pos hr, setLocal_ok ord _ hk]
  simp [Env.ok, hu']

theorem setValue_webpa_idle (hi : s.initDone = true) (hk : msg.paramName.chars ≠ clearParam)
    (hn : nonPersistent msg.paramName.chars = false) (hr : msg.requestor = .webpa)
    (hu : s.updateInProgress = false) :
    (setValue (Env.ok ord) msg s).2 =
      (setMain (Env.ok ord) msg.paramName.chars msg.value.chars
        (withLocal ord msg.paramName.chars msg.value.chars s)).2 := by
  have hu' : (withLocal ord msg.paramName.chars msg.value.chars s).updateInProgress = false := hu
  rw [setValue_ok ord msg hi, setInitialised, if_neg hk, if_neg (by rw [hn]; decide), if_pos hr, setLocal_ok ord _ hk]
  simp [Env.ok, hu']

theorem setValue_other (hi : s.initDone = true) (hk : msg.paramName.chars ≠ clearParam)
    (hn : nonPersistent msg.paramName.chars = false) (hr : msg.requestor ≠ .webpa) :
    (setValue (Env.ok ord) msg s).2 = (setMain (Env.ok ord) msg.paramName.chars msg.value.chars s).2 := by
  rw [setValue_ok ord msg hi, setInitialised, if_neg hk, if_neg (by rw [hn]; decide), if_neg hr]

end

/-- What a set request can do to an initialised store, one constructor per way through `setValue`. -/
inductive SetStep (ord : Order Text) (msg : MsgData) (s : XRFCStore) : XRFCStore → Prop
  | clearNone (hk : msg.paramName.chars = clearParam) (hc : clearedKeys ord msg.value.chars s = []) :
      SetStep ord msg s { s with localDict := load (s.files.loc.getD []) }
  | clearSome (hk : msg.paramName.chars = clearParam) (hc : clearedKeys ord msg.value.chars s ≠ []) :
      SetStep ord msg s (withCleared ord msg.value.chars s)
  | nonpersist (hn : nonPersistent msg.paramName.chars = true) (hr : msg.requestor = .rfc) :
      SetStep ord msg s (withNonpersist ord msg.paramName.chars msg.value.chars s)
  | refused (hn : nonPersistent msg.paramName.chars = true) (hr : msg.requestor ≠ .rfc) : SetStep ord msg s s
  | localOnly (hk : msg.paramName.chars ≠ clearParam) (hn : nonPersistent msg.paramName.chars = false)
      (hr : msg.requestor = .webpa) (hu : s.updateInProgress = true) :
      SetStep ord msg s (withLocal ord msg.paramName.chars msg.value.chars s)
  | localMain (hk : msg.paramName.chars ≠ clearParam) (hn : nonPersistent msg.paramName.chars = false)
      (hr : msg.requestor = .webpa) (hu : s.updateInProgress = false) :
      SetStep ord msg s (withMain ord msg.paramName.chars msg.value.chars
        (withLocal ord msg.paramName.chars msg.value.chars s))
  | localSame (hk : msg.paramName.chars ≠ clearParam) (hn : nonPersistent msg.paramName.chars = false)
      (hr : msg.requestor = .webpa) (hu : s.updateInProgress = false) (v : Text)
      (hv : s.dict.lookup msg.paramName.chars = some v) (hc : cStr v = msg.value.chars) :
      SetStep ord msg s (withLocal ord msg.paramName.chars msg.value.chars s)
  | append (hk : msg.paramName.chars ≠ clearParam) (hn : nonPersistent msg.paramName.chars = false)
      (hr : msg.requestor ≠ .webpa) (hu : s.updateInProgress = true) :
      SetStep ord msg s (withAppended msg.paramName.chars msg.value.chars s)
  | main (hk : msg.paramName.chars ≠ clearParam) (hn : nonPersistent msg.paramName.chars = false)
      (hr : msg.requestor ≠ .webpa) (hu : s.updateInProgress = false) :
      SetStep ord msg s (withMain ord msg.paramName.chars msg.value.chars s)
  | same (hk : msg.paramName.chars ≠ clearParam) (hn : nonPersistent msg.paramName.chars = false)
      (hr : msg.requestor ≠ .webpa) (hu : s.updateInProgress = false) (v : Text)
      (hv : s.dict.lookup msg.paramName.chars = some v) (hc : cStr v = msg.value.chars) : SetStep ord msg s s

section
variable (ord : Order Text) {s : XRFCStore} (msg : MsgData)

/-- **Every set request is one of the steps.** -/
theorem setValue_setStep (hi : s.initDone = true) : SetStep ord msg s (setValue (Env.ok ord) msg s).2 := by
  by_cases hk : msg.paramName.chars = clearParam
  · by_cases hc : clearedKeys ord msg.value.chars s = []
    · rw [setValue_clearParam_none ord msg hi hk hc]
      exact .clearNone hk hc
    · rw [setValue_clearParam_some ord msg hi hk hc]
      exact .clearSome hk hc
  cases hn : nonPersistent msg.paramName.chars
  · by_cases hr : msg.requestor = .webpa
    · cases hu : s.updateInProgress
      · rw [setValue_webpa_idle ord msg hi hk hn hr hu]
        rcases setMain_idle ord (s := withLocal ord msg.paramName.chars msg.value.chars s) msg.value.chars hk hn hu
          with h | ⟨h, v, hv, hc⟩
        · rw [h]
          exact .localMain hk hn hr hu
        · rw [h]
          exact .localSame hk hn hr hu v hv (by rw [hc, CString.cStr_chars])
      · rw [setValue_webpa_updating ord msg hi hk hn hr hu]
        exact .localOnly hk hn hr hu
    · rw [setValue_other ord msg hi hk hn hr]
      cases hu : s.updateInProgress
      · rcases setMain_idle ord (s := s) msg.value.chars hk hn hu with h | ⟨h, v, hv, hc⟩
        · rw [h]
          exact .main hk hn hr hu
        · rw [h]
          exact .same hk hn hr hu v hv (by rw [hc, CString.cStr_chars])
      · rw [setMain_updating ord _ _ hu]
        exact .append hk hn hr hu
  · by_cases hr : msg.requestor = .rfc
    · rw [setValue_nonpersist_rfc ord msg hi hn hr]
      exact .nonpersist hn hr
    · rw [setValue_nonpersist_other ord msg hi hn hr]
      exact .refused hn hr

/-! ## The other requests -/

theorem getValue_ok (name : CString) (hi : s.initDone = true) :
    getValue (Env.ok ord) name s = (answer s name.chars, s) := by
  unfold getValue
  rw [show (Env.ok ord).opens.load = {} from rfl, init_of_initDone hi]
  rfl

theorem clearAll_init : clearAll (Env.ok ord) s = clearAll (Env.ok ord) (init {} s).2 := by
  unfold clearAll
  rw [show (Env.ok ord).opens.load = {} from rfl, init_of_initDone (init_initDone s), init_ok]

theorem clearAll_updating (hi : s.initDone = true) (hu : s.updateInProgress = true) : clearAll (Env.ok ord) s = s := by
  unfold clearAll
  rw [show (Env.ok ord).opens.load = {} from rfl, init_of_initDone hi]
  simp [hu]

theorem clearAll_idle (hi : s.initDone = true) (hu : s.updateInProgress = false) :
    clearAll (Env.ok ord) s =
      { s with updateInProgress := true, files := { s.files with main := some [], nonpersist := some [] } } := by
  unfold clearAll
  rw [show (Env.ok ord).opens.load = {} from rfl, init_of_initDone hi]
  simp [hu, Env.ok]

theorem lookup_copyLocal (dict localDict : Dict Text Text) (k : Text) :
    (copyLocal ord dict localDict).lookup k = (dict.lookup k).or (localDict.lookup k) := by
  rw [copyLocal, lookup_insertMissing (ord.nodup localDict), lastOf_enum]

theorem copyLocal_clean {dict localDict : Dict Text Text} (hd : CleanDict dict) (hl : CleanDict localDict) :
    CleanDict (copyLocal ord dict localDict) := by
  intro k v h
  rw [lookup_copyLocal, Option.or_eq_some_iff] at h
  rcases h with h | ⟨-, h⟩
  · exact hd k v h
  · exact hl k v h

theorem reloadCache_idle (hu : s.updateInProgress = false) : reloadCache (Env.ok ord) s = s := by
  rw [reloadCache, if_neg (by rw [hu]; decide)]

theorem reloadCache_updating (hu : s.updateInProgress = true) :
    reloadCache (Env.ok ord) s =
      let d := copyLocal ord (load (s.files.main.getD [])) (load (s.files.loc.getD []))
      { loaded s with initDone := true, updateInProgress := false, dict := d
                      files := { (loaded s).files with main := some (render (ord.enum d)) } } := by
  rw [reloadCache, if_pos hu, show (Env.ok ord).opens.load = {} from rfl, loadTR181PropertiesIntoCache_ok]
  rfl

end

end Tr69HostIf.RFC
