import Tr69HostIf.RFC.Spec

/-!
# What a set does whichever opens succeed

The equations of `RFC/Spec.lean` for an arbitrary environment, outside an update: `setMain_idle_env`,
`setLocal_env` and from them `setValue_main`, `setValue_webpa` and `setValue_nonpersist`, one for each way
through `setValue`. `SameSource` lists what the getter reads besides the main dictionary.
-/

namespace Tr69HostIf.RFC
open Store

/-! ## Initialisation -/

theorem init_of_done (o : LoadOpens) {s : XRFCStore} (h : s.initDone = true) : init o s = (true, s) := by
  rw [init, if_pos h]

theorem init_initDone_of_fst (o : LoadOpens) {s : XRFCStore} (h : (init o s).1 = true) :
    (init o s).2.initDone = true := by
  unfold init at h ⊢
  split
  · next hi => exact hi
  · next hi =>
    rw [if_neg hi] at h
    exact h

theorem init_idle (o : LoadOpens) (s : XRFCStore) : (init o s).2.updateInProgress = s.updateInProgress := by
  unfold init loadTR181PropertiesIntoCache
  split
  · rfl
  · simp only
    repeat' split
    all_goals rfl

theorem setValue_init (env : Env) (msg : MsgData) {s : XRFCStore} (h : (init env.opens.load s).1 = true) :
    setValue env msg s = setInitialised env msg (init env.opens.load s).2 := by
  rw [setValue, if_pos h]

theorem setValue_init_failed (env : Env) (msg : MsgData) {s : XRFCStore} (h : (init env.opens.load s).1 = false) :
    setValue env msg s = (.internalError, (init env.opens.load s).2) := by
  rw [setValue, if_neg (by rw [h]; decide)]

theorem getValue_init (env : Env) (name : CString) {s : XRFCStore} (h : (init env.opens.load s).1 = true) :
    (getValue env name s).1 = answer (init env.opens.load s).2 name.chars := by
  rw [getValue, if_pos h]

/-! ## The two halves of a set -/

/-- The current value is the given one, so that `setValue` does not overwrite it. -/
def Holds (s : XRFCStore) (key value : Text) : Prop :=
  cStr (getRawValue s key) ≠ [] ∧ cStr (getRawValue s key) = cStr value

instance (s : XRFCStore) (key value : Text) : Decidable (Holds s key value) := inferInstanceAs (Decidable (_ ∧ _))

/-- The local cache read again from its file. -/
def readLocal (env : Env) (s : XRFCStore) : XRFCStore :=
  { s with localDict := loadFileToCache env.opens.readLocal s.files.loc }

/-- The local store read again, set and written. -/
def writtenLocal (env : Env) (key value : Text) (s : XRFCStore) : XRFCStore :=
  let l := (loadFileToCache env.opens.readLocal s.files.loc).insert key value
  { s with localDict := l, files := { s.files with loc := some (render (env.order.enum l)) } }

section
variable (env : Env) {s : XRFCStore} {key : Text} (value : Text) (hk : key ≠ clearParam)
include hk

theorem writeHashToFile_env (ok : Bool) (dict : Dict Text Text) (file : Option Text) :
    writeHashToFile env.order ok key value dict file =
      if ok then (true, dict.insert key value, some (render (env.order.enum (dict.insert key value))))
      else (false, dict, file) := by
  cases ok
  · rfl
  · exact writeHashToFile_ok env.order value dict file hk

theorem setMain_idle_env (hu : s.updateInProgress = false) :
    setMain env key value s =
      if Holds s key value then (.noFault, s)
      else if env.opens.writeMain then (.noFault, withMain env.order key value s)
      else (.internalError, s) := by
  rw [setMain]
  by_cases hh : Holds s key value
  · rw [if_pos hh, if_pos (by simpa [hu, Holds] using hh)]
  · rw [if_neg hh, if_neg (by simpa [hu, Holds] using hh), setRawValue, if_neg (by rw [hu]; decide),
      writeHashToFile_env env value hk]
    cases hw : env.opens.writeMain <;> rfl

theorem setLocal_env :
    setLocal env key value s =
      if env.opens.writeLocal then (true, writtenLocal env key value s) else (false, readLocal env s) := by
  simp only [setLocal, writeHashToFile_env env value hk]
  cases hw : env.opens.writeLocal <;> rfl

end

/-! ## The ways through `setValue` -/

section
variable (env : Env) (msg : MsgData) {s : XRFCStore} (hi : (init env.opens.load s).1 = true)
include hi

theorem setValue_main (hk : msg.paramName.chars ≠ clearParam) (hn : nonPersistent msg.paramName.chars = false)
    (hr : msg.requestor ≠ .webpa) :
    setValue env msg s = setMain env msg.paramName.chars msg.value.chars (init env.opens.load s).2 := by
  rw [setValue_init env msg hi, setInitialised, if_neg hk, if_neg (by rw [hn]; decide), if_neg hr]

theorem setValue_webpa (hk : msg.paramName.chars ≠ clearParam) (hn : nonPersistent msg.paramName.chars = false)
    (hr : msg.requestor = .webpa) (hu : s.updateInProgress = false) :
    setValue env msg s =
      if env.opens.sem then
        if env.opens.writeLocal then
          setMain env msg.paramName.chars msg.value.chars
            (writtenLocal env msg.paramName.chars msg.value.chars (init env.opens.load s).2)
        else (.internalError, readLocal env (init env.opens.load s).2)
      else (.internalError, (init env.opens.load s).2) := by
  have hu' : (writtenLocal env msg.paramName.chars msg.value.chars (init env.opens.load s).2).updateInProgress = false :=
    (init_idle env.opens.load s).trans hu
  rw [setValue_init env msg hi, setInitialised, if_neg hk, if_neg (by rw [hn]; decide), if_pos hr,
    setLocal_env env msg.value.chars hk]
  cases hw : env.opens.writeLocal <;> simp [hu']

theorem setValue_nonpersist (hn : nonPersistent msg.paramName.chars = true) :
    setValue env msg s = setNonpersist env msg (init env.opens.load s).2 := by
  have hk : msg.paramName.chars ≠ clearParam := fun h => by
    rw [h, nonPersistent_clearParam] at hn
    cases hn
  rw [setValue_init env msg hi, setInitialised, if_neg hk, if_pos hn]

end

/-! ## What the getter reads -/

/-- The state the getter reads is the same, but for the main dictionary. -/
structure SameSource (s t : XRFCStore) : Prop where
  initDone : t.initDone = s.initDone
  nonpersist : t.nonpersistDict = s.nonpersistDict
  sync : t.files.rfcSyncDone = s.files.rfcSyncDone
  defaults : t.rfcdefaultsDict = s.rfcdefaultsDict

theorem SameSource.answer_eq {s t : XRFCStore} (h : SameSource s t) {key : Text}
    (hk : t.dict.lookup key = s.dict.lookup key) : answer t key = answer s key := by
  unfold answer getRawValue
  rw [h.nonpersist, h.sync, h.defaults, hk]

theorem sameSource_withMain (ord : Order Text) (key value : Text) (s : XRFCStore) :
    SameSource s (withMain ord key value s) := ⟨rfl, rfl, rfl, rfl⟩

/-- The answer for a persistent parameter whose text is not empty. -/
theorem answer_of_raw {s : XRFCStore} {key : Text} (h : getRawValue s key ≠ []) :
    answer s key = .ok (cStr (getRawValue s key)) := by
  rw [answer, if_pos h]

theorem Holds.answer_eq {s : XRFCStore} {key : Text} {value : CString} (h : Holds s key value.chars) :
    answer s key = .ok value.chars := by
  have hraw : getRawValue s key ≠ [] := fun h' => h.1 (by rw [h']; rfl)
  rw [answer_of_raw hraw, h.2, CString.cStr_chars]

end Tr69HostIf.RFC
