import Tr69HostIf.DeviceInfo.Truth
import Tr69HostIf.RFC.SetGet
import Tr69HostIf.Store.Run

/-!
# The secure debug state

`updateSecureDebugState` writes `/opt/enable_secure_dbg`: 1 when the debug services are enabled and the device is a
test device, both read from the RFC store. `set_xRDKCentralComRFC` calls it after a successful set of one of the two
parameters and nothing else does, so the file may lag behind the store: `shows_iff_along` says after which requests.

* `debugState` : what the store says;
* `shows` : what the file says;
* `Lags` : a request after which the two differ.
-/

namespace Tr69HostIf.DeviceInfo.SecureDebug
open Store RFC

/-- `RFC_DBG_SERVICES`. -/
def rfcDbgServices : CString := .ofLiteral "Device.DeviceInfo.X_RDKCENTRAL-COM_RFC.Identity.DbgServices.Enable"

/-- `RFC_DEVICE_TYPE`. -/
def rfcDeviceType : CString := .ofLiteral "Device.DeviceInfo.X_RDKCENTRAL-COM_RFC.Identity.DeviceType"

/-- `DBG_SERVICES_STATE_FILE`. -/
structure StateFile where
  text : Text
  /-- `FS_IMMUTABLE_FL` -/
  immutable : Bool
  deriving DecidableEq

/-- Which of the calls on the state file succeed. -/
structure FileCalls where
  /-- `open` for reading, of a file that is there; that there is none is no failure -/
  openAttr : Bool := true
  /-- `FS_IOC_GETFLAGS` -/
  getFlags : Bool := true
  /-- `FS_IOC_SETFLAGS` without the flag -/
  clearFlag : Bool := true
  /-- `open` for writing, which truncates -/
  openFile : Bool := true
  fchmod : Bool := true
  fdopen : Bool := true
  fprintf : Bool := true
  fflush : Bool := true
  getFlagsAgain : Bool := true
  /-- `FS_IOC_SETFLAGS` with the flag -/
  setFlag : Bool := true
  deriving DecidableEq

/-- The first part of the writing: the file is made mutable, or the function returns. -/
def makeMutable (c : FileCalls) (file : Option StateFile) : Except (Option StateFile) (Option StateFile) :=
  if !c.openAttr then .error file
  else match file with
    | none => .ok none
    | some f =>
        if !c.getFlags then .error file
        else if f.immutable then
          if c.clearFlag then .ok (some { f with immutable := false }) else .error file
        else .ok file

/-- The second part: the state is written and the file made immutable. -/
def rewrite (c : FileCalls) (state : Bool) (file : Option StateFile) : Int × Option StateFile :=
  if !c.openFile then (nok, file)
  else if !c.fchmod then (nok, some ⟨[], false⟩)
  else if !c.fdopen then (nok, some ⟨[], false⟩)
  else if !c.fprintf then (nok, some ⟨[], false⟩)
  else if !c.fflush then (nok, some ⟨[], false⟩)
  else
    let text := if state then ['1', '\n'] else ['0', '\n']
    if !c.getFlagsAgain then (nok, some ⟨text, false⟩)
    else if !c.setFlag then (nok, some ⟨text, false⟩)
    else (ok, some ⟨text, true⟩)

/-- The state for the two values; a value that is not there makes it 0. -/
def stateOf : Except FaultCode Text → Except FaultCode Text → Bool
  | .ok dbgServices, .ok deviceType => stringToBool dbgServices && strcasecmp (putString deviceType) "test".toList
  | _, _ => false

/-- `updateSecureDebugState`: the result, the store and the file. -/
def updateSecureDebugState (env : Env) (c : FileCalls) (s : XRFCStore) (file : Option StateFile) :
    Int × XRFCStore × Option StateFile :=
  let dbgServices := getValue env rfcDbgServices s
  let deviceType := getValue env rfcDeviceType dbgServices.2
  let state := stateOf dbgServices.1 deviceType.1
  match makeMutable c file with
  | .error file => (nok, deviceType.2, file)
  | .ok file =>
      let r := rewrite c state file
      (r.1, deviceType.2, r.2)

/-! ## The store with the file -/

structure Device where
  store : XRFCStore
  file : Option StateFile

section
variable (b : Build)

/-- `set_xRDKCentralComRFC`, with the handler of the two parameters. -/
def setRequest (w : World) (c : FileCalls) (m : SetMessage) (x : Device) : Int × Device :=
  let r := setStore w m x.store
  if handler b m.paramName.chars = some .secureDebug ∧ r.1 = ok then
    let u := updateSecureDebugState w.env c r.2 x.file
    (u.1, ⟨u.2.1, u.2.2⟩)
  else
    let r := setXRDKCentralComRFC b w m x.store
    (r.1, ⟨r.2, x.file⟩)

inductive Request
  | set (w : World) (c : FileCalls) (m : SetMessage)
  | get (env : Env) (name : CString)
  /-- a new process, which finds the files -/
  | restart (order : Order Text)

def step (x : Device) : Request → Device
  | .set w c m => (setRequest b w c m x).2
  | .get env name => { x with store := (getValue env name x.store).2 }
  | .restart order => { x with store := start (Env.ok order) x.store.files }

end

/-! ## Store and file -/

/-- What an initialised store says. -/
def debugState (s : XRFCStore) : Bool := stateOf (answer s rfcDbgServices.chars) (answer s rfcDeviceType.chars)

/-- The file says that secure debugging is on. -/
def shows : Option StateFile → Bool
  | some f => f.text == ['1', '\n']
  | none => false

/-- How far the writing of the file gets. -/
inductive Stage
  | untouched | emptied | written
  deriving DecidableEq

def FileCalls.stage (c : FileCalls) (file : Option StateFile) : Stage :=
  if c.openAttr ∧ (∀ f ∈ file, c.getFlags = true ∧ (f.immutable = true → c.clearFlag = true)) ∧ c.openFile then
    if c.fchmod ∧ c.fdopen ∧ c.fprintf ∧ c.fflush then .written else .emptied
  else .untouched

/-- A request after which the file and the store differ, when they agreed before it: one that writes the state and
does not get it into the file, or that changes it without writing it. -/
def Lags (b : Build) (x : Device) : Request → Prop
  | .set w c m =>
      let r := setStore w m x.store
      if handler b m.paramName.chars = some .secureDebug ∧ r.1 = ok then
        match c.stage x.file with
        | .untouched => debugState r.2 ≠ debugState x.store
        | .emptied => debugState r.2 = true
        | .written => False
      else
        (m.paramName.chars = clearParam ∨ strcasecmp m.paramName.chars clearDBEnd = true) ∧
          (r.2.initDone = false ∨ debugState r.2 ≠ debugState x.store)
  | .get _ _ => False
  | .restart order => debugState (start (Env.ok order) x.store.files) ≠ debugState x.store

/-- The invariant of a process that has loaded its store. -/
structure Agrees (x : Device) : Prop where
  initDone : x.store.initDone = true
  shown : shows x.file = debugState x.store

/-! ## The file -/

theorem shows_rewrite (c : FileCalls) (state : Bool) (file : Option StateFile) :
    shows (rewrite c state file).2 =
      if c.openFile then (if c.fchmod ∧ c.fdopen ∧ c.fprintf ∧ c.fflush then state else false) else shows file := by
  have htext : ∀ i : Bool, shows (some ⟨if state then ['1', '\n'] else ['0', '\n'], i⟩) = state := by
    intro i
    cases state <;> rfl
  unfold rewrite
  cases c.openFile with
  | false => rfl
  | true =>
      cases c.fchmod
      · rfl
      cases c.fdopen
      · rfl
      cases c.fprintf
      · rfl
      cases c.fflush
      · rfl
      cases c.getFlagsAgain
      · exact htext false
      cases c.setFlag
      · exact htext false
      · exact htext true

theorem makeMutable_eq (c : FileCalls) (file : Option StateFile) :
    if c.openAttr ∧ ∀ f ∈ file, c.getFlags = true ∧ (f.immutable = true → c.clearFlag = true) then
      ∃ f, makeMutable c file = .ok f ∧ shows f = shows file
    else makeMutable c file = .error file := by
  unfold makeMutable
  cases c.openAttr with
  | false => rfl
  | true =>
      cases file with
      | none => exact ⟨none, rfl, rfl⟩
      | some f =>
          obtain ⟨text, immutable⟩ := f
          cases c.getFlags
          · simp
          cases immutable
          · simp
          cases c.clearFlag
          · simp
          · exact ⟨some ⟨text, false⟩, rfl, rfl⟩

/-- What the file shows after the function, by how far the writing gets. -/
theorem shows_updateSecureDebugState (env : Env) (c : FileCalls) {s : XRFCStore} (hi : s.initDone = true)
    (file : Option StateFile) :
    (updateSecureDebugState env c s file).2.1 = s ∧
      shows (updateSecureDebugState env c s file).2.2 =
        match c.stage file with
        | .untouched => shows file
        | .emptied => false
        | .written => debugState s := by
  have hget : ∀ name : CString, getValue env name s = (answer s name.chars, s) := by
    intro name
    rw [getValue, init_of_done _ hi]
    rfl
  have hmut := makeMutable_eq c file
  rw [updateSecureDebugState, hget, hget]
  unfold FileCalls.stage
  split at hmut
  · next h =>
    obtain ⟨f, hf, hshows⟩ := hmut
    rw [hf]
    refine ⟨rfl, (shows_rewrite c _ f).trans ?_⟩
    by_cases ho : c.openFile = true
    · rw [if_pos ho]
      have hopen : c.openAttr = true ∧ (∀ f ∈ file, c.getFlags = true ∧ (f.immutable = true → c.clearFlag = true)) ∧
          c.openFile = true := ⟨h.1, h.2, ho⟩
      by_cases hw : c.fchmod ∧ c.fdopen ∧ c.fprintf ∧ c.fflush
      · rw [if_pos hw, if_pos hopen, if_pos hw, debugState]
      · rw [if_neg hw, if_pos hopen, if_neg hw]
    · rw [if_neg ho, if_neg fun hc => ho hc.2.2]
      exact hshows
  · next h =>
    rw [hmut]
    refine ⟨rfl, ?_⟩
    rw [if_neg fun hc => h ⟨hc.1, hc.2.1⟩]

/-! ## The two parameters -/

theorem mem_handlers_secureDebug (b : Build) :
    (rfcDbgServices.chars, Handler.secureDebug) ∈ handlers b ∧ (rfcDeviceType.chars, Handler.secureDebug) ∈ handlers b := by
  unfold handlers
  exact ⟨List.mem_append_right _ (.tail _ (.tail _ (.tail _ (.tail _ (.tail _ (.head _)))))),
    List.mem_append_right _ (.tail _ (.tail _ (.tail _ (.tail _ (.tail _ (.tail _ (.head _))))))) ⟩

/-- No other handler stands for one of the two names, and none for `ClearParam`. -/
theorem handlers_secureDebug : ∀ p ∈ handlers ⟨true, true⟩,
    strcasecmp clearParam p.1 = false ∧ (strcasecmp rfcDbgServices.chars p.1 = true → p.2 = .secureDebug) ∧
      (strcasecmp rfcDeviceType.chars p.1 = true → p.2 = .secureDebug) := by
  decide +kernel

theorem handler_clearParam (b : Build) : handler b clearParam = none :=
  handler_eq_none fun p hp => (handlers_secureDebug p hp).1

theorem handler_secureDebug (b : Build) {name : CString} (h : name = rfcDbgServices ∨ name = rfcDeviceType) :
    handler b name.chars = some .secureDebug := by
  have hself : ∀ t : Text, strcasecmp t t = true := fun t => by rw [strcasecmp, beq_self_eq_true]
  have hmem : (name.chars, Handler.secureDebug) ∈ handlers b := by
    rcases h with rfl | rfl
    · exact (mem_handlers_secureDebug b).1
    · exact (mem_handlers_secureDebug b).2
  cases hf : handler b name.chars with
  | none =>
      rw [handler, Option.map_eq_none_iff, List.find?_eq_none] at hf
      exact absurd (hself name.chars) (hf _ hmem)
  | some k =>
      obtain ⟨n, hn, hname⟩ := mem_of_handler hf
      rcases h with rfl | rfl
      · exact congrArg some ((handlers_secureDebug _ hn).2.1 hname)
      · exact congrArg some ((handlers_secureDebug _ hn).2.2 hname)

/-! ## The store -/

theorem answer_congr {s t : XRFCStore} {key : Text} (hn : nonPersistent key = false)
    (hd : t.dict.lookup key = s.dict.lookup key) (hdef : t.rfcdefaultsDict = s.rfcdefaultsDict) :
    answer t key = answer s key := by
  unfold answer getRawValue
  rw [hd, hdef, hn]
  rfl

theorem nonPersistent_secureDebug :
    nonPersistent rfcDbgServices.chars = false ∧ nonPersistent rfcDeviceType.chars = false := by
  decide +kernel

/-- The store says the same when neither of the two is set. -/
theorem debugState_congr {s t : XRFCStore} (hdef : t.rfcdefaultsDict = s.rfcdefaultsDict)
    (h : ∀ k, k = rfcDbgServices.chars ∨ k = rfcDeviceType.chars → t.dict.lookup k = s.dict.lookup k) :
    debugState t = debugState s := by
  rw [debugState, debugState, answer_congr nonPersistent_secureDebug.1 (h _ (Or.inl rfl)) hdef,
    answer_congr nonPersistent_secureDebug.2 (h _ (Or.inr rfl)) hdef]

/-- What a set can do to the main dictionary: nothing in an update. -/
structure SetDict (msg : MsgData) (s : XRFCStore) (r : FaultCode × XRFCStore) : Prop where
  initDone : r.2.initDone = true
  updating : r.2.updateInProgress = s.updateInProgress
  defaults : r.2.rfcdefaultsDict = s.rfcdefaultsDict
  dict : r.2.dict = s.dict ∨
    s.updateInProgress = false ∧ r.1 = .noFault ∧ r.2.dict = s.dict.insert msg.paramName.chars msg.value.chars

theorem setMain_dict (env : Env) (msg : MsgData) {s t : XRFCStore} (hk : msg.paramName.chars ≠ clearParam)
    (hi : t.initDone = true) (hu : t.updateInProgress = s.updateInProgress)
    (hdef : t.rfcdefaultsDict = s.rfcdefaultsDict) (hd : t.dict = s.dict) :
    SetDict msg s (setMain env msg.paramName.chars msg.value.chars t) := by
  rw [setMain]
  split
  · exact ⟨hi, hu, hdef, Or.inl hd⟩
  · unfold setRawValue
    split
    · cases env.opens.writeMain <;> exact ⟨hi, hu, hdef, Or.inl hd⟩
    · next hidle =>
      rw [hu, Bool.not_eq_true] at hidle
      rw [writeHashToFile_env env msg.value.chars hk]
      cases env.opens.writeMain with
      | false => exact ⟨hi, hu, hdef, Or.inl hd⟩
      | true =>
          have hins : t.dict.insert msg.paramName.chars msg.value.chars =
              s.dict.insert msg.paramName.chars msg.value.chars := by rw [hd]
          exact ⟨hi, hu, hdef, Or.inr ⟨hidle, rfl, hins⟩⟩

theorem setValue_dict (env : Env) (msg : MsgData) {s : XRFCStore} (hi : s.initDone = true)
    (hk : msg.paramName.chars ≠ clearParam) : SetDict msg s (setValue env msg s) := by
  rw [setValue_init env msg (by rw [init_of_done _ hi]), init_of_done _ hi, setInitialised, if_neg hk]
  split
  · unfold setNonpersist
    split <;> exact ⟨hi, rfl, rfl, Or.inl rfl⟩
  · split
    · split
      · rw [setLocal_env env msg.value.chars hk]
        cases env.opens.writeLocal with
        | false => exact ⟨hi, rfl, rfl, Or.inl rfl⟩
        | true =>
            simp only [if_true]
            split
            · exact ⟨hi, rfl, rfl, Or.inl rfl⟩
            · exact setMain_dict env msg hk hi rfl rfl rfl
      · exact ⟨hi, rfl, rfl, Or.inl rfl⟩
    · exact setMain_dict env msg hk hi rfl rfl rfl

theorem clearAll_dict (env : Env) {s : XRFCStore} (hi : s.initDone = true) :
    (clearAll env s).initDone = true ∧ (clearAll env s).updateInProgress = true ∧
      (clearAll env s).rfcdefaultsDict = s.rfcdefaultsDict ∧ (clearAll env s).dict = s.dict := by
  simp only [clearAll, init_of_done _ hi]
  cases hu : s.updateInProgress with
  | true => exact ⟨hi, hu, rfl, rfl⟩
  | false => exact ⟨hi, rfl, rfl, rfl⟩

/-- What a request that neither clears parameters nor reloads does to what the store says. -/
structure Kept (b : Build) (m : SetMessage) (s : XRFCStore) (r : Int × XRFCStore) : Prop where
  initDone : r.2.initDone = true
  updating : s.updateInProgress = true → r.2.updateInProgress = true ∧ debugState r.2 = debugState s
  unwritten : ¬(handler b m.paramName.chars = some .secureDebug ∧ r.1 = ok) → debugState r.2 = debugState s

theorem setStore_kept (b : Build) (w : World) (m : SetMessage) {s : XRFCStore} (hi : s.initDone = true)
    (hk : m.paramName.chars ≠ clearParam) (he : strcasecmp m.paramName.chars clearDBEnd = false) :
    Kept b m s (setStore w m s) := by
  unfold setStore
  split
  · split
    · obtain ⟨hdone, hu, hdef, hd⟩ := clearAll_dict w.env hi
      have hsame : debugState (clearAll w.env s) = debugState s := debugState_congr hdef fun k _ => by rw [hd]
      exact ⟨hdone, fun _ => ⟨hu, hsame⟩, fun _ => hsame⟩
    · exact ⟨hi, fun hu => ⟨hu, rfl⟩, fun _ => rfl⟩
  · rw [if_neg (by rw [he]; decide)]
    split
    · have hset := setValue_dict w.env m.stored hi hk
      refine ⟨hset.initDone, fun hu => ⟨hset.updating.trans hu, ?_⟩, fun hno => ?_⟩
      · rcases hset.dict with hd | ⟨hidle, -⟩
        · exact debugState_congr hset.defaults fun k _ => congrArg (fun d => d.lookup k) hd
        · rw [hu] at hidle
          cases hidle
      · refine debugState_congr hset.defaults fun k hkey => ?_
        rcases hset.dict with hd | ⟨-, hok, hd⟩
        · exact congrArg (fun d => d.lookup k) hd
        · have hne : k ≠ m.paramName.chars := by
            rintro rfl
            refine hno ⟨handler_secureDebug b (hkey.imp CString.ext CString.ext), ?_⟩
            exact (faultNumber_eq_ok_iff _).mpr hok
          exact (congrArg (fun d => d.lookup k) hd).trans (Finmap.lookup_insert_of_ne s.dict hne)
    · exact ⟨hi, fun hu => ⟨hu, rfl⟩, fun _ => rfl⟩

/-- The handlers leave what the store says. -/
theorem handle_kept (b : Build) (w : World) (m : SetMessage) {r : Int × XRFCStore} (hi : r.2.initDone = true) :
    (handle b w m r).2.initDone = true ∧ (handle b w m r).2.updateInProgress = r.2.updateInProgress ∧
      debugState (handle b w m r).2 = debugState r.2 := by
  have hsame : (handle b w m r).2 = r.2 ∨ handler b m.paramName.chars = some .retrieveNow ∧
      ∃ time, (handle b w m r).2 = (setValue w.again (timeMessage m time) r.2).2 := by
    unfold handle
    cases hh : handler b m.paramName.chars with
    | none => exact Or.inl rfl
    | some k =>
        cases k with
        | ms12 => exact Or.inl rfl
        | own => exact Or.inl rfl
        | interval =>
            simp only
            split <;> exact Or.inl rfl
        | secureDebug =>
            simp only
            split <;> exact Or.inl rfl
        | retrieveNow =>
            simp only [setRetrieveNow]
            split
            · exact Or.inl rfl
            · next time _ => exact Or.inr ⟨trivial, time, rfl⟩
  rcases hsame with h | ⟨hh, time, h⟩
  · rw [h]
    exact ⟨hi, rfl, rfl⟩
  · rw [h]
    have hname := strcasecmp_of_retrieveNow hh
    have hk : m.paramName.chars ≠ clearParam := by
      intro hk
      rw [hk] at hname
      revert hname
      decide +kernel
    have hset := setValue_dict w.again (timeMessage m time) hi hk
    refine ⟨hset.initDone, hset.updating, debugState_congr hset.defaults fun k hkey => ?_⟩
    rcases hset.dict with hd | ⟨-, -, hd⟩
    · rw [hd]
    · rw [hd]
      refine Finmap.lookup_insert_of_ne r.2.dict fun heq => ?_
      -- the name would have two handlers
      have hkey' : m.paramName = rfcDbgServices ∨ m.paramName = rfcDeviceType :=
        hkey.imp (fun h => CString.ext (heq.symm.trans h)) fun h => CString.ext (heq.symm.trans h)
      have htwo := handler_secureDebug b hkey'
      rw [hh] at htwo
      cases htwo

/-! ## Requests -/

/-- **One request.** -/
theorem Agrees.step_iff (b : Build) {x : Device} (h : Agrees x) (r : Request) :
    Agrees (step b x r) ↔ ¬Lags b x r := by
  cases r with
  | get env name =>
      have hstore : (getValue env name x.store).2 = x.store := by
        rw [getValue, init_of_done _ h.initDone]
      refine iff_of_true ?_ fun hl => hl
      rw [step, hstore]
      exact h
  | restart order =>
      have hdone : (start (Env.ok order) x.store.files).initDone = true := by rw [start_ok]
      rw [Lags, not_not]
      constructor
      · exact fun ha => ha.shown.symm.trans h.shown
      · exact fun hs => ⟨hdone, h.shown.trans hs.symm⟩
  | set w c m =>
      rw [step, setRequest, Lags]
      by_cases hw : handler b m.paramName.chars = some .secureDebug ∧ (setStore w m x.store).1 = ok
      · rw [if_pos hw, if_pos hw]
        have hk : m.paramName.chars ≠ clearParam ∧ strcasecmp m.paramName.chars clearDBEnd = false := by
          refine ⟨fun hk => ?_, Bool.eq_false_iff.mpr fun he => ?_⟩
          · rw [hk, handler_clearParam] at hw
            cases hw.1
          · rw [handler_congr he, handler_clearDBEnd] at hw
            cases hw.1
        have hdone := (setStore_kept b w m h.initDone hk.1 hk.2).initDone
        obtain ⟨hstore, hshows⟩ := shows_updateSecureDebugState w.env c hdone x.file
        have hagrees : Agrees (⟨(updateSecureDebugState w.env c (setStore w m x.store).2 x.file).2.1,
              (updateSecureDebugState w.env c (setStore w m x.store).2 x.file).2.2⟩ : Device) ↔
            shows (updateSecureDebugState w.env c (setStore w m x.store).2 x.file).2.2 =
              debugState (setStore w m x.store).2 := by
          rw [hstore]
          exact ⟨Agrees.shown, fun hs => ⟨hdone, hs⟩⟩
        rw [hagrees, hshows]
        cases c.stage x.file with
        | untouched => rw [h.shown, eq_comm, not_ne_iff]
        | emptied => rw [eq_comm, ← Bool.not_eq_true]
        | written => exact iff_of_true rfl fun hl => hl
      · rw [if_neg hw, if_neg hw, setXRDKCentralComRFC]
        by_cases hu : m.paramName.chars = clearParam ∨ strcasecmp m.paramName.chars clearDBEnd = true
        · have hnone : handler b m.paramName.chars = none := by
            rcases hu with hk | he
            · rw [hk, handler_clearParam]
            · rw [handler_congr he, handler_clearDBEnd]
          have hhandle : handle b w m (setStore w m x.store) = setStore w m x.store := by rw [handle, hnone]
          rw [hhandle]
          constructor
          · rintro ⟨hdone, hshown⟩ ⟨-, hl | hl⟩
            · exact Bool.false_ne_true (hl.symm.trans hdone)
            · exact hl (hshown.symm.trans h.shown)
          · intro hl
            push Not at hl
            have hl := hl hu
            exact ⟨by simpa using hl.1, h.shown.trans hl.2.symm⟩
        · push Not at hu
          have hkept := setStore_kept b w m h.initDone hu.1 (by simpa using hu.2)
          obtain ⟨hdone, -, hsame⟩ := handle_kept b w m hkept.initDone
          refine iff_of_true ⟨hdone, h.shown.trans (hsame.trans (hkept.unwritten hw)).symm⟩ fun hl => ?_
          rcases hl.1 with hk | he
          · exact hu.1 hk
          · exact hu.2 he

/-- A device without files. -/
def device : Device := ⟨start (Env.ok byKey) noFiles, none⟩

def world : World := ⟨Env.ok byKey, Env.ok byKey, none, true⟩

/-- A set of a string by the RFC manager. -/
def setString (name value : CString) (h : value.chars.length < Transport.maxParamLen) : Request :=
  .set world {} ⟨name, .plain (.string value), h, .rfc⟩

/-- The two sets that turn secure debugging on. -/
def turnOn : List Request :=
  [setString rfcDbgServices (.ofLiteral "true") (by decide), setString rfcDeviceType (.ofLiteral "TEST") (by decide)]

theorem debugState_device : debugState device.store = false := by
  have hempty : ∀ key : Text, nonPersistent key = false → answer device.store key = .error .internalError := by
    intro key hn
    rw [answer, getRawValue, hn]
    rfl
  rw [debugState, hempty _ nonPersistent_secureDebug.1]
  rfl

theorem agrees_device : Agrees device := ⟨rfl, debugState_device.symm⟩

/-! ## An update cycle -/

/-- What comes between `ClearDB` and `ClearDBEnd`: sets of any parameters but `ClearParam`, and gets. The calls on the
state file succeed. -/
def Inside : Request → Prop
  | .set _ c m => m.paramName.chars ≠ clearParam ∧ strcasecmp m.paramName.chars clearDBEnd = false ∧ c = {}
  | .get _ _ => True
  | .restart _ => False

instance : DecidablePred Inside
  | .set _ _ _ => inferInstanceAs (Decidable (_ ∧ _ ∧ _))
  | .get _ _ => inferInstanceAs (Decidable True)
  | .restart _ => inferInstanceAs (Decidable False)

/-- In an update the store goes on saying what it said before. -/
structure Updating (d : Bool) (x : Device) : Prop where
  initDone : x.store.initDone = true
  updating : x.store.updateInProgress = true
  debug : debugState x.store = d
  shown : shows x.file = d

theorem stage_ok (file : Option StateFile) : FileCalls.stage {} file = .written := by
  simp [FileCalls.stage]

theorem Updating.step (b : Build) {d : Bool} {x : Device} (h : Updating d x) {r : Request} (hr : Inside r) :
    Updating d (step b x r) := by
  cases r with
  | restart order => exact hr.elim
  | get env name =>
      have hstore : (getValue env name x.store).2 = x.store := by rw [getValue, init_of_done _ h.initDone]
      rw [SecureDebug.step, hstore]
      exact h
  | set w c m =>
      obtain ⟨hk, he, rfl⟩ := hr
      have hkept := setStore_kept b w m h.initDone hk he
      obtain ⟨hu, hsame⟩ := hkept.updating h.updating
      rw [SecureDebug.step, setRequest]
      split
      · obtain ⟨hstore, hshows⟩ := shows_updateSecureDebugState w.env {} hkept.initDone x.file
        rw [stage_ok] at hshows
        refine ⟨?_, ?_, ?_, hshows.trans (hsame.trans h.debug)⟩
        · exact (congrArg XRFCStore.initDone hstore).trans hkept.initDone
        · exact (congrArg XRFCStore.updateInProgress hstore).trans hu
        · exact (congrArg debugState hstore).trans (hsame.trans h.debug)
      · obtain ⟨hdone, hu', hsame'⟩ := handle_kept b w m hkept.initDone
        exact ⟨hdone, hu'.trans hu, hsame'.trans (hsame.trans h.debug), h.shown⟩

/-- The request that begins an update. -/
theorem updating_clearDB (b : Build) {x : Device} (h : Agrees x) (w : World) (c : FileCalls) {m : SetMessage}
    (hm : strcasecmp m.paramName.chars clearDB = true) (hv : stringToBool (getStringValue m.value).chars = true) :
    Updating (debugState x.store) (step b x (.set w c m)) := by
  have hnone : handler b m.paramName.chars = none := by rw [handler_congr hm, handler_clearDB]
  have hstore : setStore w m x.store = (ok, clearAll w.env x.store) := by rw [setStore, if_pos hm, if_pos hv]
  obtain ⟨hdone, hu, hdef, hd⟩ := clearAll_dict w.env h.initDone
  have hsame : debugState (clearAll w.env x.store) = debugState x.store := debugState_congr hdef fun k _ => by rw [hd]
  rw [step, setRequest, if_neg (by simp [hnone]), setXRDKCentralComRFC, hstore, handle, hnone]
  exact ⟨hdone, hu, hsame, h.shown⟩

end Tr69HostIf.DeviceInfo.SecureDebug
