import Tr69HostIf.HostIf
import Tr69HostIf.Store.KeyValue

/-!
# `XRFCStore`

The RFC store of `XrdkCentralComRFCStore.cpp`: three dictionaries with one file each, a read-only
dictionary of defaults, and the flag of an update between `ClearDB` and `ClearDBEnd`. `Env` holds what
one request meets outside the program: which opens succeed and in which order a hash table is iterated.
The three file names of `rfc.properties` are three slots of `Files`.
-/

namespace Tr69HostIf.RFC
open Store

/-- `TR181_CLEAR_PARAM`. -/
def clearParam : Text := "Device.DeviceInfo.X_RDKCENTRAL-COM_RFC.ClearParam".toList

/-- `TR181_RFC_NONPERSISTENT_PREFIX`. -/
def nonpersistentRoot : Text := "Device.DeviceInfo.X_RDKCENTRAL-COM_RFC.Feature.NonPersistent.".toList

/-- The files the store reads and writes. -/
structure Files where
  /-- `m_filename` -/
  main : Option Text
  /-- `m_local_filename` -/
  loc : Option Text
  /-- `TR181_STORE_NONPERSISTENT_FILE` -/
  nonpersist : Option Text
  /-- `RFCDEFAULTS_FILE` -/
  rfcdefaults : Option Text
  /-- the `.ini` files of `RFCDEFAULTS_ETC_DIR`, as `readdir` lists them -/
  rfcdefaultsDir : List Text
  /-- `/tmp/.rfcSyncDone` exists -/
  rfcSyncDone : Bool

/-- The members of `XRFCStore` and the files behind it. -/
structure XRFCStore where
  initDone : Bool
  updateInProgress : Bool
  dict : Dict Text Text
  localDict : Dict Text Text
  nonpersistDict : Dict Text Text
  rfcdefaultsDict : Dict Text Text
  files : Files

/-- Outcomes of the opens in `loadTR181PropertiesIntoCache`. -/
structure LoadOpens where
  main : Bool := true
  sem : Bool := true
  loc : Bool := true
  nonpersist : Bool := true
  rfcdefaults : Bool := true
  rfcdefaultsDir : Bool := true
  rfcdefaultsAppend : Bool := true
  rfcdefaultsAgain : Bool := true

/-- Outcomes of the opens made while one request is served. -/
structure Opens where
  load : LoadOpens := {}
  sem : Bool := true
  readLocal : Bool := true
  writeLocal : Bool := true
  writeMain : Bool := true
  writeNonpersist : Bool := true

/-- What a request meets outside the program. -/
structure Env where
  opens : Opens
  order : Order Text

/-- An environment in which every open succeeds. -/
def Env.ok (order : Order Text) : Env := ⟨{}, order⟩

/-! ## Loading -/

/-- `ifstream` on a file that may be missing or refuse to open. -/
def openRead (ok : Bool) (file : Option Text) : Option Text := if ok then file else none

/-- `loadFileToCache`: the dictionary is cleared, then filled when the file opens. -/
def loadFileToCache (ok : Bool) (file : Option Text) : Dict Text Text :=
  match openRead ok file with
  | some t => load t
  | none => ∅

/-- The loop of `init_rfcdefaults`; inserting an empty file sets the failbit of the combined file, and
nothing written after that arrives. -/
def combineDefaults (combined : Text) : List Text → Text
  | [] => combined
  | file :: rest => if file = [] then combined else combineDefaults (combined ++ file ++ ['\n']) rest

/-- `init_rfcdefaults`: the result and `RFCDEFAULTS_FILE` afterwards. -/
def initRfcdefaults (o : LoadOpens) (f : Files) : Bool × Option Text :=
  if o.rfcdefaultsDir then
    (true, if o.rfcdefaultsAppend then some (combineDefaults (f.rfcdefaults.getD []) f.rfcdefaultsDir)
      else f.rfcdefaults)
  else (false, f.rfcdefaults)

/-- `loadTR181PropertiesIntoCache`. -/
def loadTR181PropertiesIntoCache (o : LoadOpens) (s : XRFCStore) : Bool × XRFCStore :=
  let s := { s with dict := loadFileToCache o.main s.files.main }
  if o.sem then
    let s := { s with localDict := loadFileToCache o.loc s.files.loc
                      nonpersistDict := loadFileToCache o.nonpersist s.files.nonpersist }
    match openRead o.rfcdefaults s.files.rfcdefaults with
    | some t => (true, { s with rfcdefaultsDict := assign s.rfcdefaultsDict (entries t) })
    | none =>
        let r := initRfcdefaults o s.files
        let s := { s with files := { s.files with rfcdefaults := r.2 } }
        if r.1 then
          match openRead o.rfcdefaultsAgain s.files.rfcdefaults with
          | some t => (true, { s with rfcdefaultsDict := assign s.rfcdefaultsDict (entries t) })
          | none => (false, s)
        else (false, s)
  else (false, s)

/-- `init`. -/
def init (o : LoadOpens) (s : XRFCStore) : Bool × XRFCStore :=
  if s.initDone then (true, s)
  else
    let r := loadTR181PropertiesIntoCache o s
    (r.1, { r.2 with initDone := r.1 })

/-- The constructor, in a process that finds the given files. -/
def start (env : Env) (f : Files) : XRFCStore :=
  (init env.opens.load
    { initDone := false, updateInProgress := false, dict := ∅, localDict := ∅, nonpersistDict := ∅
      rfcdefaultsDict := ∅, files := f }).2

/-! ## Reading and writing -/

/-- `strstr(key, TR181_RFC_NONPERSISTENT_PREFIX) != NULL`. -/
def nonPersistent (key : Text) : Bool := decide (nonpersistentRoot <:+: key)

/-- `getRawValue`, the empty text when the parameter is not there. -/
def getRawValue (s : XRFCStore) (key : Text) : Text :=
  if nonPersistent key then
    if s.files.rfcSyncDone then (s.nonpersistDict.lookup key).getD [] else []
  else (s.dict.lookup key).getD []

/-- `writeHashToFile`: the result, the dictionary and the file. -/
def writeHashToFile (order : Order Text) (ok : Bool) (key value : Text) (dict : Dict Text Text)
    (file : Option Text) : Bool × Dict Text Text × Option Text :=
  if ok then
    let dict := if key = clearParam then dict else dict.insert key value
    (true, dict, some (render (order.enum dict)))
  else (false, dict, file)

/-- `setRawValue`. -/
def setRawValue (env : Env) (key value : Text) (s : XRFCStore) : Bool × XRFCStore :=
  if s.updateInProgress then
    if env.opens.writeMain then
      (true, { s with files := { s.files with main := some (s.files.main.getD [] ++ entryLine (key, value)) } })
    else (false, s)
  else
    let r := writeHashToFile env.order env.opens.writeMain key value s.dict s.files.main
    (r.1, { s with dict := r.2.1, files := { s.files with main := r.2.2 } })

/-- The test of `clearValue` on one key of the local store. -/
def clears (value key : Text) : Bool :=
  decide (key = value) || (decide (value.getLast? = some '.') && decide (value <:+: key))

/-- `clearValue`. -/
def clearValue (env : Env) (key value : Text) (s : XRFCStore) : FaultCode × XRFCStore :=
  if env.opens.sem then
    let s := { s with localDict := loadFileToCache env.opens.readLocal s.files.loc }
    let cleared := ((env.order.enum s.localDict).map Prod.fst).filter fun k => clears value k
    let s := { s with localDict := eraseAll s.localDict cleared, dict := eraseAll s.dict cleared }
    if cleared = [] then (.noFault, s)
    else
      let l := writeHashToFile env.order env.opens.writeLocal key value s.localDict s.files.loc
      let m := writeHashToFile env.order env.opens.writeMain key value s.dict s.files.main
      (.noFault, { s with localDict := l.2.1, dict := m.2.1
                          files := { s.files with loc := l.2.2, main := m.2.2 } })
  else (.internalError, s)

/-- The end of `setValue`: the current value is kept when it is the given one and no update is in
progress. -/
def setMain (env : Env) (key value : Text) (s : XRFCStore) : FaultCode × XRFCStore :=
  if !s.updateInProgress && decide (cStr (getRawValue s key) ≠ []) &&
      decide (cStr (getRawValue s key) = cStr value) then (.noFault, s)
  else
    let r := setRawValue env key value s
    (if r.1 then .noFault else .internalError, r.2)

/-- The `HOSTIF_SRC_WEBPA` branch of `setValue` up to the semaphore's release: the local store is
reloaded and written. -/
def setLocal (env : Env) (key value : Text) (s : XRFCStore) : Bool × XRFCStore :=
  let s := { s with localDict := loadFileToCache env.opens.readLocal s.files.loc }
  let r := writeHashToFile env.order env.opens.writeLocal key value s.localDict s.files.loc
  (r.1, { s with localDict := r.2.1, files := { s.files with loc := r.2.2 } })

/-- The branch of `setValue` for non-persistent parameters. -/
def setNonpersist (env : Env) (msg : MsgData) (s : XRFCStore) : FaultCode × XRFCStore :=
  if msg.requestor = .rfc then
    let r := writeHashToFile env.order env.opens.writeNonpersist msg.paramName.chars msg.value.chars
      s.nonpersistDict s.files.nonpersist
    (if r.1 then .noFault else .internalError,
      { s with nonpersistDict := r.2.1, files := { s.files with nonpersist := r.2.2 } })
  else (.internalError, s)

/-- `setValue` after its call of `init`. -/
def setInitialised (env : Env) (msg : MsgData) (s : XRFCStore) : FaultCode × XRFCStore :=
  let key := msg.paramName.chars
  let value := msg.value.chars
  if key = clearParam then clearValue env key value s
  else if nonPersistent key then setNonpersist env msg s
  else if msg.requestor = .webpa then
    if env.opens.sem then
      let r := setLocal env key value s
      if r.1 then
        -- while the RFC processing is going on, a local set does not touch the main store
        if r.2.updateInProgress then (.noFault, r.2) else setMain env key value r.2
      else (.internalError, r.2)
    else (.internalError, s)
  else setMain env key value s

/-- `setValue`. -/
def setValue (env : Env) (msg : MsgData) (s : XRFCStore) : FaultCode × XRFCStore :=
  let r := init env.opens.load s
  if r.1 then setInitialised env msg r.2 else (.internalError, r.2)

/-- The answer of `getValue` in an initialised store: the value put into the message, or the fault. -/
def answer (s : XRFCStore) (key : Text) : Except FaultCode Text :=
  let raw := getRawValue s key
  if raw ≠ [] then .ok (cStr raw)
  else match s.rfcdefaultsDict.lookup key with
    | some raw => if raw ≠ [] then .ok (cStr raw) else .error .internalError
    | none => .error .internalError

/-- `getValue`. -/
def getValue (env : Env) (name : CString) (s : XRFCStore) : Except FaultCode Text × XRFCStore :=
  let r := init env.opens.load s
  (if r.1 then answer r.2 name.chars else .error .internalError, r.2)

/-! ## The update cycle -/

/-- `clearAll`: both files are truncated, the dictionaries stay. -/
def clearAll (env : Env) (s : XRFCStore) : XRFCStore :=
  let r := init env.opens.load s
  let s := r.2
  if !r.1 then s
  else if s.updateInProgress then s
  else
    { s with updateInProgress := true
             files := { s.files with
               main := if env.opens.writeMain then some [] else s.files.main
               nonpersist := if env.opens.writeNonpersist then some [] else s.files.nonpersist } }

/-- The loop of `reloadCache` that copies the local settings a main dictionary does not hold. -/
def copyLocal (order : Order Text) (dict localDict : Dict Text Text) : Dict Text Text :=
  insertMissing dict (order.enum localDict)

/-- `reloadCache`. -/
def reloadCache (env : Env) (s : XRFCStore) : XRFCStore :=
  if s.updateInProgress then
    let r := loadTR181PropertiesIntoCache env.opens.load s
    let dict := copyLocal env.order r.2.dict r.2.localDict
    { r.2 with initDone := r.1, updateInProgress := false, dict := dict
               files := { r.2.files with
                 main := if env.opens.writeMain then some (render (env.order.enum dict)) else r.2.files.main } }
  else s

/-! ## Requests -/

/-- What reaches the store: its public functions, and a new process on the same files. -/
inductive Request
  | setValue (msg : MsgData)
  | getValue (name : CString)
  | clearAll
  | reloadCache
  | restart

/-- The store after one request. -/
def serve (env : Env) (s : XRFCStore) : Request → XRFCStore
  | .setValue msg => (setValue env msg s).2
  | .getValue name => (getValue env name s).2
  | .clearAll => clearAll env s
  | .reloadCache => reloadCache env s
  | .restart => start env s.files

/-- One step of a run in which every open succeeds; the iteration order is the step's own. -/
def step (s : XRFCStore) (i : Order Text × Request) : XRFCStore := serve (Env.ok i.1) s i.2

end Tr69HostIf.RFC
