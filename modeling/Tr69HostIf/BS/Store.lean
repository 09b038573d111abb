import Tr69HostIf.BS.Journal

/-!
# `XBSStore`

The bootstrap store of `XrdkCentralComBSStore.cpp`: the active values, their file and the journal behind
them. `World` is what a request meets outside the program: the parsed partner and device configurations,
the partner id the script prints, the clock, `/version.txt` and the iteration orders of the two hash tables;
`Env` adds which opens succeed. A JSON object is the list of its items as `cJSON` keeps them; the `c_str()`
of an item is a `CString`. The built-in partner id (`USE_BUILTIN_PARTNER_ID`) is not compiled in.
-/

namespace Tr69HostIf.BS
open Store

/-- `TR181_PARTNER_ID_KEY`. -/
def partnerIdKey : Text := "Device.DeviceInfo.X_RDKCENTRAL-COM_Syndication.PartnerId".toList

/-- `BS_CLEAR_DB_START`. -/
def clearDbStart : Text := "Device.DeviceInfo.X_RDKCENTRAL-COM_RFC.Bootstrap.Control.ClearDB".toList

/-- `BS_CLEAR_DB_END`. -/
def clearDbEnd : Text := "Device.DeviceInfo.X_RDKCENTRAL-COM_RFC.Bootstrap.Control.ClearDBEnd".toList

/-! ## Partner configurations -/

/-- The items of a JSON object with string values. -/
abbrev Items := List (CString × CString)

/-- The value of a partner in `partners_defaults.json`. -/
inductive PartnerJson
  | object (items : Items)
  | scalar

/-- `partners_defaults_device.json`: missing, not parsable, or the partners it lists. -/
inductive DeviceJson
  | missing
  | invalid
  | root (partners : List (CString × PartnerJson))

/-- A text as `strcasecmp` compares it. -/
def foldCase (t : Text) : Text := t.map Char.toLower

/-- `cJSON_GetObjectItem`: the first item whose name agrees up to case. -/
def getObjectItem {α : Type} (obj : List (CString × α)) (name : Text) : Option α :=
  (obj.find? fun p => decide (foldCase p.1.chars = foldCase name)).map Prod.snd

/-- `cJSON_ReplaceItemInObject`: the new item takes the place of the first one of that name up to case. -/
def replaceItem (key value : CString) : Items → Items
  | [] => []
  | p :: l => if foldCase p.1.chars = foldCase key.chars then (key, value) :: l else p :: replaceItem key value l

/-- One turn of the loop of `getPartnerDeviceConfig`. -/
def overlayItem (config : Items) (p : CString × CString) : Items :=
  if (getObjectItem config p.1.chars).isSome then replaceItem p.1 p.2 config else config ++ [p]

/-- The item of a partner, else the item `default`. -/
def getPartner (root : List (CString × PartnerJson)) (partnerId : Text) : Option PartnerJson :=
  (getObjectItem root partnerId).or (getObjectItem root "default".toList)

/-- `getPartnerDeviceConfig`: the configuration with the device's items on top, `none` on a parse error. -/
def getPartnerDeviceConfig (device : DeviceJson) (partnerId : Text) (config : Items) : Option Items :=
  match device with
  | .missing => some config
  | .invalid => none
  | .root partners =>
      match getPartner partners partnerId with
      | some (.object items) => some (items.foldl overlayItem config)
      | _ => some config

/-- What a request meets outside the program. -/
structure World where
  order : Order Text
  journalOrder : Order Text
  now : Tm
  version : Option Text
  /-- the output of `get_PartnerId_From_Script` -/
  partnerId : CString
  /-- the parsed `partners_defaults.json`, `none` when it does not parse -/
  partners : Option (List (CString × PartnerJson))
  device : DeviceJson

/-- Outcomes of the opens made while one request is served. -/
structure Opens where
  readStore : Bool := true
  writeStore : Bool := true
  readJournal : Bool := true
  writeJournal : Bool := true

/-- The world and the outcomes of the opens. -/
structure Env where
  world : World
  opens : Opens

/-- The world in which every open succeeds. -/
def World.ok (w : World) : Env := ⟨w, {}⟩

/-- What `loadFromJson` makes of the JSON files: an error, a partner that is not an object, or the items to
load. -/
inductive Config
  | failed
  | skipped
  | items (l : Items)

/-- The partner whose configuration is loaded. -/
def World.bootPartnerId (w : World) : Text :=
  if w.partnerId.chars = [] then "default_boot".toList else w.partnerId.chars

/-- The first half of `loadFromJson`. -/
def World.config (w : World) : Config :=
  match w.partners.bind fun root => getPartner root w.bootPartnerId with
  | none => .failed
  | some .scalar => .skipped
  | some (.object items) =>
      match getPartnerDeviceConfig w.device w.bootPartnerId items with
      | none => .failed
      | some l => .items l

/-! ## The store -/

/-- The members of `XBSStore` and the file behind it. -/
structure XBSStore where
  initDone : Bool
  initialUpdate : Bool
  rfcUpdateInProgress : Bool
  dict : Dict Text Text
  file : Option Text
  journal : XBSStoreJournal

/-- `getRawValue`, the empty text when the parameter is not there. -/
def getRawValue (s : XBSStore) (key : Text) : Text := (s.dict.lookup key).getD []

/-- The call of `setJournalValue` on the store's journal. -/
def setJournal (env : Env) (key value : Text) (sourceType : SourceType) (s : XBSStore) : XBSStore :=
  { s with journal :=
      (setJournalValue env.world.journalOrder env.opens.writeJournal env.world.now key value sourceType s.journal).2 }

/-- `setRawValue`. -/
def setRawValue (env : Env) (key value : Text) (sourceType : SourceType) (s : XBSStore) : Bool × XBSStore :=
  if s.initialUpdate then
    if env.opens.writeStore then
      let s := { s with dict := s.dict.insert key value, file := some (s.file.getD [] ++ entryLine (key, value)) }
      (true, setJournal env key value sourceType s)
    else (false, s)
  else if cStr (getRawValue s key) ≠ [] ∧ cStr (getRawValue s key) = cStr value then
    -- the journal gets the latest source, so that a less favoured one does not override the value later
    (true, if sourceType ≠ getJournalSource s.journal key then setJournal env key value sourceType s else s)
  else if sourceType = .default ∧
      (getJournalSource s.journal key = .rfc ∨ getJournalSource s.journal key = .webpa) then
    (true, setJournal env key value sourceType s)
  else if env.opens.writeStore then
    let dict := s.dict.insert key value
    let s := { s with dict := dict, file := some (render (env.world.order.enum dict)) }
    (true, setJournal env key value sourceType s)
  else (false, s)

/-- The test of the removal loop of `loadFromJson` on one key of the store. -/
def removable (config : Items) (j : XBSStoreJournal) (key : Text) : Bool :=
  !(getObjectItem config (cStr key)).isSome && decide (key ≠ partnerIdKey) && decide (getJournalSource j key = .default)

/-- The keys the removal loop erases from the store and from the journal. -/
def removedKeys (order : Order Text) (config : Items) (s : XBSStore) : List Text :=
  ((order.enum s.dict).map Prod.fst).filter (removable config s.journal)

/-- Both `m_initialUpdate` members. -/
def setInitialUpdate (b : Bool) (s : XBSStore) : XBSStore :=
  { s with initialUpdate := b, journal := { s.journal with initialUpdate := b } }

/-- The loop of `loadFromJson` over the items. -/
def loadItems (env : Env) (config : Items) (s : XBSStore) : XBSStore :=
  config.foldl (fun s p => (setRawValue env p.1.chars p.2.chars .default s).2) s

/-- The removal of the parameters that a firmware update dropped: the result and the store. -/
def removeDropped (env : Env) (config : Items) (s : XBSStore) : Bool × XBSStore :=
  let removed := removedKeys env.world.order config s
  let dict := eraseAll s.dict removed
  let s := { s with dict := dict, journal := { s.journal with dict := eraseAll s.journal.dict removed } }
  if removed = [] then (true, s)
  else if env.opens.writeStore then
    (true, { s with file := some (render (env.world.order.enum dict))
                    journal := rfcUpdateEnd env.world.journalOrder env.opens.writeJournal s.journal })
  else (false, s)

/-- `loadFromJson`. -/
def loadFromJson (env : Env) (s : XBSStore) : Bool × XBSStore :=
  match env.world.config with
  | .failed => (false, s)
  | .skipped => (true, s)
  | .items config =>
      let s := if env.opens.readStore && s.file.isSome then s else setInitialUpdate true s
      let r := removeDropped env config s
      if r.1 then (true, setInitialUpdate false (loadItems env config r.2)) else (false, r.2)

/-- `loadBSPropertiesIntoCache`. -/
def loadBSPropertiesIntoCache (env : Env) (s : XBSStore) : Bool × XBSStore :=
  loadFromJson env { s with dict := if env.opens.readStore then load (s.file.getD []) else ∅ }

/-- `init`. -/
def init (env : Env) (s : XBSStore) : Bool × XBSStore :=
  if s.initDone then (true, s)
  else
    let r := loadBSPropertiesIntoCache env s
    (r.1, { r.2 with initDone := r.1 })

/-- A new process that finds the two files. -/
def start (env : Env) (file journalFile : Option Text) : XBSStore :=
  (init env
    { initDone := false, initialUpdate := false, rfcUpdateInProgress := false, dict := ∅, file := file
      journal := .start env.world.version env.opens.readJournal journalFile }).2

/-- One turn of the first loop of `clearRfcValues`. -/
def clearRfcKey (s : Dict Text Text × XBSStoreJournal) (key : Text) : Dict Text Text × XBSStoreJournal :=
  match clearRfcAndGetDefaultValue key s.2 with
  | (some v, j) => (s.1.insert key v, j)
  | (none, j) => (s.1, j)

/-- `clearRfcValues`. -/
def clearRfcValues (env : Env) (s : XBSStore) : XBSStore :=
  if env.opens.writeStore then
    let r := ((env.world.order.enum s.dict).map Prod.fst).foldl clearRfcKey (s.dict, s.journal)
    { s with dict := r.1, journal := r.2, file := some (render (env.world.order.enum r.1)) }
  else s

/-- The branch of `overrideValue` for `BS_CLEAR_DB_START`. -/
def clearDb (env : Env) (s : XBSStore) : XBSStore :=
  { s with rfcUpdateInProgress := true, journal := rfcUpdateStarted env.world.journalOrder s.journal }

/-- The branch of `overrideValue` for `BS_CLEAR_DB_END`. -/
def clearDbDone (env : Env) (s : XBSStore) : XBSStore :=
  let s := clearRfcValues env s
  { s with journal := rfcUpdateEnd env.world.journalOrder env.opens.writeJournal s.journal
           rfcUpdateInProgress := false }

/-- The rest of `overrideValue`. -/
def setOverride (env : Env) (msg : MsgData) (s : XBSStore) : Bool × XBSStore :=
  let s := if s.rfcUpdateInProgress then { s with journal := resetClearRfc msg.paramName.chars s.journal } else s
  setRawValue env msg.paramName.chars msg.value.chars msg.requestor s

/-- `overrideValue`. -/
def overrideValue (env : Env) (msg : MsgData) (s : XBSStore) : FaultCode × XBSStore :=
  let r := init env s
  if r.1 then
    if foldCase msg.paramName.chars = foldCase clearDbStart then (.noFault, clearDb env r.2)
    else if foldCase msg.paramName.chars = foldCase clearDbEnd then (.noFault, clearDbDone env r.2)
    else
      let t := setOverride env msg r.2
      (if t.1 then .noFault else .internalError, t.2)
  else (.internalError, r.2)

/-- `getValue`: the value put into the message, or the fault. -/
def getValue (env : Env) (name : CString) (s : XBSStore) : Except FaultCode Text × XBSStore :=
  let s := (init env s).2
  let raw := getRawValue s name.chars
  (if raw ≠ [] then .ok (cStr raw) else .error .internalError, s)

/-- `XBSStore::resetCacheAndStore`. -/
def resetCacheAndStore (s : XBSStore) : XBSStore := { s with dict := ∅, file := none, journal := s.journal.reset }

/-- What `getAuthServicePartnerID` does when the partner id file has been written. -/
def partnerIdUpdated (env : Env) (s : XBSStore) : XBSStore :=
  let newPartnerId := env.world.partnerId.chars
  if newPartnerId ≠ [] ∧ newPartnerId ≠ getRawValue s partnerIdKey then
    (loadFromJson env (setRawValue env partnerIdKey newPartnerId .default s).2).2
  else s

/-! ## Requests -/

/-- What reaches the store. -/
inductive Request
  | overrideValue (msg : MsgData)
  | getValue (name : CString)
  | loadFromJson
  | partnerIdUpdated
  | resetCacheAndStore
  | restart

/-- The store after one request. -/
def serve (env : Env) (s : XBSStore) : Request → XBSStore
  | .overrideValue msg => (overrideValue env msg s).2
  | .getValue name => (getValue env name s).2
  | .loadFromJson => (loadFromJson env s).2
  | .partnerIdUpdated => partnerIdUpdated env s
  | .resetCacheAndStore => resetCacheAndStore s
  | .restart => start env s.file s.journal.file

/-- One step of a run in which every open succeeds. -/
def step (s : XBSStore) (i : World × Request) : XBSStore := serve i.1.ok s i.2

end Tr69HostIf.BS
