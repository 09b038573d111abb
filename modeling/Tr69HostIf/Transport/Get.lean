import Tr69HostIf.Transport.Report
import Tr69HostIf.Transport.Set

/-!
# The GET paths

`handleRequest` of `request_handler.cpp` for GET lists, `GetParamInfo` of `webpa_parameter.cpp` and
`TR_Dml_GetHandler` of `hostIf_rbus_Dml_Provider.cpp`. The lookup is `getParamInfoFromDataModel`; the expansion of
a wildcard, the RFC variable store and the handlers are arguments.

* `httpGet` : the loop over the names, with `dataType` and `rfcParam` kept from one round to the next (`LoopState`);
* `getParamInfo` : WebPA's answer, with one message for all children of a wildcard;
* `trDmlGetHandler` : the rbus value;
* `Behaviour` : handlers that are functions of name, type, requestor and bootstrap level.
-/

namespace Tr69HostIf.Transport
open Store Clib Waldb

/-- `hostIf_GetMsgHandler`: the result and the message afterwards. -/
abbrev GetHandler := Message → Int × Message

/-- A handler that is a function of four fields of the message and returns a value or a fault. -/
abbrev Behaviour := CString → ParamType → SourceType → SourceType → Except FaultCode Value

/-- The handler of a behaviour; `NOK` is -1. -/
def Behaviour.handler (b : Behaviour) : GetHandler := fun m =>
  match b m.paramName m.paramtype m.requestor m.bsUpdate with
  | .ok v => (0, m.answered v)
  | .error f => (-1, { m with faultCode := f })

/-- The message of a GET with zeroed buffers. -/
def getMessage (name : CString) (type : ParamType) (requestor bsUpdate : SourceType) : Message where
  paramName := name
  paramtype := type
  paramValue := .zero
  paramValueLong := none
  requestor := requestor
  bsUpdate := bsUpdate
  faultCode := .noFault

/-! ## The HTTP server -/

/-- A `param_t` of a response. -/
structure HttpParam where
  name : CString
  value : Option Text
  type : DataType

/-- What `handleRequest` returns for one name. -/
structure HttpSlot where
  params : List HttpParam
  status : WdmpStatus

/-- The variables of `handleRequest` outside the loop. -/
structure LoopState where
  dataType : DataType
  rfcParam : Bool

/-- Their initial values. -/
def LoopState.init : LoopState := ⟨.none, false⟩

/-- `MAX_PARAMETERNAME_LEN`. -/
def maxParameterNameLen : Nat := 256

section
variable (handler : GetHandler) (callerID : Text)

/-- `invokeHostIfAPI` for a GET: the value and the status. -/
def invokeGet (name : CString) (type : DataType) (bsUpdate : SourceType) : Text × WdmpStatus :=
  let r := handler (getMessage (copyName name) (getHostIfParamType type) (requestorOf callerID) bsUpdate)
  if r.1 = 0 then
    if r.2.faultCode = .noFault then (getStringValue r.2.paramtype r.2.paramValue, .success) else ([], .failure)
  else if r.1 = fcInvalidParameterValue then ([], .errInvalidParameterValue)
  else ([], .errInternalError)

variable (varStore : Text → Text)

/-- `handleRFCRequest` for a GET. -/
def handleRFCGet (name : Text) : Text × WdmpStatus :=
  (varStore name, if varStore name = [] then .errValueIsNull else .success)

/-- The default value in place of a failed GET. -/
def orDefault (default : Option Text) (r : Text × WdmpStatus) : Text × WdmpStatus :=
  if r.2 = .success then r
  else match default with
    | some d => (d, .errDefaultValue)
    | none => (r.1, .errValueIsEmpty)

variable (stray : Stray) (dm : DataModel) (expand : CString → Option (List (CString × Text)))

/-- A child of a wildcard: the parameter returned, and whether its GET succeeded. -/
def httpChild (c : CString × Text) : HttpParam × Bool :=
  let r := invokeGet handler callerID c.1 (getWdmpDataType c.2) .none
  (⟨c.1, some r.1, getWdmpDataType c.2⟩, r.2 = .success)

/-- One round of the GET loop of `handleRequest`. -/
def httpGetSlot (s : LoopState) (name : CString) : Except SetFault (HttpSlot × LoopState) :=
  if maxParameterNameLen < name.chars.length then
    .ok (⟨[⟨name, none, .none⟩], .errInvalidParameterName⟩, s)
  else if isWildCardParam name.chars then
    match expand name with
    | some children =>
        .ok (⟨children.map fun c => (httpChild handler callerID c).1,
          if children.all fun c => (httpChild handler callerID c).2 then .success else .errValueIsEmpty⟩, s)
    | none => .ok (⟨[⟨name, some [], .none⟩], .errInvalidParameterName⟩, s)
  else if isRfcVariable name.chars then
    let r := orDefault none (handleRFCGet varStore name.chars)
    .ok (⟨[⟨name, some r.1, .string⟩], r.2⟩, ⟨.string, true⟩)
  else match lookup stray dm name.chars with
    | .error f => .error f
    | .ok none => .ok (⟨[⟨name, some [], s.dataType⟩], .errInvalidParameterName⟩, s)
    | .ok (some info) =>
        let type := (info.dataType.map getWdmpDataType).getD s.dataType
        let r := orDefault info.defaultValue
          (if s.rfcParam then handleRFCGet varStore name.chars
            else invokeGet handler callerID name type (getBSUpdateEnum info.bsUpdate))
        .ok (⟨[⟨name, some r.1, type⟩], r.2⟩, ⟨type, s.rfcParam⟩)

/-- The rounds that remain. -/
def httpGetFrom : LoopState → List CString → Except SetFault (List HttpSlot)
  | _, [] => .ok []
  | s, name :: names =>
      match httpGetSlot handler callerID varStore stray dm expand s name with
      | .error f => .error f
      | .ok (slot, s) =>
          match httpGetFrom s names with
          | .error f => .error f
          | .ok slots => .ok (slot :: slots)

/-- `handleRequest` for a GET list. -/
def httpGet (names : List CString) : Except SetFault (List HttpSlot) :=
  httpGetFrom handler callerID varStore stray dm expand .init names

end

/-! ## WebPA -/

/-- `snprintf(s, TR69HOSTIFMGR_MAX_PARAM_LEN, "%s", s)`: C leaves open what becomes of a string printed over itself. -/
structure SelfPrint where
  print : CString → CString
  fits : ∀ s, (print s).chars.length < maxParamLen

/-- `paramValueToString` with the message's own buffer as the destination. -/
def paramValueToString (selfPrint : SelfPrint) (type : ParamType) (b : Buffer) : Text :=
  match type with
  | .string | .dateTime => (selfPrint.print b.cString).chars
  | .integer => printInt b.getInt.toInt
  | .unsignedInt => printNat b.getUint.toNat
  | .boolean => if b.getBoolean then "true".toList else "false".toList
  | .unsignedLong => printNat b.getUlong.toNat

/-- A message into which `get_ParamValues_tr69hostIf` has put a default value: the text is copied into the
buffer, and the buffer is then rendered over itself. -/
def Message.defaulted (selfPrint : SelfPrint) (m : Message) (d : Text) : Message :=
  { m with paramValue :=
      (Buffer.zero.putString d).putString (paramValueToString selfPrint m.paramtype (Buffer.zero.putString d)) }

/-- `get_ParamValues_tr69hostIf`: the message, or the status. -/
def getParamValues (selfPrint : SelfPrint) (handler : GetHandler) (m : Message) (default : Option Text) : Except WalStatus Message :=
  let r := handler m
  if r.1 = 0 then .ok r.2
  else match default with
    | some d => .ok (r.2.defaulted selfPrint d)
    | none => .error (convertFaultCodeToWalStatus r.2.faultCode)

/-- A `param_t` of a WebPA response. -/
structure WebpaParam where
  name : CString
  value : Text
  type : DataType

/-- The `param_t` made of an answered message. -/
def webpaParam (m : Message) : WebpaParam := ⟨m.paramName, webpaValue m, converttoWalType m.paramtype⟩

/-- The loop over the children of a wildcard: `Param` goes from one round to the next, and is cleared only
after a success. -/
def wildcardLoop (handler : GetHandler) : Message → List (CString × Text) → List WebpaParam
  | _, [] => []
  | param, c :: children =>
      let r := handler { param with paramName := copyName c.1, paramtype := converttohostIfType c.2 }
      if r.1 = 0 then webpaParam r.2 :: wildcardLoop handler .cleared children
      else wildcardLoop handler r.2 children

/-- What `GetParamInfo` does with a name. -/
inductive GetAnswer
  | answered (params : List WebpaParam) (status : WalStatus)
  | forwarded

/-- `GetParamInfo`; `handle` is the data model, if it is loaded. -/
def getParamInfo (selfPrint : SelfPrint) (stray : Stray) (handler : GetHandler) (expand : CString → Option (List (CString × Text)))
    (handle : Option DataModel) (name : CString) : Except SetFault GetAnswer :=
  match handle with
  | none => .ok .forwarded
  | some dm =>
      if isWildCardParam name.chars then
        match expand name with
        | none | some [] => .ok .forwarded
        | some children => .ok (.answered (wildcardLoop handler .cleared children) .success)
      else match lookup stray dm name.chars with
        | .error f => .error f
        | .ok none => .ok .forwarded
        | .ok (some info) =>
            match getParamValues selfPrint handler
                (getMessage (copyName name) (hostIfType info) .webpa (getBSUpdateEnum info.bsUpdate)) info.defaultValue with
            | .ok m => .ok (.answered [webpaParam m] .success)
            | .error status => .ok (.answered [] status)

/-! ## rbus -/

/-- `string_to_bool`. -/
def stringToBool (t : Text) : Bool := strcasecmp t "true".toList || t = "1".toList

/-- The value that `TR_Dml_GetHandler` makes of a default. -/
def rbusDefault (type : ParamType) (d : Text) : RbusValue :=
  match type with
  | .integer => .int32 (Int32.ofInt (strtol d).1)
  | .boolean => .boolean (stringToBool d)
  | .unsignedInt => .uint32 (UInt32.ofNat (strtoul d).1)
  | .unsignedLong => .uint64 (UInt64.ofNat (strtoul d).1)
  | .string | .dateTime => .string d

/-- `TR_Dml_GetHandler` for a name. -/
def trDmlGetHandler (stray : Stray) (handler : GetHandler) (handle : Option DataModel) (name : CString) :
    Except SetFault (Except RbusError RbusValue) :=
  match handle with
  | none => .ok (.error .destinationResponseFailure)
  | some dm =>
      match lookup stray dm name.chars with
      | .error f => .error f
      | .ok none => .ok (.error .invalidInput)
      | .ok (some info) =>
          match info.dataType with
          | none => .ok (.error .invalidInput)
          | some t =>
              let r := handler (getMessage (copyName name) (convert2hostIfDataType t) .webpa (getBSUpdateEnum info.bsUpdate))
              if r.1 = 0 ∧ r.2.faultCode = .noFault then .ok (.ok (rbusValue r.2))
              else match info.defaultValue with
                | some d => .ok (.ok (rbusDefault r.2.paramtype d))
                | none => .ok (.error (if r.2.faultCode = .invalidParameterName then .elementDoesNotExist else .busError))

end Tr69HostIf.Transport
