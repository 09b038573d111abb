import Tr69HostIf.Transport.Literal
import Tr69HostIf.Waldb.DataModel

/-!
# The SET paths

The three ways a SET reaches `hostIf_SetMsgHandler`: `handleRequest` of `request_handler.cpp` with
`validateAgainstDataModel` and `invokeHostIfAPI`, `SetParamInfo` of `webpa_parameter.cpp`, and
`TR_Dml_SetHandler` of `hostIf_rbus_Dml_Provider.cpp`. An answer says which message, if any, was handed to the
handler, and the status the client gets.

* `getWdmpDataType`, `getHostIfParamType`, `converttohostIfType`, `converttoWalType`,
  `convertRbus2hostIfDataType` : the type mappings of the three;
* `httpSet`, `setParamInfo`, `trDmlSetHandler` : one parameter of a request.
-/

namespace Tr69HostIf.Transport
open Store Clib Waldb

/-! ## Types -/

/-- `getWdmpDataType`. -/
def getWdmpDataType (dmParamDataType : Text) : DataType :=
  if dmParamDataType = "string".toList then .string
  else if dmParamDataType = "boolean".toList then .boolean
  else if dmParamDataType = "unsignedInt".toList then .uint
  else if dmParamDataType = "int".toList then .int
  else if dmParamDataType = "unsignedLong".toList then .ulong
  else if dmParamDataType = "dataTime".toList then .dateTime
  else .none

/-- `getHostIfParamType`. -/
def getHostIfParamType : DataType → ParamType
  | .string => .string
  | .int => .integer
  | .uint | .ulong => .unsignedInt
  | .boolean => .boolean
  | .dateTime => .dateTime
  | .base64 | .long | .float | .double | .byte | .none | .blob => .string

/-- `converttohostIfType`. -/
def converttohostIfType (paramDataType : Text) : ParamType :=
  if paramDataType = "string".toList then .string
  else if paramDataType = "unsignedInt".toList then .unsignedInt
  else if paramDataType = "int".toList then .integer
  else if paramDataType = "unsignedLong".toList then .unsignedLong
  else if paramDataType = "boolean".toList then .boolean
  else if paramDataType = "hexBinary".toList then .string
  else .string

/-- `convert2hostIfDataType`, the same chain in the rbus provider. -/
def convert2hostIfDataType (paramDataType : Text) : ParamType := converttohostIfType paramDataType

/-- `converttoWalType`. -/
def converttoWalType : ParamType → DataType
  | .string => .string
  | .unsignedInt => .uint
  | .integer => .int
  | .boolean => .boolean
  | .unsignedLong => .ulong
  | .dateTime => .dateTime

/-- `getBSUpdateEnum`. -/
def getBSUpdateEnum : Option Text → SourceType
  | none => .none
  | some bsUpdate =>
      if strcasecmp bsUpdate "allUpdate".toList then .all
      else if strcasecmp bsUpdate "rfcUpdate".toList then .rfc
      else if strcasecmp bsUpdate "default".toList then .default
      else .none

/-- `access != NULL && !strcasecmp(access, "readOnly")`. -/
def readOnly (info : DataModelParam) : Bool :=
  match info.access with
  | none => false
  | some access => strcasecmp access "readOnly".toList

/-- The type field of a zeroed message after the data model's type, if there is one, has been converted. -/
def hostIfType (info : DataModelParam) : ParamType :=
  match info.dataType with
  | none => .string
  | some t => converttohostIfType t

/-- What stays of a name in the `paramName` of a message. -/
def copyName (name : CString) : CString where
  chars := name.chars.take (maxParamLen - 1)
  noNul h := name.noNul (List.mem_of_mem_take h)

/-! ## Values -/

/-- `isdigit(t[0])`. -/
def startsDigit : Text → Bool
  | [] => false
  | c :: _ => c.isDigit

/-- `strncasecmp(value, "TRUE", 4) == 0 || (isdigit(value[0]) && value[0] != '0')`. -/
def truthOf (value : Text) : Bool :=
  strcasecmp (value.take 4) "TRUE".toList || (startsDigit value && value.head? ≠ some '0')

/-- `convertAndAssignParamValue`; the rbus provider has the same `switch`. -/
def convertAndAssignParamValue (paramtype : ParamType) (value : Text) (b : Buffer) : Buffer :=
  match paramtype with
  | .string | .dateTime => b.putString value
  | .integer | .unsignedInt => b.putInt (Int32.ofInt (strtol value).1)
  | .unsignedLong => b.putUlong (Int64.ofInt (strtol value).1).toUInt64
  | .boolean => b.putBoolean (truthOf value)

/-- What stops a request without an answer: a buffer of the data-model lookup or `paramName` overflows, or
`stoi` or `stoul` throws. -/
inductive SetFault
  | overflow
  | outOfRange

/-- `stoi`: whether the whole text was read. -/
def stoi (t : Text) : Except SetFault Bool :=
  if -2 ^ 31 ≤ (strtol t).1 ∧ (strtol t).1 < 2 ^ 31 then .ok ((strtol t).2 = []) else .error .outOfRange

/-- `stoul` on a text that starts with a digit: whether the whole text was read. -/
def stoul (t : Text) : Except SetFault Bool :=
  if natOf (t.takeWhile Char.isDigit) < 2 ^ 64 then .ok ((strtoul t).2 = []) else .error .outOfRange

/-- `isdigit(t[0]) || (t[0] == '-' && isdigit(t[1]))`. -/
def startsInteger (t : Text) : Bool := startsDigit t || (t.head? = some '-' && startsDigit t.tail)

/-- `validateParamValue`. -/
def validateParamValue (value : Text) : ParamType → Except SetFault Bool
  | .string | .dateTime => .ok (value.length ≤ maxParamLen)
  | .integer => if startsInteger value then stoi value else .ok false
  | .unsignedInt | .unsignedLong => if startsDigit value then stoul value else .ok false
  | .boolean => .ok (boolOf value).isSome

/-! ## The HTTP server -/

/-- `WDMP_STATUS`, as far as `handleRequest` returns it. -/
inductive WdmpStatus
  | success | failure | errInvalidParameterName | errInvalidParameterType | errInvalidParameterValue
  | errNotWritable | errValueIsEmpty | errValueIsNull | errDefaultValue | errWildcardNotSupported
  | errMethodNotSupported | errInternalError
  deriving DecidableEq

/-- What a handler returns for a SET: its result and the fault code it leaves in the message. -/
structure SetReply where
  result : Int
  faultCode : FaultCode

/-- `fcInvalidParameterValue`. -/
def fcInvalidParameterValue : Int := 9007

/-- A `param_t` of a SET request. -/
structure SetParam where
  name : CString
  type : DataType
  value : Option CString

/-- What became of one parameter: the message handed over, if any, and the status. -/
structure SetAnswer (σ : Type) where
  handed : Option Message
  status : σ

/-- `DEVICE_REBOOT_PARAM`. -/
def deviceRebootParam : Text := "Device.X_CISCO_COM_DeviceControl.RebootDevice".toList

/-- `XRFC_VAR_STORE_RELOADCACHE`. -/
def reloadCacheParam : Text := "RFC_CONTROL_RELOADCACHE".toList

/-- An RFC variable: `RFC_` in front and no dot. -/
def isRfcVariable (name : Text) : Bool := "RFC_".toList.isPrefixOf name && !name.contains '.'

/-- The requestor of a caller. -/
def requestorOf (callerID : Text) : SourceType := if callerID = "rfc".toList then .rfc else .webpa

/-- The status of `invokeHostIfAPI`. -/
def statusOf (r : SetReply) : WdmpStatus :=
  if r.result = 0 then if r.faultCode = .noFault then .success else .failure
  else if r.result = fcInvalidParameterValue then .errInvalidParameterValue
  else .errInternalError

section
variable (stray : Stray) (dm : DataModel) (handler : Message → SetReply)

/-- `getParamInfoFromDataModel`, whose overflow ends the request. -/
def lookup (name : Text) : Except SetFault (Option DataModelParam) :=
  match getParamInfoFromDataModel stray dm name with
  | .ok info => .ok info
  | .error .overflow => .error .overflow

/-- `validateAgainstDataModel` for a SET with a value: the bootstrap update level, or the status. -/
def validateAgainstDataModel (name : Text) (type : DataType) : Except SetFault (Except WdmpStatus SourceType) :=
  match lookup stray dm name with
  | .error f => .error f
  | .ok none => .ok (.error .errInvalidParameterName)
  | .ok (some info) =>
      .ok (if type = .none ∨ type = .blob then .error .errValueIsNull
        else if readOnly info then .error .errNotWritable
        else match info.dataType with
          | none => .error .errInvalidParameterType
          | some t =>
              if getWdmpDataType t = type then .ok (getBSUpdateEnum info.bsUpdate) else .error .errInvalidParameterType)

/-- The message of `invokeHostIfAPI`. -/
def httpMessage (callerID : Text) (name : CString) (type : DataType) (bsUpdate : SourceType) (value : Text) : Message where
  paramName := name
  paramtype := getHostIfParamType type
  paramValue := convertAndAssignParamValue (getHostIfParamType type) value .zero
  paramValueLong := none
  requestor := requestorOf callerID
  bsUpdate := bsUpdate
  faultCode := .noFault

/-- `invokeHostIfAPI` for a SET. -/
def invokeHostIfAPI (callerID : Text) (name : CString) (type : DataType) (bsUpdate : SourceType) (value : Text) :
    Except SetFault (SetAnswer WdmpStatus) :=
  if maxParamLen ≤ name.chars.length then .error .overflow
  else match validateParamValue value (getHostIfParamType type) with
    | .error f => .error f
    | .ok false => .ok ⟨none, .errInvalidParameterValue⟩
    | .ok true =>
        .ok ⟨some (httpMessage callerID name type bsUpdate value),
          statusOf (handler (httpMessage callerID name type bsUpdate value))⟩

/-- `handleRFCRequest` for a SET. -/
def handleRFCSet (name value : Text) : WdmpStatus :=
  if name = reloadCacheParam ∧ (strcasecmp value "true".toList ∨ value = "1".toList) then .success
  else .errMethodNotSupported

/-- One round of the SET loop of `handleRequest`. -/
def httpSet (callerID : Text) (p : SetParam) : Except SetFault (SetAnswer WdmpStatus) :=
  if p.name.chars = deviceRebootParam then .ok ⟨none, .failure⟩
  else if isWildCardParam p.name.chars then .ok ⟨none, .errWildcardNotSupported⟩
  else match p.value with
    | none => .ok ⟨none, .errValueIsNull⟩
    | some value =>
        if isRfcVariable p.name.chars then .ok ⟨none, handleRFCSet p.name.chars value.chars⟩
        else match validateAgainstDataModel stray dm p.name.chars p.type with
          | .error f => .error f
          | .ok (.error status) => .ok ⟨none, status⟩
          | .ok (.ok bsUpdate) => invokeHostIfAPI handler callerID p.name p.type bsUpdate value.chars

/-! ## WebPA -/

/-- `WAL_STATUS`, as far as `SetParamInfo` returns it. -/
inductive WalStatus
  | success | failure | errInvalidParameterName | errInvalidParameterType | errInvalidParameterValue | errNotWritable
  deriving DecidableEq

/-- `convertFaultCodeToWalStatus`. -/
def convertFaultCodeToWalStatus : FaultCode → WalStatus
  | .attemptToSetaNonWritableParameter => .errNotWritable
  | .invalidParameterName => .errInvalidParameterName
  | .invalidParameterType => .errInvalidParameterType
  | .invalidParameterValue => .errInvalidParameterValue
  | _ => .failure

/-- The parameter whose value goes to `paramValueLong`. -/
def reportProfilesParam : Text := "Device.X_RDKCENTRAL-COM_T2.ReportProfiles".toList

/-- `TR69HOSTIFMGR_MAX_LONG_PARAM_LEN`. -/
def maxLongParamLen : Nat := 200 * 1024

/-- The value part of the message, `none` when the text is refused. -/
def webpaAssign (paramtype : ParamType) (lengthy : Bool) (value : CString) : Option (Buffer × Option CString) :=
  match paramtype with
  | .boolean =>
      match boolOf value.chars with
      | some v => some (Buffer.zero.putBoolean v, none)
      | none => none
  | .integer =>
      if (strtol value.chars).2 = [] then some (Buffer.zero.putInt (Int32.ofInt (strtol value.chars).1), none) else none
  | .unsignedInt =>
      if (strtol value.chars).2 = [] ∧ 0 ≤ Int32.ofInt (strtol value.chars).1 then
        some (Buffer.zero.putInt (Int32.ofInt (strtol value.chars).1), none)
      else none
  | .string | .dateTime | .unsignedLong =>
      if lengthy then if value.chars.length ≤ maxLongParamLen then some (.zero, some value) else none
      else some (Buffer.zero.putString value.chars, none)

/-- What became of a WebPA SET. -/
inductive WebpaAnswer
  | answered (a : SetAnswer WalStatus)
  | forwarded

/-- The message of `SetParamInfo`. -/
def webpaMessage (name : CString) (info : DataModelParam) (v : Buffer × Option CString) : Message where
  paramName := copyName name
  paramtype := hostIfType info
  paramValue := v.1
  paramValueLong := v.2
  requestor := .webpa
  bsUpdate := getBSUpdateEnum info.bsUpdate
  faultCode := .noFault

/-- `set_ParamValues_tr69hostIf`. -/
def walStatusOf (r : SetReply) : WalStatus :=
  if r.result = 0 then .success else convertFaultCodeToWalStatus r.faultCode

/-- `SetParamInfo` for a parameter with a value; `handle` is the data model, if it is loaded. -/
def setParamInfo (handle : Option DataModel) (name : CString) (type : DataType) (value : CString) :
    Except SetFault WebpaAnswer :=
  match handle with
  | none => .ok .forwarded
  | some dm =>
      match lookup stray dm name.chars with
      | .error f => .error f
      | .ok none => .ok .forwarded
      | .ok (some info) =>
          .ok (.answered
            (if converttoWalType (hostIfType info) ≠ type then ⟨none, .errInvalidParameterType⟩
            else match webpaAssign (hostIfType info)
                (strcasecmp (copyName name).chars reportProfilesParam) value with
              | none => ⟨none, .errInvalidParameterValue⟩
              | some v => ⟨some (webpaMessage name info v), walStatusOf (handler (webpaMessage name info v))⟩))

/-! ## rbus -/

/-- `rbusValueType_t`. -/
inductive RbusType
  | boolean | char | byte | int8 | uint8 | int16 | uint16 | int32 | uint32 | int64 | uint64 | single | double
  | dateTime | string | bytes | property | object | none
  deriving DecidableEq

/-- `convertRbus2hostIfDataType`. -/
def convertRbus2hostIfDataType : RbusType → Option ParamType
  | .boolean => some .boolean
  | .int8 | .int16 | .int32 => some .integer
  | .uint8 | .uint16 | .uint32 => some .unsignedInt
  | .int64 | .uint64 => some .unsignedLong
  | .string => some .string
  | .dateTime => some .dateTime
  | _ => Option.none

/-- `rbusError_t`, as far as the provider returns it. -/
inductive RbusError
  | success | busError | invalidInput | invalidOperation | destinationResponseFailure | elementDoesNotExist
  deriving DecidableEq

/-- A property value: its type and what `rbusValue_ToString` makes of it. -/
structure RbusProperty where
  type : RbusType
  text : CString

/-- The message of `TR_Dml_SetHandler`. -/
def rbusMessage (name : CString) (info : DataModelParam) (text : Text) : Message where
  paramName := copyName name
  paramtype := hostIfType info
  paramValue := convertAndAssignParamValue (hostIfType info) text .zero
  paramValueLong := none
  requestor := .webpa
  bsUpdate := getBSUpdateEnum info.bsUpdate
  faultCode := .noFault

/-- `TR_Dml_SetHandler`. -/
def trDmlSetHandler (handle : Option DataModel) (name : Option CString) (value : Option RbusProperty) :
    Except SetFault (SetAnswer RbusError) :=
  match name, value, handle with
  | some name, some value, some dm =>
      match lookup stray dm name.chars with
      | .error f => .error f
      | .ok none => .ok ⟨none, .invalidInput⟩
      | .ok (some info) =>
          .ok (if readOnly info then ⟨none, .invalidOperation⟩
            else if convertRbus2hostIfDataType value.type ≠ some (hostIfType info) then ⟨none, .invalidInput⟩
            else ⟨some (rbusMessage name info value.text.chars),
              if (handler (rbusMessage name info value.text.chars)).result = 0 then .success else .busError⟩)
  | some _, some _, none => .ok ⟨none, .destinationResponseFailure⟩
  | _, _, _ => .ok ⟨none, .invalidInput⟩

end

end Tr69HostIf.Transport
