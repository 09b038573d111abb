import Tr69HostIf.Clib.Decimal
import Tr69HostIf.HostIf
import Tr69HostIf.Store.KeyValue
import Tr69HostIf.Store.Run

/-!
# Reverse SSH

`set_xOpsReverseSshArgs` parses a list of settings into four static variables, and `set_xOpsReverseSshTrigger` puts
them on a command line. The characters of one of the four are checked; a call that is refused leaves the others.

* `Vars` : the four variables, `setXOpsReverseSshArgs`, `setXOpsReverseSshTrigger`;
* `Sound` : what a step of a run must not do, `Admissible` : the steps that do not.
-/

namespace Tr69HostIf.DeviceInfo
open Store Clib

/-! ## The settings -/

/-- The maximal runs without `;`. -/
def chunks (t : Text) : List Text := (t.splitOn ';').filter fun c => c ≠ []

/-- Key and value of a chunk; without `=` the whole chunk is both, as `npos + 1` is 0. -/
def chunkEntry (c : Text) : Text × Text :=
  if '=' ∈ c then (c.takeWhile fun x => x ≠ '=', (c.dropWhile fun x => x ≠ '=').tail) else (c, c)

/-- `parsedMap`. -/
def parsedMap (t : Text) : Dict Text Text := ofList ((chunks t).map chunkEntry)

/-- The characters of an IP address. -/
def addressChar (c : Char) : Bool := c.isAlphanum || c = ':' || c = '.'

/-- `getEstbIp`. -/
structure Address where
  chars : Text
  address : ∀ c ∈ chars, addressChar c = true

/-- A call of `set_xOpsReverseSshArgs` with what it meets outside the program. -/
structure ArgsCall where
  input : CString
  estbip : Address
  /-- `inet_pton(AF_INET6, ...)` -/
  ipv6 : Bool
  /-- `findLocalPortAvailable` -/
  port : Option Nat
  /-- in `stunnelSSHArgs[key] = parsedMap.at(key)` the left side is evaluated first; the language leaves it open -/
  leftFirst : Bool

namespace ArgsCall
variable (c : ArgsCall)

/-- `parsedMap.at`. -/
def at? (key : String) : Option Text := (parsedMap c.input.chars).lookup key.toList

/-- `parsedMap[...]`, empty for a key that is not there. -/
def get (key : String) : Text := (c.at? key).getD []

/-- The address, in brackets when it is an IPv6 one. -/
def host : Text := if c.ipv6 then '[' :: c.estbip.chars ++ [']'] else c.estbip.chars

/-- The text built in `reverseSSHArgs`. -/
def reverse : Text :=
  " -I ".toList ++ c.get "idletimeout" ++ " -f -N -y -T -R ".toList ++ c.get "revsshport" ++ ":".toList ++ c.host ++
    ":22 ".toList ++ c.get "user" ++ "@".toList

/-- The text built in `nonShortsArgs`. -/
def nonShorts (hostKey : String) : Text := c.get hostKey ++ " -p ".toList ++ c.get "sshport"

end ArgsCall

/-! ## The variables -/

/-- `reverseSSHArgs`, `shortsArgs`, `nonShortsArgs` and `stunnelSSHArgs`. -/
structure Vars where
  reverseSSHArgs : Text
  shortsArgs : Text
  nonShortsArgs : Text
  stunnelSSHArgs : Dict Text Text

/-- The variables before any call. -/
def Vars.empty : Vars := ⟨[], [], [], ∅⟩

/-- `stunnelSSHArgs[key] = value`. -/
def Vars.setStunnel (v : Vars) (key : String) (value : Text) : Vars :=
  { v with stunnelSSHArgs := v.stunnelSSHArgs.insert key.toList value }

/-- `stunnelSSHArgs[key] = ...` with a right side that throws. -/
def Vars.touchStunnel (v : Vars) (leftFirst : Bool) (key : String) : Vars :=
  if leftFirst ∧ v.stunnelSSHArgs.lookup key.toList = none then v.setStunnel key [] else v

/-- The characters that pass the check. -/
def allowed (c : Char) : Bool :=
  c.isAlphanum || c = ' ' || c = ':' || c = '-' || c = '.' || c = '@' || c = '_' || c = '[' || c = ']'

/-- Only characters that pass the check. -/
def Clean (t : Text) : Prop := ∀ c ∈ t, allowed c = true

instance (t : Text) : Decidable (Clean t) := List.decidableBAll _ t

/-- The check at the end of `set_xOpsReverseSshArgs`: the result, `true` for `OK`, and the variables. -/
def checkArgs (v : Vars) : Bool × Vars :=
  if Clean v.reverseSSHArgs then (true, v) else (false, { v with reverseSSHArgs := [] })

/-- `set_xOpsReverseSshArgs`. A missing key ends in the exception handler. -/
def setXOpsReverseSshArgs (c : ArgsCall) (v : Vars) : Bool × Vars :=
  let v := { v with reverseSSHArgs := c.reverse }
  match c.at? "stunnelport" with
  | some stunnelport =>
      match c.port with
      | none => (false, v)
      | some port =>
          let v := { v with shortsArgs := "localhost -p ".toList ++ printNat port }
          let v := v.setStunnel "localport" (printNat port)
          match c.at? "host" with
          | none => (false, { v.touchStunnel c.leftFirst "host" with reverseSSHArgs := [] })
          | some host =>
              let v := v.setStunnel "host" host
              match c.at? "hostIp" with
              | none => (false, { v.touchStunnel c.leftFirst "hostIp" with reverseSSHArgs := [] })
              | some hostIp =>
                  let v := (v.setStunnel "hostIp" hostIp).setStunnel "stunnelport" stunnelport
                  checkArgs { v with nonShortsArgs := c.nonShorts "hostIp" }
  | none => checkArgs { v with nonShortsArgs := c.nonShorts "host" }

/-! ## The trigger -/

/-- A call of `set_xOpsReverseSshTrigger` with what it meets outside the program. -/
structure TriggerCall where
  input : CString
  /-- the privacy mode, where the build asks for it and is answered -/
  privacyMode : Option Text
  /-- `isRsshactive`, where the build asks for it -/
  active : Bool
  /-- `getenv("BUILD_TYPE")` -/
  buildType : Option Text

/-- The command lines. -/
inductive Command
  | startStunnel (localport host hostIp stunnelport reverse shorts nonShorts : Text)
  | startTunnel (reverse : Text)
  | stopTunnel
  deriving DecidableEq

/-- The texts of a command line that come from the variables. -/
def Command.args : Command → List Text
  | .startStunnel localport host hostIp stunnelport reverse shorts nonShorts =>
      [localport, host, hostIp, stunnelport, reverse, shorts, nonShorts]
  | .startTunnel reverse => [reverse]
  | .stopTunnel => []

/-- What a trigger comes to: it is refused, throws `out_of_range`, or runs a command. -/
inductive Outcome
  | refused
  | missingKey
  | executed (command : Command)
  deriving DecidableEq

/-- The `start shorts` branch. -/
def startShorts (v : Vars) : Outcome :=
  match v.stunnelSSHArgs.lookup "localport".toList, v.stunnelSSHArgs.lookup "host".toList,
    v.stunnelSSHArgs.lookup "hostIp".toList, v.stunnelSSHArgs.lookup "stunnelport".toList with
  | some localport, some host, some hostIp, some stunnelport =>
      .executed (.startStunnel localport host hostIp stunnelport v.reverseSSHArgs v.shortsArgs v.nonShortsArgs)
  | _, _, _, _ => .missingKey

/-- The branch of a plain start, which a production build refuses. -/
def startPlain (buildType : Option Text) (v : Vars) : Outcome :=
  match buildType with
  | none => .refused
  | some b => if strcasecmp b "prod".toList then .refused else .executed (.startTunnel v.reverseSSHArgs)

/-- `set_xOpsReverseSshTrigger`. -/
def setXOpsReverseSshTrigger (t : TriggerCall) (v : Vars) : Outcome :=
  if t.privacyMode = some "DO_NOT_SHARE".toList then .refused
  else if "start".toList <+: t.input.chars then
    if t.active then .refused
    else if "start shorts".toList <+: t.input.chars then startShorts v
    else startPlain t.buildType v
  else .executed .stopTunnel

/-! ## Runs -/

/-- A request. -/
inductive SshStep
  | setArgs (c : ArgsCall)
  | trigger (t : TriggerCall)

/-- The variables, and the most recent call of `set_xOpsReverseSshArgs` that returned `OK`. -/
structure SshState where
  vars : Vars
  last : Option ArgsCall

/-- The state before any call. -/
def SshState.initial : SshState := ⟨.empty, none⟩

def sshStep (s : SshState) : SshStep → SshState
  | .setArgs c =>
      let r := setXOpsReverseSshArgs c s.vars
      ⟨r.2, if r.1 then some c else s.last⟩
  | .trigger _ => s

/-- What the most recent call that returned `OK` leaves in variables that were empty before it. -/
def SshState.current (s : SshState) : Vars :=
  match s.last with
  | none => .empty
  | some c => (setXOpsReverseSshArgs c .empty).2

/-- Every variable is empty or as it was. -/
structure KeptOrEmpty (v w : Vars) : Prop where
  reverse : w.reverseSSHArgs = [] ∨ w.reverseSSHArgs = v.reverseSSHArgs
  shorts : w.shortsArgs = [] ∨ w.shortsArgs = v.shortsArgs
  nonShorts : w.nonShortsArgs = [] ∨ w.nonShortsArgs = v.nonShortsArgs
  stunnel : ∀ key, (w.stunnelSSHArgs.lookup key).getD [] = [] ∨
    w.stunnelSSHArgs.lookup key = v.stunnelSSHArgs.lookup key

/-- What a step must do: a refused call leaves none of its text, whatever the variables held before it; a trigger looks
up no missing key, and the texts of the command it runs pass the check and are those of the most recent call that
returned `OK`. -/
def Sound (s : SshState) : SshStep → Prop
  | .setArgs c => (setXOpsReverseSshArgs c s.vars).1 = false → ∀ v, KeptOrEmpty v (setXOpsReverseSshArgs c v).2
  | .trigger t =>
      match setXOpsReverseSshTrigger t s.vars with
      | .refused => True
      | .missingKey => False
      | .executed command =>
          (∀ a ∈ command.args, Clean a) ∧ setXOpsReverseSshTrigger t s.current = .executed command

/-! ## The condition -/

/-- The call gives `stunnelport`. -/
def ArgsCall.Stunnel (c : ArgsCall) : Prop := (c.at? "stunnelport").isSome = true

instance (c : ArgsCall) : Decidable c.Stunnel := inferInstanceAs (Decidable (_ = true))

/-- The call is not refused: what goes into `reverseSSHArgs` passes the check and, with `stunnelport`, a port is free
and both `host` and `hostIp` are given. -/
def ArgsCall.Accepted (c : ArgsCall) : Prop :=
  (Clean (c.get "idletimeout") ∧ Clean (c.get "revsshport") ∧ Clean (c.get "user")) ∧
    (c.Stunnel → c.port.isSome = true ∧ (c.at? "host").isSome = true ∧ (c.at? "hostIp").isSome = true)

/-- The texts of the call that nothing checks pass the check too. -/
def ArgsCall.RestClean (c : ArgsCall) : Prop :=
  Clean (c.get "host") ∧ Clean (c.get "hostIp") ∧ Clean (c.get "stunnelport") ∧ Clean (c.get "sshport")

/-- The trigger takes the `start shorts` branch. -/
def TriggerCall.Shorts (t : TriggerCall) : Prop :=
  t.privacyMode ≠ some "DO_NOT_SHARE".toList ∧ t.active = false ∧ "start shorts".toList <+: t.input.chars

/-- The steps that do what they must: a call is not refused, and a `start shorts` comes after a call with `stunnelport`
all of whose texts pass the check. -/
def Admissible (s : SshState) : SshStep → Prop
  | .setArgs c => c.Accepted
  | .trigger t => t.Shorts → ∃ c, s.last = some c ∧ c.Stunnel ∧ c.RestClean

end Tr69HostIf.DeviceInfo
