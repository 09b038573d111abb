import Tr69HostIf.HostIf
import Tr69HostIf.Clib.Decimal

/-!
# Which component handles a name below `Device.IP`

`IPClientReqHandler::handleGetMsg` and `handleSetMsg` of `hostIf_IPClient_ReqHandler.cpp`, with `matchComponent` of
`hostIf_utils.cpp`: each parses the name on its own and calls the handler of a component. `getInstance` makes an
instance where there is none.

* `handleGetMsg`, `handleSetMsg` : the two cascades; the number that `handleSetMsg` does not initialise is an argument;
* `getInterface_eq` : below an interface they differ in `Stats` only;
* `handleSetMsg_remaining` : the last arm of `handleSetMsg` takes the names that are not below `Device.IP`;
* `agree_iff` : for which names they agree.
-/

namespace Tr69HostIf.IP
open Store Clib

/-! ## The two cascades -/

/-- The classes whose handlers are called; an IPv6 address or prefix. -/
inductive Component
  | interfaceStats | ipv4Address | ipv6Address (isAddress : Bool) | ipInterface | ipPing | speedTest | activePort | ip
  deriving DecidableEq

/-- The components that have parameters to set. -/
def Component.settable : Component → Bool
  | .interfaceStats | .activePort => false
  | _ => true

/-- A call of a handler: the instance it is called on, the number and the text it is given. -/
structure Selected where
  component : Component
  instanceNumber : Option Int
  subInstanceNumber : Option Int
  path : Text
  deriving DecidableEq

/-- What becomes of a message: it reaches a component, its instance number is refused, its name is not supported, or
nothing happens to it. -/
inductive Dispatch
  | selected (s : Selected)
  | refused
  | notSupported
  | notHandled
  deriving DecidableEq

/-- `IPV6_SUPPORT` and `SPEEDTEST_SUPPORT`. -/
structure Build where
  ipv6Support : Bool
  speedtestSupport : Bool

/-- `strncasecmp(param, key, strlen(key)) == 0`. -/
def startsWith (param key : Text) : Bool := strcasecmp (param.take key.length) key

/-- `MAX_NUM_LEN`. -/
def maxNumLen : Nat := 10

/-- `matchComponent`: the instance number and what stands behind it. -/
def matchComponent (pParam pKey : Text) : Option (Int × Text) :=
  if startsWith pParam pKey then
    match pParam.drop pKey.length with
    | '.' :: rest =>
        let number := rest.takeWhile fun c => c ≠ '.'
        if number.length < rest.length ∧ number.length < maxNumLen then
          some ((strtol number).1, rest.drop (number.length + 1))
        else none
    | _ => none
  else none

/-- `Device.IP.Interface`. -/
def interfaceKey : Text := "Device.IP.Interface".toList

/-- `Device.IP.ActivePort`. -/
def activePortKey : Text := "Device.IP.ActivePort".toList

/-- `hostIf_IP_Diagnostics_IPPing::PROFILE_NAME`. -/
def ipPingProfile : Text := "Device.IP.Diagnostics.IPPing.".toList

/-- `hostIf_IP_Diagnostics_SpeedTest::SpeedTestProfile`. -/
def speedTestProfile : Text := "Device.IP.Diagnostics.X_RDKCENTRAL-COM_SpeedTest.".toList

/-- `Device.IP`. -/
def deviceIp : Text := "Device.IP".toList

/-- `handleGetMsg` below an interface. -/
def getInterface (b : Build) (instanceNumber : Int) (path : Text) : Selected :=
  if startsWith path "Stats".toList then ⟨.interfaceStats, some instanceNumber, none, path⟩
  else
    match matchComponent path "IPv4Address".toList with
    | some (sub, rest) => ⟨.ipv4Address, some instanceNumber, some sub, rest⟩
    | none =>
        match if b.ipv6Support then matchComponent path "IPv6Address".toList else none with
        | some (sub, rest) => ⟨.ipv6Address true, some instanceNumber, some sub, rest⟩
        | none =>
            match if b.ipv6Support then matchComponent path "IPv6Prefix".toList else none with
            | some (sub, rest) => ⟨.ipv6Address false, some instanceNumber, some sub, rest⟩
            | none => ⟨.ipInterface, some instanceNumber, none, path⟩

/-- `IPClientReqHandler::handleGetMsg`. -/
def handleGetMsg (b : Build) (interfaceNumberOfEntries : Int) (paramName : Text) : Dispatch :=
  match matchComponent paramName interfaceKey with
  | some (instanceNumber, path) =>
      if instanceNumber = 0 then .refused
      else if interfaceNumberOfEntries < instanceNumber then .refused
      else .selected (getInterface b instanceNumber path)
  | none =>
      if startsWith paramName ipPingProfile then .selected ⟨.ipPing, none, none, paramName⟩
      else if b.speedtestSupport && startsWith paramName speedTestProfile then .selected ⟨.speedTest, none, none, paramName⟩
      else
        match matchComponent paramName activePortKey with
        | some (instanceNumber, path) => .selected ⟨.activePort, some instanceNumber, none, path⟩
        | none =>
            if startsWith paramName deviceIp then .selected ⟨.ip, some 0, none, paramName⟩
            else .notSupported

/-- `handleSetMsg` below an interface. -/
def setInterface (b : Build) (instanceNumber : Int) (path : Text) : Selected :=
  match matchComponent path "IPv4Address".toList with
  | some (sub, rest) => ⟨.ipv4Address, some instanceNumber, some sub, rest⟩
  | none =>
      match if b.ipv6Support then matchComponent path "IPv6Address".toList else none with
      | some (sub, rest) => ⟨.ipv6Address true, some instanceNumber, some sub, rest⟩
      | none =>
          match if b.ipv6Support then matchComponent path "IPv6Prefix".toList else none with
          | some (sub, rest) => ⟨.ipv6Address false, some instanceNumber, some sub, rest⟩
          | none => ⟨.ipInterface, some instanceNumber, none, path⟩

/-- `IPClientReqHandler::handleSetMsg`. The last `strncasecmp` is not compared with `0`, and `instanceNumber` has not
been written when it is reached. -/
def handleSetMsg (b : Build) (uninitialised : Int) (paramName : Text) : Dispatch :=
  match matchComponent paramName interfaceKey with
  | some (instanceNumber, path) => .selected (setInterface b instanceNumber path)
  | none =>
      if startsWith paramName ipPingProfile then .selected ⟨.ipPing, none, none, paramName⟩
      else if b.speedtestSupport && startsWith paramName speedTestProfile then .selected ⟨.speedTest, none, none, paramName⟩
      else if !startsWith paramName deviceIp then .selected ⟨.ip, some uninitialised, none, paramName⟩
      else .notHandled

/-! ## Names below `Device.IP` -/

section
variable {t key key' : Text} {b : Build} {n instanceNumber : Int} {path paramName : Text}

theorem startsWith_iff : startsWith t key = true ↔ (t.take key.length).map Char.toLower = key.map Char.toLower := by
  rw [startsWith, strcasecmp, beq_iff_eq]

/-- A text that starts with a key starts with what the key starts with. -/
theorem startsWith_trans (h : startsWith t key = true) (hkey : startsWith key key' = true) : startsWith t key' = true := by
  rw [startsWith_iff] at h hkey ⊢
  have hlen : key'.length ≤ key.length := by
    have := congrArg List.length hkey
    rw [List.length_map, List.length_map, List.length_take] at this
    omega
  have htake := congrArg (List.take key'.length) h
  rw [← List.map_take, ← List.map_take, List.take_take, Nat.min_eq_left hlen] at htake
  rw [htake, hkey]

theorem startsWith_of_matchComponent {r : Int × Text} (h : matchComponent t key = some r) : startsWith t key = true := by
  rw [matchComponent] at h
  split at h
  · assumption
  · cases h

theorem interfaceKey_below : startsWith interfaceKey deviceIp = true := by decide +kernel

theorem activePortKey_below : startsWith activePortKey deviceIp = true := by decide +kernel

theorem ipPingProfile_below : startsWith ipPingProfile deviceIp = true := by decide +kernel

theorem speedTestProfile_below : startsWith speedTestProfile deviceIp = true := by decide +kernel

/-! ## Both directions -/

/-- Below an interface the two differ in `Stats` only. -/
theorem getInterface_eq (b : Build) (instanceNumber : Int) (path : Text) :
    getInterface b instanceNumber path =
      if startsWith path "Stats".toList then ⟨.interfaceStats, some instanceNumber, none, path⟩
      else setInterface b instanceNumber path := rfl

/-- A settable component below an interface is the same for both. -/
theorem getInterface_settable (h : (getInterface b instanceNumber path).component.settable = true) :
    getInterface b instanceNumber path = setInterface b instanceNumber path := by
  rw [getInterface_eq] at h ⊢
  split at h
  · cases h
  · next hstats => rw [if_neg hstats]

/-- The names that are left when no arm above the last takes them. -/
def Remaining (b : Build) (paramName : Text) : Prop :=
  matchComponent paramName interfaceKey = none ∧ startsWith paramName ipPingProfile = false ∧
    (b.speedtestSupport && startsWith paramName speedTestProfile) = false

/-- **The last arm of `handleSetMsg` takes the names that are not below `Device.IP`.** -/
theorem handleSetMsg_remaining (uninitialised : Int) (h : Remaining b paramName) :
    handleSetMsg b uninitialised paramName =
      if startsWith paramName deviceIp then .notHandled else .selected ⟨.ip, some uninitialised, none, paramName⟩ := by
  obtain ⟨hinterface, hping, hspeed⟩ := h
  rw [handleSetMsg, hinterface, hping, hspeed]
  cases startsWith paramName deviceIp <;> rfl

theorem handleGetMsg_remaining (h : Remaining b paramName) (hport : matchComponent paramName activePortKey = none) :
    handleGetMsg b n paramName =
      if startsWith paramName deviceIp then .selected ⟨.ip, some 0, none, paramName⟩ else .notSupported := by
  obtain ⟨hinterface, hping, hspeed⟩ := h
  rw [handleGetMsg, hinterface, hping, hspeed, hport]
  rfl

end

/-- GET and SET of a name agree: a settable component that GET selects is selected by SET with the same numbers and
text, a refused instance number is refused by SET, and a name that is not below `Device.IP` reaches no component. -/
structure Agree (b : Build) (n uninitialised : Int) (paramName : Text) : Prop where
  same : ∀ s, handleGetMsg b n paramName = .selected s → s.component.settable = true →
    handleSetMsg b uninitialised paramName = .selected s
  refused : handleGetMsg b n paramName = .refused → ∀ s, handleSetMsg b uninitialised paramName ≠ .selected s
  outside : startsWith paramName deviceIp = false →
    ∀ s, handleGetMsg b n paramName ≠ .selected s ∧ handleSetMsg b uninitialised paramName ≠ .selected s

section
variable {b : Build} {n uninitialised : Int} {paramName : Text} {s : Selected}

theorem Agree.of_selected (hbelow : startsWith paramName deviceIp = true) (hget : handleGetMsg b n paramName = .selected s)
    (hset : s.component.settable = true → handleSetMsg b uninitialised paramName = .selected s) :
    Agree b n uninitialised paramName := by
  refine ⟨fun s' hs' hsettable => ?_, fun h => ?_, fun h => ?_⟩
  · rw [hget, Dispatch.selected.injEq] at hs'
    subst hs'
    exact hset hsettable
  · rw [hget] at h
    cases h
  · rw [hbelow] at h
    cases h

/-- An instance number that `handleGetMsg` refuses reaches a component by `handleSetMsg`. -/
theorem not_agree_of_refused (hget : handleGetMsg b n paramName = .refused)
    (hset : handleSetMsg b uninitialised paramName = .selected s) : ¬Agree b n uninitialised paramName :=
  fun h => h.refused hget s hset

/-- Where `handleSetMsg` gets to its last arm, below `Device.IP` it does nothing, and elsewhere it calls `hostIf_IP`. -/
theorem not_agree_of_remaining (h : Remaining b paramName) (hport : matchComponent paramName activePortKey = none) :
    ¬Agree b n uninitialised paramName := by
  have hset := handleSetMsg_remaining uninitialised h
  have hget := handleGetMsg_remaining (n := n) h hport
  intro hagree
  by_cases hbelow : startsWith paramName deviceIp = true
  · rw [if_pos hbelow] at hset hget
    have hsame := hagree.same _ hget rfl
    rw [hset] at hsame
    cases hsame
  · rw [if_neg hbelow] at hset
    exact (hagree.outside (Bool.eq_false_iff.mpr hbelow) _).2 hset

end

/-- The names of an interface with an instance number that `handleGetMsg` accepts, of the two diagnostics, and of the rows
of active ports. -/
def Dispatchable (b : Build) (n : Int) (paramName : Text) : Prop :=
  match matchComponent paramName interfaceKey with
  | some (instanceNumber, _) => instanceNumber ≠ 0 ∧ instanceNumber ≤ n
  | none => startsWith paramName ipPingProfile = true ∨ (b.speedtestSupport && startsWith paramName speedTestProfile) = true ∨
      (matchComponent paramName activePortKey).isSome = true

/-- The names of an interface. -/
theorem agree_interface_iff {b : Build} {n uninitialised instanceNumber : Int} {paramName path : Text}
    (h : matchComponent paramName interfaceKey = some (instanceNumber, path)) :
    Agree b n uninitialised paramName ↔ instanceNumber ≠ 0 ∧ instanceNumber ≤ n := by
  have hbelow : startsWith paramName deviceIp = true :=
    startsWith_trans (startsWith_of_matchComponent h) interfaceKey_below
  have hset : handleSetMsg b uninitialised paramName = .selected (setInterface b instanceNumber path) := by
    rw [handleSetMsg, h]
  have hget : handleGetMsg b n paramName = if instanceNumber = 0 then .refused
      else if n < instanceNumber then .refused else .selected (getInterface b instanceNumber path) := by
    rw [handleGetMsg, h]
  by_cases hzero : instanceNumber = 0
  · rw [if_pos hzero] at hget
    exact ⟨fun hagree => absurd hagree (not_agree_of_refused hget hset), fun hrange => absurd hzero hrange.1⟩
  · by_cases hover : n < instanceNumber
    · rw [if_neg hzero, if_pos hover] at hget
      exact ⟨fun hagree => absurd hagree (not_agree_of_refused hget hset), fun hrange => absurd hrange.2 (by omega)⟩
    · rw [if_neg hzero, if_neg hover] at hget
      refine ⟨fun _ => ⟨hzero, by omega⟩, fun _ => Agree.of_selected hbelow hget fun hsettable => ?_⟩
      rw [hset, getInterface_settable hsettable]

/-- **GET and SET agree exactly on** the names of an interface with an instance number in range, the names of the two
diagnostics and the rows of active ports. -/
theorem agree_iff (b : Build) (n uninitialised : Int) (paramName : Text) :
    Agree b n uninitialised paramName ↔ Dispatchable b n paramName := by
  rw [Dispatchable]
  cases hinterface : matchComponent paramName interfaceKey with
  | some r => exact agree_interface_iff hinterface
  | none =>
      by_cases hping : startsWith paramName ipPingProfile = true
      · refine ⟨fun _ => Or.inl hping, fun _ => ?_⟩
        apply Agree.of_selected (s := ⟨.ipPing, none, none, paramName⟩) (startsWith_trans hping ipPingProfile_below)
        · rw [handleGetMsg, hinterface]
          exact if_pos hping
        · rw [handleSetMsg, hinterface]
          exact fun _ => if_pos hping
      by_cases hspeed : (b.speedtestSupport && startsWith paramName speedTestProfile) = true
      · have hstarts := (Bool.and_eq_true _ _).mp hspeed
        refine ⟨fun _ => Or.inr (Or.inl hspeed), fun _ => ?_⟩
        apply Agree.of_selected (s := ⟨.speedTest, none, none, paramName⟩)
          (startsWith_trans hstarts.2 speedTestProfile_below)
        · rw [handleGetMsg, hinterface]
          exact (if_neg hping).trans (if_pos hspeed)
        · rw [handleSetMsg, hinterface]
          exact fun _ => (if_neg hping).trans (if_pos hspeed)
      cases hport : matchComponent paramName activePortKey with
      | some r =>
          have hstarts := startsWith_of_matchComponent hport
          refine ⟨fun _ => Or.inr (Or.inr rfl), fun _ => ?_⟩
          apply Agree.of_selected (s := ⟨.activePort, some r.1, none, r.2⟩)
            (startsWith_trans hstarts activePortKey_below)
          · rw [handleGetMsg, hinterface, hport]
            exact (if_neg hping).trans (if_neg hspeed)
          · exact fun h => absurd h Bool.false_ne_true
      | none =>
          have hremaining : Remaining b paramName :=
            ⟨hinterface, Bool.eq_false_iff.mpr hping, Bool.eq_false_iff.mpr hspeed⟩
          refine ⟨fun hagree => absurd hagree (not_agree_of_remaining hremaining hport), ?_⟩
          rintro (h | h | h)
          · exact absurd h hping
          · exact absurd h hspeed
          · cases h

/-- A build with all components. -/
def fullBuild : Build := ⟨true, true⟩

/-- `Device.IP.IPv4Enable` is read by `hostIf_IP` and written by nobody, `Device.IP.Interface.0.Enable` is refused in one
direction only, and `Device.Time.Enable` is handed to `hostIf_IP` to be written. -/
theorem get_and_set_differ :
    ¬Agree fullBuild 1 0 "Device.IP.IPv4Enable".toList ∧ ¬Agree fullBuild 1 0 "Device.IP.Interface.0.Enable".toList ∧
      ¬Agree fullBuild 1 0 "Device.Time.Enable".toList := by
  refine ⟨?_, ?_, ?_⟩
  · exact not_agree_of_remaining ⟨by decide +kernel, by decide +kernel, by decide +kernel⟩ (by decide +kernel)
  · exact not_agree_of_refused (s := ⟨.ipInterface, some 0, none, "Enable".toList⟩) (by decide +kernel) (by decide +kernel)
  · exact not_agree_of_remaining ⟨by decide +kernel, by decide +kernel, by decide +kernel⟩ (by decide +kernel)

end Tr69HostIf.IP
