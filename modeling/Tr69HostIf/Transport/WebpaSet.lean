import Tr69HostIf.Transport.Set

/-!
# A WebPA SET request

The SET branch of `processRequest` in `webpa_adapter.cpp` over a device that changes with every set. The reboot
reason is recorded for each parameter before `validate_parameter` looks at the list, and a rejection is written to
the first entry of a status array that starts as all `WDMP_SUCCESS`.

* `processSet` : the branch, `Session` : the device with the calls of `SetParamInfo` so far;
* `Answered` : a rejected request sets nothing and reports no success, an accepted one reports each set truthfully;
* `answered_iff` : which requests are answered so.
-/

namespace Tr69HostIf.Transport
open Store Waldb

/-- The device behind `SetParamInfo`: `hostIf_SetMsgHandler`, and `rbusSetParamInfo` for parameters of others. -/
structure Device (σ : Type) where
  setMsgHandler : σ → Message → SetReply × σ
  rbusSetParamInfo : σ → SetParam → WalStatus × σ

/-- The state of the device, and the parameters `SetParamInfo` has been called with. -/
structure Session (σ : Type) where
  device : σ
  calls : List SetParam

/-- What ends a request without an answer: a null pointer read as a string, or a fault of the data-model lookup. -/
inductive SetCrash
  | null
  | lookup (f : SetFault)

/-- What `validate_parameter` objects to. -/
inductive Rejection
  | wildcardNotSupported | setOfCmcOrCidNotSupported | valueIsNull
  deriving DecidableEq

/-- An entry of `retStatus`. -/
inductive RetStatus
  | success
  | rejected (e : Rejection)
  | failed (s : WalStatus)
  deriving DecidableEq

/-- The cast of a `WAL_STATUS` to a `WDMP_STATUS`. -/
def retStatusOf : WalStatus → RetStatus
  | .success => .success
  | s => .failed s

/-- `PARAM_CID`. -/
def paramCid : Text := "Device.DeviceInfo.Webpa.X_COMCAST-COM_CID".toList

/-- `PARAM_CMC`. -/
def paramCmc : Text := "Device.DeviceInfo.Webpa.X_COMCAST-COM_CMC".toList

/-- `WEBPA_DEVICE_REBOOT_PARAM`. -/
def webpaDeviceRebootParam : Text := "Device.X_CISCO_COM_DeviceControl.RebootDevice".toList

/-- `WEBPA_DEVICE_REBOOT_VALUE`. -/
def webpaDeviceRebootValue : Text := "Device".toList

/-- The parameter that `setRebootReason` sets. -/
def rebootReason : SetParam :=
  ⟨.ofLiteral "Device.DeviceInfo.X_RDKCENTRAL-COM_LastRebootReason", .string, some (.ofLiteral "webpa-reboot")⟩

/-- The body of the loop of `validate_parameter`; a request's names are not empty. -/
def rejectionOf (p : SetParam) : Option Rejection :=
  if p.name.chars.getLast? = some '.' then some .wildcardNotSupported
  else if p.name.chars = paramCid ∨ p.name.chars = paramCmc then some .setOfCmcOrCidNotSupported
  else if p.value = none then some .valueIsNull
  else none

/-- `validate_parameter`: the first objection. -/
def validateParameter (params : List SetParam) : Option Rejection := params.findSome? rejectionOf

section
variable {σ : Type} (stray : Stray) (handle : Option DataModel) (dev : Device σ)

/-- `SetParamInfo`, on the device as it is. -/
def setParamInfoOn (s : Session σ) (p : SetParam) : Except SetCrash (WalStatus × Session σ) :=
  match p.value with
  | none => .error .null
  | some value =>
      match setParamInfo stray (fun m => (dev.setMsgHandler s.device m).1) handle p.name p.type value with
      | .error f => .error (.lookup f)
      | .ok .forwarded =>
          let r := dev.rbusSetParamInfo s.device p
          .ok (r.1, ⟨r.2, s.calls ++ [p]⟩)
      | .ok (.answered a) =>
          let device := match a.handed with
            | none => s.device
            | some m => (dev.setMsgHandler s.device m).2
          .ok (a.status, ⟨device, s.calls ++ [p]⟩)

/-- `setValues`. -/
def setValues (s : Session σ) : List SetParam → Except SetCrash (List RetStatus × Session σ)
  | [] => .ok ([], s)
  | p :: ps =>
      match setParamInfoOn stray handle dev s p with
      | .error e => .error e
      | .ok (status, s) =>
          match setValues s ps with
          | .error e => .error e
          | .ok (retStatus, s) => .ok (retStatusOf status :: retStatus, s)

/-- `setRebootReason`. -/
def setRebootReason (s : Session σ) (p : SetParam) : Except SetCrash (Session σ) :=
  if p.name.chars = webpaDeviceRebootParam then
    match p.value with
    | none => .error .null
    | some value =>
        if value.chars = webpaDeviceRebootValue then (setValues stray handle dev s [rebootReason]).map Prod.snd
        else .ok s
  else .ok s

/-- The loop of `processRequest` that calls `setRebootReason` for each parameter. -/
def setRebootReasons (s : Session σ) : List SetParam → Except SetCrash (Session σ)
  | [] => .ok s
  | p :: ps =>
      match setRebootReason stray handle dev s p with
      | .error e => .error e
      | .ok s => setRebootReasons s ps

/-- The SET branch of `processRequest`: `retStatus` and the session afterwards. -/
def processSet (s : Session σ) (params : List SetParam) : Except SetCrash (List RetStatus × Session σ) :=
  match setRebootReasons stray handle dev s params with
  | .error e => .error e
  | .ok s =>
      match validateParameter params with
      | none => setValues stray handle dev s params
      | some e => .ok ((List.replicate params.length .success).set 0 (.rejected e), s)

/-! ## What an answer should say -/

/-- Each status is success exactly when the parameter's own set, after those before it, succeeded. -/
def StatusesTrue (s : Session σ) (params : List SetParam) (retStatus : List RetStatus) : Prop :=
  retStatus.length = params.length ∧
    ∀ i p, params[i]? = some p →
      ∃ before t status u, setValues stray handle dev s (params.take i) = .ok (before, t) ∧
        setParamInfoOn stray handle dev t p = .ok (status, u) ∧
        (retStatus[i]? = some .success ↔ status = .success)

/-- A rejected request calls no `SetParamInfo`, leaves the device alone and reports no success; an accepted one
reports each parameter's own outcome. -/
def Answered (s : Session σ) (params : List SetParam) : Prop :=
  ∃ retStatus t, processSet stray handle dev s params = .ok (retStatus, t) ∧
    if validateParameter params = none then
      ∃ s', setRebootReasons stray handle dev s params = .ok s' ∧ StatusesTrue stray handle dev s' params retStatus
    else t = s ∧ RetStatus.success ∉ retStatus

/-- The data-model lookup of the name does not fault. -/
def Resolves (name : CString) : Prop := ∀ dm, handle = some dm → ∃ info, lookup stray dm name.chars = .ok info

/-- `setRebootReason` records a reason for the parameter. -/
def Reboots (p : SetParam) : Prop :=
  p.name.chars = webpaDeviceRebootParam ∧ ∃ value, p.value = some value ∧ value.chars = webpaDeviceRebootValue

/-- The requests that are answered as they should be: accepted ones whose names resolve, and rejected ones of a
single parameter that is not the reboot parameter without a value. -/
def Answerable (params : List SetParam) : Prop :=
  if validateParameter params = none then
    (∀ p ∈ params, Resolves stray handle p.name) ∧
      ((∃ p ∈ params, Reboots p) → Resolves stray handle rebootReason.name)
  else ∃ p, params = [p] ∧ ¬ (p.name.chars = webpaDeviceRebootParam ∧ p.value = none)

/-! ## Validation -/

theorem validateParameter_eq_none {params : List SetParam} :
    validateParameter params = none ↔ ∀ p ∈ params, rejectionOf p = none := List.findSome?_eq_none_iff

theorem value_of_rejectionOf {p : SetParam} (h : rejectionOf p = none) : ∃ value, p.value = some value := by
  unfold rejectionOf at h
  split at h
  · cases h
  split at h
  · cases h
  split at h
  · cases h
  next hv => exact Option.ne_none_iff_exists'.mp hv

/-- A parameter that reboots the device is accepted. -/
theorem Reboots.accepted {p : SetParam} (h : Reboots p) : rejectionOf p = none := by
  obtain ⟨hn, value, hv, -⟩ := h
  rw [rejectionOf, hn, if_neg (by decide), if_neg (by decide), hv, if_neg (by simp)]

/-! ## The sets -/

section
variable {stray handle dev}

theorem setParamInfoOn_ok_iff {s : Session σ} {p : SetParam} :
    (∃ r, setParamInfoOn stray handle dev s p = .ok r) ↔ p.value ≠ none ∧ Resolves stray handle p.name := by
  unfold setParamInfoOn Resolves
  cases hv : p.value with
  | none => simp
  | some value =>
      cases handle with
      | none => simp [setParamInfo]
      | some dm =>
          cases hl : lookup stray dm p.name.chars with
          | error f => simp [setParamInfo, hl]
          | ok info => cases info <;> simp [setParamInfo, hl]

theorem setValues_cons_ok {s : Session σ} {p : SetParam} {ps : List SetParam} {r : List RetStatus × Session σ} :
    setValues stray handle dev s (p :: ps) = .ok r ↔
      ∃ status t l u, setParamInfoOn stray handle dev s p = .ok (status, t) ∧
        setValues stray handle dev t ps = .ok (l, u) ∧ r = (retStatusOf status :: l, u) := by
  rw [setValues]
  cases h : setParamInfoOn stray handle dev s p with
  | error e => simp
  | ok a =>
      obtain ⟨status, t⟩ := a
      cases h' : setValues stray handle dev t ps with
      | error e =>
          simp only [h', reduceCtorEq, Except.ok.injEq, Prod.mk.injEq, false_iff]
          rintro ⟨_, _, l, u, ⟨rfl, rfl⟩, hl, -⟩
          rw [h'] at hl
          cases hl
      | ok b =>
          simp only [h', Except.ok.injEq]
          constructor
          · rintro rfl
            exact ⟨status, t, b.1, b.2, rfl, h', rfl⟩
          · rintro ⟨_, _, l, u, hst, hl, rfl⟩
            obtain ⟨rfl, rfl⟩ := Prod.mk.inj hst
            rw [h'] at hl
            rw [Except.ok.inj hl]

/-- `setValues` gets to its end when every parameter has a value and a name that resolves. -/
theorem setValues_ok_iff {s : Session σ} {ps : List SetParam} :
    (∃ r, setValues stray handle dev s ps = .ok r) ↔ ∀ p ∈ ps, p.value ≠ none ∧ Resolves stray handle p.name := by
  induction ps generalizing s with
  | nil => simp [setValues]
  | cons p ps ih =>
      rw [List.forall_mem_cons]
      constructor
      · rintro ⟨r, hr⟩
        obtain ⟨status, t, l, u, hp, hl, -⟩ := setValues_cons_ok.mp hr
        exact ⟨setParamInfoOn_ok_iff.mp ⟨_, hp⟩, ih.mp ⟨_, hl⟩⟩
      · rintro ⟨hp, hps⟩
        obtain ⟨⟨status, t⟩, ht⟩ := setParamInfoOn_ok_iff.mpr hp
        obtain ⟨⟨l, u⟩, hl⟩ := ih.mpr hps
        exact ⟨_, setValues_cons_ok.mpr ⟨status, t, l, u, ht, hl, rfl⟩⟩

theorem retStatusOf_eq_success {status : WalStatus} : retStatusOf status = .success ↔ status = .success := by
  cases status <;> simp [retStatusOf]

/-- **The statuses of `setValues` are the outcomes of the sets.** -/
theorem setValues_statuses {s u : Session σ} {ps : List SetParam} {l : List RetStatus}
    (h : setValues stray handle dev s ps = .ok (l, u)) : StatusesTrue stray handle dev s ps l := by
  induction ps generalizing s l with
  | nil =>
      rw [setValues] at h
      injection h with h
      injection h with hl hu
      subst hl
      exact ⟨rfl, fun i p hp => by simp at hp⟩
  | cons p ps ih =>
      obtain ⟨status, t, l', u', hp, hl, he⟩ := setValues_cons_ok.mp h
      obtain ⟨rfl, rfl⟩ := Prod.mk.inj he
      obtain ⟨hlen, hrest⟩ := ih hl
      refine ⟨by simp [hlen], fun i q hq => ?_⟩
      cases i with
      | zero =>
          obtain rfl : p = q := by simpa using hq
          refine ⟨[], s, status, t, rfl, hp, ?_⟩
          rw [List.getElem?_cons_zero, Option.some.injEq, retStatusOf_eq_success]
      | succ i =>
          obtain ⟨before, t', status', u'', hb, hq', hiff⟩ := hrest i q (by simpa using hq)
          refine ⟨retStatusOf status :: before, t', status', u'', ?_, hq', ?_⟩
          · rw [List.take_succ_cons]
            exact setValues_cons_ok.mpr ⟨status, t, before, t', hp, hb, rfl⟩
          · rw [List.getElem?_cons_succ]
            exact hiff

/-! ## The reboot reason -/

theorem setRebootReason_of_not {s t : Session σ} {p : SetParam} (h : setRebootReason stray handle dev s p = .ok t)
    (hp : ¬ Reboots p) : t = s := by
  unfold setRebootReason at h
  split at h
  · next hn =>
    split at h
    · cases h
    · next value hv =>
      rw [if_neg fun he => hp ⟨hn, value, hv, he⟩] at h
      exact (Except.ok.inj h).symm
  · exact (Except.ok.inj h).symm

theorem setRebootReason_sets_iff {s : Session σ} :
    (∃ t, (setValues stray handle dev s [rebootReason]).map Prod.snd = .ok t) ↔
      Resolves stray handle rebootReason.name := by
  have hmap : (∃ t, (setValues stray handle dev s [rebootReason]).map Prod.snd = .ok t) ↔
      ∃ r, setValues stray handle dev s [rebootReason] = .ok r := by
    cases setValues stray handle dev s [rebootReason] <;> simp [Except.map]
  rw [hmap, setValues_ok_iff, List.forall_mem_singleton]
  exact ⟨fun h => h.2, fun h => ⟨by simp [rebootReason], h⟩⟩

theorem setRebootReason_ok_iff {s : Session σ} {p : SetParam} :
    (∃ t, setRebootReason stray handle dev s p = .ok t) ↔
      ¬ (p.name.chars = webpaDeviceRebootParam ∧ p.value = none) ∧
        (Reboots p → Resolves stray handle rebootReason.name) := by
  unfold setRebootReason Reboots
  by_cases hn : p.name.chars = webpaDeviceRebootParam
  · rw [if_pos hn]
    cases hv : p.value with
    | none => simp [hn]
    | some value =>
        by_cases hr : value.chars = webpaDeviceRebootValue
        · simp only [if_pos hr, setRebootReason_sets_iff]
          simp [hn, hr]
        · simp [hn, hr]
  · simp [hn]

theorem setRebootReasons_ok_iff {s : Session σ} {ps : List SetParam} :
    (∃ t, setRebootReasons stray handle dev s ps = .ok t) ↔
      ∀ p ∈ ps, ¬ (p.name.chars = webpaDeviceRebootParam ∧ p.value = none) ∧
        (Reboots p → Resolves stray handle rebootReason.name) := by
  induction ps generalizing s with
  | nil => simp [setRebootReasons]
  | cons p ps ih =>
      rw [List.forall_mem_cons, ← setRebootReason_ok_iff (s := s)]
      cases h : setRebootReason stray handle dev s p with
      | error e => simp [setRebootReasons, h]
      | ok t => simp [setRebootReasons, h, ih]

/-! ## The request -/

/-- An accepted request is answered when it gets to its end. -/
theorem answered_accepted_iff {s : Session σ} {params : List SetParam} (hv : validateParameter params = none) :
    Answered stray handle dev s params ↔ Answerable stray handle params := by
  have hvalue : ∀ p ∈ params, p.value ≠ none := fun p hp => by
    obtain ⟨value, h⟩ := value_of_rejectionOf (validateParameter_eq_none.mp hv p hp)
    simp [h]
  rw [Answered, Answerable, if_pos hv]
  constructor
  · rintro ⟨l, t, hset, -⟩
    cases hr : setRebootReasons stray handle dev s params with
    | error e => simp [processSet, hr] at hset
    | ok s' =>
        rw [processSet, hr] at hset
        simp only [hv] at hset
        refine ⟨fun p hp => (setValues_ok_iff.mp ⟨_, hset⟩ p hp).2, ?_⟩
        rintro ⟨p, hp, hreb⟩
        exact (setRebootReasons_ok_iff.mp ⟨_, hr⟩ p hp).2 hreb
  · rintro ⟨hres, hreb⟩
    obtain ⟨s', hr⟩ := setRebootReasons_ok_iff.mpr fun p hp =>
      ⟨fun h => hvalue p hp h.2, fun h => hreb ⟨p, hp, h⟩⟩
    obtain ⟨⟨l, t⟩, hset⟩ := setValues_ok_iff.mpr fun p hp => ⟨hvalue p hp, hres p hp⟩
    refine ⟨l, t, ?_, ?_⟩
    · rw [processSet, hr]
      simp only [hv]
      exact hset
    · rw [if_pos hv]
      exact ⟨s', hr, setValues_statuses hset⟩

/-- A rejected request of several parameters reports success for the second one. -/
theorem success_mem_rejected {n : Nat} (e : Rejection) :
    RetStatus.success ∉ (List.replicate n RetStatus.success).set 0 (.rejected e) ↔ n ≤ 1 := by
  match n with
  | 0 => simp
  | 1 => simp
  | n + 2 => simp [List.replicate_succ]

/-- A rejected request is answered when it has one parameter and the loop before the validation survives it. -/
theorem answered_rejected_iff {s : Session σ} {params : List SetParam} {e : Rejection}
    (hv : validateParameter params = some e) :
    Answered stray handle dev s params ↔ Answerable stray handle params := by
  have hne : validateParameter params ≠ none := by simp [hv]
  simp only [Answered, Answerable, if_neg hne]
  constructor
  · rintro ⟨l, t, hset, -, hsucc⟩
    cases hr : setRebootReasons stray handle dev s params with
    | error e => simp [processSet, hr] at hset
    | ok s' =>
        rw [processSet, hr] at hset
        simp only [hv, Except.ok.injEq, Prod.mk.injEq] at hset
        rw [← hset.1, success_mem_rejected] at hsucc
        have hlen : params.length = 1 := by
          have : params ≠ [] := fun h => by simp [h, validateParameter] at hv
          have := List.length_pos_iff.mpr this
          omega
        obtain ⟨p, rfl⟩ := List.length_eq_one_iff.mp hlen
        exact ⟨p, rfl, (setRebootReasons_ok_iff.mp ⟨_, hr⟩ p List.mem_cons_self).1⟩
  · rintro ⟨p, rfl, hp⟩
    have hnr : ¬ Reboots p := fun h => hne (validateParameter_eq_none.mpr (by simpa using h.accepted))
    obtain ⟨s', hr⟩ := setRebootReason_ok_iff.mpr ⟨hp, fun h => absurd h hnr⟩
    obtain rfl : s' = s := setRebootReason_of_not hr hnr
    refine ⟨[.rejected e], s', ?_, rfl, by simp⟩
    rw [processSet, setRebootReasons, hr]
    simp only [setRebootReasons, hv]
    rfl

end

end

/-- A device that takes every set. -/
def acceptingDevice : Device Unit := ⟨fun d _ => (⟨0, .noFault⟩, d), fun d _ => (.success, d)⟩

/-- A reboot, and a parameter that must not be set. -/
def rebootAndCid : List SetParam :=
  [⟨.ofLiteral "Device.X_CISCO_COM_DeviceControl.RebootDevice", .string, some (.ofLiteral "Device")⟩,
    ⟨.ofLiteral "Device.DeviceInfo.Webpa.X_COMCAST-COM_CID", .string, some (.ofLiteral "1")⟩]

end Tr69HostIf.Transport
