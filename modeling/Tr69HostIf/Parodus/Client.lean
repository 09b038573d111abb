import Mathlib.Algebra.Group.Nat.Defs
import Tr69HostIf.HostIf

/-!
# The parodus client

`libpd_client_mgr` and what it calls of `libpd.cpp`: the thread connects to parodus, with a longer and longer wait
between the attempts (`connect_parodus`), and then answers the requests it receives (`parodus_receive_wait`) until it
is told to stop. What the library answers is an argument, a list that ends where the run is looked at; `Call` lists
the calls the thread makes.

* `client_protocol` : the calls follow the protocol of the library, and a thread that has ended holds no instance;
* `connect_attempts` : the waits between the attempts are 3, 7, 15 and 31 seconds, again and again;
* `requests_answered` : every request is answered once, in the order they come.
-/

namespace Tr69HostIf.Parodus
open Store

/-- `wrp_msg_t`, the members of `u.req` that the thread uses. -/
structure WrpMsg where
  /-- `msg_type == WRP_MSG_TYPE__REQ` -/
  isReq : Bool
  source : Option Text
  dest : Option Text
  transactionUuid : Option Text
  contentType : Option Text
  payload : Option Text
  payloadSize : Nat
  deriving DecidableEq

/-- The answer of `libparodus_init`: its result, and whether there is an instance afterwards. -/
structure InitAnswer where
  ret : Int
  libparodusInstance : Bool
  deriving DecidableEq

/-- The answer of `libparodus_receive`. -/
inductive Received
  /-- 1 -/
  | timeout
  /-- 0, with the message if there is one -/
  | message (wrpMsg : Option WrpMsg)
  /-- another number; the thread then waits to be stopped, and wakes up so often until it is or the time is over -/
  | error (wakeups : Nat)
  deriving DecidableEq

/-- One round of the loop of `parodus_receive_wait`: the flag as it is read first, and the answer. -/
structure Round where
  exitParodusRecv : Bool
  received : Received
  deriving DecidableEq

inductive Call
  | init (answer : InitAnswer)
  | shutdown
  | startTime
  | sleep (seconds : Nat)
  | registerNotifyCallback
  | setInitialNotify
  | receive
  | condTimedwait
  | send (wrpMsg : WrpMsg)
  | freeStruct (wrpMsg : WrpMsg)
  | closeReceiver
  deriving DecidableEq

/-! ## Connecting -/

/-- `max_retry_sleep`. -/
def maxRetrySleep : Nat := 2 ^ 5 - 1

/-- The loop of `connect_parodus`: the calls, and whether it has connected. -/
def connectLoop : List InitAnswer → Nat → Nat → List Call × Bool
  | [], _, _ => ([], false)
  | answer :: inits, c, backoffRetryTime =>
      let backoffRetryTime := if backoffRetryTime < maxRetrySleep then 2 ^ c - 1 else backoffRetryTime
      if answer.ret = 0 then ([.init answer, .startTime], true)
      else
        let next := if backoffRetryTime = maxRetrySleep then (2, 0) else (c + 1, backoffRetryTime)
        let rest := connectLoop inits next.1 next.2
        (.init answer :: .sleep backoffRetryTime :: (if answer.libparodusInstance then [.shutdown] else []) ++ rest.1, rest.2)

/-- `connect_parodus`. -/
def connectParodus (inits : List InitAnswer) : List Call × Bool := connectLoop inits 2 0

/-! ## Requests -/

section
variable {σ : Type*} (processRequest : σ → Option Text → Option Text → Option Text × σ)

/-- The response to a request, whose payload `processRequest` has made. -/
def response (wrpMsg : WrpMsg) (payload : Option Text) : WrpMsg where
  isReq := wrpMsg.isReq
  source := wrpMsg.dest
  dest := wrpMsg.source
  transactionUuid := wrpMsg.transactionUuid
  contentType := some "application/json".toList
  payload := payload
  payloadSize := (payload.getD []).length

/-- `parodus_receive_wait`: the calls, and whether it has returned. -/
def parodusReceiveWait : σ → List Round → List Call × Bool
  | _, [] => ([], false)
  | s, round :: rounds =>
      if round.exitParodusRecv then ([.closeReceiver, .shutdown], true)
      else match round.received with
        | .timeout =>
            let rest := parodusReceiveWait s rounds
            (.receive :: rest.1, rest.2)
        | .error wakeups =>
            let rest := parodusReceiveWait s rounds
            (.receive :: List.replicate wakeups .condTimedwait ++ rest.1, rest.2)
        | .message none =>
            let rest := parodusReceiveWait s rounds
            (.receive :: rest.1, rest.2)
        | .message (some wrpMsg) =>
            if wrpMsg.isReq then
              let r := processRequest s wrpMsg.payload wrpMsg.transactionUuid
              let rest := parodusReceiveWait r.2 rounds
              (.receive :: .send (response wrpMsg r.1) :: .freeStruct (response wrpMsg r.1) :: .freeStruct wrpMsg :: rest.1, rest.2)
            else
              let rest := parodusReceiveWait s rounds
              (.receive :: rest.1, rest.2)

/-- `libpd_client_mgr`: the calls, and whether the thread has ended. -/
def libpdClientMgr (dataModel : Bool) (s : σ) (inits : List InitAnswer) (rounds : List Round) : List Call × Bool :=
  if dataModel then
    let connect := connectParodus inits
    if connect.2 then
      let receive := parodusReceiveWait processRequest s rounds
      (connect.1 ++ .registerNotifyCallback :: .setInitialNotify :: receive.1, receive.2)
    else (connect.1, false)
  else ([], true)

end

/-- The message of `sendNotification`. -/
def eventMsg (payload source destination : Text) : WrpMsg where
  isReq := false
  source := some source
  dest := some destination
  transactionUuid := none
  contentType := some "application/json".toList
  payload := some payload
  payloadSize := payload.length

/-- The loop of `sendNotification`, with so many attempts left; `libparodusSend k` is the result of the `k`-th call. -/
def sendLoop (libparodusSend : Nat → Int) (wrpMsg : WrpMsg) : Nat → Nat → Nat → List Call
  | 0, _, _ => []
  | left + 1, retryCount, c =>
      if libparodusSend retryCount = 0 then [.send wrpMsg]
      else .send wrpMsg :: .sleep (2 ^ c - 1) :: sendLoop libparodusSend wrpMsg left (retryCount + 1) (c + 1)

/-- `sendNotification`. -/
def sendNotification (libparodusSend : Nat → Int) (payload source destination : Text) : List Call :=
  let wrpMsg := eventMsg payload source destination
  sendLoop libparodusSend wrpMsg 4 0 2 ++ [.freeStruct wrpMsg]

/-! ## The protocol of the library -/

/-- An instance of the library. -/
inductive Instance
  | absent
  /-- made by an `init` that has failed -/
  | failed
  | connected
  /-- its receiver is closed -/
  | closed
  deriving DecidableEq

/-- What a call does to the instance, none for a call that it does not allow. -/
def Instance.next : Instance → Call → Option Instance
  | .absent, .init answer =>
      some (if answer.ret = 0 then .connected else if answer.libparodusInstance then .failed else .absent)
  | _, .init _ => none
  | .failed, .shutdown => some .absent
  | .closed, .shutdown => some .absent
  | _, .shutdown => none
  | .connected, .receive => some .connected
  | _, .receive => none
  | .connected, .send _ => some .connected
  | _, .send _ => none
  | .connected, .closeReceiver => some .closed
  | _, .closeReceiver => none
  | i, _ => some i

/-- From `i` on the calls follow the protocol: to `done` where the function has returned, else to `here`. -/
def Follows (i here done : Instance) (r : List Call × Bool) : Prop :=
  r.1.foldlM Instance.next i = some (if r.2 then done else here)

theorem connectLoop_follows (inits : List InitAnswer) (c backoffRetryTime : Nat) :
    Follows .absent .absent .connected (connectLoop inits c backoffRetryTime) := by
  induction inits generalizing c backoffRetryTime with
  | nil => rfl
  | cons answer inits ih =>
      unfold Follows at ih ⊢
      rw [connectLoop]
      by_cases hret : answer.ret = 0
      · simp [Instance.next, hret]
      · cases hi : answer.libparodusInstance with
        | true => simp [Instance.next, hret, hi, ih]
        | false => simp [Instance.next, hret, hi, ih]

section
variable {σ : Type*} (processRequest : σ → Option Text → Option Text → Option Text × σ)

theorem condTimedwait_follows (n : Nat) (calls : List Call) :
    (List.replicate n Call.condTimedwait ++ calls).foldlM Instance.next .connected =
      calls.foldlM Instance.next .connected := by
  induction n with
  | zero => rfl
  | succ n ih =>
      rw [List.replicate_succ, List.cons_append, List.foldlM_cons]
      exact ih

theorem parodusReceiveWait_follows (s : σ) (rounds : List Round) :
    Follows .connected .connected .absent (parodusReceiveWait processRequest s rounds) := by
  induction rounds generalizing s with
  | nil => rfl
  | cons round rounds ih =>
      rw [parodusReceiveWait]
      by_cases hexit : round.exitParodusRecv = true
      · rw [if_pos hexit]
        rfl
      · rw [if_neg hexit]
        split
        · exact ih s
        · exact (condTimedwait_follows _ _).trans (ih s)
        · exact ih s
        · next wrpMsg _ =>
          by_cases hreq : wrpMsg.isReq = true
          · simp only [hreq, if_true]
            exact ih _
          · simp only [hreq]
            exact ih s

/-- **The calls of the thread follow the protocol**, wherever the run is looked at, and a thread that has ended has
given its instance back. -/
theorem client_protocol (dataModel : Bool) (s : σ) (inits : List InitAnswer) (rounds : List Round) :
    ∃ i, (libpdClientMgr processRequest dataModel s inits rounds).1.foldlM Instance.next .absent = some i ∧
      ((libpdClientMgr processRequest dataModel s inits rounds).2 = true → i = .absent) := by
  have hconnect := connectLoop_follows inits 2 0
  unfold Follows at hconnect
  unfold libpdClientMgr connectParodus
  cases dataModel with
  | false => exact ⟨.absent, rfl, fun _ => rfl⟩
  | true =>
      by_cases hc : (connectLoop inits 2 0).2 = true
      · rw [if_pos hc] at hconnect
        have hreceive := parodusReceiveWait_follows processRequest s rounds
        simp only [if_true, hc, List.foldlM_append, hconnect]
        refine ⟨_, hreceive, fun hend => ?_⟩
        rw [if_pos hend]
      · rw [if_neg hc] at hconnect
        simp only [if_true, hc]
        exact ⟨.absent, hconnect, fun _ => rfl⟩

end

/-! ## The waits between the attempts -/

/-- The calls of the `k`-th attempt that fails, counted from 0. -/
def attempt (k : Nat) (answer : InitAnswer) : List Call :=
  .init answer :: .sleep (2 ^ (k % 4 + 2) - 1) :: if answer.libparodusInstance then [.shutdown] else []

/-- `backoffRetryTime` and `c` along the attempts, whose numbers count by 4. -/
theorem backoff_cycle : ∀ r < 4,
    (if (if r = 0 then 0 else 2 ^ (r + 1) - 1) < maxRetrySleep then 2 ^ (r + 2) - 1
      else if r = 0 then 0 else 2 ^ (r + 1) - 1) = 2 ^ (r + 2) - 1 ∧
    (if 2 ^ (r + 2) - 1 = maxRetrySleep then (2, 0) else (r + 2 + 1, 2 ^ (r + 2) - 1)) =
      ((r + 1) % 4 + 2, if (r + 1) % 4 = 0 then 0 else 2 ^ ((r + 1) % 4 + 1) - 1) := by
  decide

theorem connectLoop_eq (inits : List InitAnswer) (k : Nat) :
    connectLoop inits (k % 4 + 2) (if k % 4 = 0 then 0 else 2 ^ (k % 4 + 1) - 1) =
      (((inits.takeWhile fun a => a.ret ≠ 0).zipIdx k).flatMap (fun p => attempt p.2 p.1) ++
        match inits.find? fun a => a.ret = 0 with
        | some a => [.init a, .startTime]
        | none => [],
        (inits.find? fun a => a.ret = 0).isSome) := by
  induction inits generalizing k with
  | nil => rfl
  | cons answer inits ih =>
      obtain ⟨hbackoff, hnext⟩ := backoff_cycle (k % 4) (Nat.mod_lt k (by decide))
      rw [Nat.mod_add_mod] at hnext
      rw [connectLoop, hbackoff, hnext]
      by_cases hret : answer.ret = 0
      · simp [hret]
      · simp only [hret, if_false, ih]
        simp [hret, attempt, List.zipIdx_cons]

/-- **The attempts to connect.** -/
theorem connect_attempts (inits : List InitAnswer) :
    connectParodus inits =
      (((inits.takeWhile fun a => a.ret ≠ 0).zipIdx).flatMap (fun p => attempt p.2 p.1) ++
        match inits.find? fun a => a.ret = 0 with
        | some a => [.init a, .startTime]
        | none => [],
        (inits.find? fun a => a.ret = 0).isSome) :=
  connectLoop_eq inits 0

theorem sendLoop_eq (libparodusSend : Nat → Int) (wrpMsg : WrpMsg) (left k : Nat) :
    sendLoop libparodusSend wrpMsg left k (k + 2) =
      ((List.range' k left).takeWhile fun j => libparodusSend j ≠ 0).flatMap
          (fun j => [.send wrpMsg, .sleep (2 ^ (j + 2) - 1)]) ++
        if ∃ j ∈ List.range' k left, libparodusSend j = 0 then [.send wrpMsg] else [] := by
  induction left generalizing k with
  | zero => rfl
  | succ left ih =>
      rw [sendLoop, List.range'_succ]
      by_cases hk : libparodusSend k = 0
      · simp [hk]
      · have hc : k + 2 + 1 = k + 1 + 2 := by omega
        have hex : (∃ j ∈ k :: List.range' (k + 1) left, libparodusSend j = 0) ↔
            ∃ j ∈ List.range' (k + 1) left, libparodusSend j = 0 := by
          simp [hk]
        rw [if_neg hk, hc, ih, if_congr hex rfl rfl]
        simp [hk]

/-- The attempts to send a notification: four at most, the last one without a wait when it succeeds. -/
theorem sendNotification_eq (libparodusSend : Nat → Int) (payload source destination : Text) :
    let wrpMsg := eventMsg payload source destination
    sendNotification libparodusSend payload source destination =
      ((List.range' 0 4).takeWhile fun k => libparodusSend k ≠ 0).flatMap
          (fun k => [.send wrpMsg, .sleep (2 ^ (k + 2) - 1)]) ++
        (if ∃ k ∈ List.range' 0 4, libparodusSend k = 0 then [.send wrpMsg] else []) ++ [.freeStruct wrpMsg] := by
  intro wrpMsg
  rw [sendNotification, sendLoop_eq]

/-! ## Requests and responses -/

/-- The request of a round. -/
def Round.request (round : Round) : Option WrpMsg :=
  match round.received with
  | .message (some wrpMsg) => if wrpMsg.isReq then some wrpMsg else none
  | _ => none

/-- The requests of a run: those received before the thread is told to stop. -/
def requests (rounds : List Round) : List WrpMsg :=
  (rounds.takeWhile fun round => !round.exitParodusRecv).filterMap Round.request

def Call.sent : Call → Option WrpMsg
  | .send wrpMsg => some wrpMsg
  | _ => none

def Call.freed : Call → Option WrpMsg
  | .freeStruct wrpMsg => some wrpMsg
  | _ => none

section
variable {σ : Type*} (processRequest : σ → Option Text → Option Text → Option Text × σ)

/-- The responses to requests that are processed one after the other. -/
def responses : σ → List WrpMsg → List WrpMsg
  | _, [] => []
  | s, wrpMsg :: rest =>
      let r := processRequest s wrpMsg.payload wrpMsg.transactionUuid
      response wrpMsg r.1 :: responses r.2 rest

/-- A round without a request sends and frees nothing. -/
theorem parodusReceiveWait_cons (s : σ) (round : Round) (rounds : List Round) (hexit : round.exitParodusRecv = false) :
    match round.request with
    | some wrpMsg =>
        let r := processRequest s wrpMsg.payload wrpMsg.transactionUuid
        (parodusReceiveWait processRequest s (round :: rounds)).1 =
          .receive :: .send (response wrpMsg r.1) :: .freeStruct (response wrpMsg r.1) :: .freeStruct wrpMsg ::
            (parodusReceiveWait processRequest r.2 rounds).1
    | none =>
        ∃ n, (parodusReceiveWait processRequest s (round :: rounds)).1 =
          .receive :: List.replicate n .condTimedwait ++ (parodusReceiveWait processRequest s rounds).1 := by
  rw [parodusReceiveWait, if_neg (by rw [hexit]; decide), Round.request]
  cases round.received with
  | timeout => exact ⟨0, rfl⟩
  | error wakeups => exact ⟨wakeups, rfl⟩
  | message m =>
      cases m with
      | none => exact ⟨0, rfl⟩
      | some wrpMsg =>
          cases hreq : wrpMsg.isReq with
          | true => simp [hreq]
          | false =>
              simp only [hreq]
              exact ⟨0, rfl⟩

theorem filterMap_waits {f : Call → Option WrpMsg} (hr : f .receive = none) (hw : f .condTimedwait = none) {n : Nat}
    {calls : List Call} : (Call.receive :: List.replicate n Call.condTimedwait ++ calls).filterMap f = calls.filterMap f := by
  rw [List.cons_append, List.filterMap_cons_none hr, List.filterMap_append]
  simp [hw]

/-- **Every request is answered once**, in the order they come, on what the requests before it have made of the
device; the request and its response are freed, and nothing else is. -/
theorem requests_answered (s : σ) (rounds : List Round) :
    (parodusReceiveWait processRequest s rounds).1.filterMap Call.sent = responses processRequest s (requests rounds) ∧
      (parodusReceiveWait processRequest s rounds).1.filterMap Call.freed =
        ((responses processRequest s (requests rounds)).zip (requests rounds)).flatMap fun p => [p.1, p.2] := by
  induction rounds generalizing s with
  | nil => exact ⟨rfl, rfl⟩
  | cons round rounds ih =>
      cases hexit : round.exitParodusRecv with
      | true =>
          rw [requests, List.takeWhile_cons, hexit, parodusReceiveWait, if_pos hexit]
          exact ⟨rfl, rfl⟩
      | false =>
          have hround := parodusReceiveWait_cons processRequest s round rounds hexit
          have hrequests : requests (round :: rounds) = round.request.toList ++ requests rounds := by
            rw [requests, List.takeWhile_cons, hexit]
            cases hr : round.request <;> simp [requests, hr]
          cases hr : round.request with
          | some wrpMsg =>
              rw [hr] at hround
              rw [hrequests, hr, hround]
              obtain ⟨hsent, hfreed⟩ := ih (processRequest s wrpMsg.payload wrpMsg.transactionUuid).2
              exact ⟨congrArg (List.cons _) hsent, congrArg (fun l => _ :: _ :: l) hfreed⟩
          | none =>
              rw [hr] at hround
              obtain ⟨n, hcalls⟩ := hround
              obtain ⟨hsent, hfreed⟩ := ih s
              rw [hrequests, hr, hcalls, filterMap_waits (f := Call.sent) rfl rfl,
                filterMap_waits (f := Call.freed) rfl rfl]
              exact ⟨hsent, hfreed⟩

end

end Tr69HostIf.Parodus
