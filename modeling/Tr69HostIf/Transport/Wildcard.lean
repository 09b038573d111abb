import Tr69HostIf.Transport.Defaults

/-!
# Children of a wildcard and single GETs

* `wildcardLoop_eq` : with handlers that are a `Behaviour`, no round of WebPA's loop over the children leaves
  anything for the next one;
* `HttpChildAgrees`, `WebpaChildAgrees` : the entry of a child is that of a GET for the child alone;
* `HttpAlike`, `WebpaAlike` : the handlers, asked without requestor and bootstrap level (HTTP: without the level),
  answer as they do when asked with them, or as the default says;
* `wildcard_child_iff` : the entries agree exactly if the handlers answer alike.
-/

namespace Tr69HostIf.Transport
open Store Clib Waldb

/-- The text of a handler's answer in the HTTP server. -/
def httpText : Except FaultCode Value → Option Text
  | .ok v => some (getStringValue v.paramType (v.put .zero))
  | .error _ => none

/-- The parameter that WebPA makes of a handler's answer. -/
def webpaShown (name : CString) : Except FaultCode Value → Option WebpaParam
  | .ok v => some ⟨copyName name, webpaValue (Message.cleared.answered v), converttoWalType v.paramType⟩
  | .error _ => none

/-- The same name, type and text. -/
structure HttpParam.Same (p q : HttpParam) : Prop where
  name : p.name = q.name
  value : p.value.getD [] = q.value.getD []
  type : p.type = q.type

/-- The parameter in WebPA's answer to a single GET; `rbus` is the answer to a forwarded one. -/
def GetAnswer.single (rbus : CString → Option WebpaParam) (name : CString) : GetAnswer → Option WebpaParam
  | .answered params _ => params.head?
  | .forwarded => rbus name

section
variable (b : Behaviour) (callerID : Text) (varStore : Text → Text) (stray : Stray) (dm : DataModel)
variable (expand : CString → Option (List (CString × Text))) (selfPrint : SelfPrint) (rbus : CString → Option WebpaParam)

/-- The HTTP server shows the child number `i` of a wildcard as it shows the child alone. -/
def HttpChildAgrees (wildcard child : CString) (i : Nat) : Prop :=
  ∃ slot slot₁ p q, httpGet b.handler callerID varStore stray dm expand [wildcard] = .ok [slot] ∧
    httpGet b.handler callerID varStore stray dm expand [child] = .ok [slot₁] ∧
    slot.params[i]? = some p ∧ slot₁.params = [q] ∧ p.Same q

/-- WebPA shows the child after `before` as it shows the child alone: what its round adds to the answer is the
answer to the single GET. -/
def WebpaChildAgrees (wildcard : CString) (before : List (CString × Text)) (child : CString × Text) : Prop :=
  ∃ shown after answer,
    getParamInfo selfPrint stray b.handler expand (some dm) wildcard =
      .ok (.answered (wildcardLoop b.handler .cleared before ++ shown.toList ++ after) .success) ∧
    wildcardLoop b.handler .cleared (before ++ [child]) = wildcardLoop b.handler .cleared before ++ shown.toList ∧
    getParamInfo selfPrint stray b.handler expand (some dm) child.1 = .ok answer ∧ shown = answer.single rbus child.1

/-- The handlers answer alike for the HTTP server. -/
def HttpAlike (child : CString × Text) : Prop :=
  let wild := httpText (b (copyName child.1) (getHostIfParamType (getWdmpDataType child.2)) (requestorOf callerID) .none)
  ((maxParameterNameLen < child.1.chars.length ∨ lookup stray dm child.1.chars = .ok none) ∧
      getWdmpDataType child.2 = .none ∧ wild.getD [] = []) ∨
    (child.1.chars.length ≤ maxParameterNameLen ∧ ∃ info, lookup stray dm child.1.chars = .ok (some info) ∧
      getWdmpDataType child.2 = (info.dataType.map getWdmpDataType).getD .none ∧
      wild.getD [] = (httpText (b (copyName child.1) (getHostIfParamType (getWdmpDataType child.2)) (requestorOf callerID)
        (getBSUpdateEnum info.bsUpdate))).getD (info.defaultValue.getD []))

/-- The handlers answer alike for WebPA. -/
def WebpaAlike (child : CString × Text) : Prop :=
  let wild := webpaShown child.1 (b (copyName child.1) (converttohostIfType child.2) .none .none)
  (lookup stray dm child.1.chars = .ok none ∧ wild = rbus child.1) ∨
    ∃ info, lookup stray dm child.1.chars = .ok (some info) ∧
      wild = (webpaShown child.1 (b (copyName child.1) (hostIfType info) .webpa (getBSUpdateEnum info.bsUpdate))).or
        (info.defaultValue.map fun d => webpaParam
          ((getMessage (copyName child.1) (hostIfType info) .webpa (getBSUpdateEnum info.bsUpdate)).defaulted selfPrint d))

end

/-! ## Handlers that are functions -/

section
variable {b : Behaviour} {m : Message} {v : Value} {f : FaultCode}

theorem Behaviour.handler_ok (h : b m.paramName m.paramtype m.requestor m.bsUpdate = .ok v) :
    b.handler m = (0, m.answered v) := by
  rw [Behaviour.handler, h]

theorem Behaviour.handler_error (h : b m.paramName m.paramtype m.requestor m.bsUpdate = .error f) :
    b.handler m = (-1, { m with faultCode := f }) := by
  rw [Behaviour.handler, h]

/-- What WebPA shows of an answer depends on the value only, if the buffer was zeroed. -/
theorem webpaParam_answered (hm : m.paramValue = .zero) :
    webpaParam (m.answered v) =
      ⟨m.paramName, webpaValue (Message.cleared.answered v), converttoWalType v.paramType⟩ := by
  have hvalue : webpaValue (m.answered v) = webpaValue (Message.cleared.answered v) := by
    simp only [webpaValue, Message.answered, hm, Message.cleared]
  rw [webpaParam, hvalue]
  rfl

end

/-! ## WebPA's loop -/

section
variable (b : Behaviour)

/-- What holds of `Param` at the start of every round. -/
structure Message.Fresh (m : Message) : Prop where
  value : m.paramValue = .zero
  requestor : m.requestor = .none
  bsUpdate : m.bsUpdate = .none

theorem Message.fresh_cleared : Message.cleared.Fresh := ⟨rfl, rfl, rfl⟩

/-- What the round of a child adds to the answer. -/
def webpaEntry (child : CString × Text) : Option WebpaParam :=
  webpaShown child.1 (b (copyName child.1) (converttohostIfType child.2) .none .none)

/-- One round adds the answer of the child, and leaves a fresh message. -/
theorem wildcardLoop_cons {m : Message} (hm : m.Fresh) (child : CString × Text) :
    ∃ m' : Message, m'.Fresh ∧ ∀ children, wildcardLoop b.handler m (child :: children) =
      (webpaEntry b child).toList ++ wildcardLoop b.handler m' children := by
  obtain ⟨hvalue, hreq, hbs⟩ := hm
  obtain ⟨q, hq⟩ : ∃ q : Message, q = { m with paramName := copyName child.1, paramtype := converttohostIfType child.2 } :=
    ⟨_, rfl⟩
  have hasked : b q.paramName q.paramtype q.requestor q.bsUpdate =
      b (copyName child.1) (converttohostIfType child.2) .none .none := by
    rw [hq]
    simp only [hreq, hbs]
  cases h : b (copyName child.1) (converttohostIfType child.2) .none .none with
  | ok v =>
      refine ⟨.cleared, Message.fresh_cleared, fun children => ?_⟩
      have hzero : q.paramValue = .zero := by rw [hq]; exact hvalue
      rw [wildcardLoop, ← hq, Behaviour.handler_ok (hasked.trans h), webpaEntry, h]
      simp only [if_true]
      rw [webpaParam_answered hzero, hq]
      rfl
  | error f =>
      have hfresh : Message.Fresh { q with faultCode := f } := by
        rw [hq]
        exact ⟨hvalue, hreq, hbs⟩
      refine ⟨_, hfresh, fun children => ?_⟩
      rw [wildcardLoop, ← hq, Behaviour.handler_error (hasked.trans h), webpaEntry, h]
      rfl

/-- **Every child of a wildcard is answered by itself.** -/
theorem wildcardLoop_eq {m : Message} (hm : m.Fresh) (children : List (CString × Text)) :
    wildcardLoop b.handler m children = children.filterMap (webpaEntry b) := by
  induction children generalizing m with
  | nil => rfl
  | cons child children ih =>
      obtain ⟨m', hm', hround⟩ := wildcardLoop_cons b hm child
      rw [hround, ih hm', List.filterMap_cons]
      cases webpaEntry b child with
      | none => rfl
      | some p => rfl

end

/-! ## The two paths -/

section
variable (b : Behaviour) (callerID : Text) (varStore : Text → Text) (stray : Stray) (dm : DataModel)
variable (expand : CString → Option (List (CString × Text))) (selfPrint : SelfPrint) (rbus : CString → Option WebpaParam)
variable {wildcard : CString} {before after : List (CString × Text)} {child : CString × Text}

/-- A GET of the HTTP server through handlers that are functions. -/
theorem invokeGet_behaviour (name : CString) (type : DataType) (bsUpdate : SourceType) :
    invokeGet b.handler callerID name type bsUpdate =
      match b (copyName name) (getHostIfParamType type) (requestorOf callerID) bsUpdate with
      | .ok v => (getStringValue v.paramType (v.put .zero), .success)
      | .error _ => ([], .errInternalError) := by
  cases h : b (copyName name) (getHostIfParamType type) (requestorOf callerID) bsUpdate with
  | ok v =>
      simp only [invokeGet]
      rw [Behaviour.handler_ok h]
      rfl
  | error f =>
      simp only [invokeGet]
      rw [Behaviour.handler_error h]
      rfl

theorem invokeGet_text (name : CString) (type : DataType) (bsUpdate : SourceType) :
    (invokeGet b.handler callerID name type bsUpdate).1 =
      (httpText (b (copyName name) (getHostIfParamType type) (requestorOf callerID) bsUpdate)).getD [] := by
  rw [invokeGet_behaviour]
  cases b (copyName name) (getHostIfParamType type) (requestorOf callerID) bsUpdate with
  | ok v => rfl
  | error f => rfl

theorem orDefault_text (default : Option Text) (name : CString) (type : DataType) (bsUpdate : SourceType) :
    (orDefault default (invokeGet b.handler callerID name type bsUpdate)).1 =
      (httpText (b (copyName name) (getHostIfParamType type) (requestorOf callerID) bsUpdate)).getD (default.getD []) := by
  rw [invokeGet_behaviour]
  cases b (copyName name) (getHostIfParamType type) (requestorOf callerID) bsUpdate with
  | ok v => rfl
  | error f =>
      rw [orDefault_of_failure (fun h => by cases h)]
      rfl

theorem httpGet_wildcard (hwild : isWildCardParam wildcard.chars = true)
    (hlen : wildcard.chars.length ≤ maxParameterNameLen) {children : List (CString × Text)} (hexp : expand wildcard = some children) :
    httpGet b.handler callerID varStore stray dm expand [wildcard] =
      .ok [⟨children.map fun c => (httpChild b.handler callerID c).1,
        if children.all fun c => (httpChild b.handler callerID c).2 then .success else .errValueIsEmpty⟩] := by
  apply httpGet_singleton b.handler callerID varStore stray dm expand (s := .init)
  simp only [httpGetSlot, if_neg (Nat.not_lt.mpr hlen), hwild, if_true, hexp]

theorem httpGet_unknown (hs : SingleName child.1) (hrfc : isRfcVariable child.1.chars = false)
    (hfound : lookup stray dm child.1.chars = .ok none) :
    httpGet b.handler callerID varStore stray dm expand [child.1] =
      .ok [⟨[⟨child.1, some [], .none⟩], .errInvalidParameterName⟩] := by
  apply httpGet_singleton b.handler callerID varStore stray dm expand (s := .init)
  simp only [httpGetSlot, if_neg (Nat.not_lt.mpr hs.1), hs.2, hrfc, Bool.false_eq_true, if_false, hfound]
  rfl

theorem httpGet_found (hs : SingleName child.1) (hrfc : isRfcVariable child.1.chars = false) {info : DataModelParam}
    (hfound : lookup stray dm child.1.chars = .ok (some info)) :
    httpGet b.handler callerID varStore stray dm expand [child.1] =
      let r := orDefault info.defaultValue (invokeGet b.handler callerID child.1
        ((info.dataType.map getWdmpDataType).getD .none) (getBSUpdateEnum info.bsUpdate))
      .ok [⟨[⟨child.1, some r.1, (info.dataType.map getWdmpDataType).getD .none⟩], r.2⟩] := by
  apply httpGet_singleton b.handler callerID varStore stray dm expand
    (s := ⟨(info.dataType.map getWdmpDataType).getD .none, false⟩)
  simp only [httpGetSlot, if_neg (Nat.not_lt.mpr hs.1), hs.2, hrfc, Bool.false_eq_true, if_false, hfound, LoopState.init]

/-- What has to be compared in the HTTP server. -/
theorem httpChildAgrees_iff (hwild : isWildCardParam wildcard.chars = true)
    (hlen : wildcard.chars.length ≤ maxParameterNameLen) (hexp : expand wildcard = some (before ++ child :: after))
    {q : HttpParam} {status : WdmpStatus} (hq : q.name = child.1)
    (hsingle : httpGet b.handler callerID varStore stray dm expand [child.1] = .ok [⟨[q], status⟩]) :
    HttpChildAgrees b callerID varStore stray dm expand wildcard child.1 before.length ↔
      (httpText (b (copyName child.1) (getHostIfParamType (getWdmpDataType child.2)) (requestorOf callerID) .none)).getD [] =
        q.value.getD [] ∧ getWdmpDataType child.2 = q.type := by
  have hlist := httpGet_wildcard b callerID varStore stray dm expand hwild hlen hexp
  have hentry : ((before ++ child :: after).map fun c => (httpChild b.handler callerID c).1)[before.length]? =
      some (httpChild b.handler callerID child).1 := by
    rw [List.getElem?_map, List.getElem?_append_right (Nat.le_refl _), Nat.sub_self]
    rfl
  rw [← invokeGet_text]
  constructor
  · rintro ⟨slot, slot₁, p, q', hw, hc, hp, hq', hsame⟩
    rw [hlist] at hw
    rw [hsingle] at hc
    cases hw
    cases hc
    cases hq'
    rw [hentry] at hp
    cases hp
    exact ⟨hsame.value, hsame.type⟩
  · rintro ⟨hvalue, htype⟩
    exact ⟨_, _, _, q, hlist, hsingle, hentry, rfl, hq.symm, hvalue, htype⟩

/-- **The HTTP server shows a child as it shows the child alone exactly if the handlers answer alike.** -/
theorem httpChildAgrees_iff_alike (hwild : isWildCardParam wildcard.chars = true)
    (hlen : wildcard.chars.length ≤ maxParameterNameLen) (hexp : expand wildcard = some (before ++ child :: after))
    (hchild : isWildCardParam child.1.chars = false) (hrfc : isRfcVariable child.1.chars = false) :
    HttpChildAgrees b callerID varStore stray dm expand wildcard child.1 before.length ↔
      HttpAlike b callerID stray dm child := by
  rcases Nat.lt_or_ge maxParameterNameLen child.1.chars.length with hlong | hshort
  · rw [httpChildAgrees_iff b callerID varStore stray dm expand hwild hlen hexp rfl
      (httpGet_overlong hlong callerID varStore expand)]
    simp only [HttpAlike, hlong, true_or, true_and, Option.getD_none, Nat.not_le.mpr hlong, false_and, or_false]
    exact and_comm
  · have hs : SingleName child.1 := ⟨hshort, hchild⟩
    obtain ⟨r, hr⟩ := lookup_single stray dm hs
    cases r with
    | none =>
        rw [httpChildAgrees_iff b callerID varStore stray dm expand hwild hlen hexp rfl
          (httpGet_unknown b callerID varStore stray dm expand hs hrfc hr)]
        simp only [HttpAlike, hr, or_true, true_and, Option.getD_some, Except.ok.injEq, reduceCtorEq, false_and,
          exists_false, and_false, or_false]
        exact and_comm
    | some info =>
        rw [httpChildAgrees_iff b callerID varStore stray dm expand hwild hlen hexp rfl
          (httpGet_found b callerID varStore stray dm expand hs hrfc hr)]
        simp only [Option.getD_some, orDefault_text]
        simp only [HttpAlike, hr, Nat.not_lt.mpr hshort, hshort, Except.ok.injEq, Option.some.injEq, reduceCtorEq, or_self, false_and,
          false_or, true_and, exists_eq_left']
        constructor
        · rintro ⟨hvalue, htype⟩
          rw [← htype] at hvalue
          exact ⟨htype, hvalue⟩
        · rintro ⟨htype, hvalue⟩
          rw [← htype]
          exact ⟨hvalue, rfl⟩

theorem getParamInfo_wildcard (hwild : isWildCardParam wildcard.chars = true)
    (hexp : expand wildcard = some (before ++ child :: after)) :
    getParamInfo selfPrint stray b.handler expand (some dm) wildcard =
      .ok (.answered ((before ++ child :: after).filterMap (webpaEntry b)) .success) := by
  rw [← wildcardLoop_eq b Message.fresh_cleared]
  obtain ⟨c, cs, hcs⟩ : ∃ c cs, before ++ child :: after = c :: cs := List.exists_cons_of_ne_nil (by simp)
  simp only [getParamInfo, hwild, if_true, hexp, hcs]

/-- What has to be compared in WebPA. -/
theorem webpaChildAgrees_iff (hwild : isWildCardParam wildcard.chars = true)
    (hexp : expand wildcard = some (before ++ child :: after)) {answer : GetAnswer}
    (hsingle : getParamInfo selfPrint stray b.handler expand (some dm) child.1 = .ok answer) :
    WebpaChildAgrees b stray dm expand selfPrint rbus wildcard before child ↔
      webpaEntry b child = answer.single rbus child.1 := by
  have hround : (before ++ [child]).filterMap (webpaEntry b) =
      before.filterMap (webpaEntry b) ++ (webpaEntry b child).toList := by
    rw [List.filterMap_append, List.filterMap_cons]
    cases webpaEntry b child with
    | none => rfl
    | some p => rfl
  unfold WebpaChildAgrees
  simp only [wildcardLoop_eq b Message.fresh_cleared, hround, List.append_cancel_left_eq]
  constructor
  · rintro ⟨shown, rest, answer', -, hshown, hanswer, heq⟩
    rw [hsingle] at hanswer
    cases hanswer
    have : webpaEntry b child = shown := by
      cases hw : webpaEntry b child with
      | none =>
          rw [hw] at hshown
          cases shown with
          | none => rfl
          | some p => cases hshown
      | some p =>
          rw [hw] at hshown
          cases shown with
          | none => cases hshown
          | some p' =>
              cases hshown
              rfl
    rw [this, heq]
  · intro heq
    refine ⟨webpaEntry b child, after.filterMap (webpaEntry b), answer, ?_, rfl, hsingle, heq⟩
    rw [getParamInfo_wildcard b stray dm expand selfPrint hwild hexp, ← hround, ← List.filterMap_append,
      List.append_assoc]
    rfl

theorem single_found (hchild : isWildCardParam child.1.chars = false) {info : DataModelParam}
    (hfound : lookup stray dm child.1.chars = .ok (some info)) :
    ∃ answer, getParamInfo selfPrint stray b.handler expand (some dm) child.1 = .ok answer ∧
      answer.single rbus child.1 =
        (webpaShown child.1 (b (copyName child.1) (hostIfType info) .webpa (getBSUpdateEnum info.bsUpdate))).or
          (info.defaultValue.map fun d => webpaParam ((getMessage (copyName child.1) (hostIfType info) .webpa
            (getBSUpdateEnum info.bsUpdate)).defaulted selfPrint d)) := by
  cases h : b (copyName child.1) (hostIfType info) .webpa (getBSUpdateEnum info.bsUpdate) with
  | ok v =>
      have hget := Behaviour.handler_ok (b := b) (v := v)
        (m := getMessage (copyName child.1) (hostIfType info) .webpa (getBSUpdateEnum info.bsUpdate)) h
      simp only [getParamInfo, hchild, Bool.false_eq_true, if_false, hfound, getParamValues, hget, if_true]
      refine ⟨_, rfl, ?_⟩
      simp only [GetAnswer.single, webpaShown, Option.some_or, List.head?_cons]
      rw [webpaParam_answered rfl]
      rfl
  | error f =>
      have hget := Behaviour.handler_error (b := b) (f := f)
        (m := getMessage (copyName child.1) (hostIfType info) .webpa (getBSUpdateEnum info.bsUpdate)) h
      simp only [getParamInfo, hchild, Bool.false_eq_true, if_false, hfound, getParamValues, hget]
      cases info.defaultValue with
      | none => exact ⟨_, rfl, rfl⟩
      | some d => exact ⟨_, rfl, rfl⟩

/-- **WebPA shows a child as it shows the child alone exactly if the handlers answer alike.** -/
theorem webpaChildAgrees_iff_alike (hwild : isWildCardParam wildcard.chars = true)
    (hexp : expand wildcard = some (before ++ child :: after)) (hchild : isWildCardParam child.1.chars = false) :
    WebpaChildAgrees b stray dm expand selfPrint rbus wildcard before child ↔
      WebpaAlike b stray dm selfPrint rbus child := by
  cases hr : lookup stray dm child.1.chars with
  | error f =>
      -- neither side: the single GET has no answer, and the name is neither unknown nor known
      have hsingle : getParamInfo selfPrint stray b.handler expand (some dm) child.1 = .error f := by
        simp only [getParamInfo, hchild, Bool.false_eq_true, if_false, hr]
      refine iff_of_false ?_ ?_
      · rintro ⟨shown, rest, answer, -, -, hanswer, -⟩
        rw [hsingle] at hanswer
        cases hanswer
      · simp [WebpaAlike, hr]
  | ok r =>
      cases r with
      | none =>
          have hsingle : getParamInfo selfPrint stray b.handler expand (some dm) child.1 = .ok .forwarded := by
            simp only [getParamInfo, hchild, Bool.false_eq_true, if_false, hr]
          rw [webpaChildAgrees_iff b stray dm expand selfPrint rbus hwild hexp hsingle]
          simp only [WebpaAlike, hr, true_and, Except.ok.injEq, reduceCtorEq, false_and, exists_false, or_false]
          rfl
      | some info =>
          obtain ⟨answer, hsingle, heq⟩ := single_found b stray dm expand selfPrint rbus hchild hr
          rw [webpaChildAgrees_iff b stray dm expand selfPrint rbus hwild hexp hsingle, heq]
          simp only [WebpaAlike, hr, Except.ok.injEq, Option.some.injEq, reduceCtorEq, false_and, false_or,
            exists_eq_left']
          rfl

/-- **A child of a wildcard is shown as a GET of the child alone shows it exactly if the handlers answer alike,** in
the HTTP server and in WebPA. -/
theorem wildcard_child_iff (hwild : isWildCardParam wildcard.chars = true)
    (hlen : wildcard.chars.length ≤ maxParameterNameLen) (hexp : expand wildcard = some (before ++ child :: after))
    (hchild : isWildCardParam child.1.chars = false) (hrfc : isRfcVariable child.1.chars = false) :
    (HttpChildAgrees b callerID varStore stray dm expand wildcard child.1 before.length ↔
        HttpAlike b callerID stray dm child) ∧
      (WebpaChildAgrees b stray dm expand selfPrint rbus wildcard before child ↔
        WebpaAlike b stray dm selfPrint rbus child) :=
  ⟨httpChildAgrees_iff_alike b callerID varStore stray dm expand hwild hlen hexp hchild hrfc,
    webpaChildAgrees_iff_alike b stray dm expand selfPrint rbus hwild hexp hchild⟩

end

/-! ## Two wildcards -/

/-- `Device.ManagementServer.` -/
def serverWildcard : CString := .ofLiteral "Device.ManagementServer."

/-- It expands to one parameter. -/
def expandServer (_ : CString) : Option (List (CString × Text)) := some [(informName, "unsignedInt".toList)]

theorem inform_child_agrees :
    HttpChildAgrees always300 [] (fun _ => []) noStray informModel expandServer serverWildcard informName 0 ∧
      WebpaChildAgrees always300 noStray informModel expandServer keepText (fun _ => none) serverWildcard []
        (informName, "unsignedInt".toList) := by
  have hwild : isWildCardParam serverWildcard.chars = true := by decide +kernel
  have hlen : serverWildcard.chars.length ≤ maxParameterNameLen := by decide +kernel
  have hexp : expandServer serverWildcard = some ([] ++ (informName, "unsignedInt".toList) :: []) := rfl
  have hchild : isWildCardParam informName.chars = false := by decide +kernel
  have hrfc : isRfcVariable informName.chars = false := by decide +kernel
  obtain ⟨hhttp, hwebpa⟩ := wildcard_child_iff always300 [] (fun _ => []) noStray informModel expandServer keepText
    (fun _ => none) hwild hlen hexp hchild hrfc
  exact ⟨hhttp.mpr (.inr ⟨by decide +kernel, _, rfl, rfl, rfl⟩), hwebpa.mpr (.inr ⟨_, rfl, rfl⟩)⟩

/-- A handler that fails. -/
def refuse : Behaviour := fun _ _ _ _ => .error .internalError

/-- `Device.` -/
def deviceWildcard : CString := .ofLiteral "Device."

/-- It expands to one parameter. -/
def expandDevice (_ : CString) : Option (List (CString × Text)) := some [(stackName, "unsignedInt".toList)]

/-- A single GET gives the default, the wildcard gives an empty text (HTTP) or nothing (WebPA). -/
theorem stack_child_differs :
    ¬HttpChildAgrees refuse [] (fun _ => []) noStray (stackModel "0".toList) expandDevice deviceWildcard stackName 0 ∧
      ¬WebpaChildAgrees refuse noStray (stackModel "0".toList) expandDevice keepText (fun _ => none) deviceWildcard []
        (stackName, "unsignedInt".toList) := by
  have hwild : isWildCardParam deviceWildcard.chars = true := by decide +kernel
  have hlen : deviceWildcard.chars.length ≤ maxParameterNameLen := by decide +kernel
  have hexp : expandDevice deviceWildcard = some ([] ++ (stackName, "unsignedInt".toList) :: []) := rfl
  have hchild : isWildCardParam stackName.chars = false := by decide +kernel
  have hrfc : isRfcVariable stackName.chars = false := by decide +kernel
  have hfound : lookup noStray (stackModel "0".toList) stackName.chars =
      .ok (some (paramInfo stackName.chars (stackParameter "0".toList))) := rfl
  constructor
  · intro h
    have hlike := (httpChildAgrees_iff_alike refuse [] (fun _ => []) noStray (stackModel "0".toList) expandDevice hwild
      hlen hexp hchild hrfc).mp h
    rcases hlike with ⟨-, htype, -⟩ | ⟨-, info, hinfo, -, hvalue⟩
    · cases htype
    · rw [hfound] at hinfo
      cases hinfo
      cases hvalue
  · intro h
    have hlike := (webpaChildAgrees_iff_alike refuse noStray (stackModel "0".toList) expandDevice keepText (fun _ => none)
      hwild hexp hchild).mp h
    rcases hlike with ⟨hnone, -⟩ | ⟨info, hinfo, hvalue⟩
    · rw [hfound] at hnone
      cases hnone
    · rw [hfound] at hinfo
      cases hinfo
      cases hvalue

end Tr69HostIf.Transport
