import Tr69HostIf.Transport.Get
import Tr69HostIf.Transport.SetAgree
import Tr69HostIf.Waldb.Attempts

/-!
# One GET list, many slots

`dataType` and `rfcParam` live outside the loop of `handleRequest`, so a slot can depend on the names before it.

* `carry` : what one name leaves in the two variables, `carried` : what a list leaves, `httpGetSlot_carry`;
* `httpGetFrom_split` : every GET list is answered, and the slot of a name is the round in the state that the
  names before it leave;
* `Independent` : the two variables hold nothing that changes the round of a name, `httpGetSlot_eq_iff`;
* `slot_alone_iff` : a slot is the one of a request for the name alone exactly then.
-/

namespace Tr69HostIf.Transport
open Store Clib Waldb

/-- `handleRequest` looks at the kind of the name: it is neither overlong nor a wildcard. -/
def SingleName (name : CString) : Prop :=
  name.chars.length ≤ maxParameterNameLen ∧ isWildCardParam name.chars = false

instance (name : CString) : Decidable (SingleName name) := inferInstanceAs (Decidable (_ ∧ _))

section
variable (handler : GetHandler) (callerID : Text) (varStore : Text → Text)
variable (stray : Stray) (dm : DataModel) (expand : CString → Option (List (CString × Text)))

/-- What one name leaves in the variables outside the loop. -/
def carry (s : LoopState) (name : CString) : LoopState :=
  if ¬SingleName name then s
  else if isRfcVariable name.chars then ⟨.string, true⟩
  else match lookup stray dm name.chars with
    | .ok (some info) => ⟨(info.dataType.map getWdmpDataType).getD s.dataType, s.rfcParam⟩
    | _ => s

/-- What a list of names leaves in the variables outside the loop. -/
def carried (names : List CString) : LoopState := names.foldl (carry stray dm) .init

/-- The variable store and the handlers give one answer: the same value, or none. -/
def StoreAgrees (name : CString) (info : DataModelParam) : Prop :=
  let r := invokeGet handler callerID name ((info.dataType.map getWdmpDataType).getD .none) (getBSUpdateEnum info.bsUpdate)
  (varStore name.chars = [] ∧ r.2 ≠ .success) ∨ (varStore name.chars ≠ [] ∧ r = (varStore name.chars, .success))

/-- The variables hold nothing that changes the round of a name. -/
def Independent (s : LoopState) (name : CString) : Prop :=
  ¬SingleName name ∨ isRfcVariable name.chars = true ∨
    (lookup stray dm name.chars = .ok none ∧ s.dataType = .none) ∨
    ∃ info, lookup stray dm name.chars = .ok (some info) ∧ (info.dataType ≠ none ∨ s.dataType = .none) ∧
      (s.rfcParam = false ∨ StoreAgrees handler callerID varStore name info)

/-! ## The rounds -/

theorem lookup_single {name : CString} (h : SingleName name) : ∃ r, lookup stray dm name.chars = .ok r := by
  obtain ⟨hlen, -⟩ := h
  have hfits : name.chars.length + 8 < maxParameterLength := by
    unfold maxParameterNameLen at hlen
    unfold maxParameterLength
    omega
  obtain ⟨r, hr⟩ : ∃ r, getParamInfoFromDataModel stray dm name.chars = .ok r := lookup_answers dm hfits
  refine ⟨r, ?_⟩
  rw [lookup, hr]

/-- **Every round gives a slot, and leaves what `carry` says.** -/
theorem httpGetSlot_carry (s : LoopState) (name : CString) :
    ∃ slot, httpGetSlot handler callerID varStore stray dm expand s name = .ok (slot, carry stray dm s name) := by
  unfold httpGetSlot carry
  by_cases hlen : maxParameterNameLen < name.chars.length
  · have hns : ¬SingleName name := fun h => absurd h.1 (by omega)
    rw [if_pos hlen, if_pos hns]
    exact ⟨_, rfl⟩
  rw [if_neg hlen]
  cases hwild : isWildCardParam name.chars with
  | true =>
      have hns : ¬SingleName name := fun h => by rw [h.2] at hwild; cases hwild
      rw [if_pos rfl, if_pos hns]
      cases expand name with
      | none => exact ⟨_, rfl⟩
      | some children => exact ⟨_, rfl⟩
  | false =>
      have hs : SingleName name := ⟨by omega, hwild⟩
      rw [if_neg (by decide), if_neg (not_not_intro hs)]
      split
      · exact ⟨_, rfl⟩
      · obtain ⟨r, hr⟩ := lookup_single stray dm hs
        rw [hr]
        cases r with
        | none => exact ⟨_, rfl⟩
        | some info => exact ⟨_, rfl⟩

theorem httpGetFrom_total (s : LoopState) (names : List CString) :
    ∃ slots, httpGetFrom handler callerID varStore stray dm expand s names = .ok slots := by
  induction names generalizing s with
  | nil => exact ⟨[], rfl⟩
  | cons name names ih =>
      obtain ⟨slot, hslot⟩ := httpGetSlot_carry handler callerID varStore stray dm expand s name
      obtain ⟨slots, hslots⟩ := ih (carry stray dm s name)
      refine ⟨slot :: slots, ?_⟩
      rw [httpGetFrom, hslot]
      simp only
      rw [hslots]

/-- The slot of a name is its round in the state that the names before it leave. -/
theorem httpGetFrom_split (s : LoopState) (before after : List CString) (name : CString) :
    ∃ slots₁ slot slots₂, httpGetFrom handler callerID varStore stray dm expand s (before ++ name :: after) =
        .ok (slots₁ ++ slot :: slots₂) ∧ slots₁.length = before.length ∧
      httpGetSlot handler callerID varStore stray dm expand (before.foldl (carry stray dm) s) name =
        .ok (slot, carry stray dm (before.foldl (carry stray dm) s) name) := by
  induction before generalizing s with
  | nil =>
      obtain ⟨slot, hslot⟩ := httpGetSlot_carry handler callerID varStore stray dm expand s name
      obtain ⟨slots, hslots⟩ := httpGetFrom_total handler callerID varStore stray dm expand (carry stray dm s name) after
      refine ⟨[], slot, slots, ?_, rfl, hslot⟩
      rw [List.nil_append, httpGetFrom, hslot]
      simp only
      rw [hslots]
      rfl
  | cons first before ih =>
      obtain ⟨slot₀, hslot₀⟩ := httpGetSlot_carry handler callerID varStore stray dm expand s first
      obtain ⟨slots₁, slot, slots₂, hrest, hlen, hslot⟩ := ih (carry stray dm s first)
      refine ⟨slot₀ :: slots₁, slot, slots₂, ?_, by rw [List.length_cons, hlen, List.length_cons], hslot⟩
      rw [List.cons_append, httpGetFrom, hslot₀]
      simp only
      rw [hrest]
      rfl

/-! ## A round in two states -/

/-- A GET that the handlers refuse has no value. -/
theorem invokeGet_value {name : CString} {type : DataType} {bsUpdate : SourceType}
    (h : (invokeGet handler callerID name type bsUpdate).2 ≠ .success) :
    (invokeGet handler callerID name type bsUpdate).1 = [] := by
  unfold invokeGet at h ⊢
  simp only at h ⊢
  split
  · next hok =>
    rw [if_pos hok] at h
    split
    · next hfault => exact absurd (by rw [if_pos hfault]) h
    · rfl
  · split
    · rfl
    · rfl

theorem orDefault_of_success {default : Option Text} {r : Text × WdmpStatus} (h : r.2 = .success) :
    orDefault default r = r := if_pos h

theorem orDefault_of_failure {default : Option Text} {r : Text × WdmpStatus} (h : r.2 ≠ .success) :
    orDefault default r = (default.getD r.1, if default = none then .errValueIsEmpty else .errDefaultValue) := by
  unfold orDefault
  rw [if_neg h]
  cases default with
  | none => rfl
  | some d => rfl

theorem orDefault_status {default : Option Text} {r : Text × WdmpStatus} :
    (orDefault default r).2 = .success ↔ r.2 = .success := by
  by_cases h : r.2 = .success
  · rw [orDefault_of_success h]
  · rw [orDefault_of_failure h]
    refine iff_of_false ?_ h
    cases default with
    | none => exact fun h => by cases h
    | some d => exact fun h => by cases h

/-- The default hides the difference between two answers only if both fail. -/
theorem orDefault_eq_iff {default : Option Text} {v : Text} {r : Text × WdmpStatus} (hr : r.2 ≠ .success → r.1 = []) :
    orDefault default (v, if v = [] then .errValueIsNull else .success) = orDefault default r ↔
      (v = [] ∧ r.2 ≠ .success) ∨ (v ≠ [] ∧ r = (v, .success)) := by
  by_cases hv : v = []
  · subst hv
    rw [if_pos rfl]
    have hnull : (([], .errValueIsNull) : Text × WdmpStatus).2 ≠ .success := fun h => by cases h
    constructor
    · intro h
      refine .inl ⟨rfl, fun hs => hnull ?_⟩
      rw [← orDefault_status, h, orDefault_status]
      exact hs
    · rintro (⟨-, hs⟩ | ⟨hne, -⟩)
      · rw [orDefault_of_failure hnull, orDefault_of_failure hs, hr hs]
      · exact absurd rfl hne
  · rw [if_neg hv, orDefault_of_success rfl]
    constructor
    · intro h
      have hs : r.2 = .success := orDefault_status.mp (congrArg Prod.snd h).symm
      rw [orDefault_of_success hs] at h
      exact .inr ⟨hv, h.symm⟩
    · rintro (⟨hnil, -⟩ | ⟨-, rfl⟩)
      · exact absurd hnil hv
      · exact (orDefault_of_success rfl).symm

theorem typeOf_eq_iff (t : Option Text) (d : DataType) :
    (t.map getWdmpDataType).getD d = (t.map getWdmpDataType).getD .none ↔ t ≠ none ∨ d = .none := by
  cases t with
  | none => simp
  | some t => simp

/-- The answer of a round that finds a parameter, in two states with the same type. -/
theorem answer_eq_iff (s : LoopState) (name : CString) (info : DataModelParam) :
    orDefault info.defaultValue
        (if s.rfcParam then handleRFCGet varStore name.chars
          else invokeGet handler callerID name ((info.dataType.map getWdmpDataType).getD .none) (getBSUpdateEnum info.bsUpdate)) =
      orDefault info.defaultValue
        (invokeGet handler callerID name ((info.dataType.map getWdmpDataType).getD .none) (getBSUpdateEnum info.bsUpdate)) ↔
      s.rfcParam = false ∨ StoreAgrees handler callerID varStore name info := by
  cases s.rfcParam with
  | false => exact iff_of_true rfl (.inl rfl)
  | true =>
      rw [if_pos rfl, handleRFCGet, orDefault_eq_iff (invokeGet_value handler callerID)]
      exact ⟨.inr, fun h => h.resolve_left (by decide)⟩

theorem slot_eq_iff {name : CString} {r r₀ : Text × WdmpStatus} {t t₀ : DataType} :
    (⟨[⟨name, some r.1, t⟩], r.2⟩ : HttpSlot) = ⟨[⟨name, some r₀.1, t₀⟩], r₀.2⟩ ↔ t = t₀ ∧ r = r₀ := by
  simp only [HttpSlot.mk.injEq, List.cons.injEq, HttpParam.mk.injEq, Option.some.injEq, true_and, and_true, Prod.ext_iff]
  tauto

theorem independent_unknown {s : LoopState} {name : CString} (hs : SingleName name) (hrfc : ¬isRfcVariable name.chars = true)
    (hr : lookup stray dm name.chars = .ok none) :
    Independent handler callerID varStore stray dm s name ↔ s.dataType = .none := by
  simp [Independent, hs, hrfc, hr]

theorem independent_found {s : LoopState} {name : CString} {info : DataModelParam} (hs : SingleName name)
    (hrfc : ¬isRfcVariable name.chars = true) (hr : lookup stray dm name.chars = .ok (some info)) :
    Independent handler callerID varStore stray dm s name ↔
      (info.dataType ≠ none ∨ s.dataType = .none) ∧
        (s.rfcParam = false ∨ StoreAgrees handler callerID varStore name info) := by
  simp [Independent, hs, hrfc, hr]

/-- **A round gives the slot it gives in the initial state exactly if the state holds nothing that changes it.** -/
theorem httpGetSlot_eq_iff {s : LoopState} {name : CString} {slot slot₀ : HttpSlot} {s' s₀ : LoopState}
    (h : httpGetSlot handler callerID varStore stray dm expand s name = .ok (slot, s'))
    (h₀ : httpGetSlot handler callerID varStore stray dm expand .init name = .ok (slot₀, s₀)) :
    slot = slot₀ ↔ Independent handler callerID varStore stray dm s name := by
  unfold httpGetSlot at h h₀
  by_cases hlen : maxParameterNameLen < name.chars.length
  · rw [if_pos hlen] at h h₀
    cases h
    cases h₀
    exact iff_of_true rfl (.inl fun hs => absurd hs.1 (by omega))
  rw [if_neg hlen] at h h₀
  by_cases hwild : isWildCardParam name.chars = true
  · rw [if_pos hwild] at h h₀
    refine iff_of_true ?_ (.inl fun hs => by rw [hs.2] at hwild; cases hwild)
    cases hex : expand name with
    | none =>
        rw [hex] at h h₀
        cases h
        cases h₀
        rfl
    | some children =>
        rw [hex] at h h₀
        cases h
        cases h₀
        rfl
  rw [if_neg hwild] at h h₀
  have hs : SingleName name := ⟨by omega, Bool.eq_false_of_not_eq_true hwild⟩
  by_cases hrfc : isRfcVariable name.chars = true
  · rw [if_pos hrfc] at h h₀
    cases h
    cases h₀
    exact iff_of_true rfl (.inr (.inl hrfc))
  rw [if_neg hrfc] at h h₀
  obtain ⟨r, hr⟩ := lookup_single stray dm hs
  rw [hr] at h h₀
  cases r with
  | none =>
      cases h
      cases h₀
      rw [independent_unknown handler callerID varStore stray dm hs hrfc hr]
      simp [LoopState.init]
  | some info =>
      simp only [Except.ok.injEq, Prod.mk.injEq] at h h₀
      obtain ⟨rfl, -⟩ := h
      obtain ⟨rfl, -⟩ := h₀
      rw [slot_eq_iff]
      rw [independent_found handler callerID varStore stray dm hs hrfc hr, ← typeOf_eq_iff, ← answer_eq_iff]
      apply and_congr_right
      intro ht
      rw [ht]
      rfl

theorem httpGet_singleton {name : CString} {slot : HttpSlot} {s : LoopState}
    (h : httpGetSlot handler callerID varStore stray dm expand .init name = .ok (slot, s)) :
    httpGet handler callerID varStore stray dm expand [name] = .ok [slot] := by
  rw [httpGet, httpGetFrom, h]
  rfl

/-- **A slot of a GET list is the slot of a request for that name alone exactly if the names before it leave
nothing that changes its round.** -/
theorem slot_alone_iff (before after : List CString) (name : CString) :
    ∃ slots₁ slot slots₂, httpGet handler callerID varStore stray dm expand (before ++ name :: after) =
        .ok (slots₁ ++ slot :: slots₂) ∧ slots₁.length = before.length ∧
      (httpGet handler callerID varStore stray dm expand [name] = .ok [slot] ↔
        Independent handler callerID varStore stray dm (carried stray dm before) name) := by
  obtain ⟨slots₁, slot, slots₂, hlist, hlen, hslot⟩ :=
    httpGetFrom_split handler callerID varStore stray dm expand .init before after name
  obtain ⟨slot₀, hslot₀⟩ := httpGetSlot_carry handler callerID varStore stray dm expand .init name
  refine ⟨slots₁, slot, slots₂, hlist, hlen, ?_⟩
  rw [httpGet_singleton handler callerID varStore stray dm expand hslot₀]
  have heq : (Except.ok [slot₀] : Except SetFault (List HttpSlot)) = .ok [slot] ↔ slot = slot₀ := by
    rw [Except.ok.injEq, List.cons.injEq, eq_comm]
    exact and_iff_left rfl
  rw [heq]
  exact httpGetSlot_eq_iff handler callerID varStore stray dm expand hslot hslot₀

end

/-! ## A mixed list -/

/-- A handler that answers every GET with the number 300. -/
def always300 : Behaviour := fun _ _ _ _ => .ok (.unsignedInt 300)

/-- An RFC variable. -/
def rfcEnableName : CString := .ofLiteral "RFC_ENABLE"

/-- Behind an RFC variable the interval of the inform messages is looked for in the variable store, which does
not have it; alone it comes from the handlers. -/
theorem inform_behind_rfc_variable : ∃ slot₁ slot₂,
    httpGet always300.handler [] (fun _ => []) noStray informModel (fun _ => none) [rfcEnableName, informName] =
        .ok [slot₁, slot₂] ∧
      httpGet always300.handler [] (fun _ => []) noStray informModel (fun _ => none) [informName] ≠ .ok [slot₂] := by
  refine ⟨⟨[⟨rfcEnableName, some [], .string⟩], .errValueIsEmpty⟩,
    ⟨[⟨informName, some [], .uint⟩], .errValueIsEmpty⟩, rfl, ?_⟩
  have halone : httpGet always300.handler [] (fun _ => []) noStray informModel (fun _ => none) [informName] =
      .ok [⟨[⟨informName, some "300".toList, .uint⟩], .success⟩] := rfl
  rw [halone]
  intro h
  simp only [Except.ok.injEq, List.cons.injEq, HttpSlot.mk.injEq, reduceCtorEq, and_false, false_and] at h

end Tr69HostIf.Transport
