import Tr69HostIf.Transport.SetAgree

/-!
# What stands before the SET handler

* `Guarded` : the handler is reached only if a request is allowed, and every other request is refused;
* `HttpAllowed`, `WebpaAllowed`, `RbusAllowed` : what the three transports check before they call the handler;
* `ReloadsCache` : the RFC variable that the HTTP server takes without data model and handler;
* `set_guarded` : every answered SET request meets its transport's guard, and the lookup's faults and the
  exceptions of `stoi` and `stoul` aside every request is answered.
-/

namespace Tr69HostIf.Transport
open Store Clib Waldb

/-- The handler is reached only if the request is allowed; otherwise the status is not `success`. -/
structure Guarded {σ : Type} (success : σ) (allowed : Prop) (a : SetAnswer σ) : Prop where
  only : a.handed ≠ none → allowed
  refused : a.handed = none → a.status ≠ success

/-- The form the HTTP server asks of a value. -/
def HttpWellFormed (value : Text) : DataType → Prop
  | .int => ∃ z, Literal value (.int z)
  | .uint => Digits value
  | .ulong => ∃ n, Literal value (.unsignedLong n)
  | .boolean => ∃ v, Literal value (.boolean v)
  | _ => value.length ≤ maxParamLen

/-- The form WebPA asks of a value. -/
def WebpaWellFormed (value : Text) : ParamType → Prop
  | .integer | .unsignedInt => (strtol value).2 = []
  | .boolean => ∃ v, Literal value (.boolean v)
  | _ => True

/-- The RFC variable that makes the HTTP server read its variables again. -/
def ReloadsCache (p : SetParam) : Prop :=
  p.name.chars = reloadCacheParam ∧ ∃ value, p.value = some value ∧ (strcasecmp value.chars "true".toList ∨ value.chars = "1".toList)

/-- `stoi` and `stoul` do not throw on the value. -/
def InRange (p : SetParam) : Prop :=
  ∀ value, p.value = some value → ∃ ok, validateParamValue value.chars (getHostIfParamType p.type) = .ok ok

section
variable (stray : Stray) (dm : DataModel)

/-- What the HTTP server checks. -/
def HttpAllowed (p : SetParam) : Prop :=
  PlainName p.name ∧ ∃ info t value, lookup stray dm p.name.chars = .ok (some info) ∧ readOnly info = false ∧
    info.dataType = some t ∧ getWdmpDataType t = p.type ∧ p.value = some value ∧ HttpWellFormed value.chars p.type

/-- What WebPA checks; access is not among it. -/
def WebpaAllowed (name : CString) (type : DataType) (value : CString) : Prop :=
  ∃ info, lookup stray dm name.chars = .ok (some info) ∧ converttoWalType (hostIfType info) = type ∧
    WebpaWellFormed value.chars (hostIfType info)

/-- What the rbus provider checks. -/
def RbusAllowed (name : Option CString) (value : Option RbusProperty) : Prop :=
  ∃ n v info, name = some n ∧ value = some v ∧ lookup stray dm n.chars = .ok (some info) ∧ readOnly info = false ∧
    convertRbus2hostIfDataType v.type = some (hostIfType info)

/-- The guards of the three transports. -/
structure SetGuards (handler : Message → SetReply) : Prop where
  http : ∀ callerID p a, httpSet stray dm handler callerID p = .ok a →
    ReloadsCache p ∧ a.handed = none ∨ Guarded .success (HttpAllowed stray dm p) a
  http_answers : ∀ callerID p, (∃ r, lookup stray dm p.name.chars = .ok r) → p.name.chars.length < maxParamLen →
    InRange p → ∃ a, httpSet stray dm handler callerID p = .ok a
  webpa : ∀ name type value a, setParamInfo stray handler (some dm) name type value = .ok (.answered a) →
    Guarded .success (WebpaAllowed stray dm name type value) a
  webpa_answers : ∀ name type value r, lookup stray dm name.chars = .ok r →
    (r = none ∧ setParamInfo stray handler (some dm) name type value = .ok .forwarded) ∨
      ∃ a, setParamInfo stray handler (some dm) name type value = .ok (.answered a)
  rbus : ∀ name value a, trDmlSetHandler stray handler (some dm) name value = .ok a →
    Guarded .success (RbusAllowed stray dm name value) a
  rbus_answers : ∀ name value, (∀ n, name = some n → ∃ r, lookup stray dm n.chars = .ok r) →
    ∃ a, trDmlSetHandler stray handler (some dm) name value = .ok a

end

/-! ## Value texts -/

theorem digits_of_takeWhile {t : Text} (hne : t.takeWhile Char.isDigit ≠ [])
    (h : t.drop (t.takeWhile Char.isDigit).length = []) : Digits t := by
  refine ⟨?_, drop_takeWhile_eq_nil_iff.mp h⟩
  rintro rfl
  exact hne rfl

theorem takeWhile_ne_nil {t : Text} (h : startsDigit t = true) : t.takeWhile Char.isDigit ≠ [] := by
  cases t with
  | nil => cases h
  | cons c t =>
      have hc : c.isDigit = true := h
      rw [List.takeWhile_cons_of_pos hc]
      exact List.cons_ne_nil _ _

theorem split_of_startsDigit {t : Text} (h : startsDigit t = true) : splitSign (t.dropWhile isspace) = (false, t) := by
  cases t with
  | nil => cases h
  | cons c t =>
      have hc : c.isDigit = true := h
      rw [List.dropWhile_cons_of_neg (by simp [isspace_of_isDigit hc]), splitSign_of_isDigit hc]

theorem digits_of_strtoul {t : Text} (h : startsDigit t = true) (ht : (strtoul t).2 = []) : Digits t := by
  have hne := takeWhile_ne_nil h
  apply digits_of_takeWhile hne
  simp only [strtoul, split_of_startsDigit h, if_neg hne] at ht
  split at ht
  · exact ht
  · exact ht

theorem digits_of_strtol {t : Text} (h : startsDigit t = true) (ht : (strtol t).2 = []) : Digits t := by
  rcases strtol_snd_eq_nil_iff.mp ht with rfl | hds
  · cases h
  · rw [split_of_startsDigit h] at hds
    exact hds

theorem digits_of_strtol_neg {t : Text} (ht : (strtol ('-' :: t)).2 = []) : Digits t := by
  have hs : splitSign (('-' :: t).dropWhile isspace) = (true, t) := rfl
  rcases strtol_snd_eq_nil_iff.mp ht with hnil | hds
  · cases hnil
  · rw [hs] at hds
    exact hds

/-- What `stoi` accepts is the literal of an `int`. -/
theorem literal_of_stoi {t : Text} (hs : startsInteger t = true) (h : stoi t = .ok true) : ∃ z, Literal t (.int z) := by
  unfold stoi at h
  split at h
  · next hr =>
    injection h with h
    have htail : (strtol t).2 = [] := of_decide_eq_true h
    rw [startsInteger, Bool.or_eq_true] at hs
    rcases hs with hs | hs
    · have hd := digits_of_strtol hs htail
      rw [strtol_digits hd] at hr
      refine ⟨Int32.ofInt (natOf t), Or.inl ⟨hd, ?_⟩⟩
      rw [Int32.toInt_ofInt_of_le (by omega) (by omega)]
    · rw [Bool.and_eq_true, decide_eq_true_eq] at hs
      obtain ⟨r, rfl⟩ := List.head?_eq_some_iff.mp hs.1
      have hd : Digits r := digits_of_strtol_neg htail
      rw [strtol_neg hd] at hr
      refine ⟨Int32.ofInt (-(natOf r : Int)), Or.inr ⟨r, rfl, hd, ?_⟩⟩
      rw [Int32.toInt_ofInt_of_le (by omega) (by omega)]
  · cases h

/-- What `stoul` accepts is the literal of an `unsigned long`. -/
theorem literal_of_stoul {t : Text} (hs : startsDigit t = true) (h : stoul t = .ok true) :
    ∃ n, Literal t (.unsignedLong n) := by
  unfold stoul at h
  split at h
  · next hr =>
    injection h with h
    have hd := digits_of_strtoul hs (of_decide_eq_true h)
    rw [takeWhile_digits hd] at hr
    exact ⟨UInt64.ofNat (natOf t), hd, (UInt64.toNat_ofNat_of_lt hr).symm⟩
  · cases h

theorem wellFormed_of_validate {t : Text} {type : DataType}
    (h : validateParamValue t (getHostIfParamType type) = .ok true) : HttpWellFormed t type := by
  have hint : validateParamValue t .integer = .ok true → ∃ z, Literal t (.int z) := by
    intro h
    by_cases hs : startsInteger t = true
    · exact literal_of_stoi hs ((if_pos hs).symm.trans h)
    · cases (if_neg hs).symm.trans h
  have hnat : validateParamValue t .unsignedInt = .ok true → ∃ n, Literal t (.unsignedLong n) := by
    intro h
    by_cases hs : startsDigit t = true
    · exact literal_of_stoul hs ((if_pos hs).symm.trans h)
    · cases (if_neg hs).symm.trans h
  have hstr : validateParamValue t .string = .ok true → t.length ≤ maxParamLen := by
    intro h
    injection h with h
    exact of_decide_eq_true h
  have hbool : validateParamValue t .boolean = .ok true → ∃ v, Literal t (.boolean v) := by
    intro h
    injection h with h
    exact Option.isSome_iff_exists.mp h
  cases type with
  | int => exact hint h
  | uint =>
      obtain ⟨n, hn⟩ := hnat h
      exact hn.1
  | ulong => exact hnat h
  | boolean => exact hbool h
  | string | dateTime | base64 | long | float | double | byte | none | blob => exact hstr h

theorem wellFormed_of_webpaAssign {value : CString} {type : ParamType} {lengthy : Bool}
    (h : webpaAssign type lengthy value ≠ none) : WebpaWellFormed value.chars type := by
  cases type with
  | integer =>
      by_contra hn
      exact h (if_neg hn)
  | unsignedInt =>
      by_contra hn
      exact h (if_neg fun hc => hn hc.1)
  | boolean =>
      cases hb : boolOf value.chars with
      | some v => exact ⟨v, hb⟩
      | none =>
          refine absurd ?_ h
          simp only [webpaAssign, hb]
  | string | dateTime | unsignedLong => trivial

/-! ## The guards -/

section
variable {stray : Stray} {dm : DataModel} {handler : Message → SetReply}

theorem handleRFCSet_success {name value : Text} (h : handleRFCSet name value = .success) :
    name = reloadCacheParam ∧ (strcasecmp value "true".toList ∨ value = "1".toList) := by
  unfold handleRFCSet at h
  split at h
  · next hc => exact hc
  · cases h

/-- What `validateAgainstDataModel` lets through. -/
theorem validate_ok {name : Text} {type : DataType} {bs : SourceType}
    (h : validateAgainstDataModel stray dm name type = .ok (.ok bs)) :
    ∃ info t, lookup stray dm name = .ok (some info) ∧ readOnly info = false ∧ info.dataType = some t ∧
      getWdmpDataType t = type := by
  unfold validateAgainstDataModel at h
  split at h
  · cases h
  · cases h
  · next info hl =>
    injection h with h
    split at h
    · cases h
    · split at h
      · cases h
      · next hro =>
        split at h
        · cases h
        · next t ht =>
          split at h
          · next hty => exact ⟨info, t, hl, by simpa using hro, ht, hty⟩
          · cases h

theorem validate_error {name : Text} {type : DataType} {s : WdmpStatus}
    (h : validateAgainstDataModel stray dm name type = .ok (.error s)) : s ≠ .success := by
  unfold validateAgainstDataModel at h
  rintro rfl
  split at h
  · cases h
  · injection h with h
    cases h
  · injection h with h
    split at h
    · cases h
    · split at h
      · cases h
      · split at h
        · cases h
        · split at h <;> cases h

theorem invoke_guarded {callerID : Text} {name : CString} {type : DataType} {bs : SourceType} {value : Text}
    {a : SetAnswer WdmpStatus} (h : invokeHostIfAPI handler callerID name type bs value = .ok a) :
    Guarded .success (name.chars.length < maxParamLen ∧ HttpWellFormed value type) a := by
  unfold invokeHostIfAPI at h
  split at h
  · cases h
  · next hlen =>
    split at h
    · cases h
    · injection h with h
      subst h
      exact ⟨fun hn => absurd rfl hn, fun _ => WdmpStatus.noConfusion⟩
    · next hv =>
      injection h with h
      subst h
      exact ⟨fun _ => ⟨Nat.not_le.mp hlen, wellFormed_of_validate hv⟩, fun hn => by cases hn⟩

/-- A refused request. -/
theorem guarded_of_refused {σ : Type} {success s : σ} {allowed : Prop} (h : s ≠ success) :
    Guarded success allowed ⟨none, s⟩ := ⟨fun hn => absurd rfl hn, fun _ => h⟩

theorem httpSet_guarded {callerID : Text} {p : SetParam} {a : SetAnswer WdmpStatus}
    (h : httpSet stray dm handler callerID p = .ok a) :
    ReloadsCache p ∧ a.handed = none ∨ Guarded .success (HttpAllowed stray dm p) a := by
  unfold httpSet at h
  split at h
  · injection h with h
    exact Or.inr (h ▸ guarded_of_refused WdmpStatus.noConfusion)
  next hreboot =>
  split at h
  · injection h with h
    exact Or.inr (h ▸ guarded_of_refused WdmpStatus.noConfusion)
  next hwild =>
  split at h
  · injection h with h
    exact Or.inr (h ▸ guarded_of_refused WdmpStatus.noConfusion)
  next value hvalue =>
  split at h
  · injection h with h
    subst h
    by_cases hs : handleRFCSet p.name.chars value.chars = .success
    · exact Or.inl ⟨⟨(handleRFCSet_success hs).1, value, hvalue, (handleRFCSet_success hs).2⟩, rfl⟩
    · exact Or.inr (guarded_of_refused hs)
  next hrfc =>
  split at h
  · cases h
  · next s hs =>
    injection h with h
    exact Or.inr (h ▸ guarded_of_refused (validate_error hs))
  · next bs hbs =>
    have hg := invoke_guarded h
    obtain ⟨info, t, hl, hro, ht, hty⟩ := validate_ok hbs
    refine Or.inr ⟨fun hn => ?_, hg.refused⟩
    obtain ⟨hlen, hwf⟩ := hg.only hn
    exact ⟨⟨hreboot, by simpa using hwild, by simpa using hrfc, hlen⟩, info, t, value, hl, hro, ht, hty, hvalue, hwf⟩

theorem validate_answers {name : Text} {type : DataType} (h : ∃ r, lookup stray dm name = .ok r) :
    ∃ r, validateAgainstDataModel stray dm name type = .ok r := by
  obtain ⟨r, hr⟩ := h
  unfold validateAgainstDataModel
  rw [hr]
  cases r with
  | none => exact ⟨_, rfl⟩
  | some info => exact ⟨_, rfl⟩

theorem httpSet_answers {callerID : Text} {p : SetParam} (hl : ∃ r, lookup stray dm p.name.chars = .ok r)
    (hlen : p.name.chars.length < maxParamLen) (hr : InRange p) :
    ∃ a, httpSet stray dm handler callerID p = .ok a := by
  unfold httpSet
  split
  · exact ⟨_, rfl⟩
  split
  · exact ⟨_, rfl⟩
  split
  · exact ⟨_, rfl⟩
  next value hvalue =>
  split
  · exact ⟨_, rfl⟩
  obtain ⟨r, hv⟩ : ∃ r, validateAgainstDataModel stray dm p.name.chars p.type = .ok r := validate_answers hl
  rw [hv]
  cases r with
  | error s => exact ⟨_, rfl⟩
  | ok bs =>
      obtain ⟨ok, hok⟩ := hr value hvalue
      simp only [invokeHostIfAPI, if_neg (Nat.not_le.mpr hlen), hok]
      cases ok with
      | false => exact ⟨_, rfl⟩
      | true => exact ⟨_, rfl⟩

theorem setParamInfo_guarded {name : CString} {type : DataType} {value : CString} {a : SetAnswer WalStatus}
    (h : setParamInfo stray handler (some dm) name type value = .ok (.answered a)) :
    Guarded .success (WebpaAllowed stray dm name type value) a := by
  unfold setParamInfo at h
  simp only at h
  split at h
  · cases h
  · cases h
  next info hl =>
  injection h with h
  injection h with h
  split at h
  · subst h
    exact guarded_of_refused WalStatus.noConfusion
  next htype =>
  split at h
  · subst h
    exact guarded_of_refused WalStatus.noConfusion
  next v hv =>
  subst h
  refine ⟨fun _ => ⟨info, hl, not_not.mp htype, wellFormed_of_webpaAssign (hv ▸ Option.some_ne_none v)⟩, fun hn => ?_⟩
  cases hn

theorem setParamInfo_answers {name : CString} {type : DataType} {value : CString} {r : Option DataModelParam}
    (h : lookup stray dm name.chars = .ok r) :
    (r = none ∧ setParamInfo stray handler (some dm) name type value = .ok .forwarded) ∨
      ∃ a, setParamInfo stray handler (some dm) name type value = .ok (.answered a) := by
  cases r with
  | none =>
      refine Or.inl ⟨rfl, ?_⟩
      simp only [setParamInfo, h]
  | some info =>
      refine Or.inr ?_
      simp only [setParamInfo, h]
      exact ⟨_, rfl⟩

theorem trDmlSetHandler_guarded {name : Option CString} {value : Option RbusProperty} {a : SetAnswer RbusError}
    (h : trDmlSetHandler stray handler (some dm) name value = .ok a) :
    Guarded .success (RbusAllowed stray dm name value) a := by
  cases name with
  | none =>
      injection h with h
      exact h ▸ guarded_of_refused RbusError.noConfusion
  | some n =>
      cases value with
      | none =>
          injection h with h
          exact h ▸ guarded_of_refused RbusError.noConfusion
      | some v =>
          unfold trDmlSetHandler at h
          simp only at h
          split at h
          · cases h
          · injection h with h
            exact h ▸ guarded_of_refused RbusError.noConfusion
          next info hl =>
          injection h with h
          split at h
          · exact h ▸ guarded_of_refused RbusError.noConfusion
          next hro =>
          split at h
          · exact h ▸ guarded_of_refused RbusError.noConfusion
          next htype =>
          subst h
          refine ⟨fun _ => ⟨n, v, info, rfl, rfl, hl, by simpa using hro, not_not.mp htype⟩, fun hn => ?_⟩
          cases hn

theorem trDmlSetHandler_answers {name : Option CString} {value : Option RbusProperty}
    (h : ∀ n, name = some n → ∃ r, lookup stray dm n.chars = .ok r) :
    ∃ a, trDmlSetHandler stray handler (some dm) name value = .ok a := by
  cases name with
  | none => exact ⟨_, rfl⟩
  | some n =>
      cases value with
      | none => exact ⟨_, rfl⟩
      | some v =>
          obtain ⟨r, hr⟩ := h n rfl
          simp only [trDmlSetHandler, hr]
          cases r with
          | none => exact ⟨_, rfl⟩
          | some info => exact ⟨_, rfl⟩

variable (stray dm handler)

/-- **The three SET paths keep their guards.** -/
theorem set_guarded : SetGuards stray dm handler where
  http _ _ _ h := httpSet_guarded h
  http_answers _ _ hl hlen hr := httpSet_answers hl hlen hr
  webpa _ _ _ _ h := setParamInfo_guarded h
  webpa_answers _ _ _ _ h := setParamInfo_answers h
  rbus _ _ _ h := trDmlSetHandler_guarded h
  rbus_answers _ _ h := trDmlSetHandler_answers h

end

/-- The request that makes the HTTP server read the RFC variables again. -/
def reloadRequest : SetParam := ⟨.ofLiteral "RFC_CONTROL_RELOADCACHE", .string, some (.ofLiteral "true")⟩

theorem reload_succeeds_unlisted :
    ¬∀ p a, httpSet noStray informModel acceptAll [] p = .ok a → lookup noStray informModel p.name.chars = .ok none →
      a.handed = none ∧ a.status ≠ .success := by
  intro h
  exact (h reloadRequest ⟨none, .success⟩ rfl rfl).2 rfl

end Tr69HostIf.Transport
