import Tr69HostIf.Transport.Set

/-!
# The messages of the three SET paths

* `Target` : the name leads to a writable parameter of the value's type;
* `Message.Carries` : the message has the value's type and the value;
* `SetsAlike` : HTTP, WebPA and rbus all hand over a message that carries the value of its canonical literal;
* `Settable` : strings that fit the buffer, integers, truth values, unsigned integers below `2 ^ 31`, and no
  unsigned long;
* `setsAlike_iff` : the transports agree exactly on settable values.
-/

namespace Tr69HostIf.Transport
open Store Clib Waldb

/-- The name of a value's type in the data model. -/
def Value.typeName : Value → Text
  | .string _ => "string".toList
  | .int _ => "int".toList
  | .unsignedInt _ => "unsignedInt".toList
  | .unsignedLong _ => "unsignedLong".toList
  | .boolean _ => "boolean".toList

/-- The type a client declares for a value. -/
def Value.dataType : Value → DataType
  | .string _ => .string
  | .int _ => .int
  | .unsignedInt _ => .uint
  | .unsignedLong _ => .ulong
  | .boolean _ => .boolean

theorem not_mem_printNat (n : Nat) : '\x00' ∉ printNat n := (digits_printNat n).not_mem (by decide)

theorem not_mem_printInt (z : Int) : '\x00' ∉ printInt z := by
  unfold printInt
  split
  · rw [List.mem_cons, not_or]
    exact ⟨by decide, not_mem_printNat _⟩
  · exact not_mem_printNat _

theorem not_mem_text (v : Value) : '\x00' ∉ v.text := by
  cases v with
  | string s => exact s.noNul
  | int z => exact not_mem_printInt _
  | unsignedInt n => exact not_mem_printNat _
  | unsignedLong n => exact not_mem_printNat _
  | boolean v => cases v <;> decide

/-- The canonical literal as a C string. -/
def Value.literal (v : Value) : CString := ⟨v.text, not_mem_text v⟩

/-- The message carries the value. -/
def Message.Carries (m : Message) (v : Value) : Prop := m.paramtype = v.paramType ∧ m.read = v

/-- Neither the reboot parameter nor a wildcard nor an RFC variable, and short enough for a message. -/
structure PlainName (name : CString) : Prop where
  not_reboot : name.chars ≠ deviceRebootParam
  not_wildcard : isWildCardParam name.chars = false
  not_rfc : isRfcVariable name.chars = false
  fits : name.chars.length < maxParamLen

section
variable (stray : Stray) (dm : DataModel) (handler : Message → SetReply)

/-- The name leads to a writable parameter of the value's type. -/
structure Target (name : CString) (info : DataModelParam) (v : Value) : Prop where
  plain : PlainName name
  found : lookup stray dm name.chars = .ok (some info)
  typed : info.dataType = some v.typeName
  writable : readOnly info = false

/-- All three transports hand over the value. -/
structure SetsAlike (callerID : Text) (name : CString) (v : Value) : Prop where
  http : ∃ m s, httpSet stray dm handler callerID ⟨name, v.dataType, some v.literal⟩ = .ok ⟨some m, s⟩ ∧ m.Carries v
  webpa : ∃ m s, setParamInfo stray handler (some dm) name v.dataType v.literal = .ok (.answered ⟨some m, s⟩) ∧
    m.Carries v
  rbus : ∀ type, convertRbus2hostIfDataType type = some v.paramType →
    ∃ m s, trDmlSetHandler stray handler (some dm) (some name) (some ⟨type, v.literal⟩) = .ok ⟨some m, s⟩ ∧ m.Carries v

/-- The values on which the transports agree. -/
def Settable : Value → Prop
  | .string s => s.chars.length < maxParamLen
  | .int _ | .boolean _ => True
  | .unsignedInt n => n.toNat < 2 ^ 31
  | .unsignedLong _ => False

/-! ## The three answers -/

variable {stray dm handler} {name : CString} {info : DataModelParam} {v : Value}

theorem getWdmpDataType_typeName (v : Value) : getWdmpDataType v.typeName = v.dataType := by
  cases v <;> rfl

theorem converttohostIfType_typeName (v : Value) : converttohostIfType v.typeName = v.paramType := by
  cases v <;> rfl

theorem Target.hostIfType_eq (h : Target stray dm name info v) : hostIfType info = v.paramType := by
  rw [hostIfType, h.typed]
  exact converttohostIfType_typeName v

theorem Target.httpSet_eq (h : Target stray dm name info v) (callerID : Text) :
    httpSet stray dm handler callerID ⟨name, v.dataType, some v.literal⟩ =
      invokeHostIfAPI handler callerID name v.dataType (getBSUpdateEnum info.bsUpdate) v.text := by
  have hval : validateAgainstDataModel stray dm name.chars v.dataType = .ok (.ok (getBSUpdateEnum info.bsUpdate)) := by
    have htype : ¬(v.dataType = .none ∨ v.dataType = .blob) := by cases v <;> simp [Value.dataType]
    simp only [validateAgainstDataModel, h.found, if_neg htype, h.writable, h.typed, getWdmpDataType_typeName]
    rfl
  simp only [httpSet, if_neg h.plain.not_reboot, h.plain.not_wildcard, h.plain.not_rfc, hval, Bool.false_eq_true,
    if_false]
  rfl

theorem Target.setParamInfo_of_some (h : Target stray dm name info v) {w : Buffer × Option CString}
    (hw : webpaAssign v.paramType (strcasecmp (copyName name).chars reportProfilesParam) v.literal = some w) :
    setParamInfo stray handler (some dm) name v.dataType v.literal =
      .ok (.answered ⟨some (webpaMessage name info w), walStatusOf (handler (webpaMessage name info w))⟩) := by
  have htype : converttoWalType v.paramType = v.dataType := by cases v <;> rfl
  simp only [setParamInfo, h.found, h.hostIfType_eq, htype, ne_eq, not_true_eq_false, if_false, hw]

theorem Target.setParamInfo_of_none (h : Target stray dm name info v)
    (hw : webpaAssign v.paramType (strcasecmp (copyName name).chars reportProfilesParam) v.literal = none) :
    setParamInfo stray handler (some dm) name v.dataType v.literal =
      .ok (.answered ⟨none, .errInvalidParameterValue⟩) := by
  have htype : converttoWalType v.paramType = v.dataType := by cases v <;> rfl
  simp only [setParamInfo, h.found, h.hostIfType_eq, htype, ne_eq, not_true_eq_false, if_false, hw]

theorem Target.trDmlSetHandler_eq (h : Target stray dm name info v) (handler : Message → SetReply) {type : RbusType}
    (ht : convertRbus2hostIfDataType type = some v.paramType) :
    ∃ s, trDmlSetHandler stray handler (some dm) (some name) (some ⟨type, v.literal⟩) =
      .ok ⟨some (rbusMessage name info v.text), s⟩ := by
  simp only [trDmlSetHandler, h.found, h.writable, h.hostIfType_eq, ht, ne_eq, not_true_eq_false, if_false,
    Bool.false_eq_true]
  exact ⟨_, rfl⟩

theorem invokeHostIfAPI_of_valid (handler : Message → SetReply) (callerID : Text) {type : DataType}
    (bsUpdate : SourceType) {value : Text} (hname : name.chars.length < maxParamLen)
    (hv : validateParamValue value (getHostIfParamType type) = .ok true) :
    ∃ s, invokeHostIfAPI handler callerID name type bsUpdate value =
      .ok ⟨some (httpMessage callerID name type bsUpdate value), s⟩ := by
  simp only [invokeHostIfAPI, if_neg (Nat.not_le.mpr hname), hv]
  exact ⟨_, rfl⟩

/-! ## Texts and buffers -/

theorem startsDigit_of_digits {t : Text} (h : Digits t) : startsDigit t = true := by
  obtain ⟨c, r, rfl⟩ := List.exists_cons_of_ne_nil h.1
  exact h.2 c List.mem_cons_self

theorem startsInteger_printInt (z : Int) : startsInteger (printInt z) = true := by
  unfold printInt startsInteger
  split
  · rw [List.tail_cons, startsDigit_of_digits (digits_printNat _)]
    rfl
  · rw [startsDigit_of_digits (digits_printNat _), Bool.true_or]

theorem validate_printInt {z : Int} (h : -2 ^ 31 ≤ z) (h' : z < 2 ^ 31) :
    validateParamValue (printInt z) .integer = .ok true := by
  have hl : strtol (printInt z) = (z, []) := strtol_printInt (by omega) (by omega)
  simp only [validateParamValue, startsInteger_printInt, stoi, hl, h, h', and_self, if_true, decide_true]

theorem validate_printNat {n : Nat} (h : n < 2 ^ 64) : validateParamValue (printNat n) .unsignedInt = .ok true := by
  have hd := digits_printNat n
  simp only [validateParamValue, startsDigit_of_digits hd, stoul, takeWhile_digits hd, natOf_printNat, h, if_true,
    strtoul_digits hd, decide_true]

theorem strtol_printNat {n : Nat} (h : n < 2 ^ 63) : strtol (printNat n) = ((n : Int), []) := by
  rw [strtol_digits (digits_printNat n), natOf_printNat]
  congr 1
  omega

/-- What a number read with `atoi` leaves for a reader of `unsigned int`. -/
theorem getUint_putInt (b : Buffer) (n : UInt32) : (b.putInt (Int32.ofInt n.toNat)).getUint = n := by
  have h : b.putInt (Int32.ofInt n.toNat) = b.putUint (Int32.ofInt n.toNat).toUInt32 := rfl
  rw [h, Buffer.getUint_putUint, Int32.ofInt_eq_ofNat, Int32.toUInt32_ofNat', UInt32.ofNat_toNat]

theorem carries_zero_putInt {m : Message} {z : Int32} (ht : m.paramtype = .integer)
    (hb : m.paramValue = Buffer.zero.putInt z) : m.Carries (.int z) := by
  refine ⟨ht, ?_⟩
  simp only [Message.read, ht, hb, Buffer.getInt_putInt]

theorem carries_zero_putUint {m : Message} {n : UInt32} (ht : m.paramtype = .unsignedInt)
    (hb : m.paramValue = Buffer.zero.putInt (Int32.ofInt n.toNat)) : m.Carries (.unsignedInt n) := by
  refine ⟨ht, ?_⟩
  simp only [Message.read, ht, hb, getUint_putInt]

theorem carries_zero_putBoolean {m : Message} {v : Bool} (ht : m.paramtype = .boolean)
    (hb : m.paramValue = Buffer.zero.putBoolean v) : m.Carries (.boolean v) := by
  refine ⟨ht, ?_⟩
  simp only [Message.read, ht, hb, Buffer.getBoolean_putBoolean]

theorem carries_putString_iff {m : Message} {s : CString} (ht : m.paramtype = .string) (hl : m.paramValueLong = none)
    (hb : m.paramValue = Buffer.zero.putString s.chars) : m.Carries (.string s) ↔ s.chars.length < maxParamLen := by
  constructor
  · rintro ⟨-, h⟩
    simp only [Message.read, ht, hl, hb, Option.getD_none, Value.string.injEq] at h
    have hchars := congrArg CString.chars h
    have htake : s.chars.take (maxParamLen - 1) = s.chars :=
      (Buffer.getString_putString_take .zero s.noNul).symm.trans hchars
    have hle := congrArg List.length htake
    rw [List.length_take] at hle
    unfold maxParamLen at hle ⊢
    omega
  · intro hs
    refine ⟨ht, ?_⟩
    simp only [Message.read, ht, hl, hb, Option.getD_none, Buffer.cString_putString _ hs]

/-! ## Type by type -/

variable {callerID : Text}

theorem Target.string_iff {s : CString} (h : Target stray dm name info (.string s)) :
    SetsAlike stray dm handler callerID name (.string s) ↔ s.chars.length < maxParamLen := by
  have htype : hostIfType info = .string := h.hostIfType_eq
  have hbus : (rbusMessage name info s.chars).Carries (.string s) ↔ s.chars.length < maxParamLen := by
    apply carries_putString_iff htype rfl
    rw [rbusMessage, htype]
    rfl
  constructor
  · intro hall
    obtain ⟨m, st, hm, hc⟩ := hall.rbus .string rfl
    obtain ⟨st', heq⟩ := h.trDmlSetHandler_eq handler (show convertRbus2hostIfDataType .string = some .string from rfl)
    rw [heq] at hm
    injection hm with hm
    injection hm with hm
    injection hm with hm
    exact hbus.mp (hm ▸ hc)
  · intro hs
    refine ⟨?_, ?_, ?_⟩
    · have hval : validateParamValue s.chars (getHostIfParamType .string) = .ok true :=
        congrArg Except.ok (decide_eq_true (Nat.le_of_lt hs))
      obtain ⟨st, heq⟩ := invokeHostIfAPI_of_valid handler callerID (getBSUpdateEnum info.bsUpdate) h.plain.fits hval
      exact ⟨_, st, (h.httpSet_eq callerID).trans heq, (carries_putString_iff rfl rfl rfl).mpr hs⟩
    · cases hl : strcasecmp (copyName name).chars reportProfilesParam with
      | true =>
          have hle : s.chars.length ≤ maxLongParamLen := by
            unfold maxParamLen at hs
            unfold maxLongParamLen
            omega
          have hw : webpaAssign .string (strcasecmp (copyName name).chars reportProfilesParam) s = some (.zero, some s) := by
            simp only [webpaAssign, hl, if_true, hle]
          refine ⟨_, _, h.setParamInfo_of_some hw, htype, ?_⟩
          simp only [Message.read, webpaMessage, htype, Option.getD_some]
      | false =>
          have hw : webpaAssign .string (strcasecmp (copyName name).chars reportProfilesParam) s =
              some (Buffer.zero.putString s.chars, none) := by
            simp only [webpaAssign, hl, Bool.false_eq_true, if_false]
          exact ⟨_, _, h.setParamInfo_of_some hw, (carries_putString_iff htype rfl rfl).mpr hs⟩
    · intro type ht
      obtain ⟨st, heq⟩ := h.trDmlSetHandler_eq handler ht
      exact ⟨_, st, heq, hbus.mpr hs⟩

/-- HTTP's part for a value whose literal is valid and leaves the value in the message. -/
theorem Target.http_of_valid (h : Target stray dm name info v) (callerID : Text)
    (hval : validateParamValue v.text (getHostIfParamType v.dataType) = .ok true)
    (hc : ∀ bsUpdate, (httpMessage callerID name v.dataType bsUpdate v.text).Carries v) :
    ∃ m s, httpSet stray dm handler callerID ⟨name, v.dataType, some v.literal⟩ = .ok ⟨some m, s⟩ ∧ m.Carries v := by
  obtain ⟨s, heq⟩ := invokeHostIfAPI_of_valid handler callerID (getBSUpdateEnum info.bsUpdate) h.plain.fits hval
  exact ⟨_, s, (h.httpSet_eq callerID).trans heq, hc _⟩

theorem Target.rbus_of_carries (h : Target stray dm name info v) (hc : (rbusMessage name info v.text).Carries v)
    (type : RbusType) (ht : convertRbus2hostIfDataType type = some v.paramType) :
    ∃ m s, trDmlSetHandler stray handler (some dm) (some name) (some ⟨type, v.literal⟩) = .ok ⟨some m, s⟩ ∧
      m.Carries v := by
  obtain ⟨s, heq⟩ := h.trDmlSetHandler_eq handler ht
  exact ⟨_, s, heq, hc⟩

theorem Target.int_alike {z : Int32} (h : Target stray dm name info (.int z)) :
    SetsAlike stray dm handler callerID name (.int z) := by
  have htype : hostIfType info = .integer := h.hostIfType_eq
  have hz := z.le_toInt
  have hz' := z.toInt_lt
  have hl : strtol (printInt z.toInt) = (z.toInt, []) := strtol_printInt (by omega) (by omega)
  have hput : ∀ b : Buffer, b.putInt (Int32.ofInt (strtol (printInt z.toInt)).1) = b.putInt z := by
    intro b
    rw [hl, Int32.ofInt_toInt]
  refine ⟨h.http_of_valid callerID (validate_printInt hz hz') fun bs => carries_zero_putInt rfl (hput _), ?_, ?_⟩
  · have hw : webpaAssign .integer (strcasecmp (copyName name).chars reportProfilesParam) (Value.int z).literal =
        some (Buffer.zero.putInt z, none) := by
      have htail : (strtol (Value.int z).literal.chars).2 = [] := congrArg Prod.snd hl
      simp only [webpaAssign, htail, if_true]
      exact congrArg (fun b => some (b, none)) (hput .zero)
    exact ⟨_, _, h.setParamInfo_of_some hw, carries_zero_putInt htype rfl⟩
  · apply h.rbus_of_carries
    apply carries_zero_putInt htype
    rw [rbusMessage, htype]
    exact hput _

theorem Target.uint_iff {n : UInt32} (h : Target stray dm name info (.unsignedInt n)) :
    SetsAlike stray dm handler callerID name (.unsignedInt n) ↔ n.toNat < 2 ^ 31 := by
  have htype : hostIfType info = .unsignedInt := h.hostIfType_eq
  have hlt := n.toNat_lt
  have hl : strtol (printNat n.toNat) = ((n.toNat : Int), []) := strtol_printNat (by omega)
  have hput : ∀ b : Buffer, b.putInt (Int32.ofInt (strtol (printNat n.toNat)).1) = b.putInt (Int32.ofInt n.toNat) := by
    intro b
    rw [hl]
  have htail : (strtol (Value.unsignedInt n).literal.chars).2 = [] := congrArg Prod.snd hl
  have hfst : (strtol (Value.unsignedInt n).literal.chars).1 = n.toNat := congrArg Prod.fst hl
  have hsign : (0 : Int32) ≤ Int32.ofInt n.toNat ↔ n.toNat < 2 ^ 31 := by
    rw [Int32.le_iff_toInt_le, Int32.toInt_ofInt, Int.bmod_def]
    simp only [Int32.size, Int32.toInt_zero]
    omega
  constructor
  · intro hall
    obtain ⟨m, s, hm, -⟩ := hall.webpa
    by_contra hn
    have hw : webpaAssign .unsignedInt (strcasecmp (copyName name).chars reportProfilesParam)
        (Value.unsignedInt n).literal = none := by
      simp only [webpaAssign, htail, hfst, hsign, hn, and_false, if_false]
    rw [h.setParamInfo_of_none hw] at hm
    cases hm
  · intro hn
    refine ⟨h.http_of_valid callerID (validate_printNat (by omega)) fun bs => carries_zero_putUint rfl (hput _), ?_, ?_⟩
    · have hw : webpaAssign .unsignedInt (strcasecmp (copyName name).chars reportProfilesParam)
          (Value.unsignedInt n).literal = some (Buffer.zero.putInt (Int32.ofInt n.toNat), none) := by
        simp only [webpaAssign, htail, hfst, hsign, hn, and_self, if_true]
      exact ⟨_, _, h.setParamInfo_of_some hw, carries_zero_putUint htype rfl⟩
    · apply h.rbus_of_carries
      apply carries_zero_putUint htype
      rw [rbusMessage, htype]
      exact hput _

/-- HTTP hands an `unsignedLong` over as an `unsignedInt`. -/
theorem Target.ulong_not_alike {n : UInt64} (h : Target stray dm name info (.unsignedLong n)) :
    ¬SetsAlike stray dm handler callerID name (.unsignedLong n) := by
  intro hall
  obtain ⟨m, s, hm, ht, -⟩ := hall.http
  have hval : validateParamValue (printNat n.toNat) (getHostIfParamType .ulong) = .ok true :=
    validate_printNat n.toNat_lt
  obtain ⟨s', heq⟩ := invokeHostIfAPI_of_valid handler callerID (getBSUpdateEnum info.bsUpdate) h.plain.fits hval
  rw [h.httpSet_eq callerID] at hm
  have hmsg := hm.symm.trans heq
  injection hmsg with hmsg
  injection hmsg with hmsg
  injection hmsg with hmsg
  rw [hmsg] at ht
  cases ht

theorem Target.boolean_alike {b : Bool} (h : Target stray dm name info (.boolean b)) :
    SetsAlike stray dm handler callerID name (.boolean b) := by
  have htype : hostIfType info = .boolean := h.hostIfType_eq
  have htruth : truthOf (Value.boolean b).text = b := by cases b <;> rfl
  have hval : validateParamValue (Value.boolean b).text .boolean = .ok true := by cases b <;> rfl
  have hput : ∀ c : Buffer, c.putBoolean (truthOf (Value.boolean b).text) = c.putBoolean b := by
    intro c
    rw [htruth]
  refine ⟨h.http_of_valid callerID hval fun bs => carries_zero_putBoolean rfl (hput _), ?_, ?_⟩
  · have hw : webpaAssign .boolean (strcasecmp (copyName name).chars reportProfilesParam) (Value.boolean b).literal =
        some (Buffer.zero.putBoolean b, none) := by
      have hb : boolOf (Value.boolean b).literal.chars = some b := literal_text (.boolean b)
      simp only [webpaAssign, hb]
    exact ⟨_, _, h.setParamInfo_of_some hw, carries_zero_putBoolean htype rfl⟩
  · apply h.rbus_of_carries
    apply carries_zero_putBoolean htype
    rw [rbusMessage, htype]
    exact hput _

/-- **The transports agree exactly on settable values.** -/
theorem setsAlike_iff (h : Target stray dm name info v) :
    SetsAlike stray dm handler callerID name v ↔ Settable v := by
  cases v with
  | string s => exact h.string_iff
  | int z => exact iff_of_true h.int_alike trivial
  | unsignedInt n => exact h.uint_iff
  | unsignedLong n => exact iff_of_false h.ulong_not_alike id
  | boolean b => exact iff_of_true h.boolean_alike trivial

end

/-! ## A parameter of the shipped data model -/

/-- `Device.ManagementServer.PeriodicInformInterval`. -/
def informParameter : DmParameter where
  base := .ofLiteral "PeriodicInformInterval" rfl
  access := some "readWrite".toList
  bsUpdate := none
  syntaxNodes := [.dataType "unsignedInt".toList]

/-- The data model with this parameter. -/
def informModel : DataModel :=
  [{ path := [device, .name (.ofLiteral "ManagementServer" rfl)]
     path_ne_nil := by simp
     params := [informParameter]
     distinct := by simp
     fits := fun p hp => by
      rw [List.mem_singleton] at hp
      rw [hp]
      decide +kernel }]

/-- The parameter's name. -/
def informName : CString := .ofLiteral "Device.ManagementServer.PeriodicInformInterval"

/-- The bytes in front of the lookup's strings do not matter here. -/
def noStray : Stray := ⟨'\x00', '\x00'⟩

/-- A handler that accepts everything. -/
def acceptAll (_ : Message) : SetReply := ⟨0, .noFault⟩

theorem informTarget (n : UInt32) :
    Target noStray informModel informName (paramInfo informName.chars informParameter) (.unsignedInt n) := by
  refine ⟨⟨by decide +kernel, by decide +kernel, by decide +kernel, by decide +kernel⟩, ?_, rfl, by decide +kernel⟩
  rfl

theorem hour_set_alike : SetsAlike noStray informModel acceptAll [] informName (.unsignedInt 3600) :=
  (setsAlike_iff (informTarget 3600)).mpr (show 3600 < 2 ^ 31 by decide)

theorem large_interval_not_alike :
    ¬SetsAlike noStray informModel acceptAll [] informName (.unsignedInt 3000000000) := by
  intro h
  have := (informTarget 3000000000).uint_iff.mp h
  revert this
  decide

end Tr69HostIf.Transport
