import Tr69HostIf.Transport.SetAgree

/-!
# Which texts a SET accepts

`LiteralType.Valid t cap s` : the text is a literal of the type, in range; a string may have `cap` bytes. `HttpExact` and
`WebpaExact` : the path hands a literal over, a string whole, and answers every other text with the status for an
invalid value. `invokeHostIfAPI_exact_iff` and `setParamInfo_exact_iff` say for which texts that is so: `stoi` and
`stoul` throw on a number that does not fit, `stoul` reads 64 bits, `strtol` skips blanks, takes a plus sign and reads
the empty text as 0, and a string is cut to the buffer.
-/

namespace Tr69HostIf.Transport
open Store Clib Waldb

/-! ## Numbers at the front of a text -/

/-- The number in front of a text: a minus sign at most, and digits. -/
def leadingInt (t : Text) : Int :=
  if t.head? = some '-' then -(natOf (t.tail.takeWhile Char.isDigit) : Int) else natOf (t.takeWhile Char.isDigit)

section
variable {t : Text}

theorem startsDigit_iff : startsDigit t = true ↔ ∃ c u, t = c :: u ∧ c.isDigit = true := by
  cases t with
  | nil => simp [startsDigit]
  | cons c u => simp [startsDigit]

theorem startsInteger_iff : startsInteger t = true ↔ startsDigit t = true ∨ ∃ u, t = '-' :: u ∧ startsDigit u = true := by
  cases t with
  | nil => simp [startsInteger, startsDigit]
  | cons c u => simp [startsInteger]

/-- No blank and no sign in front of a digit. -/
theorem startsDigit_split (h : startsDigit t = true) :
    splitSign (t.dropWhile isspace) = (false, t) ∧ t.takeWhile Char.isDigit ≠ [] ∧ t.head? ≠ some '-' := by
  obtain ⟨c, u, rfl, hc⟩ := startsDigit_iff.mp h
  refine ⟨?_, ?_, ?_⟩
  · rw [List.dropWhile_cons_of_neg (by simp [isspace_of_isDigit hc]), splitSign_of_isDigit hc]
  · rw [List.takeWhile_cons_of_pos hc]
    exact List.cons_ne_nil _ _
  · intro hh
    rw [List.head?_cons, Option.some.injEq] at hh
    rw [hh] at hc
    cases hc

theorem startsDigit_minus (h : startsDigit t = true) :
    splitSign (('-' :: t).dropWhile isspace) = (true, t) ∧ t.takeWhile Char.isDigit ≠ [] :=
  ⟨rfl, (startsDigit_split h).2.1⟩

/-- What `strtol` reads of a text that starts like a number. -/
theorem strtol_startsInteger (h : startsInteger t = true) :
    (strtol t).1 = max (min (leadingInt t) (2 ^ 63 - 1)) (-2 ^ 63) := by
  rcases startsInteger_iff.mp h with hd | ⟨u, rfl, hd⟩
  · obtain ⟨hs, hne, hhead⟩ := startsDigit_split hd
    have hval : (strtol t).1 = min (natOf (t.takeWhile Char.isDigit) : Int) (2 ^ 63 - 1) := by
      simp only [strtol, hs, if_neg hne]
      rfl
    rw [hval, leadingInt, if_neg hhead]
    omega
  · obtain ⟨hs, hne⟩ := startsDigit_minus hd
    have hval : (strtol ('-' :: u)).1 = max (-(natOf (u.takeWhile Char.isDigit) : Int)) (-2 ^ 63) := by
      simp only [strtol, hs, if_neg hne]
      rfl
    have hlead : leadingInt ('-' :: u) = -(natOf (u.takeWhile Char.isDigit) : Int) := rfl
    rw [hval, hlead]
    omega

/-- A literal of an integer starts like one, is read to its end, and denotes the number in front. -/
theorem intLiteral_iff {z : Int} :
    IntLiteral t z ↔ startsInteger t = true ∧ ReadWhole t ∧ z = leadingInt t := by
  unfold IntLiteral ReadWhole
  constructor
  · rintro (⟨hd, rfl⟩ | ⟨ds, rfl, hd, rfl⟩)
    · have hs := startsDigit_of_digits hd
      obtain ⟨hsplit, -, hhead⟩ := startsDigit_split hs
      refine ⟨startsInteger_iff.mpr (Or.inl hs), Or.inr (by rw [hsplit]; exact hd), ?_⟩
      rw [leadingInt, if_neg hhead, takeWhile_digits hd]
    · have hs := startsDigit_of_digits hd
      refine ⟨startsInteger_iff.mpr (Or.inr ⟨ds, rfl, hs⟩), Or.inr hd, ?_⟩
      show _ = -(natOf (ds.takeWhile Char.isDigit) : Int)
      rw [takeWhile_digits hd]
  · rintro ⟨hstart, hread, rfl⟩
    rcases startsInteger_iff.mp hstart with hs | ⟨u, rfl, hs⟩
    · obtain ⟨hsplit, -, hhead⟩ := startsDigit_split hs
      have hd : Digits t := by
        rcases hread with rfl | hread
        · cases hs
        · rw [hsplit] at hread
          exact hread
      refine Or.inl ⟨hd, ?_⟩
      rw [leadingInt, if_neg hhead, takeWhile_digits hd]
    · have hd : Digits u := hread.resolve_left (List.cons_ne_nil _ _)
      refine Or.inr ⟨u, rfl, hd, ?_⟩
      show -(natOf (u.takeWhile Char.isDigit) : Int) = _
      rw [takeWhile_digits hd]

/-- A text that starts with a digit is read to its end when it has digits only. -/
theorem readWhole_of_startsDigit (h : startsDigit t = true) : ReadWhole t ↔ Digits t := by
  obtain ⟨hsplit, -, -⟩ := startsDigit_split h
  unfold ReadWhole
  rw [hsplit]
  constructor
  · rintro (rfl | hd)
    · cases h
    · exact hd
  · exact Or.inr

theorem strtoul_whole (h : startsDigit t = true) : (strtoul t).2 = [] ↔ Digits t := by
  obtain ⟨hsplit, hne, -⟩ := startsDigit_split h
  have heq : (strtoul t).2 = t.drop (t.takeWhile Char.isDigit).length := by
    simp only [strtoul, hsplit, if_neg hne, Bool.false_eq_true, if_false]
    split <;> rfl
  rw [heq, drop_takeWhile_eq_nil_iff]
  refine ⟨fun hall => ⟨?_, hall⟩, fun hd => hd.2⟩
  rintro rfl
  cases h

end

/-! ## Literals of a type -/

/-- The types whose literals a SET checks. -/
inductive LiteralType
  | int | unsignedInt | boolean | string
  deriving DecidableEq

namespace LiteralType

/-- The name in the data model. -/
def typeName : LiteralType → Text
  | .int => "int".toList
  | .unsignedInt => "unsignedInt".toList
  | .boolean => "boolean".toList
  | .string => "string".toList

/-- The type a client declares. -/
def dataType : LiteralType → DataType
  | .int => .int
  | .unsignedInt => .uint
  | .boolean => .boolean
  | .string => .string

/-- The type of the message. -/
def paramType : LiteralType → ParamType
  | .int => .integer
  | .unsignedInt => .unsignedInt
  | .boolean => .boolean
  | .string => .string

/-- The text is a literal of the type in range; `cap` bytes fit the buffer of a string. -/
def Valid (cap : Nat) (s : Text) : LiteralType → Prop
  | .int => ∃ z : Int, IntLiteral s z ∧ -2 ^ 31 ≤ z ∧ z < 2 ^ 31
  | .unsignedInt => Digits s ∧ natOf s < 2 ^ 32
  | .boolean => (boolOf s).isSome = true
  | .string => s.length ≤ cap

end LiteralType

/-- The HTTP path hands over exactly the literals, strings whole. -/
structure HttpExact (handler : Message → SetReply) (callerID : Text) (name : CString) (bsUpdate : SourceType)
    (t : LiteralType) (s : CString) : Prop where
  accepts : t.Valid (maxParamLen - 1) s.chars →
    ∃ m st, invokeHostIfAPI handler callerID name t.dataType bsUpdate s.chars = .ok ⟨some m, st⟩ ∧
      (t = .string → m.Carries (.string s))
  refuses : ¬ t.Valid (maxParamLen - 1) s.chars →
    invokeHostIfAPI handler callerID name t.dataType bsUpdate s.chars = .ok ⟨none, .errInvalidParameterValue⟩

/-- The bytes a string may have on the WebPA path: `paramValueLong` takes those of the report profiles. -/
def webpaCap (name : CString) : Nat :=
  if strcasecmp (copyName name).chars reportProfilesParam then maxLongParamLen else maxParamLen - 1

/-- The WebPA path hands over exactly the literals, strings whole. -/
structure WebpaExact (stray : Stray) (dm : DataModel) (handler : Message → SetReply) (name : CString)
    (t : LiteralType) (s : CString) : Prop where
  accepts : t.Valid (webpaCap name) s.chars →
    ∃ m st, setParamInfo stray handler (some dm) name t.dataType s = .ok (.answered ⟨some m, st⟩) ∧
      (t = .string → m.Carries (.string s))
  refuses : ¬ t.Valid (webpaCap name) s.chars →
    setParamInfo stray handler (some dm) name t.dataType s = .ok (.answered ⟨none, .errInvalidParameterValue⟩)

/-- The texts the HTTP path treats as it should: a number in front is in the range of `stoi`, or of `stoul` and, if it is
all of the text, of the type; a string is not one byte too long. -/
def HttpRight (s : Text) : LiteralType → Prop
  | .int => startsInteger s = true → -2 ^ 31 ≤ leadingInt s ∧ leadingInt s < 2 ^ 31
  | .unsignedInt => startsDigit s = true →
      natOf (s.takeWhile Char.isDigit) < 2 ^ 64 ∧ (Digits s → natOf s < 2 ^ 32)
  | .boolean => True
  | .string => s.length ≠ maxParamLen

/-- The texts the WebPA path treats as it should: what `strtol` reads whole starts with a digit or a minus sign and a
digit, and is in range; or is a literal below `2 ^ 31`, or becomes a negative `int`; a string fits. -/
def WebpaRight (name : CString) (s : Text) : LiteralType → Prop
  | .int => ReadWhole s → startsInteger s = true ∧ -2 ^ 31 ≤ leadingInt s ∧ leadingInt s < 2 ^ 31
  | .unsignedInt => ReadWhole s →
      if Digits s ∧ natOf s < 2 ^ 32 then natOf s < 2 ^ 31 else 2 ^ 31 ≤ (strtol s).1 % 2 ^ 32
  | .boolean => True
  | .string => strcasecmp (copyName name).chars reportProfilesParam = true ∨ s.length < maxParamLen

section
variable {handler : Message → SetReply} {callerID : Text} {name : CString} {bsUpdate : SourceType} {s : CString}

theorem valid_int_iff {cap : Nat} {t : Text} :
    LiteralType.int.Valid cap t ↔
      startsInteger t = true ∧ ReadWhole t ∧ -2 ^ 31 ≤ leadingInt t ∧ leadingInt t < 2 ^ 31 := by
  unfold LiteralType.Valid
  simp only [intLiteral_iff]
  constructor
  · rintro ⟨z, ⟨hs, hr, rfl⟩, hz⟩
    exact ⟨hs, hr, hz⟩
  · rintro ⟨hs, hr, hz⟩
    exact ⟨_, ⟨hs, hr, rfl⟩, hz⟩

/-! ## HTTP -/

theorem getHostIfParamType_dataType (t : LiteralType) : getHostIfParamType t.dataType = t.paramType := by
  cases t <;> rfl

/-- The validator decides, and a string must not be cut. -/
theorem httpExact_iff (hname : name.chars.length < maxParamLen) {t : LiteralType} :
    HttpExact handler callerID name bsUpdate t s ↔
      validateParamValue s.chars t.paramType = .ok true ∧ t.Valid (maxParamLen - 1) s.chars ∨
        validateParamValue s.chars t.paramType = .ok false ∧ ¬ t.Valid (maxParamLen - 1) s.chars := by
  have hno : ¬ maxParamLen ≤ name.chars.length := Nat.not_le.mpr hname
  constructor
  · rintro ⟨haccept, hrefuse⟩
    by_cases hv : t.Valid (maxParamLen - 1) s.chars
    · refine Or.inl ⟨?_, hv⟩
      obtain ⟨m, st, hm, -⟩ := haccept hv
      simp only [invokeHostIfAPI, if_neg hno, getHostIfParamType_dataType] at hm
      split at hm
      · cases hm
      · cases hm
      · assumption
    · refine Or.inr ⟨?_, hv⟩
      have hm := hrefuse hv
      simp only [invokeHostIfAPI, if_neg hno, getHostIfParamType_dataType] at hm
      split at hm
      · cases hm
      · assumption
      · cases hm
  · rintro (⟨hval, hv⟩ | ⟨hval, hv⟩)
    · refine ⟨fun _ => ?_, fun hn => absurd hv hn⟩
      obtain ⟨st, hm⟩ := invokeHostIfAPI_of_valid handler callerID bsUpdate hname
        ((congrArg (validateParamValue s.chars) (getHostIfParamType_dataType t)).trans hval)
      refine ⟨_, st, hm, ?_⟩
      rintro rfl
      have hlen : s.chars.length < maxParamLen := by
        have : s.chars.length ≤ maxParamLen - 1 := hv
        unfold maxParamLen at this ⊢
        omega
      exact (carries_putString_iff rfl rfl rfl).mpr hlen
    · refine ⟨fun h => absurd h hv, fun _ => ?_⟩
      simp only [invokeHostIfAPI, if_neg hno, getHostIfParamType_dataType, hval]

theorem validate_int {t : Text} (h : startsInteger t = true) :
    validateParamValue t .integer =
      if -2 ^ 31 ≤ leadingInt t ∧ leadingInt t < 2 ^ 31 then .ok (ReadWhole t) else .error .outOfRange := by
  have hrange : (-2 ^ 31 ≤ (strtol t).1 ∧ (strtol t).1 < 2 ^ 31) ↔ -2 ^ 31 ≤ leadingInt t ∧ leadingInt t < 2 ^ 31 := by
    rw [strtol_startsInteger h]
    omega
  simp only [validateParamValue, if_pos h, stoi, hrange, strtol_snd_eq_nil_iff]

theorem validate_uint {t : Text} (h : startsDigit t = true) :
    validateParamValue t .unsignedInt =
      if natOf (t.takeWhile Char.isDigit) < 2 ^ 64 then .ok (Digits t) else .error .outOfRange := by
  simp only [validateParamValue, if_pos h, stoul, strtoul_whole h]

theorem http_int_iff (hname : name.chars.length < maxParamLen) :
    HttpExact handler callerID name bsUpdate .int s ↔ HttpRight s.chars .int := by
  rw [httpExact_iff hname, valid_int_iff, HttpRight]
  by_cases hs : startsInteger s.chars = true
  · have heq : validateParamValue s.chars LiteralType.int.paramType = _ := validate_int hs
    by_cases hr : -2 ^ 31 ≤ leadingInt s.chars ∧ leadingInt s.chars < 2 ^ 31
    · rw [heq, if_pos hr]
      refine iff_of_true ?_ fun _ => hr
      by_cases hw : ReadWhole s.chars
      · exact Or.inl ⟨congrArg Except.ok (decide_eq_true hw), hs, hw, hr⟩
      · exact Or.inr ⟨congrArg Except.ok (decide_eq_false hw), fun h => hw h.2.1⟩
    · rw [heq, if_neg hr]
      refine iff_of_false ?_ fun h => hr (h hs)
      rintro (⟨h, -⟩ | ⟨h, -⟩) <;> cases h
  · have heq : validateParamValue s.chars LiteralType.int.paramType = .ok false := if_neg hs
    exact iff_of_true (Or.inr ⟨heq, fun h => hs h.1⟩) fun h => absurd h hs

theorem http_uint_iff (hname : name.chars.length < maxParamLen) :
    HttpExact handler callerID name bsUpdate .unsignedInt s ↔ HttpRight s.chars .unsignedInt := by
  rw [httpExact_iff hname, HttpRight, LiteralType.Valid]
  by_cases hs : startsDigit s.chars = true
  · have heq : validateParamValue s.chars LiteralType.unsignedInt.paramType = _ := validate_uint hs
    by_cases hn : natOf (s.chars.takeWhile Char.isDigit) < 2 ^ 64
    · rw [heq, if_pos hn, forall_prop_of_true hs, and_iff_right hn]
      by_cases hd : Digits s.chars
      · rw [decide_eq_true hd]
        simp only [hd, true_and, forall_const, Except.ok.injEq, Bool.true_eq_false, false_and, or_false]
      · exact iff_of_true (Or.inr ⟨congrArg Except.ok (decide_eq_false hd), fun h => hd h.1⟩) fun h => absurd h hd
    · rw [heq, if_neg hn]
      refine iff_of_false ?_ fun h => hn (h hs).1
      rintro (⟨h, -⟩ | ⟨h, -⟩) <;> cases h
  · have heq : validateParamValue s.chars LiteralType.unsignedInt.paramType = .ok false := if_neg hs
    exact iff_of_true (Or.inr ⟨heq, fun h => hs (startsDigit_of_digits h.1)⟩) fun h => absurd h hs

theorem http_boolean (hname : name.chars.length < maxParamLen) :
    HttpExact handler callerID name bsUpdate .boolean s := by
  rw [httpExact_iff hname]
  simp only [LiteralType.paramType, validateParamValue, LiteralType.Valid]
  cases (boolOf s.chars).isSome <;> simp

theorem http_string_iff (hname : name.chars.length < maxParamLen) :
    HttpExact handler callerID name bsUpdate .string s ↔ HttpRight s.chars .string := by
  rw [httpExact_iff hname, HttpRight, LiteralType.Valid]
  have heq : validateParamValue s.chars LiteralType.string.paramType = .ok (s.chars.length ≤ maxParamLen) := rfl
  have hcap : s.chars.length ≤ maxParamLen - 1 ↔ s.chars.length < maxParamLen := by
    unfold maxParamLen
    omega
  rw [heq, hcap, Except.ok.injEq, Except.ok.injEq, decide_eq_true_eq, decide_eq_false_iff_not]
  omega

/-- **The HTTP path accepts exactly the literals on the texts it treats right.** -/
theorem invokeHostIfAPI_exact_iff (hname : name.chars.length < maxParamLen) {t : LiteralType} :
    HttpExact handler callerID name bsUpdate t s ↔ HttpRight s.chars t := by
  cases t with
  | int => exact http_int_iff hname
  | unsignedInt => exact http_uint_iff hname
  | boolean => exact iff_of_true (http_boolean hname) trivial
  | string => exact http_string_iff hname

/-! ## WebPA -/

/-- The name leads to a parameter of the type. -/
structure Names (stray : Stray) (dm : DataModel) (name : CString) (info : DataModelParam) (t : LiteralType) : Prop where
  found : lookup stray dm name.chars = .ok (some info)
  typed : info.dataType = some t.typeName
  fits : name.chars.length < maxParamLen

variable {stray : Stray} {dm : DataModel} {info : DataModelParam} {t : LiteralType}

theorem Names.hostIfType_eq (h : Names stray dm name info t) : hostIfType info = t.paramType := by
  rw [hostIfType, h.typed]
  cases t <;> rfl

theorem Names.setParamInfo_of_some (h : Names stray dm name info t) {v : Buffer × Option CString}
    (ha : webpaAssign t.paramType (strcasecmp (copyName name).chars reportProfilesParam) s = some v) :
    setParamInfo stray handler (some dm) name t.dataType s =
      .ok (.answered ⟨some (webpaMessage name info v), walStatusOf (handler (webpaMessage name info v))⟩) := by
  have htype : converttoWalType t.paramType = t.dataType := by cases t <;> rfl
  simp only [setParamInfo, h.found, h.hostIfType_eq, htype, ne_eq, not_true_eq_false, if_false, ha]

theorem Names.setParamInfo_of_none (h : Names stray dm name info t)
    (ha : webpaAssign t.paramType (strcasecmp (copyName name).chars reportProfilesParam) s = none) :
    setParamInfo stray handler (some dm) name t.dataType s = .ok (.answered ⟨none, .errInvalidParameterValue⟩) := by
  have htype : converttoWalType t.paramType = t.dataType := by cases t <;> rfl
  simp only [setParamInfo, h.found, h.hostIfType_eq, htype, ne_eq, not_true_eq_false, if_false, ha]

/-- The assignment decides, and a string must be whole. -/
theorem webpaExact_iff (h : Names stray dm name info t) :
    WebpaExact stray dm handler name t s ↔
      (t.Valid (webpaCap name) s.chars → ∃ v,
        webpaAssign t.paramType (strcasecmp (copyName name).chars reportProfilesParam) s = some v ∧
          (t = .string → (webpaMessage name info v).Carries (.string s))) ∧
      (¬ t.Valid (webpaCap name) s.chars →
        webpaAssign t.paramType (strcasecmp (copyName name).chars reportProfilesParam) s = none) := by
  constructor
  · rintro ⟨haccept, hrefuse⟩
    cases ha : webpaAssign t.paramType (strcasecmp (copyName name).chars reportProfilesParam) s with
    | none =>
        refine ⟨fun hv => ?_, fun _ => rfl⟩
        obtain ⟨m, st, hm, -⟩ := haccept hv
        rw [h.setParamInfo_of_none ha] at hm
        cases hm
    | some v =>
        have heq := @Names.setParamInfo_of_some handler name s stray dm info t h v ha
        refine ⟨fun hv => ⟨v, rfl, ?_⟩, fun hv => ?_⟩
        · obtain ⟨m, st, hm, hc⟩ := haccept hv
          rw [heq] at hm
          injection hm with hm
          injection hm with hm
          injection hm with hm
          injection hm with hm
          exact hm ▸ hc
        · have hm := hrefuse hv
          rw [heq] at hm
          cases hm
  · rintro ⟨haccept, hrefuse⟩
    constructor
    · intro hv
      obtain ⟨v, ha, hc⟩ := haccept hv
      exact ⟨_, _, h.setParamInfo_of_some ha, hc⟩
    · intro hv
      exact h.setParamInfo_of_none (hrefuse hv)

theorem webpa_int_iff (h : Names stray dm name info .int) :
    WebpaExact stray dm handler name .int s ↔ WebpaRight name s.chars .int := by
  rw [webpaExact_iff h, valid_int_iff, WebpaRight]
  simp only [LiteralType.paramType, webpaAssign, strtol_snd_eq_nil_iff]
  by_cases hw : ReadWhole s.chars
  · simp [hw]
  · simp [hw]

/-- The sign of what `strtol` returns after the cast to `int`. -/
theorem zero_le_ofInt_iff (z : Int) : (0 : Int32) ≤ Int32.ofInt z ↔ z % 2 ^ 32 < 2 ^ 31 := by
  rw [Int32.le_iff_toInt_le, Int32.toInt_ofInt, Int.bmod_def]
  simp only [Int32.size, Int32.toInt_zero]
  omega

theorem webpa_uint_iff (h : Names stray dm name info .unsignedInt) :
    WebpaExact stray dm handler name .unsignedInt s ↔ WebpaRight name s.chars .unsignedInt := by
  rw [webpaExact_iff h, WebpaRight, LiteralType.Valid]
  simp only [LiteralType.paramType, webpaAssign, strtol_snd_eq_nil_iff, zero_le_ofInt_iff]
  by_cases hw : ReadWhole s.chars
  · simp only [hw, true_and, forall_const]
    by_cases hv : Digits s.chars ∧ natOf s.chars < 2 ^ 32
    · have hval : (strtol s.chars).1 = natOf s.chars := by
        rw [strtol_digits hv.1]
        omega
      have hrange : (natOf s.chars : Int) % 2 ^ 32 < 2 ^ 31 ↔ natOf s.chars < 2 ^ 31 := by omega
      simp only [if_pos hv, hval, hrange]
      by_cases hlt : natOf s.chars < 2 ^ 31
      · rw [if_pos hlt]
        exact iff_of_true ⟨fun _ => ⟨_, rfl, fun ht => by cases ht⟩, fun hn => absurd hv hn⟩ hlt
      · rw [if_neg hlt]
        refine iff_of_false (fun hall => ?_) hlt
        obtain ⟨v, hn, -⟩ := hall.1 hv
        cases hn
    · rw [if_neg hv]
      by_cases hlt : (strtol s.chars).1 % 2 ^ 32 < 2 ^ 31
      · rw [if_pos hlt]
        refine iff_of_false (fun hall => ?_) (Int.not_le.mpr hlt)
        cases hall.2 hv
      · rw [if_neg hlt]
        exact iff_of_true ⟨fun hv' => absurd hv' hv, fun _ => rfl⟩ (Int.not_lt.mp hlt)
  · have hv : ¬ (Digits s.chars ∧ natOf s.chars < 2 ^ 32) :=
      fun hv => hw ((readWhole_of_startsDigit (startsDigit_of_digits hv.1)).mpr hv.1)
    simp only [hw, false_and, if_false]
    exact iff_of_true ⟨fun hv' => absurd hv' hv, fun _ => trivial⟩ fun hf => hf.elim

theorem webpa_boolean (h : Names stray dm name info .boolean) : WebpaExact stray dm handler name .boolean s := by
  rw [webpaExact_iff h]
  simp only [LiteralType.paramType, webpaAssign, LiteralType.Valid]
  cases boolOf s.chars with
  | none => simp
  | some v => simp

theorem webpa_string_iff (h : Names stray dm name info .string) :
    WebpaExact stray dm handler name .string s ↔ WebpaRight name s.chars .string := by
  have htype : hostIfType info = .string := h.hostIfType_eq
  rw [webpaExact_iff h, WebpaRight, LiteralType.Valid, webpaCap]
  simp only [LiteralType.paramType, webpaAssign, forall_const]
  cases hl : strcasecmp (copyName name).chars reportProfilesParam with
  | true =>
      simp only [if_true, true_or, iff_true]
      refine ⟨fun hv => ?_, fun hv => if_neg hv⟩
      · rw [if_pos hv]
        refine ⟨_, rfl, htype, ?_⟩
        simp only [Message.read, webpaMessage, htype, Option.getD_some]
  | false =>
      have hcarry : (webpaMessage name info (Buffer.zero.putString s.chars, none)).Carries (.string s) ↔
          s.chars.length < maxParamLen := carries_putString_iff htype rfl rfl
      simp only [Bool.false_eq_true, if_false, false_or, reduceCtorEq, imp_false, not_not, Option.some.injEq,
        exists_eq_left', hcarry]
      unfold maxParamLen
      omega

/-- **The WebPA path accepts exactly the literals on the texts it treats right.** -/
theorem setParamInfo_exact_iff (h : Names stray dm name info t) :
    WebpaExact stray dm handler name t s ↔ WebpaRight name s.chars t := by
  cases t with
  | int => exact webpa_int_iff h
  | unsignedInt => exact webpa_uint_iff h
  | boolean => exact iff_of_true (webpa_boolean h) trivial
  | string => exact webpa_string_iff h

/-- **Both paths accept exactly the literals of a type, on these texts.** -/
theorem validation_exact_iff (h : Names stray dm name info t) :
    (HttpExact handler callerID name bsUpdate t s ∧ WebpaExact stray dm handler name t s) ↔
      HttpRight s.chars t ∧ WebpaRight name s.chars t :=
  and_congr (invokeHostIfAPI_exact_iff h.fits) (setParamInfo_exact_iff h)

end

/-- A period in seconds on both paths. -/
theorem validation_exact_hour :
    HttpExact acceptAll [] informName .none .unsignedInt (.ofLiteral "3600") ∧
      WebpaExact noStray informModel acceptAll informName .unsignedInt (.ofLiteral "3600") := by
  have hnames : Names noStray informModel informName (paramInfo informName.chars informParameter) .unsignedInt := by
    refine ⟨?_, rfl, by decide +kernel⟩
    rfl
  refine (validation_exact_iff hnames).mpr ⟨fun _ => ⟨by decide, fun _ => by decide⟩, fun _ => ?_⟩
  rw [if_pos (by decide)]
  decide

/-- The empty text and a text with a blank are numbers for WebPA, and a literal above `2 ^ 31` is none; HTTP takes
numbers that do not fit and throws on longer ones. -/
theorem validation_not_exact :
    let http := HttpExact acceptAll [] informName .none .unsignedInt
    let webpa := WebpaExact noStray informModel acceptAll informName .unsignedInt
    ¬ webpa (.ofLiteral "") ∧ ¬ webpa (.ofLiteral " 5") ∧ ¬ webpa (.ofLiteral "3000000000") ∧
      ¬ http (.ofLiteral "4294967296") ∧ ¬ http (.ofLiteral "99999999999999999999") := by
  intro http webpa
  have hnames : Names noStray informModel informName (paramInfo informName.chars informParameter) .unsignedInt := by
    refine ⟨?_, rfl, by decide +kernel⟩
    rfl
  refine ⟨fun h => ?_, fun h => ?_, fun h => ?_, fun h => ?_, fun h => ?_⟩
  · have := (webpa_uint_iff hnames).mp h (by decide)
    rw [if_neg (by decide)] at this
    exact absurd this (by decide)
  · have := (webpa_uint_iff hnames).mp h (by decide)
    rw [if_neg (by decide)] at this
    exact absurd this (by decide)
  · have := (webpa_uint_iff hnames).mp h (by decide)
    rw [if_pos (by decide)] at this
    exact absurd this (by decide)
  · exact absurd (((http_uint_iff hnames.fits).mp h (by decide)).2 (by decide)) (by decide)
  · exact absurd ((http_uint_iff hnames.fits).mp h (by decide)).1 (by decide)

end Tr69HostIf.Transport
