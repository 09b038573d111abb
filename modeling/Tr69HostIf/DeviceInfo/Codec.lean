import Tr69HostIf.DeviceInfo.StringValue

/-!
# The text of a value, byte by byte

`getStringValue` and `putValue` of `hostIf_utils.cpp` on the bytes of a message, with `int_to_string`'s ten bytes and
the `int` that `get_ulong` returns. `Codes b v` : a value put into a buffer is rendered into the bytes there are for it,
the text put into a fresh buffer holds the value again, and renders the same. `codes_iff` : the values for which it
does; `bufferText_eq_getStringValue` : on those the text is that of `DeviceInfo.getStringValue`.
-/

namespace Tr69HostIf.DeviceInfo
open Store Clib Transport

/-- The bytes of `tmp_buff` in `int_to_string`. -/
def tmpBuff : Nat := 10

/-- `int_to_string`, `none` when `sprintf` writes past `tmp_buff`. -/
def intToString (d : Int32) : Option Text :=
  if (printInt d.toInt).length + 1 ≤ tmpBuff then some (printInt d.toInt) else none

/-- `uint_to_string`. -/
def uintToString (d : UInt32) : Text := printNat d.toNat

/-- `ulong_to_string`. -/
def ulongToString (d : UInt64) : Text := printNat d.toNat

/-- `bool_to_string`. -/
def boolToString (value : Bool) : Text := if value then "true".toList else "false".toList

/-- `get_ulong`: an `int`. -/
def getUlongInt (b : Buffer) : Int32 := b.getUlong.toUInt32.toInt32

/-- `string_to_int`. -/
def stringToInt (value : Text) : Int32 := Int32.ofInt (strtol value).1

/-- `string_to_uint`. -/
def stringToUint (value : Text) : UInt32 := UInt32.ofNat (strtoul value).1

/-- `string_to_ulong`. -/
def stringToUlong (value : Text) : UInt64 := UInt64.ofNat (strtoul value).1

/-- `getStringValue` on the bytes of a message, `none` when a buffer is too small. -/
def bufferText (paramtype : ParamType) (b : Buffer) : Option Text :=
  match paramtype with
  | .string => some b.getString
  | .integer => intToString b.getInt
  | .unsignedInt => some (uintToString b.getUint)
  | .boolean => some (boolToString b.getBoolean)
  | .unsignedLong => some (ulongToString (getUlongInt b).toInt64.toUInt64)
  | .dateTime => some []

/-- `putValue`: the bytes of the message, cleared first; `strcpy_s` leaves the empty string when the text is too
long. -/
def bufferOf (paramtype : ParamType) (value : Text) : Buffer :=
  match paramtype with
  | .string => if value.length < maxParamLen then Buffer.zero.putString value else .zero
  | .integer => Buffer.zero.putInt (stringToInt value)
  | .unsignedInt => Buffer.zero.putUint (stringToUint value)
  | .boolean => Buffer.zero.putBoolean (stringToBool value)
  | .unsignedLong => Buffer.zero.putUlong (stringToUlong value)
  | .dateTime => .zero

/-- The value in the bytes of a message of this type. -/
def bufferValue (paramtype : ParamType) (b : Buffer) : Value :=
  match paramtype with
  | .integer => .int b.getInt
  | .unsignedInt => .unsignedInt b.getUint
  | .unsignedLong => .unsignedLong b.getUlong
  | .boolean => .boolean b.getBoolean
  | .string | .dateTime => .string b.cString

/-- The value goes through its text and back, the text through the value, and every text fits its buffer. -/
def Codes (b : Buffer) (v : Value) : Prop :=
  ∃ t, bufferText v.paramType (v.put b) = some t ∧
    bufferValue v.paramType (bufferOf v.paramType t) = v ∧
      bufferText v.paramType (bufferOf v.paramType t) = some t

/-- Integers of at most nine characters, and unsigned longs that are an `int` extended by its sign. -/
def Codable : Value → Prop
  | .int z => -10 ^ 8 < z.toInt ∧ z.toInt < 10 ^ 9
  | .unsignedLong n => n.toNat < 2 ^ 31 ∨ 2 ^ 64 - 2 ^ 31 ≤ n.toNat
  | _ => True

instance : DecidablePred Codable
  | .int _ => inferInstanceAs (Decidable (_ ∧ _))
  | .unsignedLong _ => inferInstanceAs (Decidable (_ ∨ _))
  | .string _ | .unsignedInt _ | .boolean _ => inferInstanceAs (Decidable True)

/-! ## Texts -/

theorem length_printInt_lt_iff (z : Int) : (printInt z).length + 1 ≤ tmpBuff ↔ -10 ^ 8 < z ∧ z < 10 ^ 9 := by
  unfold printInt printNat tmpBuff
  split
  · next h =>
    have hlen : (Nat.toDigits 10 z.natAbs).length ≤ 8 ↔ z.natAbs < 10 ^ 8 :=
      Nat.length_toDigits_le_iff (by decide) (by decide)
    rw [List.length_cons]
    omega
  · next h =>
    have hlen : (Nat.toDigits 10 z.toNat).length ≤ 9 ↔ z.toNat < 10 ^ 9 :=
      Nat.length_toDigits_le_iff (by decide) (by decide)
    omega

theorem intToString_eq_some_iff {d : Int32} {t : Text} :
    intToString d = some t ↔ (-10 ^ 8 < d.toInt ∧ d.toInt < 10 ^ 9) ∧ printInt d.toInt = t := by
  unfold intToString
  rw [← length_printInt_lt_iff]
  split
  · next h => rw [Option.some.injEq, and_iff_right h]
  · next h => simp [h]

theorem stringToInt_printInt (z : Int32) : stringToInt (printInt z.toInt) = z := by
  have hz := z.toInt_lt
  have hz' := z.le_toInt
  rw [stringToInt, strtol_printInt (by omega) (by omega), Int32.ofInt_toInt]

theorem stringToUint_printNat (n : UInt32) : stringToUint (printNat n.toNat) = n := by
  rw [stringToUint, strtoul_printNat (lt_trans n.toNat_lt (by decide)), UInt32.ofNat_toNat]

theorem stringToUlong_printNat (n : UInt64) : stringToUlong (printNat n.toNat) = n := by
  rw [stringToUlong, strtoul_printNat n.toNat_lt, UInt64.ofNat_toNat]

theorem stringToBool_boolToString (v : Bool) : stringToBool (boolToString v) = v := by
  cases v <;> decide

/-! ## Type by type -/

section
variable (b : Buffer)

theorem codes_int_iff (z : Int32) : Codes b (.int z) ↔ Codable (.int z) := by
  have hget : bufferText .integer (b.putInt z) = intToString z := congrArg intToString (b.getInt_putInt z)
  have hback : ∀ t : Text, bufferText .integer (bufferOf .integer t) = intToString (stringToInt t) :=
    fun t => congrArg intToString (Buffer.zero.getInt_putInt _)
  constructor
  · rintro ⟨t, ht, -⟩
    exact (intToString_eq_some_iff.mp (hget.symm.trans ht)).1
  · intro hz
    have htext : intToString z = some (printInt z.toInt) := intToString_eq_some_iff.mpr ⟨hz, rfl⟩
    refine ⟨printInt z.toInt, hget.trans htext, ?_, ?_⟩
    · show Value.int (Buffer.zero.putInt (stringToInt (printInt z.toInt))).getInt = _
      rw [Buffer.getInt_putInt, stringToInt_printInt]
    · show bufferText .integer (bufferOf .integer (printInt z.toInt)) = _
      rw [hback, stringToInt_printInt, htext]

theorem codes_uint (n : UInt32) : Codes b (.unsignedInt n) := by
  refine ⟨printNat n.toNat, ?_, ?_, ?_⟩
  · show some (uintToString (b.putUint n).getUint) = _
    rw [Buffer.getUint_putUint, uintToString]
  · show Value.unsignedInt (Buffer.zero.putUint (stringToUint (printNat n.toNat))).getUint = _
    rw [Buffer.getUint_putUint, stringToUint_printNat]
  · show some (uintToString (Buffer.zero.putUint (stringToUint (printNat n.toNat))).getUint) = _
    rw [Buffer.getUint_putUint, stringToUint_printNat, uintToString]

theorem codes_boolean (v : Bool) : Codes b (.boolean v) := by
  refine ⟨boolToString v, ?_, ?_, ?_⟩
  · show some (boolToString (b.putBoolean v).getBoolean) = _
    rw [Buffer.getBoolean_putBoolean]
  · show Value.boolean (Buffer.zero.putBoolean (stringToBool (boolToString v))).getBoolean = _
    rw [Buffer.getBoolean_putBoolean, stringToBool_boolToString]
  · show some (boolToString (Buffer.zero.putBoolean (stringToBool (boolToString v))).getBoolean) = _
    rw [Buffer.getBoolean_putBoolean, stringToBool_boolToString]

theorem codes_string {s : CString} (hs : s.chars.length < maxParamLen) : Codes b (.string s) := by
  have hget : ∀ c : Buffer, (c.putString s.chars).getString = s.chars := fun c => c.getString_putString s.noNul hs
  have hput : bufferOf .string s.chars = Buffer.zero.putString s.chars := if_pos hs
  refine ⟨s.chars, congrArg some (hget b), ?_, ?_⟩
  · show Value.string (bufferOf .string s.chars).cString = _
    rw [hput, Buffer.cString_putString _ hs]
  · show some (bufferOf .string s.chars).getString = _
    rw [hput, hget]

theorem codes_ulong_iff (n : UInt64) : Codes b (.unsignedLong n) ↔ Codable (.unsignedLong n) := by
  have hget : ∀ (c : Buffer) (n : UInt64), bufferText .unsignedLong (c.putUlong n) =
      some (printNat n.toUInt32.toInt32.toInt64.toUInt64.toNat) := fun c n =>
    congrArg (fun m : UInt64 => some (ulongToString m.toUInt32.toInt32.toInt64.toUInt64)) (c.getUlong_putUlong n)
  have hval : ∀ m : UInt64, bufferValue .unsignedLong (bufferOf .unsignedLong (printNat m.toNat)) =
      .unsignedLong m := by
    intro m
    show Value.unsignedLong (Buffer.zero.putUlong (stringToUlong (printNat m.toNat))).getUlong = _
    rw [Buffer.getUlong_putUlong, stringToUlong_printNat]
  rw [Codable, ← throughInt_iff]
  constructor
  · rintro ⟨t, ht, hv, -⟩
    have htext : t = printNat n.toUInt32.toInt32.toInt64.toUInt64.toNat :=
      Option.some.inj (ht.symm.trans (hget b n))
    rw [htext] at hv
    exact Value.unsignedLong.inj ((hval _).symm.trans hv)
  · intro hn
    refine ⟨printNat n.toNat, ?_, hval n, ?_⟩
    · rw [← hn]
      have := hget b n
      rw [hn] at this ⊢
      exact this
    · show bufferText .unsignedLong (Buffer.zero.putUlong (stringToUlong (printNat n.toNat))) = _
      rw [stringToUlong_printNat, hget, hn]

end

/-- **The codec is faithful exactly on the codable values.** -/
theorem codes_iff (b : Buffer) {v : Value} (h : v.Fits) : Codes b v ↔ Codable v := by
  cases v with
  | string s => exact iff_of_true (codes_string b h) trivial
  | int z => exact codes_int_iff b z
  | unsignedInt n => exact iff_of_true (codes_uint b n) trivial
  | unsignedLong n => exact codes_ulong_iff b n
  | boolean v => exact iff_of_true (codes_boolean b v) trivial

/-- The longest positive number that `int_to_string` has room for. -/
theorem codes_nineDigits : Codes .zero (.int 999999999) := (codes_iff .zero (v := .int 999999999) trivial).mpr (by decide)

/-- Ten digits overrun `tmp_buff`, and `2 ^ 31` comes back as a number near `2 ^ 64`. -/
theorem not_codes_large : ¬ Codes .zero (.int 1000000000) ∧ ¬ Codes .zero (.unsignedLong 2147483648) :=
  ⟨fun h => absurd ((codes_int_iff .zero _).mp h) (by decide),
    fun h => absurd ((codes_ulong_iff .zero _).mp h) (by decide)⟩

/-- The bytes render what the stores keep. -/
theorem bufferText_eq_getStringValue (b : Buffer) {v : Value} (h : v.Fits) {t : Text}
    (ht : bufferText v.paramType (v.put b) = some t) : t = (getStringValue (.plain v)).chars := by
  cases v with
  | string s => exact (Option.some.inj ht).symm.trans (b.getString_putString s.noNul h)
  | int z =>
      have hget : bufferText .integer (b.putInt z) = intToString z := congrArg intToString (b.getInt_putInt z)
      exact (intToString_eq_some_iff.mp (hget.symm.trans ht)).2.symm
  | unsignedInt n =>
      have hget : bufferText .unsignedInt (b.putUint n) = some (uintToString n) :=
        congrArg (fun n => some (uintToString n)) (b.getUint_putUint n)
      exact Option.some.inj (ht.symm.trans hget)
  | unsignedLong n =>
      have hget : bufferText .unsignedLong (b.putUlong n) =
          some (ulongToString n.toUInt32.toInt32.toInt64.toUInt64) :=
        congrArg (fun m : UInt64 => some (ulongToString m.toUInt32.toInt32.toInt64.toUInt64)) (b.getUlong_putUlong n)
      exact Option.some.inj (ht.symm.trans hget)
  | boolean v =>
      have hget : bufferText .boolean (b.putBoolean v) = some (boolToString v) :=
        congrArg (fun v => some (boolToString v)) (b.getBoolean_putBoolean v)
      exact Option.some.inj (ht.symm.trans hget)

end Tr69HostIf.DeviceInfo
