import Tr69HostIf.Transport.SetAgree

/-!
# Typed values and the texts the stores keep

`getStringValue` and `putValue` of `hostIf_utils.cpp`: the text a typed message value is stored as, and the
value a stored text is read as. `putValue_getStringValue_iff` says which values come back.
-/

namespace Tr69HostIf.DeviceInfo
open Store Clib Transport

/-- The value of a message under its type; a date and time is kept as a string. -/
inductive TypedValue
  | plain (v : Value)
  | dateTime (s : CString)
  deriving DecidableEq

namespace TypedValue

def paramType : TypedValue → ParamType
  | .plain v => v.paramType
  | .dateTime _ => .dateTime

/-- The value fits the message buffer. -/
def Fits : TypedValue → Prop
  | .plain v => v.Fits
  | .dateTime s => s.chars.length < maxParamLen

end TypedValue

/-- The empty string. -/
def emptyString : CString := ⟨[], by simp⟩

/-- `c_str()` of a text. -/
def stringOf (t : Text) : CString := ⟨cStr t, fun h => by simpa using List.mem_takeWhile_imp h⟩

@[simp] theorem stringOf_chars (s : CString) : stringOf s.chars = s := CString.ext s.cStr_chars

/-- `getStringValue`. `get_ulong` returns an `int`, which `ulong_to_string` takes as an `unsigned long`;
`int_to_string` prints into ten bytes, a longer number is printed in full here. -/
def getStringValue : TypedValue → CString
  | .plain (.unsignedLong n) => Value.literal (.unsignedLong n.toUInt32.toInt32.toInt64.toUInt64)
  | .plain v => v.literal
  | .dateTime _ => emptyString

/-- `string_to_bool`. -/
def stringToBool (t : Text) : Bool := strcasecmp t "true".toList || t = "1".toList

/-- `putValue`: the value a message of the type then carries. -/
def putValue (type : ParamType) (s : CString) : TypedValue :=
  match type with
  | .string => .plain (.string (if s.chars.length < maxParamLen then s else emptyString))
  | .integer => .plain (.int (Int32.ofInt (strtol s.chars).1))
  | .unsignedInt => .plain (.unsignedInt (UInt32.ofNat (strtoul s.chars).1))
  | .boolean => .plain (.boolean (stringToBool s.chars))
  | .unsignedLong => .plain (.unsignedLong (UInt64.ofNat (strtoul s.chars).1))
  | .dateTime => .dateTime emptyString

/-- The value survives being stored as text and read again. -/
def RoundTrips : TypedValue → Prop
  | .plain (.unsignedLong n) => n.toNat < 2 ^ 31 ∨ 2 ^ 64 - 2 ^ 31 ≤ n.toNat
  | .plain _ => True
  | .dateTime s => s = emptyString

/-! ## Round trips -/

theorem strtoul_printNat {n : Nat} (h : n < 2 ^ 64) : (strtoul (printNat n)).1 = n := by
  rw [strtoul_digits (digits_printNat n), natOf_printNat]
  omega

/-- An `unsigned long` passed through `int` is itself exactly when it sign-extends from 32 bits. -/
theorem throughInt_iff (n : UInt64) :
    n.toUInt32.toInt32.toInt64.toUInt64 = n ↔ n.toNat < 2 ^ 31 ∨ 2 ^ 64 - 2 ^ 31 ≤ n.toNat := by
  have hbv : n.toUInt32.toInt32.toInt64.toUInt64.toBitVec = (n.toBitVec.setWidth 32).signExtend 64 := rfl
  have hn : n.toBitVec.toNat = n.toNat := rfl
  have hlt : n.toNat < 2 ^ 64 := n.toNat_lt
  rw [← UInt64.toBitVec_inj, hbv, ← BitVec.toNat_inj, BitVec.toNat_signExtend, BitVec.msb_eq_decide]
  simp only [BitVec.toNat_setWidth, hn, decide_eq_true_eq]
  split <;> omega

theorem putValue_getStringValue_iff {v : TypedValue} (h : v.Fits) :
    putValue v.paramType (getStringValue v) = v ↔ RoundTrips v := by
  cases v with
  | dateTime s => simp [putValue, TypedValue.paramType, RoundTrips, eq_comm]
  | plain v =>
    cases v with
    | string s =>
      have hlen : s.chars.length < maxParamLen := h
      have hs : Value.literal (.string s) = s := rfl
      simp [putValue, TypedValue.paramType, Value.paramType, getStringValue, RoundTrips, hs, hlen]
    | int z =>
      have hz := z.toInt_lt
      have hz' := z.le_toInt
      have htext : (Value.literal (.int z)).chars = printInt z.toInt := rfl
      have hread : (strtol (printInt z.toInt)).1 = z.toInt := by rw [strtol_printInt (by omega) (by omega)]
      simp [putValue, TypedValue.paramType, Value.paramType, getStringValue, RoundTrips, htext, hread]
    | unsignedInt n =>
      have htext : (Value.literal (.unsignedInt n)).chars = printNat n.toNat := rfl
      have hread : (strtoul (printNat n.toNat)).1 = n.toNat :=
        strtoul_printNat (lt_trans n.toNat_lt (by decide))
      simp [putValue, TypedValue.paramType, Value.paramType, getStringValue, RoundTrips, htext, hread]
    | boolean b => cases b <;> simp [RoundTrips] <;> decide
    | unsignedLong n =>
      rw [RoundTrips, ← throughInt_iff]
      generalize hm : n.toUInt32.toInt32.toInt64.toUInt64 = m
      have htext : (getStringValue (.plain (.unsignedLong n))).chars = printNat m.toNat := by rw [← hm]; rfl
      have hread : (strtoul (printNat m.toNat)).1 = m.toNat := strtoul_printNat m.toNat_lt
      simp [putValue, TypedValue.paramType, Value.paramType, htext, hread]

end Tr69HostIf.DeviceInfo
