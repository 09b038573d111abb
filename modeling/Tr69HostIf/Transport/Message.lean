import Tr69HostIf.Clib.Bytes
import Tr69HostIf.Clib.Decimal
import Tr69HostIf.HostIf

/-!
# Messages to the handlers

`HOSTIF_MsgData_t` as the transports fill it and the handlers answer it, on a machine with 32-bit `int`,
64-bit `long` and the least significant byte first.

* `Buffer` : the 4096 bytes of `paramValue`, with `put_int`, `get_int` and so on of `hostIf_utils.cpp`;
* `Value` : a number, truth value or string together with its type;
* `Value.put`, `Message.read` : what a handler writes and what the message then carries, `read_put`.
-/

namespace Tr69HostIf.Transport
open Store Clib

/-- `HostIf_ParamType_t`. -/
inductive ParamType
  | string | integer | unsignedInt | boolean | dateTime | unsignedLong
  deriving DecidableEq

/-- `DATA_TYPE` and `WAL_DATA_TYPE`. -/
inductive DataType
  | string | int | uint | boolean | dateTime | base64 | long | ulong | float | double | byte | none | blob
  deriving DecidableEq

/-- `TR69HOSTIFMGR_MAX_PARAM_LEN`. -/
def maxParamLen : Nat := 4096

/-! ## The value buffer -/

/-- `paramValue`. -/
structure Buffer where
  bytes : Text
  size : bytes.length = maxParamLen

namespace Buffer

/-- After `memset(..., 0, ...)`. -/
def zero : Buffer := ⟨List.replicate maxParamLen '\x00', List.length_replicate⟩

/-- After a write to the start of the buffer. -/
def write (b : Buffer) (w : Text) (h : w.length ≤ maxParamLen) : Buffer :=
  ⟨overwrite w b.bytes, (length_overwrite (b.size ▸ h)).trans b.size⟩

@[simp] theorem bytes_write (b : Buffer) (w : Text) (h : w.length ≤ maxParamLen) :
    (b.write w h).bytes = overwrite w b.bytes := rfl

theorem leBytes_fits {n : Nat} (h : n ≤ 8) (v : Nat) : (leBytes n v).length ≤ maxParamLen := by
  rw [length_leBytes, maxParamLen]
  omega

theorem string_fits (t : Text) : (t.take (maxParamLen - 1) ++ ['\x00']).length ≤ maxParamLen := by
  rw [List.length_append, List.length_take, List.length_singleton, maxParamLen]
  omega

/-- `put_int`. -/
def putInt (b : Buffer) (z : Int32) : Buffer := b.write (leBytes 4 z.toUInt32.toNat) (leBytes_fits (by decide) _)

/-- `put_uint`. -/
def putUint (b : Buffer) (n : UInt32) : Buffer := b.write (leBytes 4 n.toNat) (leBytes_fits (by decide) _)

/-- `put_ulong`. -/
def putUlong (b : Buffer) (n : UInt64) : Buffer := b.write (leBytes 8 n.toNat) (leBytes_fits (by decide) _)

/-- `put_boolean`: one byte. -/
def putBoolean (b : Buffer) (v : Bool) : Buffer := b.write (leBytes 1 v.toNat) (leBytes_fits (by decide) _)

/-- A string copied with its terminating NUL, cut to what the buffer holds. -/
def putString (b : Buffer) (t : Text) : Buffer :=
  b.write (t.take (maxParamLen - 1) ++ ['\x00']) (string_fits t)

/-- `*(unsigned int *)`. -/
def getUint (b : Buffer) : UInt32 := UInt32.ofNat (leNat 4 b.bytes)

/-- `get_int`. -/
def getInt (b : Buffer) : Int32 := b.getUint.toInt32

/-- `*(unsigned long *)`. -/
def getUlong (b : Buffer) : UInt64 := UInt64.ofNat (leNat 8 b.bytes)

/-- `get_boolean`: one byte; for a byte other than 0 and 1 the language says nothing, here it is true. -/
def getBoolean (b : Buffer) : Bool := leNat 1 b.bytes ≠ 0

/-- The string in the buffer. -/
def getString (b : Buffer) : Text := cStr b.bytes

end Buffer

/-! ## Values -/

/-- What a parameter of one of the types holds. -/
inductive Value
  | string (s : CString)
  | int (z : Int32)
  | unsignedInt (n : UInt32)
  | unsignedLong (n : UInt64)
  | boolean (v : Bool)
  deriving DecidableEq

namespace Value

/-- The type of a value. -/
def paramType : Value → ParamType
  | .string _ => .string
  | .int _ => .integer
  | .unsignedInt _ => .unsignedInt
  | .unsignedLong _ => .unsignedLong
  | .boolean _ => .boolean

/-- The value fits a buffer. -/
def Fits : Value → Prop
  | .string s => s.chars.length < maxParamLen
  | _ => True

/-- What a handler writes. -/
def put (b : Buffer) : Value → Buffer
  | .string s => b.putString s.chars
  | .int z => b.putInt z
  | .unsignedInt n => b.putUint n
  | .unsignedLong n => b.putUlong n
  | .boolean v => b.putBoolean v

end Value

/-- `HOSTIF_MsgData_t`; `paramValueLong` is the string behind it when `isLengthyParam` is set. -/
structure Message where
  paramName : CString
  paramtype : ParamType
  paramValue : Buffer
  paramValueLong : Option CString
  requestor : SourceType
  bsUpdate : SourceType
  faultCode : FaultCode

/-- The text in a buffer, up to its NUL. -/
def Buffer.cString (b : Buffer) : CString where
  chars := b.getString
  noNul h := by
    have := List.mem_takeWhile_imp h
    simp at this

/-- The value a message carries under its type. -/
def Message.read (m : Message) : Value :=
  match m.paramtype with
  | .integer => .int m.paramValue.getInt
  | .unsignedInt => .unsignedInt m.paramValue.getUint
  | .unsignedLong => .unsignedLong m.paramValue.getUlong
  | .boolean => .boolean m.paramValue.getBoolean
  | .string => .string (m.paramValueLong.getD m.paramValue.cString)
  | .dateTime => .string (m.paramValueLong.getD m.paramValue.cString)

/-! ## Reading back -/

namespace Buffer
variable (b : Buffer)

@[simp] theorem getUint_putUint (n : UInt32) : (b.putUint n).getUint = n := by
  have h : leNat 4 (b.putUint n).bytes = n.toNat := by
    rw [putUint, bytes_write, leNat_overwrite]
    exact Nat.mod_eq_of_lt n.toNat_lt
  rw [getUint, h, UInt32.ofNat_toNat]

@[simp] theorem getInt_putInt (z : Int32) : (b.putInt z).getInt = z := by
  have h : b.putInt z = b.putUint z.toUInt32 := rfl
  rw [getInt, h, getUint_putUint, Int32.toInt32_toUInt32]

@[simp] theorem getUlong_putUlong (n : UInt64) : (b.putUlong n).getUlong = n := by
  have h : leNat 8 (b.putUlong n).bytes = n.toNat := by
    rw [putUlong, bytes_write, leNat_overwrite]
    exact Nat.mod_eq_of_lt n.toNat_lt
  rw [getUlong, h, UInt64.ofNat_toNat]

@[simp] theorem getBoolean_putBoolean (v : Bool) : (b.putBoolean v).getBoolean = v := by
  have h : leNat 1 (b.putBoolean v).bytes = v.toNat := by
    rw [putBoolean, bytes_write, leNat_overwrite, Nat.mod_eq_of_lt (by cases v <;> decide)]
  rw [getBoolean, h]
  cases v <;> rfl

/-- A string is read back as far as the buffer holds it. -/
theorem getString_putString_take {t : Text} (ht : '\x00' ∉ t) :
    (b.putString t).getString = t.take (maxParamLen - 1) := by
  rw [getString, putString, bytes_write, overwrite, List.append_assoc, List.singleton_append, cStr]
  rw [List.takeWhile_append_of_pos]
  · rw [List.takeWhile_cons_of_neg (by simp), List.append_nil]
  · intro c hc
    rw [decide_eq_true_eq]
    rintro rfl
    exact ht (List.mem_of_mem_take hc)

theorem getString_putString {t : Text} (ht : '\x00' ∉ t) (hlen : t.length < maxParamLen) :
    (b.putString t).getString = t := by
  rw [getString_putString_take b ht, List.take_of_length_le (by omega)]

theorem cString_putString {s : CString} (hlen : s.chars.length < maxParamLen) : (b.putString s.chars).cString = s := by
  obtain ⟨t, ht⟩ := s
  have h := b.getString_putString ht hlen
  simp only [cString, h]

end Buffer

end Tr69HostIf.Transport
