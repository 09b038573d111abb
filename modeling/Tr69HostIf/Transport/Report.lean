import Tr69HostIf.Transport.Literal

/-!
# What the transports report for an answered GET

The decoders of `paramValue`: `hostIf_HTTPJsonMsgHandler` of `hostIf_jsonReqHandlerThread.cpp`, `getStringValue`
of `request_handler.cpp`, the `switch` of both branches of `GetParamInfo` in `webpa_parameter.cpp`, and
`TR_Dml_GetHandler` of `hostIf_rbus_Dml_Provider.cpp`.

* `Message.answered` : the message after a handler has written a value over whatever the buffer held;
* `Reported` : all four report the value;
* `Readable` : unsigned numbers below `2 ^ 31`, truth values written over three zero bytes;
* `reported_iff` : a value is reported by all four exactly when it is `Readable`.
-/

namespace Tr69HostIf.Transport
open Store Clib

/-! ## The decoders -/

/-- What yajl is given. -/
inductive JsonValue
  | string (t : Text)
  | integer (z : Int)
  | bool (v : Bool)

/-- `get_ulong`, whose result is an `int`. -/
def Buffer.getUlongAsInt (b : Buffer) : Int32 := (UInt32.ofNat b.getUlong.toNat).toInt32

/-- The `switch` of `hostIf_HTTPJsonMsgHandler`. -/
def jsonValue (m : Message) : JsonValue :=
  match m.paramtype with
  | .string => .string m.paramValue.getString
  | .integer => .integer m.paramValue.getInt.toInt
  | .unsignedInt => .integer m.paramValue.getInt.toInt
  | .unsignedLong => .integer m.paramValue.getUlongAsInt.toInt
  | .boolean => .bool m.paramValue.getBoolean
  | .dateTime => .string "Unknown".toList

/-- `getStringValue` of the HTTP server. -/
def getStringValue (paramType : ParamType) (value : Buffer) : Text :=
  match paramType with
  | .string | .dateTime => value.getString.take (maxParamLen - 1)
  | .integer | .unsignedInt => printInt value.getInt.toInt
  | .unsignedLong => printNat value.getUlong.toNat
  | .boolean => if value.getBoolean then "true".toList else "false".toList

/-- The `switch` in both branches of `GetParamInfo`. -/
def webpaValue (m : Message) : Text :=
  match m.paramtype with
  | .integer | .boolean => printInt m.paramValue.getInt.toInt
  | .unsignedInt => printNat m.paramValue.getUint.toNat
  | .unsignedLong => printNat m.paramValue.getUlong.toNat
  | .string | .dateTime =>
      match m.paramValueLong with
      | some t => t.chars
      | none => m.paramValue.getString.take (maxParamLen - 1)

/-- The kinds of `rbusValue_t` that the provider sets. -/
inductive RbusValue
  | int32 (z : Int32)
  | boolean (v : Bool)
  | uint32 (n : UInt32)
  | uint64 (n : UInt64)
  | string (t : Text)

/-- The `switch` of `TR_Dml_GetHandler`. -/
def rbusValue (m : Message) : RbusValue :=
  match m.paramtype with
  | .integer => .int32 m.paramValue.getInt
  | .boolean => .boolean (m.paramValue.getInt ≠ 0)
  | .unsignedInt => .uint32 m.paramValue.getUint
  | .unsignedLong => .uint64 m.paramValue.getUlong
  | .string | .dateTime => .string m.paramValue.getString

/-! ## What a report denotes -/

/-- The JSON value is that number, truth value or string. -/
def JsonValue.Denotes : JsonValue → Value → Prop
  | .string t, .string s => t = s.chars
  | .integer z, .int w => z = w.toInt
  | .integer z, .unsignedInt n => z = n.toNat
  | .integer z, .unsignedLong n => z = n.toNat
  | .bool b, .boolean v => b = v
  | _, _ => False

/-- The rbus value is that number, truth value or string. -/
def RbusValue.Denotes : RbusValue → Value → Prop
  | .string t, .string s => t = s.chars
  | .int32 z, .int w => z = w
  | .uint32 m, .unsignedInt n => m = n
  | .uint64 m, .unsignedLong n => m = n
  | .boolean b, .boolean v => b = v
  | _, _ => False

/-- All four transports report the value. -/
structure Reported (m : Message) (v : Value) : Prop where
  json : (jsonValue m).Denotes v
  http : Literal (getStringValue m.paramtype m.paramValue) v
  webpa : Literal (webpaValue m) v
  rbus : (rbusValue m).Denotes v

/-- The message after a handler has filled in a value. -/
def Message.answered (m : Message) (v : Value) : Message :=
  { m with paramtype := v.paramType, paramValue := v.put m.paramValue, paramValueLong := none }

/-- What all four decoders read right, given what the buffer held before. -/
def Readable (b : Buffer) : Value → Prop
  | .unsignedInt n => n.toNat < 2 ^ 31
  | .unsignedLong n => n.toNat < 2 ^ 31
  | .boolean _ => leNat 3 (b.bytes.drop 1) = 0
  | .int _ | .string _ => True

theorem toInt_toInt32 (n : UInt32) : n.toInt32.toInt = (n.toNat : Int).bmod (2 ^ 32) :=
  BitVec.toInt_eq_toNat_bmod n.toBitVec

theorem bmod_eq_self_iff {n : Nat} (h : n < 2 ^ 64) : (n : Int).bmod (2 ^ 32) = n ↔ n < 2 ^ 31 := by
  rw [Int.bmod_def]
  omega

section
variable (m : Message)

theorem reported_string {s : CString} (hs : s.chars.length < maxParamLen) : Reported (m.answered (.string s)) (.string s) := by
  have hget : (m.paramValue.putString s.chars).getString = s.chars := Buffer.getString_putString _ s.noNul hs
  have htake : s.chars.take (maxParamLen - 1) = s.chars := List.take_of_length_le (by omega)
  refine ⟨hget, ?_, ?_, hget⟩
  · exact (congrArg (List.take (maxParamLen - 1)) hget).trans htake
  · exact (congrArg (List.take (maxParamLen - 1)) hget).trans htake

theorem reported_int (z : Int32) : Reported (m.answered (.int z)) (.int z) := by
  have hget : (m.paramValue.putInt z).getInt = z := Buffer.getInt_putInt _ z
  have htext : IntLiteral (printInt (m.paramValue.putInt z).getInt.toInt) z.toInt := by
    rw [hget]
    exact intLiteral_printInt.mpr rfl
  exact ⟨congrArg Int32.toInt hget, htext, htext, hget⟩

theorem reported_uint_iff (n : UInt32) : Reported (m.answered (.unsignedInt n)) (.unsignedInt n) ↔ n.toNat < 2 ^ 31 := by
  have hget : (m.paramValue.putUint n).getUint = n := Buffer.getUint_putUint _ n
  have hint : (m.paramValue.putUint n).getInt.toInt = (n.toNat : Int).bmod (2 ^ 32) := by
    rw [Buffer.getInt, hget, toInt_toInt32]
  have hlt : n.toNat < 2 ^ 64 := n.toNat_lt.trans (by decide)
  constructor
  · intro h
    exact (bmod_eq_self_iff hlt).mp (hint.symm.trans h.json)
  · intro h
    have hz := hint.trans ((bmod_eq_self_iff hlt).mpr h)
    exact ⟨hz, digits_printInt.mpr hz, digits_printNat_iff.mpr (congrArg UInt32.toNat hget), hget⟩

theorem reported_ulong_iff (n : UInt64) : Reported (m.answered (.unsignedLong n)) (.unsignedLong n) ↔ n.toNat < 2 ^ 31 := by
  have hget : (m.paramValue.putUlong n).getUlong = n := Buffer.getUlong_putUlong _ n
  have hint : (m.paramValue.putUlong n).getUlongAsInt.toInt = (n.toNat : Int).bmod (2 ^ 32) := by
    rw [Buffer.getUlongAsInt, hget, toInt_toInt32, UInt32.toNat_ofNat', Int.natCast_mod]
    exact Int.emod_bmod ..
  constructor
  · intro h
    exact (bmod_eq_self_iff n.toNat_lt).mp (hint.symm.trans h.json)
  · intro h
    have htext := digits_printNat_iff.mpr (congrArg UInt64.toNat hget)
    exact ⟨hint.trans ((bmod_eq_self_iff n.toNat_lt).mpr h), htext, htext, hget⟩

/-- What the four-byte readers see of a truth value. -/
theorem getInt_putBoolean (b : Buffer) (v : Bool) :
    (b.putBoolean v).getInt.toInt = ((v.toNat + 256 * leNat 3 (b.bytes.drop 1) : Nat) : Int).bmod (2 ^ 32) := by
  have hle : leNat 4 (b.putBoolean v).bytes = v.toNat + 256 * leNat 3 (b.bytes.drop 1) := by
    have h := leNat_append 1 3 (b := b.bytes.drop 1) (length_leBytes 1 v.toNat)
    rw [leNat_leBytes, Nat.mod_eq_of_lt (by cases v <;> decide)] at h
    exact h
  rw [Buffer.getInt, Buffer.getUint, toInt_toInt32, hle, UInt32.toNat_ofNat', Int.natCast_mod]
  exact Int.emod_bmod ..

theorem reported_boolean_iff (v : Bool) :
    Reported (m.answered (.boolean v)) (.boolean v) ↔ leNat 3 (m.paramValue.bytes.drop 1) = 0 := by
  have hone : (m.paramValue.putBoolean v).getBoolean = v := Buffer.getBoolean_putBoolean _ v
  have hint := getInt_putBoolean m.paramValue v
  have hlt := leNat_lt 3 (m.paramValue.bytes.drop 1)
  have hv : v.toNat ≤ 1 := by cases v <;> decide
  constructor
  · intro h
    have hz := boolOf_printInt.mp h.webpa
    have heq := hint.symm.trans hz
    rw [Int.bmod_def] at heq
    omega
  · intro h
    rw [h, Nat.mul_zero, Nat.add_zero] at hint
    have hz : (m.paramValue.putBoolean v).getInt.toInt = v.toNat :=
      hint.trans ((bmod_eq_self_iff (by omega)).mpr (by omega))
    have hbus : decide ((m.paramValue.putBoolean v).getInt ≠ 0) = v := by
      have hzero : (m.paramValue.putBoolean v).getInt = 0 ↔ v = false := by
        rw [← Int32.toInt_inj, hz]
        cases v <;> decide
      cases v with
      | false => exact decide_eq_false fun hne => hne (hzero.mpr rfl)
      | true => exact decide_eq_true fun heq => absurd (hzero.mp heq) (by decide)
    refine ⟨hone, ?_, boolOf_printInt.mpr hz, hbus⟩
    change boolOf (if (m.paramValue.putBoolean v).getBoolean then "true".toList else "false".toList) = some v
    rw [hone]
    exact literal_text (.boolean v)

/-- **The transports agree exactly on readable values.** -/
theorem reported_iff (v : Value) (hv : v.Fits) : Reported (m.answered v) v ↔ Readable m.paramValue v := by
  cases v with
  | string s => exact iff_of_true (reported_string m hv) trivial
  | int z => exact iff_of_true (reported_int m z) trivial
  | unsignedInt n => exact reported_uint_iff m n
  | unsignedLong n => exact reported_ulong_iff m n
  | boolean v => exact reported_boolean_iff m v

end

/-- A message as `memset` leaves it. -/
def Message.cleared : Message where
  paramName := ⟨[], List.not_mem_nil⟩
  paramtype := .string
  paramValue := .zero
  paramValueLong := none
  requestor := .none
  bsUpdate := .none
  faultCode := .noFault

theorem reported_uptime : (Value.unsignedInt 86400).Fits ∧
    Reported (Message.cleared.answered (.unsignedInt 86400)) (.unsignedInt 86400) :=
  ⟨trivial, (reported_iff Message.cleared (.unsignedInt 86400) trivial).mpr (show 86400 < 2 ^ 31 by decide)⟩

theorem large_counter_misreported :
    ¬Reported (Message.cleared.answered (.unsignedInt 3000000000)) (.unsignedInt 3000000000) := by
  intro h
  have := (reported_uint_iff Message.cleared 3000000000).mp h
  revert this
  decide

end Tr69HostIf.Transport
