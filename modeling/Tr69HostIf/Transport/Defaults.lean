import Tr69HostIf.Clib.Ascii
import Tr69HostIf.Transport.Slots

/-!
# Default values of failed GETs

* `Defaulted` : the name leads to a parameter with a default text that denotes a value of its type;
* `Failing` : the handlers fail on the parameter's messages;
* `DefaultReported` : HTTP, WebPA and rbus all report the value of the default;
* `Survives` : what is left of the default after WebPA has copied it into the message and printed the message over
  itself: strings, no truth value, and the few numbers whose digits read as their own number;
* `default_reported_iff` : the transports agree exactly on defaults that survive, under names that HTTP takes.
-/

namespace Tr69HostIf.Transport
open Store Clib Waldb

section
variable (stray : Stray) (dm : DataModel) (handler : GetHandler)

/-- The name leads to a parameter whose default denotes the value. -/
structure Defaulted (name : CString) (info : DataModelParam) (d : Text) (v : Value) : Prop where
  not_wildcard : isWildCardParam name.chars = false
  not_rfc : isRfcVariable name.chars = false
  found : lookup stray dm name.chars = .ok (some info)
  typed : ∃ t, info.dataType = some t ∧ converttohostIfType t = v.paramType
  default : info.defaultValue = some d
  literal : Literal d v

/-- The handlers fail on a message: they leave its type, and no string behind it. -/
structure Fails (m : Message) : Prop where
  result : (handler m).1 ≠ 0
  type : (handler m).2.paramtype = m.paramtype
  long : (handler m).2.paramValueLong = none

/-- The GET of the parameter fails: the message that WebPA and rbus send, and the one of the HTTP server. -/
structure Failing (name : CString) (info : DataModelParam) : Prop where
  bus : Fails handler (getMessage (copyName name) (hostIfType info) .webpa (getBSUpdateEnum info.bsUpdate))
  http : ∀ callerID, Fails handler (getMessage (copyName name)
    (getHostIfParamType ((info.dataType.map getWdmpDataType).getD .none)) (requestorOf callerID) (getBSUpdateEnum info.bsUpdate))

/-- All three transports report the value. -/
structure DefaultReported (selfPrint : SelfPrint) (callerID : Text) (varStore : Text → Text)
    (expand : CString → Option (List (CString × Text))) (name : CString) (v : Value) : Prop where
  http : ∃ text type status, httpGet handler callerID varStore stray dm expand [name] =
    .ok [⟨[⟨name, some text, type⟩], status⟩] ∧ Literal text v
  webpa : ∃ p status, getParamInfo selfPrint stray handler expand (some dm) name = .ok (.answered [p] status) ∧
    Literal p.value v
  rbus : ∃ r, trDmlGetHandler stray handler (some dm) name = .ok (.ok r) ∧ r.Denotes v

/-- What WebPA leaves of a default still denotes the value. -/
def Survives (selfPrint : SelfPrint) (d : Text) : Value → Prop
  | .string s => s.chars.length < maxParamLen ∧ selfPrint.print s = s
  | .int _ => Digits d ∧ (min d.length 13, natOf d) ∈ fixedFour
  | .unsignedInt _ => (min d.length 13, natOf d) ∈ fixedFour
  | .unsignedLong _ => (min d.length 27, natOf d) ∈ fixedEight
  | .boolean _ => False

end

/-! ## Numbers in a buffer of text -/

/-- Only ASCII characters. -/
def Buffer.Ascii (b : Buffer) : Prop := ∀ c ∈ b.bytes, byte c < 128

namespace Buffer

theorem ascii_zero : zero.Ascii := fun c hc => by
  rw [List.eq_of_mem_replicate hc]
  decide

theorem Ascii.putString {b : Buffer} (hb : b.Ascii) {t : Text} (ht : ∀ c ∈ t, byte c < 128) : (b.putString t).Ascii := by
  intro c hc
  rw [Buffer.putString, bytes_write, overwrite, List.mem_append, List.mem_append, List.mem_singleton] at hc
  rcases hc with (hc | rfl) | hc
  · exact ht c (List.mem_of_mem_take hc)
  · decide
  · exact hb c (List.mem_of_mem_drop hc)

theorem toNat_getUint (b : Buffer) : b.getUint.toNat = leNat 4 b.bytes := by
  have := leNat_lt 4 b.bytes
  rw [getUint, UInt32.toNat_ofNat']
  exact Nat.mod_eq_of_lt this

theorem toNat_getUlong (b : Buffer) : b.getUlong.toNat = leNat 8 b.bytes := by
  have := leNat_lt 8 b.bytes
  rw [getUlong, UInt64.toNat_ofNat']
  exact Nat.mod_eq_of_lt this

/-- Text is never a negative number. -/
theorem Ascii.toInt_getInt {b : Buffer} (hb : b.Ascii) : b.getInt.toInt = leNat 4 b.bytes := by
  have hlt := two_mul_leNat_lt 4 hb
  rw [getInt, toInt_toInt32, toNat_getUint, bmod_eq_self_iff (by omega)]
  omega

/-- The first bytes of a buffer are those of the text in it. -/
theorem leNat_putString (b : Buffer) (t : Text) {w : Nat} (hw : w < maxParamLen) :
    ∃ u, leNat w (b.putString t).bytes = leNat w (t ++ u) := by
  rw [putString, bytes_write, overwrite, List.append_assoc]
  rcases Nat.lt_or_ge (maxParamLen - 1) t.length with hlong | hshort
  · have hlen : ((t.take (maxParamLen - 1)).take w).length = w := by
      rw [List.length_take, List.length_take]
      omega
    refine ⟨[], ?_⟩
    have htake : t.take w = (t.take (maxParamLen - 1)).take w := by
      rw [List.take_take, Nat.min_eq_left (by omega)]
    rw [List.append_nil]
    conv_lhs => rw [← List.take_append_drop w (t.take (maxParamLen - 1)), List.append_assoc, leNat_of_length hlen, ← htake]
    conv_rhs => rw [← List.take_append_drop w t, leNat_of_length (by rw [htake, hlen])]
  · rw [List.take_of_length_le hshort]
    exact ⟨_, rfl⟩

end Buffer

theorem byte_of_digits {t : Text} (h : ∀ c ∈ t, c.isDigit = true) : ∀ c ∈ t, byte c < 128 := fun c hc => by
  have := toNat_of_isDigit (h c hc)
  rw [byte_of_isDigit (h c hc)]
  omega

theorem printInt_natCast (n : Nat) : printInt n = printNat n := by
  rw [printInt, if_neg (by omega), Int.toNat_natCast]

/-! ## The default in the message -/

section
variable (selfPrint : SelfPrint) (m : Message) (d : Text)

/-- The string type: what a self-print makes of as much as the buffer holds. -/
theorem webpaValue_defaulted_string (hlong : m.paramValueLong = none) (htype : m.paramtype = .string) :
    webpaValue (m.defaulted selfPrint d) = (selfPrint.print (Buffer.zero.putString d).cString).chars := by
  have hfits := selfPrint.fits (Buffer.zero.putString d).cString
  simp only [webpaValue, Message.defaulted, htype, hlong, paramValueToString]
  rw [Buffer.getString_putString _ (CString.noNul _) hfits, List.take_of_length_le (by omega)]

/-- The four bytes of a printed truth value are no truth value. -/
theorem getInt_putString_truth (b : Buffer) (x v : Bool) :
    (b.putString (if x then "true".toList else "false".toList)).getInt.toInt ≠ v.toNat := by
  obtain ⟨u, hu⟩ := b.leNat_putString (if x then "true".toList else "false".toList) (show 4 < maxParamLen by decide)
  rw [Buffer.getInt, toInt_toInt32, Buffer.toNat_getUint, hu]
  cases x with
  | true =>
      have hread : leNat 4 "true".toList = 1702195828 := by decide +kernel
      rw [if_pos rfl, leNat_of_length (by decide), hread]
      cases v <;> decide
  | false =>
      have hread : leNat 4 "fals".toList = 1936482662 := by decide +kernel
      rw [if_neg (by decide), show "false".toList = "fals".toList ++ ['e'] from rfl, List.append_assoc,
        leNat_of_length (by decide), hread]
      cases v <;> decide

theorem webpaValue_defaulted_boolean (htype : m.paramtype = .boolean) (v : Bool) :
    ¬Literal (webpaValue (m.defaulted selfPrint d)) (.boolean v) := by
  simp only [webpaValue, Message.defaulted, htype, paramValueToString, Literal, boolOf_printInt]
  exact getInt_putString_truth _ _ v

/-- The integer types see the number that the digits of the first number spell. -/
theorem webpaValue_defaulted_uint (htype : m.paramtype = .unsignedInt) :
    ∃ u r, webpaValue (m.defaulted selfPrint d) = printNat (leNat 4 (printNat (leNat 4 (d ++ u)) ++ r)) := by
  obtain ⟨u, hu⟩ := Buffer.zero.leNat_putString d (show 4 < maxParamLen by decide)
  obtain ⟨r, hr⟩ := (Buffer.zero.putString d).leNat_putString (printNat (leNat 4 (d ++ u))) (show 4 < maxParamLen by decide)
  refine ⟨u, r, ?_⟩
  simp only [webpaValue, Message.defaulted, htype, paramValueToString]
  rw [Buffer.toNat_getUint, Buffer.toNat_getUint, hu, hr]

theorem webpaValue_defaulted_ulong (htype : m.paramtype = .unsignedLong) :
    ∃ u r, webpaValue (m.defaulted selfPrint d) = printNat (leNat 8 (printNat (leNat 8 (d ++ u)) ++ r)) := by
  obtain ⟨u, hu⟩ := Buffer.zero.leNat_putString d (show 8 < maxParamLen by decide)
  obtain ⟨r, hr⟩ := (Buffer.zero.putString d).leNat_putString (printNat (leNat 8 (d ++ u))) (show 8 < maxParamLen by decide)
  refine ⟨u, r, ?_⟩
  simp only [webpaValue, Message.defaulted, htype, paramValueToString]
  rw [Buffer.toNat_getUlong, Buffer.toNat_getUlong, hu, hr]

theorem webpaValue_defaulted_int (htype : m.paramtype = .integer) (hd : ∀ c ∈ d, byte c < 128) :
    ∃ u r, webpaValue (m.defaulted selfPrint d) = printNat (leNat 4 (printNat (leNat 4 (d ++ u)) ++ r)) := by
  obtain ⟨u, hu⟩ := Buffer.zero.leNat_putString d (show 4 < maxParamLen by decide)
  obtain ⟨r, hr⟩ := (Buffer.zero.putString d).leNat_putString (printNat (leNat 4 (d ++ u))) (show 4 < maxParamLen by decide)
  have hfirst := Buffer.ascii_zero.putString hd
  have hsecond := hfirst.putString (byte_of_digits (digits_printNat (leNat 4 (d ++ u))).2)
  refine ⟨u, r, ?_⟩
  simp only [webpaValue, Message.defaulted, htype, paramValueToString]
  rw [hfirst.toInt_getInt, hu, printInt_natCast, hsecond.toInt_getInt, hr, printInt_natCast]

theorem literal_defaulted_int (htype : m.paramtype = .integer) {z : Int32} (hd : Literal d (.int z)) :
    Literal (webpaValue (m.defaulted selfPrint d)) (.int z) ↔ Digits d ∧ (min d.length 13, natOf d) ∈ fixedFour := by
  rcases hd with ⟨hdig, hz⟩ | ⟨ds, rfl, hdig, hz⟩
  · obtain ⟨u, r, heq⟩ := webpaValue_defaulted_int selfPrint m d htype (byte_of_digits hdig.2)
    rw [heq, ← printInt_natCast, Literal, intLiteral_printInt, hz, Int.natCast_inj, eq_comm,
      fixed_four.reread_iff (by decide) hdig, and_iff_right hdig]
  · have hbytes : ∀ c ∈ '-' :: ds, byte c < 128 := by
      intro c hc
      rcases List.mem_cons.mp hc with rfl | hc
      · decide
      · exact byte_of_digits hdig.2 c hc
    obtain ⟨u, r, heq⟩ := webpaValue_defaulted_int selfPrint m ('-' :: ds) htype hbytes
    refine iff_of_false ?_ fun h => not_digits_minus ds h.1
    -- a negative number, and a text that starts with a digit
    have hpos := le_leNat (u := r) (k := 0) (w := 4) (digits_printNat (leNat 4 ('-' :: ds ++ u))).2
      (List.length_pos_iff.mpr (digits_printNat _).1) (by decide)
    rw [heq, ← printInt_natCast, Literal, intLiteral_printInt, hz]
    omega

theorem literal_defaulted_string (htype : m.paramtype = .string) (hlong : m.paramValueLong = none) (s : CString) :
    Literal (webpaValue (m.defaulted selfPrint s.chars)) (.string s) ↔
      s.chars.length < maxParamLen ∧ selfPrint.print s = s := by
  rw [webpaValue_defaulted_string selfPrint m s.chars hlong htype, Literal]
  rcases Nat.lt_or_ge s.chars.length maxParamLen with hfits | hlarge
  · rw [Buffer.cString_putString _ hfits, and_iff_right hfits]
    exact CString.ext_iff.symm
  · refine iff_of_false (fun h => ?_) fun h => absurd h.1 (by omega)
    have := selfPrint.fits (Buffer.zero.putString s.chars).cString
    rw [h] at this
    omega

/-- **What WebPA reports for a default is its value exactly if the default survives.** -/
theorem literal_defaulted_iff {v : Value} (htype : m.paramtype = v.paramType) (hlong : m.paramValueLong = none)
    (hd : Literal d v) : Literal (webpaValue (m.defaulted selfPrint d)) v ↔ Survives selfPrint d v := by
  cases v with
  | string s =>
      obtain rfl : d = s.chars := hd
      exact literal_defaulted_string selfPrint m htype hlong s
  | int z => exact literal_defaulted_int selfPrint m d htype hd
  | unsignedInt n =>
      obtain ⟨u, r, heq⟩ := webpaValue_defaulted_uint selfPrint m d htype
      rw [heq, Literal, digits_printNat_iff, ← hd.2, fixed_four.reread_iff (by decide) hd.1, Survives]
  | unsignedLong n =>
      obtain ⟨u, r, heq⟩ := webpaValue_defaulted_ulong selfPrint m d htype
      rw [heq, Literal, digits_printNat_iff, ← hd.2, fixed_eight.reread_iff (by decide) hd.1, Survives]
  | boolean v => exact iff_of_false (webpaValue_defaulted_boolean selfPrint m d htype v) id

end

/-! ## The three transports -/

section
variable {stray : Stray} {dm : DataModel} {handler : GetHandler} {name : CString} {info : DataModelParam} {d : Text} {v : Value}

theorem rbusDefault_denotes (hd : Literal d v) : (rbusDefault v.paramType d).Denotes v := by
  cases v with
  | string s => exact hd
  | int z =>
      change Int32.ofInt (strtol d).1 = z
      have hlo := z.le_toInt
      have hhi := z.toInt_lt
      rcases hd with ⟨hdig, hz⟩ | ⟨ds, rfl, hdig, hz⟩
      · rw [strtol_digits hdig, ← hz, min_eq_left (by omega), Int32.ofInt_toInt]
      · rw [strtol_neg hdig, ← hz, max_eq_left (by omega), Int32.ofInt_toInt]
  | unsignedInt n =>
      change UInt32.ofNat (strtoul d).1 = n
      have hlt := n.toNat_lt
      rw [strtoul_digits hd.1, hd.2, min_eq_left (by omega), UInt32.ofNat_toNat]
  | unsignedLong n =>
      change UInt64.ofNat (strtoul d).1 = n
      have hlt := n.toNat_lt
      rw [strtoul_digits hd.1, hd.2, min_eq_left (by omega), UInt64.ofNat_toNat]
  | boolean v =>
      change stringToBool d = v
      have hb : boolOf d = some v := hd
      unfold boolOf at hb
      unfold stringToBool
      split at hb
      · next ht =>
        rw [ht]
        exact Option.some.inj hb
      · next ht =>
        split at hb
        · rw [Bool.eq_false_of_not_eq_true ht]
          exact Option.some.inj hb
        · cases hb

theorem invokeGet_of_fails {callerID : Text} {type : DataType} {bsUpdate : SourceType}
    (h : Fails handler (getMessage (copyName name) (getHostIfParamType type) (requestorOf callerID) bsUpdate)) :
    (invokeGet handler callerID name type bsUpdate).2 ≠ .success := by
  simp only [invokeGet, if_neg h.result]
  split
  · exact fun h => by cases h
  · exact fun h => by cases h

theorem Defaulted.httpGet_eq (h : Defaulted stray dm name info d v) (hfail : Failing handler name info)
    (hlen : name.chars.length ≤ maxParameterNameLen) (callerID : Text) (varStore : Text → Text)
    (expand : CString → Option (List (CString × Text))) :
    ∃ type, httpGet handler callerID varStore stray dm expand [name] =
      .ok [⟨[⟨name, some d, type⟩], .errDefaultValue⟩] := by
  have hans : orDefault info.defaultValue (invokeGet handler callerID name ((info.dataType.map getWdmpDataType).getD .none)
      (getBSUpdateEnum info.bsUpdate)) = (d, .errDefaultValue) := by
    rw [orDefault_of_failure (invokeGet_of_fails (hfail.http callerID)), h.default]
    rfl
  refine ⟨(info.dataType.map getWdmpDataType).getD .none, ?_⟩
  apply httpGet_singleton handler callerID varStore stray dm expand
    (s := ⟨(info.dataType.map getWdmpDataType).getD .none, false⟩)
  simp only [httpGetSlot, if_neg (Nat.not_lt.mpr hlen), h.not_wildcard, h.not_rfc, h.found, LoopState.init, hans,
    Bool.false_eq_true, if_false]

theorem httpGet_overlong (hlen : maxParameterNameLen < name.chars.length) (callerID : Text) (varStore : Text → Text)
    (expand : CString → Option (List (CString × Text))) :
    httpGet handler callerID varStore stray dm expand [name] =
      .ok [⟨[⟨name, none, .none⟩], .errInvalidParameterName⟩] := by
  apply httpGet_singleton handler callerID varStore stray dm expand (s := .init)
  rw [httpGetSlot, if_pos hlen]

theorem Defaulted.hostIfType_eq (h : Defaulted stray dm name info d v) : hostIfType info = v.paramType := by
  obtain ⟨t, ht, htype⟩ := h.typed
  rw [hostIfType, ht]
  exact htype

theorem Defaulted.getParamInfo_eq (h : Defaulted stray dm name info d v) (hfail : Failing handler name info)
    (selfPrint : SelfPrint) (expand : CString → Option (List (CString × Text))) :
    ∃ m : Message, m.paramtype = v.paramType ∧ m.paramValueLong = none ∧
      getParamInfo selfPrint stray handler expand (some dm) name =
        .ok (.answered [webpaParam (m.defaulted selfPrint d)] .success) := by
  have hf := hfail.bus
  refine ⟨_, hf.type.trans h.hostIfType_eq, hf.long, ?_⟩
  simp only [getParamInfo, h.not_wildcard, Bool.false_eq_true, if_false, h.found, getParamValues, if_neg hf.result, h.default]

theorem Defaulted.trDmlGetHandler_eq (h : Defaulted stray dm name info d v) (hfail : Failing handler name info) :
    trDmlGetHandler stray handler (some dm) name = .ok (.ok (rbusDefault v.paramType d)) := by
  obtain ⟨t, ht, htype⟩ := h.typed
  have hf := hfail.bus
  rw [h.hostIfType_eq] at hf
  have hconv : convert2hostIfDataType t = v.paramType := htype
  simp only [trDmlGetHandler, h.found, ht, h.default, hconv]
  rw [if_neg fun hok => hf.result hok.1, hf.type]
  rfl

/-- **All three transports report the value of a default exactly if the default survives WebPA's buffer and the name
is one that HTTP takes.** -/
theorem default_reported_iff (h : Defaulted stray dm name info d v) (hfail : Failing handler name info)
    (selfPrint : SelfPrint) (callerID : Text) (varStore : Text → Text) (expand : CString → Option (List (CString × Text))) :
    DefaultReported stray dm handler selfPrint callerID varStore expand name v ↔
      name.chars.length ≤ maxParameterNameLen ∧ Survives selfPrint d v := by
  obtain ⟨m, htype, hlong, hwebpa⟩ := h.getParamInfo_eq hfail selfPrint expand
  constructor
  · intro hall
    obtain ⟨text, type, status, hhttp, -⟩ := hall.http
    obtain ⟨p, status', hget, hlit⟩ := hall.webpa
    constructor
    · apply Nat.le_of_not_lt
      intro hlen
      rw [httpGet_overlong hlen] at hhttp
      cases hhttp
    · rw [hwebpa] at hget
      cases hget
      exact (literal_defaulted_iff selfPrint m d htype hlong h.literal).mp hlit
  · rintro ⟨hlen, hsurvives⟩
    obtain ⟨type, hhttp⟩ := h.httpGet_eq hfail hlen callerID varStore expand
    refine ⟨⟨d, type, _, hhttp, h.literal⟩, ⟨_, _, hwebpa, ?_⟩, _, h.trDmlGetHandler_eq hfail, rbusDefault_denotes h.literal⟩
    exact (literal_defaulted_iff selfPrint m d htype hlong h.literal).mpr hsurvives

end

/-! ## A parameter of the shipped data model -/

/-- `Device.InterfaceStackNumberOfEntries` with a default. -/
def stackParameter (d : Text) : DmParameter where
  base := .ofLiteral "InterfaceStackNumberOfEntries" rfl
  access := some "readOnly".toList
  bsUpdate := none
  syntaxNodes := [.dataType "unsignedInt".toList, .default d]

/-- The data model with this parameter. -/
def stackModel (d : Text) : DataModel :=
  [{ path := [device]
     path_ne_nil := by simp
     params := [stackParameter d]
     distinct := by simp
     fits := fun p hp => by
      rw [List.mem_singleton] at hp
      rw [hp]
      change (pathText [device] ++ "InterfaceStackNumberOfEntries".toList).length < _
      decide +kernel }]

/-- The parameter's name. -/
def stackName : CString := .ofLiteral "Device.InterfaceStackNumberOfEntries"

/-- A handler that fails. -/
def refuseAll : GetHandler := fun m => (-1, m)

/-- A `snprintf` that reads its argument before it writes. -/
def keepText : SelfPrint where
  print := copyName
  fits s := by
    rw [copyName, List.length_take, maxParamLen]
    omega

theorem stackDefaulted {d : Text} {n : UInt32} (hd : Literal d (.unsignedInt n)) :
    Defaulted noStray (stackModel d) stackName (paramInfo stackName.chars (stackParameter d)) d (.unsignedInt n) where
  not_wildcard := by decide +kernel
  not_rfc := by decide +kernel
  found := rfl
  typed := ⟨_, rfl, rfl⟩
  default := rfl
  literal := hd

theorem refuseAll_failing (name : CString) (info : DataModelParam) : Failing refuseAll name info :=
  ⟨⟨show (-1 : Int) ≠ 0 by decide, rfl, rfl⟩, fun _ => ⟨show (-1 : Int) ≠ 0 by decide, rfl, rfl⟩⟩

theorem stack_default_reported :
    DefaultReported noStray (stackModel "809054264".toList) refuseAll keepText [] (fun _ => []) (fun _ => none) stackName
      (.unsignedInt 809054264) :=
  (default_reported_iff (stackDefaulted ⟨by decide +kernel, by decide +kernel⟩) (refuseAll_failing _ _) keepText [] _ _).mpr
    ⟨by decide +kernel, show _ ∈ fixedFour by decide +kernel⟩

/-- The shipped default is 0, and WebPA reports 14388. -/
theorem stack_default_misreported :
    ¬DefaultReported noStray (stackModel "0".toList) refuseAll keepText [] (fun _ => []) (fun _ => none) stackName
      (.unsignedInt 0) := by
  intro h
  have hd : Literal "0".toList (.unsignedInt 0) := ⟨by decide, by decide⟩
  obtain ⟨m, htype, hlong, hwebpa⟩ :=
    (stackDefaulted hd).getParamInfo_eq (refuseAll_failing _ _) keepText fun _ => none
  obtain ⟨p, status, hget, hlit⟩ := h.webpa
  rw [hwebpa] at hget
  cases hget
  have hsurvives := (literal_defaulted_iff keepText m _ htype hlong hd).mp hlit
  revert hsurvives
  show ¬_ ∈ fixedFour
  decide +kernel

end Tr69HostIf.Transport
