import Tr69HostIf.Clib.Scanf
import Tr69HostIf.Transport.Message
import Mathlib.Logic.Function.Basic

/-!
# The settings of the NTP servers

`Device.Time.Chrony.NTPServer.i.Settings` is checked by the format of an `sscanf`, stored as it came in the file of its
instance, and read back as the first line of that file.

* `setNTPServerSettings`, `getNTPServerSettings` : the code;
* `SettingsFields` : the five fields of a text, `WellFormed` those that the grammar allows, `Accepted` those that are
  accepted;
* `set_ok_iff` : what is accepted, `settingsExact_iff` : when that is the grammar, and the text is read back.
-/

namespace Tr69HostIf.Time
open Store Clib Transport

/-- `NTP_SERVER_MAX_INSTANCES`. -/
def maxInstances : Int := 5

/-- `prefix` of `parseNTPServerInstance`. -/
def serverPrefix : Text := "Device.Time.Chrony.NTPServer.".toList

/-- `suffix`. -/
def settingsSuffix : Text := ".Settings".toList

/-- `NTP_SERVER_SETTINGS_DEFAULT`. -/
def settingsDefault : Text := "pool,4,true,10,12".toList

/-- The contents of the settings files by instance; `none` is a file that cannot be opened to read. -/
abbrev SettingsFiles := Int → Option Text

/-- `parseNTPServerInstance`; a number out of the range of a `long` is clamped, and so out of `1` to `5` too. -/
def parseNTPServerInstance (paramName : Text) : Int :=
  if strcasecmp (paramName.take serverPrefix.length) serverPrefix = false then -1
  else
    let after := paramName.drop serverPrefix.length
    let idx := strtol after
    if idx.2 = after then -1
    else if strcasecmp idx.2 settingsSuffix = false then -1
    else if idx.1 < 1 ∨ maxInstances < idx.1 then -1
    else idx.1

/-- What the `sscanf` stores. -/
structure Scanned where
  typeStr : Text
  maxsources : Int
  iburstStr : Text
  minpoll : Int
  maxpoll : Int

/-- `sscanf(input, "%15[^,],%d,%7[^,],%d,%d%n", ...)`, and what stands behind it. -/
def scanSettings (input : Text) : Option (Scanned × Text) :=
  scanSetThen 15 ',' (fun typeStr => scanIntThen ',' fun maxsources => scanSetThen 7 ',' fun iburstStr =>
    scanIntThen ',' fun minpoll t =>
      (scanInt t).map fun maxpoll => (⟨typeStr, maxsources, iburstStr, minpoll, maxpoll.1⟩, maxpoll.2)) input

/-- The checks of the fields; each fails with `fcInvalidParameterValue`. -/
def validSettings (s : Scanned) : Bool :=
  if strcasecmp s.typeStr "server".toList = false ∧ strcasecmp s.typeStr "pool".toList = false then false
  else if strcasecmp s.typeStr "server".toList = true ∧ s.maxsources ≠ 0 then false
  else if s.maxsources < 0 then false
  else if strcasecmp s.iburstStr "true".toList = false ∧ strcasecmp s.iburstStr "false".toList = false then false
  else if s.minpoll < 4 ∨ 24 < s.minpoll then false
  else if s.maxpoll < 4 ∨ 24 < s.maxpoll then false
  else if s.maxpoll < s.minpoll then false
  else true

/-- What a call of the setter leaves behind. -/
structure SetResult where
  ok : Bool
  faultCode : Option FaultCode
  changed : Bool
  files : SettingsFiles

/-- A call that fails. -/
def refuse (faultCode : Option FaultCode) (files : SettingsFiles) : SetResult := ⟨false, faultCode, false, files⟩

/-- `set_Device_Time_NTPServerSettings`: `makes` is whether the directory is there or made, `opens` whether the file can
be opened to write. -/
def setNTPServerSettings (makes opens : Bool) (files : SettingsFiles) (paramName : Text) (input : CString) : SetResult :=
  let idx := parseNTPServerInstance paramName
  if idx < 1 ∨ maxInstances < idx then refuse (some .invalidParameterName) files
  else
    match scanSettings input.chars with
    | some (s, []) =>
        if validSettings s = false then refuse (some .invalidParameterValue) files
        else if makes = false then refuse none files
        else if opens = false then refuse none files
        else ⟨true, none, true, Function.update files idx (some input.chars)⟩
    | _ => refuse (some .invalidParameterValue) files

/-- `get_Device_Time_NTPServerSettings`; `none` is `NOK` with `fcInvalidParameterName`. -/
def getNTPServerSettings (files : SettingsFiles) (paramName : Text) : Option Text :=
  let idx := parseNTPServerInstance paramName
  if idx < 1 ∨ maxInstances < idx then none
  else
    let line := ((files idx).getD []).takeWhile fun c => c ≠ '\n'
    let value := if line = [] then settingsDefault else line
    some ((cStr value).take (maxParamLen - 1))

/-! ## Texts of five fields -/

/-- The fields of a text. -/
structure SettingsFields where
  type : Text
  maxsources : Text
  iburst : Text
  minpoll : Text
  maxpoll : Text

namespace SettingsFields

/-- The text. -/
def text (f : SettingsFields) : Text :=
  f.type ++ ',' :: (f.maxsources ++ ',' :: (f.iburst ++ ',' :: (f.minpoll ++ ',' :: f.maxpoll)))

/-- The words in the fields are right. -/
structure Words (f : SettingsFields) : Prop where
  type : strcasecmp f.type "server".toList = true ∨ strcasecmp f.type "pool".toList = true
  iburst : strcasecmp f.iburst "true".toList = true ∨ strcasecmp f.iburst "false".toList = true

/-- What the grammar allows: numbers are strings of digits. -/
structure WellFormed (f : SettingsFields) : Prop where
  words : f.Words
  maxsources : Digits f.maxsources ∧ natOf f.maxsources < 2 ^ 31
  server : strcasecmp f.type "server".toList = true → natOf f.maxsources = 0
  minpoll : Digits f.minpoll ∧ 4 ≤ natOf f.minpoll
  maxpoll : Digits f.maxpoll ∧ natOf f.minpoll ≤ natOf f.maxpoll ∧ natOf f.maxpoll ≤ 24

/-- What is accepted: numbers are what `%d` makes of the fields. -/
structure Accepted (f : SettingsFields) : Prop where
  words : f.Words
  maxsources : NumberField f.maxsources ∧ 0 ≤ intOf f.maxsources
  server : strcasecmp f.type "server".toList = true → intOf f.maxsources = 0
  minpoll : NumberField f.minpoll ∧ 4 ≤ intOf f.minpoll
  maxpoll : NumberField f.maxpoll ∧ intOf f.minpoll ≤ intOf f.maxpoll ∧ intOf f.maxpoll ≤ 24

/-- The number fields are written in digits, and fit an `int`. -/
def Plain (f : SettingsFields) : Prop := ∀ w ∈ [f.maxsources, f.minpoll, f.maxpoll], Digits w ∧ natOf w < 2 ^ 31

/-- What the `sscanf` makes of them. -/
def scanned (f : SettingsFields) : Scanned := ⟨f.type, intOf f.maxsources, f.iburst, intOf f.minpoll, intOf f.maxpoll⟩

end SettingsFields

section
variable {f g : SettingsFields} {t w : Text} {s : Scanned}

/-- A word equal to another up to case has its length, and no character that it does not have. -/
theorem word_spec {v : Text} {c : Char} (hc : c.toLower = c) (hno : c ∉ v.map Char.toLower) (h : strcasecmp w v = true) :
    c ∉ w ∧ w.length = v.length := by
  have hmap : w.map Char.toLower = v.map Char.toLower := beq_iff_eq.mp h
  constructor
  · intro hmem
    rw [← hmap] at hno
    exact hno (List.mem_map.mpr ⟨c, hmem, hc⟩)
  · have hlen := congrArg List.length hmap
    rwa [List.length_map, List.length_map] at hlen

namespace SettingsFields

theorem Words.type_not_mem {c : Char} (h : f.Words) (hc : c = ',' ∨ c = '\n') : c ∉ f.type := by
  obtain rfl | rfl := hc
  · exact h.type.elim (fun h => (word_spec rfl (by decide) h).1) fun h => (word_spec rfl (by decide) h).1
  · exact h.type.elim (fun h => (word_spec rfl (by decide) h).1) fun h => (word_spec rfl (by decide) h).1

theorem Words.iburst_not_mem {c : Char} (h : f.Words) (hc : c = ',' ∨ c = '\n') : c ∉ f.iburst := by
  obtain rfl | rfl := hc
  · exact h.iburst.elim (fun h => (word_spec rfl (by decide) h).1) fun h => (word_spec rfl (by decide) h).1
  · exact h.iburst.elim (fun h => (word_spec rfl (by decide) h).1) fun h => (word_spec rfl (by decide) h).1

theorem Words.type_spec (h : f.Words) : ',' ∉ f.type ∧ f.type ≠ [] ∧ f.type.length ≤ 15 := by
  have hlen : f.type.length = 6 ∨ f.type.length = 4 :=
    h.type.imp (fun h => (word_spec (c := ',') rfl (by decide) h).2) fun h => (word_spec (c := ',') rfl (by decide) h).2
  exact ⟨h.type_not_mem (Or.inl rfl), List.ne_nil_of_length_pos (by omega), by omega⟩

theorem Words.iburst_spec (h : f.Words) : ',' ∉ f.iburst ∧ f.iburst ≠ [] ∧ f.iburst.length ≤ 7 := by
  have hlen : f.iburst.length = 4 ∨ f.iburst.length = 5 :=
    h.iburst.imp (fun h => (word_spec (c := ',') rfl (by decide) h).2) fun h => (word_spec (c := ',') rfl (by decide) h).2
  exact ⟨h.iburst_not_mem (Or.inl rfl), List.ne_nil_of_length_pos (by omega), by omega⟩

end SettingsFields

/-- What the format takes to the end. -/
theorem scanSettings_iff : scanSettings t = some (s, []) ↔ ∃ f : SettingsFields, t = f.text ∧ s = f.scanned ∧
    (',' ∉ f.type ∧ f.type ≠ [] ∧ f.type.length ≤ 15) ∧ NumberField f.maxsources ∧
    (',' ∉ f.iburst ∧ f.iburst ≠ [] ∧ f.iburst.length ≤ 7) ∧ NumberField f.minpoll ∧ NumberField f.maxpoll := by
  have hend : ∀ c ∈ ([] : Text).head?, c.isDigit = false := fun c hc => by cases hc
  rw [scanSettings, scanSetThen_iff]
  constructor
  · rintro ⟨type, t, rfl, htype, h⟩
    obtain ⟨maxsources, t, rfl, hmaxsources, h⟩ := (scanIntThen_iff (by decide)).mp h
    obtain ⟨iburst, t, rfl, hiburst, h⟩ := scanSetThen_iff.mp h
    obtain ⟨minpoll, t, rfl, hminpoll, h⟩ := (scanIntThen_iff (by decide)).mp h
    obtain ⟨⟨z, r⟩, hmaxpoll, h⟩ := Option.map_eq_some_iff.mp h
    obtain ⟨rfl, rfl⟩ := Prod.mk.inj h
    obtain ⟨maxpoll, rfl, hfield, rfl⟩ := (scanInt_iff hend).mp hmaxpoll
    rw [List.append_nil]
    exact ⟨⟨type, maxsources, iburst, minpoll, maxpoll⟩, rfl, rfl, htype, hmaxsources, hiburst, hminpoll, hfield⟩
  · rintro ⟨f, rfl, rfl, htype, hmaxsources, hiburst, hminpoll, hmaxpoll⟩
    refine ⟨f.type, _, rfl, htype, (scanIntThen_iff (by decide)).mpr ⟨f.maxsources, _, rfl, hmaxsources, ?_⟩⟩
    refine scanSetThen_iff.mpr ⟨f.iburst, _, rfl, hiburst, ?_⟩
    refine (scanIntThen_iff (by decide)).mpr ⟨f.minpoll, _, rfl, hminpoll, ?_⟩
    have hlast : scanInt f.maxpoll = some (intOf f.maxpoll, []) :=
      (scanInt_iff hend).mpr ⟨f.maxpoll, (List.append_nil _).symm, hmaxpoll, rfl⟩
    rw [hlast]
    rfl

/-- The checks. -/
theorem validSettings_iff : validSettings s = true ↔
    (strcasecmp s.typeStr "server".toList = true ∨ strcasecmp s.typeStr "pool".toList = true) ∧
      (strcasecmp s.typeStr "server".toList = true → s.maxsources = 0) ∧ 0 ≤ s.maxsources ∧
      (strcasecmp s.iburstStr "true".toList = true ∨ strcasecmp s.iburstStr "false".toList = true) ∧
      4 ≤ s.minpoll ∧ s.minpoll ≤ s.maxpoll ∧ s.maxpoll ≤ 24 := by
  unfold validSettings
  generalize strcasecmp s.typeStr "server".toList = server, strcasecmp s.typeStr "pool".toList = pool,
    strcasecmp s.iburstStr "true".toList = iburst, strcasecmp s.iburstStr "false".toList = plain
  grind

/-- What is accepted. -/
theorem accepted_iff : (∃ s, scanSettings t = some (s, []) ∧ validSettings s = true) ↔
    ∃ f : SettingsFields, t = f.text ∧ f.Accepted := by
  constructor
  · rintro ⟨s, hscan, hvalid⟩
    obtain ⟨f, rfl, rfl, -, hmaxsources, -, hminpoll, hmaxpoll⟩ := scanSettings_iff.mp hscan
    obtain ⟨htype, hserver, hpos, hiburst, hfour, hle, hmax⟩ := validSettings_iff.mp hvalid
    exact ⟨f, rfl, ⟨htype, hiburst⟩, ⟨hmaxsources, hpos⟩, hserver, ⟨hminpoll, hfour⟩, hmaxpoll, hle, hmax⟩
  · rintro ⟨f, rfl, h⟩
    refine ⟨f.scanned, scanSettings_iff.mpr ⟨f, rfl, rfl, h.words.type_spec, h.maxsources.1, h.words.iburst_spec,
      h.minpoll.1, h.maxpoll.1⟩, validSettings_iff.mpr ⟨h.words.type, h.server, h.maxsources.2, h.words.iburst,
      h.minpoll.2, h.maxpoll.2⟩⟩

/-- What the grammar allows is what is accepted with plain numbers. -/
theorem wellFormed_iff : f.WellFormed ↔ f.Accepted ∧ f.Plain := by
  constructor
  · intro h
    have hmaxsources := intOf_digits h.maxsources.1 h.maxsources.2
    have hlow : natOf f.minpoll < 2 ^ 31 := by have := h.maxpoll.2; omega
    have hhigh : natOf f.maxpoll < 2 ^ 31 := by have := h.maxpoll.2; omega
    have hminpoll := intOf_digits h.minpoll.1 hlow
    have hmaxpoll := intOf_digits h.maxpoll.1 hhigh
    refine ⟨⟨h.words, ⟨h.maxsources.1.numberField, ?_⟩, fun hs => ?_, ⟨h.minpoll.1.numberField, ?_⟩,
      h.maxpoll.1.numberField, ?_, ?_⟩, ?_⟩
    · omega
    · rw [hmaxsources, h.server hs]
      rfl
    · have := h.minpoll.2
      omega
    · have := h.maxpoll.2.1
      omega
    · have := h.maxpoll.2.2
      omega
    · intro w hw
      simp only [List.mem_cons, List.not_mem_nil, or_false] at hw
      obtain rfl | rfl | rfl := hw
      · exact h.maxsources
      · exact ⟨h.minpoll.1, hlow⟩
      · exact ⟨h.maxpoll.1, hhigh⟩
  · rintro ⟨h, hplain⟩
    obtain ⟨hmaxsources, hminpoll, hmaxpoll⟩ : (Digits f.maxsources ∧ natOf f.maxsources < 2 ^ 31) ∧
        (Digits f.minpoll ∧ natOf f.minpoll < 2 ^ 31) ∧ Digits f.maxpoll ∧ natOf f.maxpoll < 2 ^ 31 :=
      ⟨hplain _ (by simp), hplain _ (by simp), hplain _ (by simp)⟩
    have hs := intOf_digits hmaxsources.1 hmaxsources.2
    have hn := intOf_digits hminpoll.1 hminpoll.2
    have hx := intOf_digits hmaxpoll.1 hmaxpoll.2
    refine ⟨h.words, hmaxsources, fun hserver => ?_, ⟨hminpoll.1, ?_⟩, hmaxpoll.1, ?_, ?_⟩
    · have := h.server hserver
      omega
    · have := h.minpoll.2
      omega
    · have := h.maxpoll.2.1
      omega
    · have := h.maxpoll.2.2
      omega

theorem number_comma (h : NumberField w) : ',' ∉ w := h.not_mem (by decide) (by decide) (by decide)

/-- A text has its fields in one way. -/
theorem fields_unique (hf : f.Accepted) (hg : g.Accepted) (h : f.text = g.text) : f = g := by
  obtain ⟨htype, h⟩ := cut_unique hf.words.type_spec.1 hg.words.type_spec.1 h
  obtain ⟨hmaxsources, h⟩ := cut_unique (number_comma hf.maxsources.1) (number_comma hg.maxsources.1) h
  obtain ⟨hiburst, h⟩ := cut_unique hf.words.iburst_spec.1 hg.words.iburst_spec.1 h
  obtain ⟨hminpoll, hmaxpoll⟩ := cut_unique (number_comma hf.minpoll.1) (number_comma hg.minpoll.1) h
  obtain ⟨a, b, c, d, e⟩ := f
  obtain ⟨a', b', c', d', e'⟩ := g
  simp only [SettingsFields.mk.injEq]
  exact ⟨htype, hmaxsources, hiburst, hminpoll, hmaxpoll⟩

end

/-! ## Instances -/

/-- An instance of the table. -/
structure Instance where
  number : Nat
  low : 1 ≤ number
  high : number ≤ 5

/-- The name of its parameter. -/
def Instance.paramName (i : Instance) : Text := serverPrefix ++ (printNat i.number ++ settingsSuffix)

/-- A string that a message holds. -/
structure SettingsText where
  text : CString
  fits : text.chars.length < maxParamLen

theorem parse_paramName (i : Instance) : parseNTPServerInstance i.paramName = i.number := by
  have hhigh := i.high
  have hlow := i.low
  have hdigits := digits_printNat i.number
  have hhead : ∀ c ∈ settingsSuffix.head?, c.isDigit = false := fun c hc => by
    obtain rfl : '.' = c := Option.some.inj hc
    rfl
  have hread : strtol (printNat i.number ++ settingsSuffix) = ((i.number : Int), settingsSuffix) := by
    rw [strtol_append hdigits.numberField hhead, strtol_digits hdigits, natOf_printNat, min_eq_left (by omega)]
  have hne : settingsSuffix ≠ printNat i.number ++ settingsSuffix := fun heq => hdigits.1 (List.self_eq_append_left.mp heq)
  have hsuffix : strcasecmp settingsSuffix settingsSuffix = true := beq_self_eq_true _
  have hprefix : strcasecmp serverPrefix serverPrefix = true := beq_self_eq_true _
  have hrange : ¬((i.number : Int) < 1 ∨ maxInstances < (i.number : Int)) := by
    rw [maxInstances]
    omega
  rw [parseNTPServerInstance, Instance.paramName, List.take_left, List.drop_left]
  simp only [hread, hprefix, hsuffix, hne, if_false, if_neg hrange, Bool.true_eq_false]

theorem instance_range (i : Instance) : ¬((i.number : Int) < 1 ∨ maxInstances < (i.number : Int)) := by
  have hhigh := i.high
  have hlow := i.low
  rw [maxInstances]
  omega

section
variable {files : SettingsFiles} {i j : Instance} {s : CString}

/-- What is accepted is stored as it came. -/
theorem set_accepted (h : ∃ f : SettingsFields, s.chars = f.text ∧ f.Accepted) :
    setNTPServerSettings true true files i.paramName s =
      ⟨true, none, true, Function.update files i.number (some s.chars)⟩ := by
  obtain ⟨r, hscan, hvalid⟩ := accepted_iff.mpr h
  simp only [setNTPServerSettings, parse_paramName, if_neg (instance_range i), hscan, hvalid, Bool.true_eq_false, if_false]

/-- What is not changes nothing. -/
theorem set_refused (h : ¬∃ f : SettingsFields, s.chars = f.text ∧ f.Accepted) :
    setNTPServerSettings true true files i.paramName s = refuse (some .invalidParameterValue) files := by
  simp only [setNTPServerSettings, parse_paramName, if_neg (instance_range i)]
  split
  · next r hscan =>
    have hvalid : validSettings r = false := Bool.eq_false_iff.mpr fun hvalid => h (accepted_iff.mp ⟨r, hscan, hvalid⟩)
    rw [if_pos hvalid]
  · rfl

/-- The texts that are accepted. -/
theorem set_ok_iff : (setNTPServerSettings true true files i.paramName s).ok = true ↔
    ∃ f : SettingsFields, s.chars = f.text ∧ f.Accepted := by
  by_cases h : ∃ f : SettingsFields, s.chars = f.text ∧ f.Accepted
  · rw [set_accepted h]
    exact iff_of_true rfl h
  · rw [set_refused h]
    exact iff_of_false Bool.false_ne_true h

theorem get_eq (files : SettingsFiles) (i : Instance) :
    getNTPServerSettings files i.paramName =
      some ((cStr (if ((files i.number).getD []).takeWhile (fun c => c ≠ '\n') = [] then settingsDefault
        else ((files i.number).getD []).takeWhile fun c => c ≠ '\n')).take (maxParamLen - 1)) := by
  simp only [getNTPServerSettings, parse_paramName, if_neg (instance_range i)]

end

/-- The setter accepts what the grammar allows; what it accepts is read back, and nothing else changes. -/
structure SettingsExact (files : SettingsFiles) (i : Instance) (s : SettingsText) : Prop where
  ok : (setNTPServerSettings true true files i.paramName s.text).ok = true ↔
    ∃ f : SettingsFields, s.text.chars = f.text ∧ f.WellFormed
  reads : (setNTPServerSettings true true files i.paramName s.text).ok = true →
    getNTPServerSettings (setNTPServerSettings true true files i.paramName s.text).files i.paramName = some s.text.chars
  others : (setNTPServerSettings true true files i.paramName s.text).ok = true → ∀ j : Instance, j.number ≠ i.number →
    getNTPServerSettings (setNTPServerSettings true true files i.paramName s.text).files j.paramName =
      getNTPServerSettings files j.paramName
  refused : (setNTPServerSettings true true files i.paramName s.text).ok = false →
    (setNTPServerSettings true true files i.paramName s.text).files = files

section
variable {files : SettingsFiles} {i j : Instance} {s : SettingsText} {f : SettingsFields}

theorem plain_text (h : f.WellFormed) : '\n' ∉ f.text ∧ f.text ≠ [] := by
  have hnumber : ∀ {w : Text}, Digits w → '\n' ∉ w := fun hw => hw.not_mem (by decide)
  refine ⟨?_, List.append_ne_nil_of_right_ne_nil _ (List.cons_ne_nil _ _)⟩
  simp only [SettingsFields.text, List.mem_append, List.mem_cons, not_or]
  exact ⟨h.words.type_not_mem (Or.inr rfl), by decide, hnumber h.maxsources.1, by decide,
    h.words.iburst_not_mem (Or.inr rfl), by decide, hnumber h.minpoll.1, by decide, hnumber h.maxpoll.1⟩

theorem get_stored (h : f.WellFormed) (hs : s.text.chars = f.text) :
    getNTPServerSettings (Function.update files i.number (some s.text.chars)) i.paramName = some s.text.chars := by
  obtain ⟨hline, hne⟩ := plain_text h
  have htake : f.text.takeWhile (fun c => c ≠ '\n') = f.text :=
    List.takeWhile_eq_self_iff.mpr fun c hc => decide_eq_true fun heq => hline (heq ▸ hc)
  rw [get_eq, Function.update_self, Option.getD_some, hs, htake, if_neg hne, ← hs, CString.cStr_chars,
    List.take_of_length_le (Nat.le_sub_one_of_lt s.fits)]

theorem get_other (h : j.number ≠ i.number) (t : Text) :
    getNTPServerSettings (Function.update files i.number (some t)) j.paramName =
      getNTPServerSettings files j.paramName := by
  have hne : (j.number : Int) ≠ i.number := fun heq => h (Int.ofNat_inj.mp heq)
  rw [get_eq, get_eq, Function.update_of_ne hne]

end

/-- **The settings are exact unless** a number of an accepted text has blanks, a sign, or more than an `int` holds. -/
theorem settingsExact_iff (files : SettingsFiles) (i : Instance) (s : SettingsText) :
    SettingsExact files i s ↔ ∀ f : SettingsFields, s.text.chars = f.text → f.Accepted → f.Plain := by
  constructor
  · intro h f hf haccepted
    obtain ⟨g, hg, hwell⟩ := h.ok.mp (set_ok_iff.mpr ⟨f, hf, haccepted⟩)
    obtain ⟨haccepted', hplain⟩ := wellFormed_iff.mp hwell
    rw [fields_unique haccepted haccepted' (hf.symm.trans hg)]
    exact hplain
  · intro h
    by_cases hok : ∃ f : SettingsFields, s.text.chars = f.text ∧ f.Accepted
    · obtain ⟨f, hf, haccepted⟩ := hok
      have hwell : f.WellFormed := wellFormed_iff.mpr ⟨haccepted, h f hf haccepted⟩
      refine ⟨iff_of_true (set_ok_iff.mpr ⟨f, hf, haccepted⟩) ⟨f, hf, hwell⟩, fun _ => ?_, fun _ j hj => ?_, fun hno => ?_⟩
      · rw [set_accepted ⟨f, hf, haccepted⟩]
        exact get_stored hwell hf
      · rw [set_accepted ⟨f, hf, haccepted⟩]
        exact get_other hj s.text.chars
      · rw [set_accepted ⟨f, hf, haccepted⟩] at hno
        cases hno
    · have hno : (setNTPServerSettings true true files i.paramName s.text).ok ≠ true := fun h => hok (set_ok_iff.mp h)
      refine ⟨iff_of_false hno ?_, fun h => absurd h hno, fun h => absurd h hno, fun _ => ?_⟩
      · exact fun ⟨f, hf, hwell⟩ => hok ⟨f, hf, (wellFormed_iff.mp hwell).1⟩
      · rw [set_refused hok]
        rfl

/-- A text with a line break before a number. -/
def brokenSettings : SettingsText where
  text := .ofLiteral "pool,\n4,true,6,12"
  fits := by decide

/-- The first instance. -/
def firstInstance : Instance := ⟨1, by decide, by decide⟩

/-- The line break is taken for a blank, and then ends what is read back. -/
theorem broken_accepted : ¬SettingsExact (fun _ => none) firstInstance brokenSettings := fun h =>
  absurd (h.reads (by decide +kernel)) (by decide +kernel)

end Tr69HostIf.Time
