import Tr69HostIf.Clib.Stream
import Tr69HostIf.Store.Scan
import Tr69HostIf.Transport.Message
import Mathlib.Data.List.Nodup

/-!
# The firmware status file

`readFirmwareInfo` and `writeFirmwareInfo` look for a name anywhere in a line of `/opt/fwdnldstatus.txt`, the reader in
any case of letters.

* `readFirmwareInfo`, `writeFirmwareInfo` : the code;
* `StatusFile` : a file of `name|value` lines with distinct names, `FirmwareWrite` : a value for one of its names;
* `writeFirmwareInfo_names_iff` : when the names stay what they are, `readFirmwareInfo_lines` : what is read then;
* `writesThrough_iff` : when a value written is the one read, and all others stay.
-/

namespace Tr69HostIf.DeviceInfo.Firmware
open Store Clib Transport

/-- Whether `findIgnoreCase` finds the text. -/
def findIgnoreCase (haystack needle : Text) : Bool := contains (haystack.map Char.toLower) (needle.map Char.toLower)

/-- The name that every write gives its method under. -/
def methodName : Text := "Method".toList

/-- The line it is given by. -/
def methodLine : Text := "Method|tr69".toList

/-- `paramValue` and `paramLen`. -/
def answer (t : Text) : Text × Nat := (t.take (maxParamLen - 1), t.length)

/-- What `line` holds after the last `getline`: a last line without a line break is not erased. -/
def lastRead (file : Text) : Text := if file.getLast? = some '\n' then [] else (getlines file).getLastD []

/-- `readFirmwareInfo`, with the file if it can be opened; `none` is `NOK`. -/
def readFirmwareInfo (file : Option Text) (param : Text) : Option (Text × Nat) :=
  match file with
  | none => none
  | some t =>
      let line := ((getlines t).find? fun line => findIgnoreCase line param).getD (lastRead t)
      if line = [] then none
      else (textBehind ['|'] (cStr line)).map fun pch => answer (pch.dropWhile isspace)

/-- The line that is written for a line read. -/
def writeLine (param value line : Text) : Text :=
  if contains line methodName then methodLine else if contains line param then param ++ '|' :: value else line

/-- `writeFirmwareInfo`, the temporary file taking the place of the file: whether it is `OK`, and the file. -/
def writeFirmwareInfo (file : Option Text) (param value : Text) : Bool × Option Text :=
  match file with
  | none => (false, none)
  | some t => (true, some (terminate '\n' ((getlines t).map (writeLine param value))))

/-! ## Files of entries -/

/-- A line `name|value`. -/
structure Entry where
  name : Text
  value : Text
  bar : '|' ∉ name
  plain : '\n' ∉ name ++ value
  noNul : '\x00' ∉ name ++ value

/-- Its text. -/
def Entry.line (e : Entry) : Text := e.name ++ '|' :: e.value

/-- What is shown for it. -/
def Entry.shown (e : Entry) : Text × Nat := answer (e.value.dropWhile isspace)

/-- A status file. -/
structure StatusFile where
  text : Text
  entries : List Entry
  lines : getlines text = entries.map Entry.line
  distinct : (entries.map Entry.name).Nodup

/-- A value that is written for a name of a file. -/
structure FirmwareWrite where
  file : StatusFile
  param : Text
  value : CString
  occurs : param ∈ file.entries.map Entry.name
  other : param ≠ methodName
  oneLine : '\n' ∉ value.chars
  leading : ∀ c ∈ value.chars.head?, isspace c = false
  fits : value.chars.length < maxParamLen

/-- The name of a line. -/
def nameOf (line : Text) : Text := line.takeWhile fun c => c ≠ '|'

namespace FirmwareWrite

/-- The file after the write. -/
def after (w : FirmwareWrite) : Option Text := (writeFirmwareInfo (some w.file.text) w.param w.value.chars).2

/-- The value is read back, the other names but `Method` read as before, `Method` reads `tr69`, and the names are the
same in the same order. -/
structure WritesThrough (w : FirmwareWrite) : Prop where
  reads : readFirmwareInfo w.after w.param = some (w.value.chars, w.value.chars.length)
  others : ∀ e ∈ w.file.entries, e.name ≠ w.param → e.name ≠ methodName →
    readFirmwareInfo w.after e.name = readFirmwareInfo (some w.file.text) e.name
  method : readFirmwareInfo w.after methodName = some ("tr69".toList, 4)
  names : (w.after.map getlines).map (List.map nameOf) = some (w.file.entries.map Entry.name)

end FirmwareWrite

section
variable {line param value t key : Text} {e : Entry} {l : List Text} {es : List Entry}

theorem getlines_terminate (h : ∀ line ∈ l, '\n' ∉ line) : getlines (terminate '\n' l) = l := by
  induction l with
  | nil => rfl
  | cons line l ih =>
      rw [terminate_cons, getlines_line (h line List.mem_cons_self),
        ih fun line' hmem => h line' (List.mem_cons_of_mem line hmem)]

theorem nameOf_append (hname : '|' ∉ param) (value : Text) : nameOf (param ++ '|' :: value) = param :=
  takeWhile_ne hname value

theorem nameOf_line (e : Entry) : nameOf e.line = e.name := nameOf_append e.bar e.value

theorem nameOf_methodLine : nameOf methodLine = methodName := by decide

theorem contains_line (e : Entry) : contains e.line e.name = true := contains_iff.mpr ⟨[], '|' :: e.value, rfl⟩

theorem findIgnoreCase_of_contains (h : contains line param = true) : findIgnoreCase line param = true :=
  contains_iff.mpr ((contains_iff.mp h).map Char.toLower)

theorem line_ne_nil (e : Entry) : e.line ≠ [] := List.append_ne_nil_of_right_ne_nil _ (List.cons_ne_nil _ _)

theorem line_plain (e : Entry) : '\n' ∉ e.line := by
  have h := e.plain
  rw [List.mem_append, not_or] at h
  rw [Entry.line, List.mem_append, List.mem_cons, not_or, not_or]
  exact ⟨h.1, by decide, h.2⟩

theorem cStr_line (e : Entry) : cStr e.line = e.line := by
  apply cStr_of_noNul
  have h := e.noNul
  rw [List.mem_append, not_or] at h
  rw [Entry.line, List.mem_append, List.mem_cons, not_or, not_or]
  exact ⟨h.1, by decide, h.2⟩

/-- What is shown for the first line that contains the name. -/
def firstShown (param : Text) (es : List Entry) : Option (Text × Nat) :=
  (es.find? fun e => findIgnoreCase e.line param).map Entry.shown

/-- The first line that contains the name is the one of the name. -/
def Clear (param : Text) (es : List Entry) : Prop :=
  ∃ e, (es.find? fun e => findIgnoreCase e.line param) = some e ∧ e.name = param

theorem Clear.shown {f : Entry → Entry} (h : Clear param (es.map f)) (hname : ∀ e, (f e).name = e.name) :
    ∃ e ∈ es, e.name = param ∧ firstShown param (es.map f) = some (f e).shown := by
  obtain ⟨e', hfind, hparam⟩ := h
  obtain ⟨e, he, rfl⟩ := List.mem_map.mp (List.mem_of_find?_eq_some hfind)
  refine ⟨e, he, (hname e).symm.trans hparam, ?_⟩
  rw [firstShown, hfind]
  rfl

/-- The reader shows the value of the first line that contains the name. -/
theorem readFirmwareInfo_lines (hlines : getlines t = es.map Entry.line)
    (hfound : lastRead t = [] ∨ ∃ e ∈ es, findIgnoreCase e.line param = true) :
    readFirmwareInfo (some t) param = firstShown param es := by
  have hfind : (getlines t).find? (fun line => findIgnoreCase line param) =
      (es.find? fun e => findIgnoreCase e.line param).map Entry.line := by
    rw [hlines, List.find?_map]
    rfl
  rw [readFirmwareInfo, firstShown, hfind]
  cases h : es.find? fun e => findIgnoreCase e.line param with
  | some e =>
      show (if e.line = [] then none else _) = _
      rw [if_neg (line_ne_nil e), Option.map_some, Option.getD_some, cStr_line, Entry.line, textBehind_char e.bar]
      rfl
  | none =>
      obtain hlast | ⟨e, he, hcontains⟩ := hfound
      · show (if lastRead t = [] then none else _) = _
        rw [if_pos hlast]
        rfl
      · exact absurd hcontains (List.find?_eq_none.mp h e he)

theorem lastRead_terminate (l : List Text) : lastRead (terminate '\n' l) = [] := by
  obtain rfl | ⟨l', line, rfl⟩ := List.eq_nil_or_concat l
  · rfl
  · rw [List.concat_eq_append, lastRead, if_pos]
    rw [terminate_append, terminate_cons, List.getLast?_append, List.getLast?_append]
    rfl

end

namespace FirmwareWrite
variable (w : FirmwareWrite)

theorem exists_entry : ∃ e ∈ w.file.entries, e.name = w.param := List.mem_map.mp w.occurs

theorem param_bar : '|' ∉ w.param := by
  obtain ⟨e, -, he⟩ := w.exists_entry
  exact he ▸ e.bar

theorem param_plain : '\n' ∉ w.param := by
  obtain ⟨e, -, he⟩ := w.exists_entry
  exact he ▸ fun hmem => e.plain (List.mem_append_left _ hmem)

theorem param_noNul : '\x00' ∉ w.param := by
  obtain ⟨e, -, he⟩ := w.exists_entry
  exact he ▸ fun hmem => e.noNul (List.mem_append_left _ hmem)

/-- The entry that is to be written. -/
def entry : Entry where
  name := w.param
  value := w.value.chars
  bar := w.param_bar
  plain hmem := (List.mem_append.mp hmem).elim w.param_plain w.oneLine
  noNul hmem := (List.mem_append.mp hmem).elim w.param_noNul w.value.noNul

theorem entry_shown : w.entry.shown = (w.value.chars, w.value.chars.length) := by
  have hleading : w.value.chars.dropWhile isspace = w.value.chars := by
    have h := w.leading
    cases hv : w.value.chars with
    | nil => rfl
    | cons c t =>
        rw [hv] at h
        exact List.dropWhile_cons_of_neg (Bool.eq_false_iff.mp (h c rfl))
  rw [Entry.shown, entry, hleading, answer, List.take_of_length_le (Nat.le_sub_one_of_lt w.fits)]

/-- The entry of the method. -/
def methodEntry : Entry where
  name := methodName
  value := "tr69".toList
  bar := by decide
  plain := by decide
  noNul := by decide

/-- What is to become of an entry. -/
def written (e : Entry) : Entry :=
  if e.name = methodName then methodEntry else if e.name = w.param then w.entry else e

/-- The writer finds no line but those of the method and of the name. -/
structure Found : Prop where
  method : ∀ e ∈ w.file.entries, contains e.line methodName = true → e.name = methodName
  param : ∀ e ∈ w.file.entries, contains e.line w.param = true → e.name = w.param ∨ e.name = methodName

theorem lines_after : w.after = some (terminate '\n' (w.file.entries.map fun e => writeLine w.param w.value.chars e.line)) ∧
    getlines (terminate '\n' (w.file.entries.map fun e => writeLine w.param w.value.chars e.line)) =
      w.file.entries.map fun e => writeLine w.param w.value.chars e.line := by
  constructor
  · rw [after, writeFirmwareInfo, w.file.lines, List.map_map]
    rfl
  · apply getlines_terminate
    intro line hline
    obtain ⟨e, -, rfl⟩ := List.mem_map.mp hline
    rw [writeLine]
    split
    · decide
    · split
      · exact line_plain w.entry
      · exact line_plain e

theorem nameOf_writeLine (e : Entry) :
    nameOf (writeLine w.param w.value.chars e.line) = e.name ↔
      (contains e.line methodName = true → e.name = methodName) ∧
        (contains e.line w.param = true → e.name = w.param ∨ e.name = methodName) := by
  rw [writeLine]
  split
  · next hmethod =>
    rw [nameOf_methodLine]
    constructor
    · exact fun heq => ⟨fun _ => heq.symm, fun _ => Or.inr heq.symm⟩
    · exact fun h => (h.1 hmethod).symm
  · next hmethod =>
    have hne : e.name ≠ methodName := fun heq => hmethod (heq ▸ contains_line e)
    split
    · next hparam =>
      rw [nameOf_append w.param_bar]
      constructor
      · exact fun heq => ⟨fun h => absurd h hmethod, fun _ => Or.inl heq.symm⟩
      · exact fun h => ((h.2 hparam).resolve_right hne).symm
    · next hparam =>
      rw [nameOf_line]
      exact ⟨fun _ => ⟨fun h => absurd h hmethod, fun h => absurd h hparam⟩, fun _ => rfl⟩

/-- **The names stay exactly when** the writer finds the right lines only. -/
theorem names_iff : (w.after.map getlines).map (List.map nameOf) = some (w.file.entries.map Entry.name) ↔ w.Found := by
  rw [w.lines_after.1, Option.map_some, Option.map_some, w.lines_after.2, List.map_map, Option.some.injEq,
    List.map_inj_left]
  constructor
  · intro h
    exact ⟨fun e he => ((w.nameOf_writeLine e).mp (h e he)).1, fun e he => ((w.nameOf_writeLine e).mp (h e he)).2⟩
  · exact fun h e he => (w.nameOf_writeLine e).mpr ⟨h.method e he, h.param e he⟩

variable {w}

theorem writeLine_eq (h : w.Found) {e : Entry} (he : e ∈ w.file.entries) :
    writeLine w.param w.value.chars e.line = (w.written e).line := by
  rw [writeLine, written]
  by_cases hmethod : e.name = methodName
  · rw [if_pos hmethod, if_pos (hmethod ▸ contains_line e)]
    rfl
  · rw [if_neg hmethod, if_neg fun hcontains => hmethod (h.method e he hcontains)]
    by_cases hparam : e.name = w.param
    · rw [if_pos hparam, if_pos (hparam ▸ contains_line e)]
      rfl
    · rw [if_neg hparam, if_neg fun hcontains => (h.param e he hcontains).elim hparam hmethod]

theorem read_after (h : w.Found) (q : Text) :
    readFirmwareInfo w.after q = firstShown q (w.file.entries.map w.written) := by
  rw [w.lines_after.1]
  apply readFirmwareInfo_lines
  · rw [w.lines_after.2, List.map_map]
    exact List.map_congr_left fun e he => writeLine_eq h he
  · exact Or.inl (lastRead_terminate _)

theorem read_before {e : Entry} (he : e ∈ w.file.entries) :
    readFirmwareInfo (some w.file.text) e.name = firstShown e.name w.file.entries :=
  readFirmwareInfo_lines w.file.lines (Or.inr ⟨e, he, findIgnoreCase_of_contains (contains_line e)⟩)

theorem written_name (w : FirmwareWrite) (e : Entry) : (w.written e).name = e.name := by
  rw [written]
  split
  · next h => exact h.symm
  · split
    · next h => exact h.symm
    · rfl

theorem written_param {e : Entry} (h : e.name = w.param) : w.written e = w.entry := by
  rw [written, if_neg (h ▸ w.other), if_pos h]

theorem written_method {e : Entry} (h : e.name = methodName) : w.written e = methodEntry := by
  rw [written, if_pos h]

theorem written_other {e : Entry} (hparam : e.name ≠ w.param) (hmethod : e.name ≠ methodName) : w.written e = e := by
  rw [written, if_neg hmethod, if_neg hparam]

/-- The writer finds the right lines, and the reader comes to the line of the name itself, or to one that happens to hold
the same. -/
structure Apart (w : FirmwareWrite) : Prop where
  found : w.Found
  reads : Clear w.param (w.file.entries.map w.written) ∨
    firstShown w.param (w.file.entries.map w.written) = some (w.value.chars, w.value.chars.length)
  others : ∀ e ∈ w.file.entries, e.name ≠ w.param → e.name ≠ methodName →
    Clear e.name w.file.entries ∧ Clear e.name (w.file.entries.map w.written) ∨
      firstShown e.name (w.file.entries.map w.written) = firstShown e.name w.file.entries
  method : Clear methodName (w.file.entries.map w.written) ∨
    firstShown methodName (w.file.entries.map w.written) = some ("tr69".toList, 4)

theorem shown_param (h : Clear w.param (w.file.entries.map w.written)) :
    firstShown w.param (w.file.entries.map w.written) = some (w.value.chars, w.value.chars.length) := by
  obtain ⟨e, -, hname, hshown⟩ := h.shown w.written_name
  rw [hshown, written_param hname, entry_shown]

theorem shown_method (h : Clear methodName (w.file.entries.map w.written)) :
    firstShown methodName (w.file.entries.map w.written) = some ("tr69".toList, 4) := by
  obtain ⟨e, -, hname, hshown⟩ := h.shown w.written_name
  rw [hshown, written_method hname]
  rfl

theorem shown_other {e : Entry} (hparam : e.name ≠ w.param) (hmethod : e.name ≠ methodName)
    (hbefore : Clear e.name w.file.entries) (hafter : Clear e.name (w.file.entries.map w.written)) :
    firstShown e.name (w.file.entries.map w.written) = firstShown e.name w.file.entries := by
  rw [← List.map_id w.file.entries] at hbefore
  obtain ⟨d, hd, hname, hshown⟩ := hbefore.shown fun _ => rfl
  obtain ⟨d', hd', hname', hshown'⟩ := hafter.shown w.written_name
  have hsame : d' = d := List.inj_on_of_nodup_map w.file.distinct hd' hd (hname'.trans hname.symm)
  rw [List.map_id] at hshown
  rw [hshown', hshown, hsame, written_other (hname ▸ hparam) (hname ▸ hmethod)]
  rfl

/-- **A value is written through exactly when** no line stands in the way of the writer or of the reader. -/
theorem writesThrough_iff (w : FirmwareWrite) : w.WritesThrough ↔ w.Apart := by
  constructor
  · intro h
    have hfound := w.names_iff.mp h.names
    refine ⟨hfound, Or.inr ?_, fun e he hparam hmethod => Or.inr ?_, Or.inr ?_⟩
    · rw [← read_after hfound]
      exact h.reads
    · rw [← read_after hfound, ← read_before he]
      exact h.others e he hparam hmethod
    · rw [← read_after hfound]
      exact h.method
  · intro h
    refine ⟨?_, fun e he hparam hmethod => ?_, ?_, w.names_iff.mpr h.found⟩
    · rw [read_after h.found]
      exact h.reads.elim shown_param id
    · rw [read_after h.found, read_before he]
      exact (h.others e he hparam hmethod).elim (fun hclear => shown_other hparam hmethod hclear.1 hclear.2) id
    · rw [read_after h.found]
      exact h.method.elim shown_method id

end FirmwareWrite

/-- A file in which a value holds the name `Status`. -/
def statusFile : StatusFile where
  text := "Method|xconf\nStatus|Failure\nDnldURL|http://host/Status\n".toList
  entries := [⟨methodName, "xconf".toList, by decide, by decide, by decide⟩,
    ⟨"Status".toList, "Failure".toList, by decide, by decide, by decide⟩,
    ⟨"DnldURL".toList, "http://host/Status".toList, by decide, by decide, by decide⟩]
  lines := by decide
  distinct := by decide

/-- A status that is written to it. -/
def statusWrite : FirmwareWrite where
  file := statusFile
  param := "Status".toList
  value := .ofLiteral "Successful"
  occurs := by decide
  other := by decide
  oneLine := by decide
  leading c hc := by
    obtain rfl : 'S' = c := Option.some.inj hc
    rfl
  fits := by decide

/-- The line of the other name becomes one of `Status`. -/
theorem status_overwrites : ¬statusWrite.WritesThrough := fun h => absurd h.names (by decide)

end Tr69HostIf.DeviceInfo.Firmware
