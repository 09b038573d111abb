import Tr69HostIf.Clib.Stream
import Tr69HostIf.Store.Lines

/-!
# Merging two data models

`filter_and_merge_xml` puts the objects of the first document behind those of the second. It sees the files in the pieces
that `fgets` reads, and knows the lines to leave out by the tags in them.

* `filterAndMergeXml` : the code;
* `Document` : a data model in lines, `Document.merge` : what two are merged to;
* `filterAndMergeXml_eq` : the file written is the merged document.
-/

namespace Tr69HostIf.Waldb
open Store Clib

/-- `sizeof(line)`. -/
def mergeLineSize : Nat := 1024

/-- The XML declaration. -/
def declarationTag : Text := "<?xml version=\"1.0\" encoding=\"UTF-8\"?>".toList

/-- The tag that opens the model. -/
def modelTag : Text := "<model name=\"data-model\">".toList

/-- The tag that closes it. -/
def modelEnd : Text := "</model>".toList

/-- The tag that closes the document. -/
def documentEnd : Text := "</dm:document>".toList

/-- The first loop: `last` is the position of the last piece so far that contains the tag, `linePos` that of the next. -/
def lastPos (tag : Text) : Nat → Option Nat → List Text → Option Nat
  | _, last, [] => last
  | linePos, last, line :: lines => lastPos tag (linePos + 1) (if contains line tag then some linePos else last) lines

/-- The second loop: what is put into the output. -/
def withoutEnds (modelLast documentLast : Option Nat) : Nat → List Text → List Text
  | _, [] => []
  | linePos, line :: lines =>
      if (some linePos = modelLast ∧ contains line modelEnd = true) ∨
          (some linePos = documentLast ∧ contains line documentEnd = true) then
        withoutEnds modelLast documentLast (linePos + 1) lines
      else line :: withoutEnds modelLast documentLast (linePos + 1) lines

/-- The third loop: what is put into the output, `skipRange` being whether the header is skipped. -/
def withoutHeader : Bool → List Text → List Text
  | _, [] => []
  | skipRange, line :: lines =>
      if contains line declarationTag then withoutHeader true lines
      else if skipRange && contains line modelTag then withoutHeader false lines
      else if skipRange then withoutHeader skipRange lines
      else line :: withoutHeader skipRange lines

/-- `filter_and_merge_xml`, with the files that can be opened and whether the output can; `none` is `false`. -/
def filterAndMergeXml (input1 input2 : Option Text) (opens : Bool) : Option Text :=
  match input1, input2, opens with
  | some t1, some t2, true =>
      let lines := fgetsAll mergeLineSize t2
      some ((withoutEnds (lastPos modelEnd 0 none lines) (lastPos documentEnd 0 none lines) 0 lines).flatten ++
        (withoutHeader false (fgetsAll mergeLineSize t1)).flatten)
  | _, _, _ => none

/-! ## Documents -/

/-- A line with a tag; it fits the buffer, as those of the data models shipped do. -/
structure TagLine (tag : Text) where
  text : Text
  plain : '\n' ∉ text
  tagged : tag <:+: text
  fits : text.length + 2 ≤ mergeLineSize

/-- A line of an object, of any length. -/
structure ObjectLine where
  text : Text
  plain : '\n' ∉ text
  untagged : ∀ tag ∈ [declarationTag, modelTag, modelEnd, documentEnd], ¬ tag <:+: text

/-- A line of the header before the model, of any length. -/
structure HeaderLine where
  text : Text
  plain : '\n' ∉ text
  untagged : ¬ modelTag <:+: text

/-- A data model: the declaration, the header up to the tag that opens the model, the objects, and the tags that close
the model and the document. A line with one of these tags has no other one that the merge looks for behind it. -/
structure Document where
  declaration : TagLine declarationTag
  header : List HeaderLine
  model : TagLine modelTag
  objects : List ObjectLine
  modelEnd : TagLine modelEnd
  documentEnd : TagLine documentEnd
  model_once : ¬ declarationTag <:+: model.text
  modelEnd_once : ¬ declarationTag <:+: modelEnd.text
  documentEnd_once : ¬ declarationTag <:+: documentEnd.text ∧ ¬ Waldb.modelEnd <:+: documentEnd.text

namespace Document

/-- The lines up to the objects. -/
def head (d : Document) : List Text := d.declaration.text :: d.header.map HeaderLine.text ++ [d.model.text]

/-- The lines behind the objects. -/
def tail (d : Document) : List Text := [d.modelEnd.text, d.documentEnd.text]

/-- The lines. -/
def lines (d : Document) : List Text := d.head ++ d.objects.map ObjectLine.text ++ d.tail

/-- The file. -/
def text (d : Document) : Text := terminate '\n' d.lines

/-- What two documents are merged to. -/
def merge (d d' : Document) : Document where
  declaration := d'.declaration
  header := d'.header
  model := d'.model
  objects := d'.objects ++ d.objects
  modelEnd := d.modelEnd
  documentEnd := d.documentEnd
  model_once := d'.model_once
  modelEnd_once := d.modelEnd_once
  documentEnd_once := d.documentEnd_once

end Document

/-! ## The loops -/

section
variable {tag line : Text} {a b lines : List Text}

theorem lastPos_append (tag : Text) (linePos : Nat) (last : Option Nat) (a b : List Text) :
    lastPos tag linePos last (a ++ b) = lastPos tag (linePos + a.length) (lastPos tag linePos last a) b := by
  induction a generalizing linePos last with
  | nil => rfl
  | cons line a ih =>
      rw [List.cons_append, lastPos, lastPos, ih, List.length_cons, Nat.add_right_comm, Nat.add_assoc]

theorem lastPos_free (h : ∀ line ∈ lines, contains line tag = false) (linePos : Nat) (last : Option Nat) :
    lastPos tag linePos last lines = last := by
  induction lines generalizing linePos with
  | nil => rfl
  | cons line lines ih =>
      rw [List.forall_mem_cons] at h
      rw [lastPos, h.1]
      exact ih h.2 _

/-- The last piece with the tag. -/
theorem lastPos_eq (hline : contains line tag = true) (hb : ∀ line ∈ b, contains line tag = false) :
    lastPos tag 0 none (a ++ line :: b) = some a.length := by
  rw [lastPos_append, lastPos, if_pos hline, lastPos_free hb, Nat.zero_add]

theorem withoutEnds_before {modelLast documentLast linePos : Nat} (hm : linePos + a.length ≤ modelLast)
    (hd : linePos + a.length ≤ documentLast) (b : List Text) :
    withoutEnds (some modelLast) (some documentLast) linePos (a ++ b) =
      a ++ withoutEnds (some modelLast) (some documentLast) (linePos + a.length) b := by
  induction a generalizing linePos with
  | nil => rfl
  | cons line a ih =>
      rw [List.length_cons] at hm hd
      have hne : ∀ last, linePos + (a.length + 1) ≤ last → some linePos ≠ some last := fun last hle heq => by
        rw [Option.some.injEq] at heq
        omega
      have hnot : ¬((some linePos = some modelLast ∧ contains line modelEnd = true) ∨
          (some linePos = some documentLast ∧ contains line documentEnd = true)) :=
        not_or.mpr ⟨fun h => hne modelLast hm h.1, fun h => hne documentLast hd h.1⟩
      rw [List.cons_append, withoutEnds, if_neg hnot, ih (by omega) (by omega), List.length_cons, Nat.add_right_comm,
        Nat.add_assoc]
      rfl

/-- The two lines that close a document are left out. -/
theorem withoutEnds_eq {m d : Text} (hm : contains m modelEnd = true) (hd : contains d documentEnd = true)
    (hdm : contains d modelEnd = false) :
    withoutEnds (lastPos modelEnd 0 none (a ++ [m, d])) (lastPos documentEnd 0 none (a ++ [m, d])) 0 (a ++ [m, d]) = a := by
  have hmodel : lastPos modelEnd 0 none (a ++ [m, d]) = some a.length := lastPos_eq hm (by simpa using hdm)
  have hdocument : lastPos documentEnd 0 none (a ++ [m, d]) = some (a.length + 1) := by
    have h := lastPos_eq (a := a ++ [m]) (b := []) hd (fun _ hmem => by cases hmem)
    rwa [List.append_assoc, List.length_append, List.singleton_append] at h
  rw [hmodel, hdocument, withoutEnds_before (by omega) (by omega), Nat.zero_add, withoutEnds, if_pos (Or.inl ⟨rfl, hm⟩),
    withoutEnds, if_pos (Or.inr ⟨rfl, hd⟩), withoutEnds, List.append_nil]

theorem withoutHeader_skip (h : ∀ line ∈ a, contains line modelTag = false) (b : List Text) :
    withoutHeader true (a ++ b) = withoutHeader true b := by
  induction a with
  | nil => rfl
  | cons line a ih =>
      rw [List.forall_mem_cons] at h
      rw [List.cons_append, withoutHeader, h.1, ih h.2]
      split
      · rfl
      · rfl

theorem withoutHeader_copy (h : ∀ line ∈ a, contains line declarationTag = false) : withoutHeader false a = a := by
  induction a with
  | nil => rfl
  | cons line a ih =>
      rw [List.forall_mem_cons] at h
      rw [withoutHeader, h.1, ih h.2]
      rfl

/-- The lines from the declaration to the tag that opens the model are left out. -/
theorem withoutHeader_eq {declaration model : Text} (hdeclaration : contains declaration declarationTag = true)
    (ha : ∀ line ∈ a, contains line modelTag = false) (hmodel : contains model modelTag = true)
    (honce : contains model declarationTag = false) (hb : ∀ line ∈ b, contains line declarationTag = false) :
    withoutHeader false (declaration :: (a ++ model :: b)) = b := by
  rw [withoutHeader, if_pos hdeclaration, withoutHeader_skip ha, withoutHeader, honce, hmodel, withoutHeader_copy hb]
  rfl

/-! ## Documents in pieces -/

/-- The pieces of some lines. -/
def readPieces (lines : List Text) : List Text := lines.flatMap fun line => fgetsAll mergeLineSize (line ++ ['\n'])

theorem readPieces_append (a b : List Text) : readPieces (a ++ b) = readPieces a ++ readPieces b := List.flatMap_append

theorem readPieces_flatten (lines : List Text) : (readPieces lines).flatten = terminate '\n' lines := by
  induction lines with
  | nil => rfl
  | cons line lines ih =>
      rw [readPieces, List.flatMap_cons, List.flatten_append, fgetsAll_flatten, terminate_cons, List.append_assoc]
      exact congrArg (fun t => line ++ '\n' :: t) ih

theorem readPieces_free (hplain : '\n' ∉ tag) (h : ∀ line ∈ lines, ¬ tag <:+: line) :
    ∀ piece ∈ readPieces lines, contains piece tag = false := by
  intro piece hpiece
  obtain ⟨line, hline, hmem⟩ := List.mem_flatMap.mp hpiece
  apply Bool.eq_false_iff.mpr
  intro hcontains
  exact h line hline ((infix_newline hplain).mp ((contains_iff.mp hcontains).trans (infix_of_mem_fgetsAll hmem)))

theorem TagLine.pieces_eq (line : TagLine tag) : readPieces [line.text] = [line.text ++ ['\n']] := by
  rw [readPieces, List.flatMap_singleton, fgetsAll_short line.plain line.fits]

theorem TagLine.contains_eq (line : TagLine tag) : contains (line.text ++ ['\n']) tag = true :=
  contains_iff.mpr (line.tagged.trans (List.prefix_append _ _).isInfix)

theorem contains_newline_of_free (hplain : '\n' ∉ tag) (h : ¬ tag <:+: line) : contains (line ++ ['\n']) tag = false := by
  rw [Bool.eq_false_iff, Ne, contains_iff, infix_newline hplain]
  exact h

end

namespace Document
variable (d d' : Document)

theorem lines_plain : ∀ line ∈ d.lines, '\n' ∉ line := by
  intro line hline
  simp only [lines, head, tail, List.mem_append, List.mem_cons, List.mem_map, List.not_mem_nil, or_false] at hline
  obtain (((rfl | ⟨h, -, rfl⟩) | rfl) | ⟨o, -, rfl⟩) | (rfl | rfl) := hline
  · exact d.declaration.plain
  · exact h.plain
  · exact d.model.plain
  · exact o.plain
  · exact d.modelEnd.plain
  · exact d.documentEnd.plain

theorem pieces_text : fgetsAll mergeLineSize d.text = readPieces d.lines := fgetsAll_lines d.lines_plain

theorem pieces_tail : readPieces d.tail = [d.modelEnd.text ++ ['\n'], d.documentEnd.text ++ ['\n']] := by
  rw [tail, ← List.singleton_append, readPieces_append, d.modelEnd.pieces_eq, d.documentEnd.pieces_eq]
  rfl

theorem pieces_head : readPieces d.head =
    (d.declaration.text ++ ['\n']) :: (readPieces (d.header.map HeaderLine.text) ++ [d.model.text ++ ['\n']]) := by
  rw [head, ← List.singleton_append, readPieces_append, readPieces_append, d.declaration.pieces_eq, d.model.pieces_eq]
  rfl

/-- Of the second document the lines that close it are left out. -/
theorem withoutEnds_pieces :
    withoutEnds (lastPos Waldb.modelEnd 0 none (readPieces d.lines)) (lastPos Waldb.documentEnd 0 none (readPieces d.lines)) 0
      (readPieces d.lines) = readPieces (d.head ++ d.objects.map ObjectLine.text) := by
  rw [lines, readPieces_append, pieces_tail]
  exact withoutEnds_eq d.modelEnd.contains_eq d.documentEnd.contains_eq
    (contains_newline_of_free (by decide) d.documentEnd_once.2)

/-- Of the first the lines before its objects. -/
theorem withoutHeader_pieces :
    withoutHeader false (readPieces d.lines) = readPieces (d.objects.map ObjectLine.text ++ d.tail) := by
  have hlines : readPieces d.lines = (d.declaration.text ++ ['\n']) :: (readPieces (d.header.map HeaderLine.text) ++
      (d.model.text ++ ['\n']) :: readPieces (d.objects.map ObjectLine.text ++ d.tail)) := by
    rw [lines, List.append_assoc, readPieces_append, pieces_head, List.cons_append, List.append_assoc]
    rfl
  have hplain : '\n' ∉ declarationTag := by decide
  rw [hlines]
  apply withoutHeader_eq d.declaration.contains_eq
  · apply readPieces_free (by decide)
    intro line hline
    obtain ⟨h, -, rfl⟩ := List.mem_map.mp hline
    exact h.untagged
  · exact d.model.contains_eq
  · exact contains_newline_of_free hplain d.model_once
  · apply readPieces_free hplain
    intro line hline
    simp only [tail, List.mem_append, List.mem_map, List.mem_cons, List.not_mem_nil, or_false] at hline
    obtain ⟨o, -, rfl⟩ | rfl | rfl := hline
    · exact o.untagged declarationTag List.mem_cons_self
    · exact d.modelEnd_once
    · exact d.documentEnd_once.1

theorem merge_lines : (d.merge d').lines =
    d'.head ++ d'.objects.map ObjectLine.text ++ d.objects.map ObjectLine.text ++ d.tail := by
  rw [lines, merge, List.map_append, ← List.append_assoc]
  rfl

end Document

/-- **Two documents are merged without a loss**: the file written is a document with the header of the second, the
objects of the second and then those of the first, and one line each to close the model and the document. -/
theorem filterAndMergeXml_eq (d d' : Document) :
    filterAndMergeXml (some d.text) (some d'.text) true = some (d.merge d').text ∧
      (d.merge d').lines = d'.head ++ d'.objects.map ObjectLine.text ++ d.objects.map ObjectLine.text ++ d.tail ∧
      (d.merge d').objects = d'.objects ++ d.objects := by
  refine ⟨?_, d.merge_lines d', rfl⟩
  rw [filterAndMergeXml, Document.pieces_text, Document.pieces_text, d'.withoutEnds_pieces, d.withoutHeader_pieces,
    ← List.flatten_append, ← readPieces_append, readPieces_flatten, Document.text, d.merge_lines]
  rw [List.append_assoc, List.append_assoc, List.append_assoc]

/-- The document with no objects. -/
example : Nonempty Document :=
  ⟨{ declaration := ⟨declarationTag, by decide, List.infix_rfl, by decide⟩
     header := []
     model := ⟨modelTag, by decide, List.infix_rfl, by decide⟩
     objects := []
     modelEnd := ⟨modelEnd, by decide, List.infix_rfl, by decide⟩
     documentEnd := ⟨documentEnd, by decide, List.infix_rfl, by decide⟩
     model_once := by decide
     modelEnd_once := by decide
     documentEnd_once := by decide }⟩

end Tr69HostIf.Waldb
