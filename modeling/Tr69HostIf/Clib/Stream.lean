import Tr69HostIf.Store.Scan
import Mathlib.Data.List.Infix
import Mathlib.Data.List.TakeWhile

/-!
# Reading a stream by lines, and finding a text

* `fgets size t` : what `fgets` reads of a stream into a buffer of `size` bytes, and the rest of the stream;
* `fgetsAll size t` : what a loop over `fgets` reads, `fgetsAll_flatten` : no character is lost, `fgetsAll_lines` : the
  pieces are those of the lines;
* `textBehind key t` : the text behind the place where `strstr` finds `key`, `textBehind_isSome`;
* `textBehind_char` : the text behind the first place of a character;
* `fgets_line` : a line comes as far as the buffer goes.
-/

namespace Tr69HostIf.Clib
open Store

/-- The characters up to a newline, that one included, `n` at most. -/
def lineWithin : Nat → List Char → List Char × List Char
  | 0, t => ([], t)
  | _ + 1, [] => ([], [])
  | n + 1, c :: t => if c = '\n' then ([c], t) else (c :: (lineWithin n t).1, (lineWithin n t).2)

/-- `fgets` into a buffer of `size` bytes: what is read, and the rest of the stream. -/
def fgets (size : Nat) (t : List Char) : List Char × List Char := lineWithin (size - 1) t

/-- What the calls of `fgets` read one after the other, `room` more characters fitting behind the first. -/
def fgetsFrom (size : Nat) : Nat → List Char → List (List Char)
  | _, [] => []
  | room, c :: t =>
      if c = '\n' ∨ room = 0 then [c] :: fgetsFrom size (size - 2) t
      else match fgetsFrom size (room - 1) t with
        | [] => [[c]]
        | piece :: pieces => (c :: piece) :: pieces

/-- What `while (fgets(line, size, stream))` reads. -/
def fgetsAll (size : Nat) (t : List Char) : List (List Char) := fgetsFrom size (size - 2) t

/-- The text behind the first `key` in `t`. -/
def textBehind (key t : List Char) : Option (List Char) :=
  (t.tails.find? fun u => key.isPrefixOf u).map (List.drop key.length)

/-- Whether `key` is in `t`. -/
def contains (t key : List Char) : Bool := (textBehind key t).isSome

section
variable {key t line : List Char}

theorem lineWithin_line (h : '\n' ∉ line) (n : Nat) :
    (lineWithin n (line ++ ['\n'])).1 = (line ++ ['\n']).take n := by
  induction line generalizing n with
  | nil =>
      obtain - | n := n
      · rfl
      · rw [List.nil_append, lineWithin, if_pos rfl, List.take_of_length_le (Nat.le_add_left 1 n)]
  | cons c line ih =>
      obtain - | n := n
      · rfl
      · have hc : c ≠ '\n' := fun heq => h (heq ▸ List.mem_cons_self)
        rw [List.cons_append, lineWithin, if_neg hc, List.take_succ_cons, ih (fun hmem => h (List.mem_cons_of_mem c hmem))]

/-- Of a text without a newline `fgets` reads what the buffer takes. -/
theorem fgets_text (h : '\n' ∉ t) (size : Nat) : (fgets size t).1 = t.take (size - 1) := by
  rw [fgets]
  generalize size - 1 = n
  induction t generalizing n with
  | nil =>
      obtain - | n := n
      · rfl
      · rfl
  | cons c t ih =>
      obtain - | n := n
      · rfl
      · have hc : c ≠ '\n' := fun heq => h (heq ▸ List.mem_cons_self)
        rw [lineWithin, if_neg hc, List.take_succ_cons, ih (fun hmem => h (List.mem_cons_of_mem c hmem))]

/-- Of a line `fgets` reads what the buffer takes. -/
theorem fgets_line (h : '\n' ∉ line) (size : Nat) :
    (fgets size (line ++ ['\n'])).1 = (line ++ ['\n']).take (size - 1) := lineWithin_line h (size - 1)

theorem fgetsFrom_eq (size room : Nat) (h : t ≠ []) :
    fgetsFrom size room t = (lineWithin (room + 1) t).1 :: fgetsAll size (lineWithin (room + 1) t).2 := by
  induction t generalizing room with
  | nil => exact absurd rfl h
  | cons c t ih =>
      rw [fgetsFrom, lineWithin]
      by_cases hc : c = '\n'
      · rw [if_pos (Or.inl hc), if_pos hc]
        rfl
      · obtain - | room := room
        · rw [if_pos (Or.inr rfl), if_neg hc]
          rfl
        · rw [if_neg (not_or.mpr ⟨hc, Nat.succ_ne_zero room⟩), if_neg hc]
          obtain rfl | hne := eq_or_ne t []
          · rfl
          · rw [Nat.add_sub_cancel, ih room hne]

/-- The loop reads a piece and goes on with the rest of the stream. -/
theorem fgetsAll_eq {size : Nat} (hsize : 2 ≤ size) (h : t ≠ []) :
    fgetsAll size t = (fgets size t).1 :: fgetsAll size (fgets size t).2 := by
  have hroom : size - 2 + 1 = size - 1 := by omega
  rw [fgetsAll, fgetsFrom_eq size (size - 2) h, hroom]
  rfl

theorem fgetsFrom_flatten (size room : Nat) (t : List Char) : (fgetsFrom size room t).flatten = t := by
  induction t generalizing room with
  | nil => rfl
  | cons c t ih =>
      rw [fgetsFrom]
      split
      · rw [List.flatten_cons, ih]
        rfl
      · have htail := ih (room - 1)
        split
        · next hnil =>
          rw [hnil] at htail
          rw [← htail]
          rfl
        · next piece pieces hcons =>
          rw [hcons] at htail
          rw [← htail]
          rfl

/-- No character is lost between the pieces. -/
theorem fgetsAll_flatten (size : Nat) (t : List Char) : (fgetsAll size t).flatten = t := fgetsFrom_flatten size _ t

theorem infix_of_mem_fgetsAll {size : Nat} {piece : List Char} (h : piece ∈ fgetsAll size t) : piece <:+: t := by
  rw [← fgetsAll_flatten size t]
  exact List.infix_of_mem_flatten h

theorem fgetsFrom_line {size : Nat} (h : '\n' ∉ line) (room : Nat) (t : List Char) :
    fgetsFrom size room (line ++ '\n' :: t) = fgetsFrom size room (line ++ ['\n']) ++ fgetsAll size t := by
  induction line generalizing room with
  | nil =>
      rw [List.nil_append, List.nil_append, fgetsFrom, fgetsFrom, if_pos (Or.inl rfl), if_pos (Or.inl rfl)]
      rfl
  | cons c line ih =>
      have hline : '\n' ∉ line := fun hmem => h (List.mem_cons_of_mem c hmem)
      rw [List.cons_append, List.cons_append, fgetsFrom, fgetsFrom]
      split
      · rw [ih hline]
        rfl
      · rw [ih hline]
        rw [fgetsFrom_eq size (room - 1) (List.append_ne_nil_of_right_ne_nil line (List.cons_ne_nil '\n' []))]
        rfl

/-- The pieces of a file are those of its lines. -/
theorem fgetsAll_lines {size : Nat} {lines : List (List Char)} (h : ∀ line ∈ lines, '\n' ∉ line) :
    fgetsAll size (terminate '\n' lines) = lines.flatMap fun line => fgetsAll size (line ++ ['\n']) := by
  induction lines with
  | nil => rfl
  | cons line lines ih =>
      rw [List.forall_mem_cons] at h
      rw [terminate_cons, fgetsAll, fgetsFrom_line h.1, ih h.2]
      rfl

theorem fgetsFrom_short {size room : Nat} (h : '\n' ∉ line) (hroom : line.length ≤ room) :
    fgetsFrom size room (line ++ ['\n']) = [line ++ ['\n']] := by
  induction line generalizing room with
  | nil => rw [List.nil_append, fgetsFrom, if_pos (Or.inl rfl), fgetsFrom]
  | cons c line ih =>
      rw [List.length_cons] at hroom
      have hc : c ≠ '\n' := fun heq => h (heq ▸ List.mem_cons_self)
      have hnot : ¬(c = '\n' ∨ room = 0) := not_or.mpr ⟨hc, by omega⟩
      rw [List.cons_append, fgetsFrom, if_neg hnot, ih (fun hmem => h (List.mem_cons_of_mem c hmem)) (by omega)]

/-- A line that fits the buffer is one piece. -/
theorem fgetsAll_short {size : Nat} (h : '\n' ∉ line) (hlen : line.length + 2 ≤ size) :
    fgetsAll size (line ++ ['\n']) = [line ++ ['\n']] := fgetsFrom_short h (by omega)

theorem textBehind_isSome : (textBehind key t).isSome = true ↔ key <:+: t := by
  rw [textBehind, Option.isSome_map, List.find?_isSome]
  constructor
  · rintro ⟨u, hu, hkey⟩
    exact ((List.isPrefixOf_iff_prefix.mp hkey).isInfix).trans ((List.mem_tails u t).mp hu).isInfix
  · rintro ⟨a, b, rfl⟩
    refine ⟨key ++ b, (List.mem_tails _ _).mpr ⟨a, ?_⟩, List.isPrefixOf_iff_prefix.mpr ⟨b, rfl⟩⟩
    rw [List.append_assoc]

theorem contains_iff : contains t key = true ↔ key <:+: t := textBehind_isSome

theorem textBehind_cons (key : List Char) (c : Char) (t : List Char) :
    textBehind key (c :: t) =
      if key.isPrefixOf (c :: t) = true then some ((c :: t).drop key.length) else textBehind key t := by
  rw [textBehind, List.tails_cons, List.find?_cons]
  split
  · next h => rw [if_pos h, Option.map_some]
  · next h => rw [if_neg (Bool.eq_false_iff.mp h), textBehind]

/-- The first place of a character. -/
theorem textBehind_char {c : Char} (h : c ∉ t) (u : List Char) : textBehind [c] (t ++ c :: u) = some u := by
  induction t with
  | nil =>
      have hpre : List.isPrefixOf [c] (c :: u) = true := List.isPrefixOf_iff_prefix.mpr ⟨u, rfl⟩
      rw [List.nil_append, textBehind_cons, if_pos hpre]
      rfl
  | cons a t ih =>
      have hne : ¬ List.isPrefixOf [c] (a :: (t ++ c :: u)) = true := fun hpre => by
        rw [List.isPrefixOf_iff_prefix, List.cons_prefix_cons] at hpre
        exact h (hpre.1 ▸ List.mem_cons_self)
      rw [List.cons_append, textBehind_cons, if_neg hne, ih fun hmem => h (List.mem_cons_of_mem a hmem)]

/-- A text without a newline stands before the end of the line. -/
theorem infix_newline (hkey : '\n' ∉ key) : key <:+: t ++ ['\n'] ↔ key <:+: t := by
  rw [List.infix_concat_iff, List.suffix_concat_iff]
  constructor
  · rintro ((rfl | ⟨u, rfl, -⟩) | h)
    · exact List.nil_infix
    · exact absurd (List.mem_append_right u (List.mem_singleton_self '\n')) hkey
    · exact h
  · exact Or.inr

theorem infix_take_line (hkey : '\n' ∉ key) (n : Nat) :
    key <:+: (line ++ ['\n']).take n ↔ key <:+: line.take n := by
  rw [List.take_append]
  obtain hn | hn := Nat.eq_zero_or_pos (n - line.length)
  · rw [hn, List.take_zero, List.append_nil]
  · have hnl : ['\n'].take (n - line.length) = ['\n'] := List.take_of_length_le hn
    rw [hnl, infix_newline hkey]

end

end Tr69HostIf.Clib
