import Tr69HostIf.Waldb.Lookup

/-!
# A name around its placeholders

`pieces` cuts a parameter of the data model at its placeholders: the name in the data model has `{i}` between
the pieces (`text_pieces`), the concrete name the numbers (`fill_pieces`). The lookup reads the digits of
the pieces: `OneOwn`, `OneInName` and `OwnThenOne` say where the digits of a piece stand.
-/

namespace Tr69HostIf.Waldb
open Store

/-- What stands before the first placeholder, and behind each of them. -/
def pieces : List Segment → Text → Text × List Text
  | [], leaf => (leaf, [])
  | .name n :: path, leaf => (n.chars ++ '.' :: (pieces path leaf).1, (pieces path leaf).2)
  | .inst :: path, leaf => ([], ('.' :: (pieces path leaf).1) :: (pieces path leaf).2)

theorem length_pieces (path : List Segment) (leaf : Text) : (pieces path leaf).2.length = placeholders path := by
  induction path with
  | nil => rfl
  | cons s path ih =>
      cases s with
      | name n => exact ih
      | inst => simp [pieces, placeholders, ih]

theorem text_pieces (path : List Segment) (leaf : Text) :
    pathText path ++ leaf = (pieces path leaf).1 ++ (pieces path leaf).2.flatMap fun t => instanceText ++ t := by
  induction path with
  | nil => simp [pathText, pieces]
  | cons s path ih =>
      have hcons : pathText (s :: path) ++ leaf = s.text ++ '.' :: (pathText path ++ leaf) := by simp [pathText]
      rw [hcons, ih]
      cases s with
      | name n => simp [pieces, Segment.text]
      | inst => simp [pieces, Segment.text]

theorem fill_pieces (path : List Segment) (leaf : Text) {numbers : List Number}
    (h : numbers.length = placeholders path) :
    fillPath path numbers ++ leaf =
      (pieces path leaf).1 ++ (List.zipWith (fun N t => N.digits ++ t) numbers (pieces path leaf).2).flatten := by
  induction path generalizing numbers with
  | nil => simp [fillPath, pieces]
  | cons s path ih =>
      cases s with
      | name n =>
          have := ih h
          simp only [fillPath, pieces, List.append_assoc, List.cons_append] at this ⊢
          rw [this]
      | inst =>
          cases numbers with
          | nil => simp [placeholders] at h
          | cons N numbers =>
              have := ih (Nat.succ.inj h)
              simp only [fillPath, pieces, List.append_assoc, List.cons_append, List.zipWith_cons_cons,
                List.flatten_cons, List.nil_append] at this ⊢
              rw [this]

/-- A character of a name or a dot. -/
def pieceChar (c : Char) : Bool := nameChar c || decide (c = '.')

theorem pieces_chars (path : List Segment) {leaf : Text} (hleaf : ∀ c ∈ leaf, pieceChar c = true) :
    (∀ c ∈ (pieces path leaf).1, pieceChar c = true) ∧ ∀ t ∈ (pieces path leaf).2, ∀ c ∈ t, pieceChar c = true := by
  have hdot : pieceChar '.' = true := by decide
  induction path with
  | nil => exact ⟨hleaf, fun t ht => by cases ht⟩
  | cons s path ih =>
      cases s with
      | name n =>
          refine ⟨?_, ih.2⟩
          show ∀ c ∈ n.chars ++ '.' :: (pieces path leaf).1, pieceChar c = true
          simp only [List.forall_mem_append, List.forall_mem_cons]
          refine ⟨fun c hc => ?_, hdot, ih.1⟩
          simp [pieceChar, n.ok c hc]
      | inst =>
          refine ⟨fun c hc => (by cases hc), ?_⟩
          show ∀ t ∈ ('.' :: (pieces path leaf).1) :: (pieces path leaf).2, _
          simp only [List.forall_mem_cons]
          exact ⟨⟨hdot, ih.1⟩, ih.2⟩

theorem brace_not_mem {t : Text} (h : ∀ c ∈ t, pieceChar c = true) : '{' ∉ t := by
  intro hc
  have := h '{' hc
  revert this
  decide

/-- Placeholders stand between dots. -/
theorem pieces_shape (path : List Segment) (leaf : Text) {t : Text} {ts : List Text}
    (h : (pieces path leaf).2 = t :: ts) :
    ((pieces path leaf).1 = [] ∨ (pieces path leaf).1.getLast? = some '.') ∧ t.head? = some '.' ∧
      ∀ t' ts', ts = t' :: ts' → t.getLast? = some '.' ∧ t'.head? = some '.' := by
  induction path generalizing t ts with
  | nil => cases h
  | cons s path ih =>
      cases s with
      | name n =>
          obtain ⟨hlast, hrest⟩ := ih h
          refine ⟨Or.inr ?_, hrest⟩
          show (n.chars ++ '.' :: (pieces path leaf).1).getLast? = some '.'
          rcases hlast with hnil | hlast
          · rw [hnil, List.getLast?_concat]
          · rw [List.getLast?_append_cons, List.getLast?_cons, hlast]
            rfl
      | inst =>
          have h' : ('.' :: (pieces path leaf).1) :: (pieces path leaf).2 = t :: ts := h
          rw [List.cons.injEq] at h'
          obtain ⟨rfl, hts⟩ := h'
          refine ⟨Or.inl rfl, rfl, fun t' ts' ht' => ?_⟩
          obtain ⟨hlast, hhead, -⟩ := ih (hts.trans ht')
          refine ⟨?_, hhead⟩
          rcases hlast with hnil | hlast
          · rw [hnil]
            rfl
          · rw [List.getLast?_cons, hlast]
            rfl

/-- No piece of a parameter begins with the end of an empty segment. -/
theorem pieces_head (path : List Segment) (leaf : Name) : (pieces path leaf.chars).1.head? ≠ some '.' := by
  have hname : ∀ n : Name, ∀ u : Text, (n.chars ++ u).head? ≠ some '.' := by
    intro n u hu
    rw [List.head?_append_of_ne_nil _ n.ne_nil] at hu
    exact dot_not_mem n (List.mem_of_head? hu)
  cases path with
  | nil =>
      have := hname leaf []
      rwa [List.append_nil] at this
  | cons s path =>
      cases s with
      | name n => exact hname n _
      | inst => exact fun h => by cases h

/-! ## Where the digits stand -/

/-- One digit, and it is not a segment of its own. -/
def OneInName (t : Text) : Prop :=
  ∃ x e y, t = x ++ e :: y ∧ Free Char.isDigit x ∧ e.isDigit = true ∧ Free Char.isDigit y ∧
    ¬(x.getLast? = some '.' ∧ y.head? = some '.')

/-- One digit, and it is a segment of its own behind another one. -/
def OneOwn (t : Text) : Prop :=
  ∃ x e y, t = x ++ '.' :: e :: '.' :: y ∧ Free Char.isDigit x ∧ e.isDigit = true ∧ Free Char.isDigit y

/-- Two digits: the first is a segment of its own behind another one, the second is not. -/
def OwnThenOne (t : Text) : Prop :=
  ∃ x e u, t = x ++ '.' :: e :: u ∧ Free Char.isDigit x ∧ e.isDigit = true ∧ u.head? = some '.' ∧ OneInName u

/-- When the lookup finds a concrete name of `P`. -/
def Met (P : Param) (numbers : List Number) : Prop :=
  match pieces P.path P.leaf.chars, numbers with
  | (_, []), _ => True
  | (t₀, [_]), [N] =>
      t₀ ≠ [] ∧ (Free Char.isDigit t₀ ∨ OneOwn t₀ ∧ (P.fill numbers).length + 2 < maxParameterLength ∨
        OwnThenOne t₀ ∧ N.digits.length = 1)
  | (t₀, [t₁, _]), [N₁, N₂] =>
      t₀ ≠ [] ∧ Free Char.isDigit t₀ ∧
        (Free Char.isDigit t₁ ∧ (P.fill numbers).length + 3 < maxParameterLength + N₁.digits.length ∨
          OneInName t₁ ∧ N₂.digits.length = 1)
  | _, _ => False

end Tr69HostIf.Waldb
