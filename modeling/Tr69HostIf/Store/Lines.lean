import Mathlib.Data.List.Basic

/-!
# Text files read line by line

* `Text` : the contents of a `std::string` or of a file;
* `getlines t` : the lines a `while (getline(stream, line))` loop sees in `t`;
* `Terminated t` : `t` is empty or ends with a line break, so that what is appended to it starts a
  line of its own (`getlines_append`);
* `getlines_line` : a line written without a line break in it is read back;
* `not_mem_getlines` : no line read contains a line break.
-/

namespace Tr69HostIf.Store

/-- The characters of a string or of a file. -/
abbrev Text := List Char

/-- The lines that a loop over `std::getline` reads; a last line without line break counts when it is not
empty. -/
def getlines : Text → List Text
  | [] => []
  | c :: t =>
      if c = '\n' then [] :: getlines t
      else match getlines t with
        | [] => [[c]]
        | l :: ls => (c :: l) :: ls

/-- Empty, or ending with a line break. -/
def Terminated (t : Text) : Prop := t = [] ∨ ∃ u, t = u ++ ['\n']

@[simp] theorem terminated_nil : Terminated [] := Or.inl rfl

theorem terminated_append_newline (t : Text) : Terminated (t ++ ['\n']) := Or.inr ⟨t, rfl⟩

theorem Terminated.append {t u : Text} (ht : Terminated t) (hu : Terminated u) : Terminated (t ++ u) := by
  rcases hu with rfl | ⟨w, rfl⟩
  · rwa [List.append_nil]
  · rw [← List.append_assoc]
    exact terminated_append_newline (t ++ w)

theorem getlines_newline_append (t u : Text) : getlines (t ++ '\n' :: u) = getlines (t ++ ['\n']) ++ getlines u := by
  induction t with
  | nil => simp [getlines]
  | cons c t ih =>
      rw [List.cons_append, List.cons_append, getlines, getlines]
      split
      · rw [ih, List.cons_append]
      · rw [ih]
        cases h : getlines (t ++ ['\n']) with
        | nil =>
            cases t with
            | nil => simp [getlines] at h
            | cons a t =>
                rw [List.cons_append, getlines] at h
                split at h
                · cases h
                · split at h <;> cases h
        | cons l ls => rfl

theorem getlines_append {t : Text} (ht : Terminated t) (u : Text) : getlines (t ++ u) = getlines t ++ getlines u := by
  rcases ht with rfl | ⟨w, rfl⟩
  · rfl
  · rw [List.append_assoc, List.singleton_append, getlines_newline_append]

/-- **A line without a line break is read back.** -/
theorem getlines_line {l : Text} (hl : '\n' ∉ l) (u : Text) : getlines (l ++ '\n' :: u) = l :: getlines u := by
  induction l with
  | nil => simp [getlines]
  | cons c l ih =>
      rw [List.mem_cons, not_or] at hl
      rw [List.cons_append, getlines, if_neg (Ne.symm hl.1), ih hl.2]

theorem not_mem_getlines {t : Text} : ∀ {l : Text}, l ∈ getlines t → '\n' ∉ l := by
  induction t with
  | nil => intro l hl; cases hl
  | cons c t ih =>
      intro l hl
      rw [getlines] at hl
      split at hl
      · rcases List.mem_cons.mp hl with rfl | hl
        · exact List.not_mem_nil
        · exact ih hl
      · next hc =>
        split at hl
        · rw [List.mem_singleton] at hl
          subst hl
          simpa using Ne.symm hc
        · next l' ls hls =>
          rcases List.mem_cons.mp hl with rfl | hl
          · rw [List.mem_cons, not_or]
            exact ⟨Ne.symm hc, ih (by rw [hls]; exact List.mem_cons_self)⟩
          · exact ih (by rw [hls]; exact List.mem_cons_of_mem l' hl)

theorem mem_of_mem_getlines {t : Text} : ∀ {l : Text} {c : Char}, l ∈ getlines t → c ∈ l → c ∈ t := by
  induction t with
  | nil => intro l c hl; cases hl
  | cons a t ih =>
      intro l c hl hc
      rw [getlines] at hl
      split at hl
      · rcases List.mem_cons.mp hl with rfl | hl
        · cases hc
        · exact List.mem_cons_of_mem a (ih hl hc)
      · split at hl
        · rw [List.mem_singleton] at hl
          subst hl
          rw [List.mem_singleton] at hc
          exact hc ▸ List.mem_cons_self
        · next l' ls hls =>
          rcases List.mem_cons.mp hl with rfl | hl
          · rcases List.mem_cons.mp hc with rfl | hc
            · exact List.mem_cons_self
            · exact List.mem_cons_of_mem a (ih (by rw [hls]; exact List.mem_cons_self) hc)
          · exact List.mem_cons_of_mem a (ih (by rw [hls]; exact List.mem_cons_of_mem l' hl) hc)

end Tr69HostIf.Store
