import Tr69HostIf.Store.Lines

/-!
# Lines of quoted fields

The writer puts each field between double quotes and a comma between two fields, and escapes nothing; the
reader splits at every comma and deletes every quote.

* `joinFields fs` : the line written for the fields `fs`, `fields line` : the fields read from a line;
* `fields_joinFields` : clean fields are read back;
* `mem_fields_clean` : a field that was read is clean, whatever the line holds.
-/

namespace Tr69HostIf.Store

/-- `f` between double quotes. -/
def quoted (f : Text) : Text := '"' :: f ++ ['"']

/-- The fields between quotes, separated by commas. -/
def joinFields (fs : List Text) : Text := [','].intercalate (fs.map quoted)

/-- `erase(remove(..., '\"'))`. -/
def dropQuotes (t : Text) : Text := t.filter fun c => c ≠ '"'

/-- The pieces between the commas of a line, without quotes. -/
def fields (line : Text) : List Text := (line.splitOn ',').map dropQuotes

/-- A field that survives its own line. -/
structure CleanField (f : Text) : Prop where
  comma : ',' ∉ f
  quote : '"' ∉ f
  line : '\n' ∉ f

instance (f : Text) : Decidable (CleanField f) :=
  decidable_of_iff (',' ∉ f ∧ '"' ∉ f ∧ '\n' ∉ f) ⟨fun h => ⟨h.1, h.2.1, h.2.2⟩, fun h => ⟨h.1, h.2, h.3⟩⟩

theorem dropQuotes_of_not_mem {t : Text} (h : '"' ∉ t) : dropQuotes t = t := by
  rw [dropQuotes, List.filter_eq_self]
  intro c hc
  rw [decide_eq_true_eq]
  rintro rfl
  exact h hc

theorem not_mem_dropQuotes {t : Text} {c : Char} (h : c ∉ t) : c ∉ dropQuotes t :=
  fun hc => h (List.mem_filter.mp hc).1

theorem quote_not_mem_dropQuotes (t : Text) : '"' ∉ dropQuotes t := fun h => by
  simpa using (List.mem_filter.mp h).2

theorem dropQuotes_quoted {f : Text} (h : '"' ∉ f) : dropQuotes (quoted f) = f := by
  have h1 : dropQuotes (quoted f) = dropQuotes f := by simp [dropQuotes, quoted]
  rw [h1, dropQuotes_of_not_mem h]

theorem not_mem_quoted {f : Text} {c : Char} (hc : c ≠ '"') (h : c ∉ f) : c ∉ quoted f := by
  simp [quoted, hc, h]

theorem mem_intercalate {sep : Text} {ls : List Text} {c : Char} (h : c ∈ sep.intercalate ls) :
    c ∈ sep ∨ ∃ l ∈ ls, c ∈ l := by
  induction ls with
  | nil => simp at h
  | cons l ls ih =>
      rcases ls with _ | ⟨l', ls⟩
      · exact Or.inr ⟨l, List.mem_cons_self, by simpa using h⟩
      · rw [List.intercalate_cons_cons, List.mem_append, List.mem_append] at h
        rcases h with (h | h) | h
        · exact Or.inr ⟨l, List.mem_cons_self, h⟩
        · exact Or.inl h
        · rcases ih h with h | ⟨m, hm, h⟩
          · exact Or.inl h
          · exact Or.inr ⟨m, List.mem_cons_of_mem l hm, h⟩

theorem mem_intercalate_of_mem {sep l : Text} {ls : List Text} {c : Char} (hl : l ∈ ls) (hc : c ∈ l) :
    c ∈ sep.intercalate ls := by
  induction ls with
  | nil => cases hl
  | cons m ls ih =>
      rcases ls with _ | ⟨l', ls⟩
      · rw [List.mem_singleton] at hl
        simpa [← hl] using hc
      · rw [List.intercalate_cons_cons, List.mem_append, List.mem_append]
        rcases List.mem_cons.mp hl with rfl | hl
        · exact Or.inl (Or.inl hc)
        · exact Or.inr (ih hl)

/-- No piece of a split contains the separator. -/
theorem not_mem_splitOn {t w : Text} (h : w ∈ t.splitOn ',') : ',' ∉ w := by
  induction t generalizing w with
  | nil =>
      rw [List.splitOn_nil, List.mem_singleton] at h
      simp [h]
  | cons c t ih =>
      rw [List.splitOn_eq_splitOnP, List.splitOnP_cons_eq_if_modifyHead] at h
      rw [List.splitOn_eq_splitOnP] at ih
      split at h
      · rcases List.mem_cons.mp h with rfl | h
        · simp
        · exact ih h
      · next hc =>
        obtain ⟨r, rs, hr⟩ := List.exists_cons_of_ne_nil (List.splitOnP_ne_nil (fun x => x == ',') t)
        rw [hr, List.modifyHead_cons, List.mem_cons] at h
        rcases h with rfl | h
        · have hr' : ',' ∉ r := ih (by rw [hr]; exact List.mem_cons_self)
          have hne : c ≠ ',' := by simpa using hc
          simp [hr', Ne.symm hne]
        · exact ih (by rw [hr]; exact List.mem_cons_of_mem r h)

theorem subset_of_mem_splitOn {t w : Text} (h : w ∈ t.splitOn ',') {c : Char} (hc : c ∈ w) : c ∈ t := by
  have he : [','].intercalate (t.splitOn ',') = t := List.intercalate_splitOn ','
  rw [← he]
  exact mem_intercalate_of_mem h hc

/-- **Clean fields are read back.** -/
theorem fields_joinFields {fs : List Text} (hne : fs ≠ []) (h : ∀ f ∈ fs, CleanField f) :
    fields (joinFields fs) = fs := by
  have hcomma : ∀ q ∈ fs.map quoted, ',' ∉ q := by
    intro q hq
    obtain ⟨f, hf, rfl⟩ := List.mem_map.mp hq
    exact not_mem_quoted (by decide) (h f hf).comma
  rw [fields, joinFields, List.splitOn_intercalate ',' hcomma (by simpa using hne), List.map_map]
  conv_rhs => rw [← List.map_id fs]
  apply List.map_congr_left
  intro f hf
  exact dropQuotes_quoted (h f hf).quote

/-- The first field is read back, whatever the others are. -/
theorem fields_joinFields_first {k f : Text} (hk : CleanField k) (fs : List Text) :
    (fields (joinFields (k :: f :: fs))).head? = some k := by
  have hcomma : ',' ∉ quoted k := not_mem_quoted (by decide) hk.comma
  have hjoin : joinFields (k :: f :: fs) = quoted k ++ ',' :: joinFields (f :: fs) := by
    simp [joinFields, List.intercalate_cons_cons]
  have hone : (quoted k).splitOnP (fun c => c == ',') = [quoted k] :=
    List.splitOnP_eq_singleton fun c hc => by
      rw [beq_eq_false_iff_ne]
      rintro rfl
      exact hcomma hc
  rw [fields, hjoin, List.splitOn_eq_splitOnP, List.splitOnP_append_cons _ _ (by simp), hone]
  simp [dropQuotes_quoted hk.quote]

/-- **A field that was read from a line is clean.** -/
theorem mem_fields_clean {line f : Text} (hl : '\n' ∉ line) (h : f ∈ fields line) : CleanField f := by
  obtain ⟨w, hw, rfl⟩ := List.mem_map.mp h
  refine ⟨not_mem_dropQuotes (not_mem_splitOn hw), quote_not_mem_dropQuotes w, not_mem_dropQuotes ?_⟩
  exact fun hn => hl (subset_of_mem_splitOn hw hn)

theorem mem_of_mem_fields {line f : Text} (h : f ∈ fields line) {c : Char} (hc : c ∈ f) : c ∈ line := by
  obtain ⟨w, hw, rfl⟩ := List.mem_map.mp h
  exact subset_of_mem_splitOn hw (List.mem_filter.mp hc).1

theorem newline_not_mem_joinFields {fs : List Text} (h : ∀ f ∈ fs, '\n' ∉ f) : '\n' ∉ joinFields fs := by
  intro hn
  rcases mem_intercalate hn with hn | ⟨q, hq, hn⟩
  · simp at hn
  · obtain ⟨f, hf, rfl⟩ := List.mem_map.mp hq
    exact not_mem_quoted (by decide) (h f hf) hn

theorem cleanField_nil : CleanField [] := by decide

end Tr69HostIf.Store
