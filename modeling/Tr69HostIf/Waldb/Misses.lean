import Tr69HostIf.Waldb.Hits

/-!
# Names the lookup misses

Each name the lookup builds from a concrete name is compared with the name in the data model: cutting both
at their first `{i}` (`brace_unique`) and the concrete name at its first digit (`first_unique`) leaves only
the cases of `Met`. `miss_other` : a first digit that is part of a name is fatal; `own_one`, `own_two` : what
follows when the first digit run is a segment of its own; `count_found` : three placeholders are never found.
-/

namespace Tr69HostIf.Waldb
open Store

/-! ## Braces -/

section
variable {x x' r r' y z : Text} {a : Char}

theorem brace_unique (hx : '{' ∉ x) (hx' : '{' ∉ x') (h : x ++ (instanceText ++ r) = x' ++ (instanceText ++ r')) :
    x = x' ∧ r = r' := by
  obtain ⟨hxx, hr⟩ := cut_unique hx hx' h
  exact ⟨hxx, by simpa using hr⟩

/-- The three characters skipped take the placeholder with them when it stands early. -/
theorem brace_not_mem_drop (hr : '{' ∉ r) (h : x.length < 3) :
    '{' ∉ (x ++ (instanceText ++ r)).drop 3 := by
  have hi : '{' ∉ (instanceText.drop 1) := by decide
  have hdrop : (x ++ (instanceText ++ r)).drop 3 = instanceText.drop (3 - x.length) ++ r := by
    rw [List.drop_append, List.drop_of_length_le (by omega), List.nil_append, List.drop_append]
    have : (3 - x.length - instanceText.length) = 0 := by
      simp only [instanceText, List.length_cons, List.length_nil]
      omega
    rw [this, List.drop_zero]
  rw [hdrop, List.mem_append, not_or]
  refine ⟨fun hmem => hi ?_, hr⟩
  have hle : 3 - x.length = 1 + (2 - x.length) := by omega
  rw [hle, ← List.drop_drop] at hmem
  exact List.mem_of_mem_drop hmem

theorem brace_not_mem_dotted {t : Text} (h : '{' ∉ t) : '{' ∉ dotted t := by
  rw [dotted, List.mem_append, not_or]
  exact ⟨fun hm => h ((List.dropLast_sublist t).subset hm), by decide⟩

theorem brace_not_mem_split {l d : Text} (hs : Split Char.isDigit l x a d y) (h : '{' ∉ l) :
    '{' ∉ x ∧ a ≠ '{' ∧ '{' ∉ d ∧ '{' ∉ y := by
  rw [hs.eq] at h
  simp only [List.mem_append, List.mem_cons, not_or] at h
  exact ⟨h.1, Ne.symm h.2.1, h.2.2.1, h.2.2.2⟩

theorem brace_not_mem_digits (N : Number) : '{' ∉ N.digits := by
  intro h
  have := N.ok '{' h
  revert this
  decide

theorem brace_mem (t r : Text) : '{' ∈ t ++ (instanceText ++ r) := by simp [instanceText]

/-- The comparison of a name built by skipping three characters. -/
theorem skip_cases {t₀ t₁ : Text} (hx : '{' ∉ x) (ha : a ≠ '{') (hz : '{' ∉ z) (hy : '{' ∉ y) (h₀ : '{' ∉ t₀)
    (h : x ++ a :: (z ++ (instanceText ++ y)).drop 3 = t₀ ++ (instanceText ++ t₁)) :
    3 ≤ z.length ∧ x ++ a :: z.drop 3 = t₀ ∧ y = t₁ := by
  by_cases hlen : 3 ≤ z.length
  · rw [List.drop_append_of_le_length hlen, ← List.cons_append, ← List.append_assoc] at h
    refine ⟨hlen, brace_unique ?_ h₀ h⟩
    simp only [List.mem_append, List.mem_cons, not_or]
    exact ⟨hx, Ne.symm ha, fun hm => hz (List.mem_of_mem_drop hm)⟩
  · have hmem : '{' ∈ x ++ a :: (z ++ (instanceText ++ y)).drop 3 := by
      rw [h]
      exact brace_mem t₀ t₁
    simp only [List.mem_append, List.mem_cons] at hmem
    rcases hmem with hm | hm | hm
    · exact absurd hm hx
    · exact absurd hm.symm ha
    · exact absurd hm (brace_not_mem_drop hy (by omega))

end

/-! ## The first digit of a number -/

theorem Number.exists_cons (N : Number) : ∃ b d, N.digits = b :: d ∧ b.isDigit = true := by
  obtain ⟨b, d, hN⟩ := List.exists_cons_of_ne_nil N.ne_nil
  exact ⟨b, d, hN, N.ok b (by rw [hN]; exact List.mem_cons_self)⟩

theorem not_free_number (N : Number) (t r : Text) : ¬Free Char.isDigit (t ++ (N.digits ++ r)) := by
  obtain ⟨b, d, hN, hb⟩ := N.exists_cons
  intro hf
  have := hf b (by rw [hN]; simp)
  rw [hb] at this
  cases this

/-! ## A first digit inside a name -/

section
variable {x x₂ x₃ y₂ y₃ r r' t₀ t₁ N : Text} {a a₂ b c : Char}

/-- A free text in front of a digit has no proper suffix there. -/
theorem drop_three_ne (hx₂ : Free Char.isDigit x₂) (ha₂ : a₂.isDigit = true) (hb : b.isDigit = true)
    (hlen : 3 ≤ x₂.length) : x₂ ++ a₂ :: r ≠ x₂.drop 3 ++ b :: r' := by
  intro h
  have hfree : Free Char.isDigit (x₂.drop 3) := fun c hc => hx₂ c (List.mem_of_mem_drop hc)
  have := congrArg List.length (first_unique hx₂ hfree ha₂ hb h).1
  rw [List.length_drop] at this
  omega

theorem digit_ne (hc : c.isDigit = false) (ha : a.isDigit = true) : a ≠ c := by
  rintro rfl
  rw [ha] at hc
  cases hc

theorem length_dotted {t : Text} (ht : t ≠ []) : (dotted t).length = t.length := by
  have := List.length_pos_iff.mpr ht
  rw [dotted, List.length_append, List.length_dropLast, List.length_singleton]
  omega

/-- Four digits do not end a text with at most two of them at its end. -/
theorem four_digits_ne (hx₂ : Free Char.isDigit x₂) (hx₃ : Free Char.isDigit x₃) (hN : ∀ c ∈ N, c.isDigit = true)
    (hlen : N.length = 4) : x₂ ++ a₂ :: x₃ ++ [b] ≠ r ++ N := by
  intro h
  obtain ⟨b₁, b₂, b₃, b₄, rfl⟩ := List.length_eq_four.mp hlen
  have h' : (x₂ ++ a₂ :: x₃) ++ [b] = (r ++ [b₁, b₂, b₃]) ++ [b₄] := by
    rw [h]
    simp
  have h₁ := (List.append_inj' h' rfl).1
  rcases List.eq_nil_or_concat x₃ with rfl | ⟨x₃', e, rfl⟩
  · have h₂ : x₂ ++ [a₂] = (r ++ [b₁, b₂]) ++ [b₃] := by
      rw [h₁]
      simp
    have h₃ := (List.append_inj' h₂ rfl).1
    have hfalse := hx₂ b₂ (by rw [h₃]; simp)
    rw [hN b₂ (by simp)] at hfalse
    cases hfalse
  · rw [List.concat_eq_append] at h₁ hx₃
    have h₂ : (x₂ ++ a₂ :: x₃') ++ [e] = (r ++ [b₁, b₂]) ++ [b₃] := by
      have : x₂ ++ a₂ :: (x₃' ++ [e]) = (x₂ ++ a₂ :: x₃') ++ [e] := by simp
      rw [← this, h₁]
      simp
    have he : e = b₃ := by simpa using (List.append_inj' h₂ rfl).2
    have hfalse := hx₃ e (by simp)
    rw [he, hN b₃ (by simp)] at hfalse
    cases hfalse

/-- Behind a digit, the digit itself does not come back with a dot in place of what follows it. -/
theorem dotted_ne (ha : a.isDigit = true) (ha₂ : a₂.isDigit = true) (hx₂ : Free Char.isDigit x₂)
    (hx₃ : Free Char.isDigit x₃) : a :: (x₂ ++ a₂ :: x₃ ++ [b]) ≠ dotted (x₂ ++ a₂ :: x₃) ++ r := by
  intro h
  cases x₂ with
  | cons e x₂ =>
      have hne : x₂ ++ a₂ :: x₃ ≠ [] := by simp
      rw [dotted, List.cons_append, List.dropLast_cons_of_ne_nil hne] at h
      exact digit_ne (free_cons.mp hx₂).1 ha (List.cons.inj h).1
  | nil =>
      rw [List.nil_append] at h
      rcases List.eq_nil_or_concat x₃ with rfl | ⟨x₃', e, rfl⟩
      · have : a = '.' := by simpa [dotted] using (List.cons.inj h).1
        exact digit_ne dot_not_digit ha this
      · rw [List.concat_eq_append] at h hx₃
        have hdrop : dotted (a₂ :: (x₃' ++ [e])) = a₂ :: (x₃' ++ ['.']) := by
          rw [dotted, ← List.cons_append, List.dropLast_concat]
          rfl
        rw [hdrop] at h
        have h' : a₂ :: (x₃' ++ [e] ++ [b]) = x₃' ++ ['.'] ++ r := (List.cons.inj h).2
        cases x₃' with
        | nil =>
            have : a₂ = '.' := by simpa using (List.cons.inj h').1
            exact digit_ne dot_not_digit ha₂ this
        | cons f x₃' =>
            have hf := hx₃ f (by simp)
            exact digit_ne hf ha₂ (List.cons.inj h').1

end

section
variable {stray : Stray} {dm : DataModel} {x d y t₀ t₁ x₂ d₂ y₂ x₃ y₃ : Text} {a a₂ b₃ : Char} {N : Number}

/-- A second run that is a segment of its own: neither name tried is the one in the data model. -/
theorem other_own_ne {stray : Char} (hst : stray ≠ '.') (ho : Own stray x₂ y₂) (ha : a.isDigit = true)
    (hx₂ : Free Char.isDigit x₂) (ha₂ : a₂.isDigit = true) (hbx : '{' ∉ x) (hba : a ≠ '{') (hbx₂ : '{' ∉ x₂)
    (hby₂ : '{' ∉ y₂) (h₀ : '{' ∉ t₀) (hn : x ++ a :: (x₂ ++ a₂ :: (d₂ ++ y₂)) = t₀ ++ (N.digits ++ t₁)) :
    x ++ a :: (x₂ ++ (instanceText ++ y₂)).drop 3 ≠ t₀ ++ (instanceText ++ t₁) ∧
      x ++ (x₂ ++ (instanceText ++ y₂)) ≠ t₀ ++ (instanceText ++ t₁) := by
  obtain ⟨b, N', hNb, hb⟩ := N.exists_cons
  constructor
  · intro h
    obtain ⟨hlen, rfl, -⟩ := skip_cases hbx hba hbx₂ hby₂ h₀ h
    rw [hNb] at hn
    have : x₂ ++ a₂ :: (d₂ ++ y₂) = x₂.drop 3 ++ b :: (N' ++ t₁) := by simpa using hn
    exact drop_three_ne hx₂ ha₂ hb hlen this
  · intro h
    rw [← List.append_assoc] at h
    obtain ⟨rfl, -⟩ := brace_unique (by simp [hbx, hbx₂]) h₀ h
    rw [List.append_assoc] at hn
    have hcancel := List.append_cancel_left hn
    cases x₂ with
    | nil => exact hst ho.2
    | cons c x₂ => exact digit_ne (free_cons.mp hx₂).1 ha (List.cons.inj hcancel).1

/-- A third run: neither name tried is the one in the data model. -/
theorem other_third_ne (ha : a.isDigit = true) (ha₂ : a₂.isDigit = true) (hx₂ : Free Char.isDigit x₂)
    (hx₃ : Free Char.isDigit x₃) (hbx : '{' ∉ x) (hba : a ≠ '{') (hbz : '{' ∉ dotted (x₂ ++ a₂ :: x₃))
    (hby₃ : '{' ∉ y₃) (h₀ : '{' ∉ t₀) (hn : x ++ a :: (x₂ ++ a₂ :: (x₃ ++ b₃ :: y₃)) = t₀ ++ (N.digits ++ t₁)) :
    x ++ a :: (dotted (x₂ ++ a₂ :: x₃) ++ (instanceText ++ y₃)).drop 3 ≠ t₀ ++ (instanceText ++ t₁) ∧
      x ++ (dotted (x₂ ++ a₂ :: x₃) ++ (instanceText ++ y₃)) ≠ t₀ ++ (instanceText ++ t₁) := by
  constructor
  · intro h
    obtain ⟨hlen, rfl, rfl⟩ := skip_cases hbx hba hbz hby₃ h₀ h
    have hcancel : (x₂ ++ a₂ :: x₃ ++ [b₃]) ++ y₃ = ((dotted (x₂ ++ a₂ :: x₃)).drop 3 ++ N.digits) ++ y₃ := by
      simpa using hn
    have heq := List.append_cancel_right hcancel
    have hfour : N.digits.length = 4 := by
      have hl := congrArg List.length heq
      have hz := length_dotted (t := x₂ ++ a₂ :: x₃) (by simp)
      simp only [List.length_append, List.length_drop, hz, List.length_cons, List.length_nil] at hl hlen
      omega
    exact four_digits_ne hx₂ hx₃ N.ok hfour heq
  · intro h
    rw [← List.append_assoc] at h
    obtain ⟨rfl, rfl⟩ := brace_unique (by simp [hbx, hbz]) h₀ h
    have hcancel : (a :: (x₂ ++ a₂ :: x₃ ++ [b₃])) ++ y₃ = (dotted (x₂ ++ a₂ :: x₃) ++ N.digits) ++ y₃ := by
      rw [List.append_assoc] at hn
      simpa using List.append_cancel_left hn
    exact dotted_ne ha ha₂ hx₂ hx₃ (List.append_cancel_right hcancel)

/-- **A digit of a name in front of the placeholder hides the instance number.** -/
theorem miss_other (hst : stray.splitParam ≠ '.') (h₀ : '{' ∉ t₀) (h₁ : '{' ∉ t₁)
    (hn : (t₀ ++ (N.digits ++ t₁)).length < maxParameterLength)
    (hs : Split Char.isDigit (t₀ ++ (N.digits ++ t₁)) x a d y)
    (hdm : ∀ c ∈ names dm, c = t₀ ++ (instanceText ++ t₁)) :
    ¬Found (trySplit stray dm (t₀ ++ (N.digits ++ t₁)) (x.length + 1) (x ++ [a]) (d ++ y)) := by
  have hbn : '{' ∉ t₀ ++ (N.digits ++ t₁) := by simp [h₀, h₁, brace_not_mem_digits]
  obtain ⟨hbx, hba, hbd, hby⟩ := brace_not_mem_split hs hbn
  have hsp : (d ++ y).length < maxParameterLength := by
    have := hs.length
    rw [List.length_append]
    omega
  have hbsp : '{' ∉ d ++ y := by
    rw [List.mem_append, not_or]
    exact ⟨hbd, hby⟩
  -- a name without a placeholder is not the one in the data model
  have hlast : ¬((x ++ (d ++ y)).length < maxParameterLength ∧ x ++ (d ++ y) ∈ names dm) := by
    rintro ⟨-, hmem⟩
    have := brace_mem t₀ t₁
    rw [← hdm _ hmem, List.mem_append] at this
    exact this.elim hbx hbsp
  rcases hr : rewriteSplit stray.splitParam (d ++ y) with _ | ⟨q, dot⟩
  · rw [found_split_same hr (by rw [List.take_left]) hs.take_succ hsp]
    exact hlast
  rw [found_split_rewritten hr hs.take_succ hsp]
  obtain ⟨x₂, a₂, d₂, y₂, hs₂, hcases⟩ := rewriteSplit_cases hr
  have hn' : x ++ a :: (x₂ ++ a₂ :: (d₂ ++ y₂)) = t₀ ++ (N.digits ++ t₁) := by rw [← hs₂.eq, ← hs.eq]
  obtain ⟨hbx₂, hba₂, hbd₂, hby₂⟩ := brace_not_mem_split hs₂ hbsp
  obtain ⟨ho, rfl, -⟩ | ⟨-, x₃, b₃, y₃, h₃, hx₃, -, rfl, -⟩ := hcases
  · obtain ⟨hne, hne'⟩ := other_own_ne hst ho hs.head hs₂.free hs₂.head hbx hba hbx₂ hby₂ h₀ hn'
    rintro ⟨-, -, hmem | ⟨-, hmem⟩⟩
    · exact hne (hdm _ hmem)
    · exact hne' (hdm _ hmem)
  have hb₃' : '{' ∉ x₃ ++ b₃ :: y₃ := by
    rw [← h₃]
    simp [hbd₂, hby₂]
  simp only [List.mem_append, List.mem_cons, not_or] at hb₃'
  obtain ⟨hbx₃, -, hby₃⟩ := hb₃'
  have hbz : '{' ∉ dotted (x₂ ++ a₂ :: x₃) := brace_not_mem_dotted (by simp [hbx₂, Ne.symm hba₂, hbx₃])
  rw [h₃] at hn'
  obtain ⟨hne, hne'⟩ := other_third_ne hs.head hs₂.head hs₂.free hx₃ hbx hba hbz hby₃ h₀ hn'
  rintro ⟨-, -, hmem | ⟨-, hmem⟩⟩
  · exact hne (hdm _ hmem)
  · exact hne' (hdm _ hmem)

end

/-! ## A first run that is a segment of its own -/

section
variable {stray : Stray} {dm : DataModel} {n x d y t₀ t₁ t₂ : Text} {a : Char} {N N₁ N₂ : Number}

/-- The names tried behind such a run, by what comes next in the concrete name. -/
inductive Next (dm : DataModel) (x : Text) (a : Char) (y : Text) : Prop
  | first (h : x ++ (instanceText ++ y) ∈ names dm)
  | own (w : Text) (a₂ : Char) (d₂ y₂ : Text) (hy : y = w ++ a₂ :: (d₂ ++ y₂)) (hw : Free Char.isDigit w)
      (ha₂ : a₂.isDigit = true)
      (h : x ++ a :: (w ++ (instanceText ++ y₂)) ∈ names dm ∨
        x ++ (instanceText ++ (w ++ (instanceText ++ y₂))) ∈ names dm)
  | third (w : Text) (a₂ : Char) (x₃ : Text) (b : Char) (y₃ : Text) (hy : y = w ++ a₂ :: (x₃ ++ b :: y₃))
      (hw : Free Char.isDigit w) (ha₂ : a₂.isDigit = true) (hx₃ : Free Char.isDigit x₃)
      (hname : ¬(w.getLast? = some '.' ∧ x₃.head? = some '.'))
      (h : x ++ a :: (dotted (w ++ a₂ :: x₃) ++ (instanceText ++ y₃)) ∈ names dm ∨
        x ++ (instanceText ++ (dotted (w ++ a₂ :: x₃) ++ (instanceText ++ y₃))) ∈ names dm)

theorem split_instanceText {w : Text} {a₂ : Char} {d₂ y₂ : Text} (h : Split Char.isDigit y w a₂ d₂ y₂) :
    Split Char.isDigit (instanceText ++ y) (instanceText ++ w) a₂ d₂ y₂ :=
  ⟨by rw [h.eq, List.append_assoc], free_append.mpr ⟨free_instanceText, h.free⟩, h.head, h.run, h.rest⟩

theorem getLast?_instanceText {z : Text} (hz : z ≠ []) : (instanceText ++ z).getLast? = z.getLast? := by
  rw [List.getLast?_append, List.getLast?_eq_some_getLast hz]
  rfl

theorem dotted_instanceText {z : Text} (hz : z ≠ []) : dotted (instanceText ++ z) = instanceText ++ dotted z := by
  rw [dotted, dotted, List.dropLast_append_of_ne_nil hz, List.append_assoc]

/-- How the rest is cut when it begins with a placeholder. -/
theorem rewriteSplit_instanceText {stray : Char} {q : Text} {dot : Bool}
    (h : rewriteSplit stray (instanceText ++ y) = some (q, dot)) :
    ∃ w a₂ d₂ y₂, Split Char.isDigit y w a₂ d₂ y₂ ∧
      (q = instanceText ++ (w ++ (instanceText ++ y₂)) ∧ dot = true ∨
        ¬Own stray (instanceText ++ w) y₂ ∧ ∃ x₃ b y₃, d₂ ++ y₂ = x₃ ++ b :: y₃ ∧ Free Char.isDigit x₃ ∧
          b.isDigit = true ∧ q = instanceText ++ (dotted (w ++ a₂ :: x₃) ++ (instanceText ++ y₃)) ∧
          dot = decide ((w ++ a₂ :: x₃).getLast? = some '.')) := by
  have hdigit : ¬Free Char.isDigit y := fun hf => by
    rw [rewriteSplit_free (free_append.mpr ⟨free_instanceText, hf⟩)] at h
    cases h
  obtain ⟨w, a₂, d₂, y₂, hs⟩ := exists_split hdigit
  have hs' := split_instanceText hs
  refine ⟨w, a₂, d₂, y₂, hs, ?_⟩
  by_cases ho : Own stray (instanceText ++ w) y₂
  · rw [rewriteSplit_own hs' ho, List.append_assoc] at h
    cases h
    exact Or.inl ⟨rfl, rfl⟩
  · by_cases hf : Free Char.isDigit (d₂ ++ y₂)
    · rw [rewriteSplit_last hs' ho hf] at h
      cases h
    · obtain ⟨x₃, b, y₃, h₃, hx₃, hb⟩ := exists_first hf
      have hz : w ++ a₂ :: x₃ ≠ [] := by simp
      rw [rewriteSplit_third hs' ho h₃ hx₃ hb, List.append_assoc, dotted_instanceText hz, getLast?_instanceText hz,
        List.append_assoc] at h
      cases h
      exact Or.inr ⟨ho, x₃, b, y₃, h₃, hx₃, hb, rfl, rfl⟩

theorem found_next (hs : Split Char.isDigit n x a d y) (hfit : (x ++ (instanceText ++ y)).length < maxParameterLength)
    (h : x ++ (instanceText ++ y) ∈ names dm ∨
      Found (trySplit stray dm n (x.length + 1) (x ++ (instanceText ++ y)) (instanceText ++ y))) : Next dm x a y := by
  have hsp : (instanceText ++ y).length < maxParameterLength := by
    rw [List.length_append] at hfit
    omega
  rcases h with h | h
  · exact .first h
  have hdrop : ∀ z : Text, (instanceText ++ z).drop 3 = z := fun z => rfl
  rcases hr : rewriteSplit stray.splitParam (instanceText ++ y) with _ | ⟨q, dot⟩
  · rw [found_split_same hr (by rw [List.take_left]) hs.take_succ hsp] at h
    exact .first h.2
  rw [found_split_rewritten hr hs.take_succ hsp] at h
  obtain ⟨-, -, h⟩ := h
  obtain ⟨w, a₂, d₂, y₂, hs₂, ⟨rfl, -⟩ | ⟨ho, x₃, b, y₃, h₃, hx₃, -, rfl, -⟩⟩ := rewriteSplit_instanceText hr
  · rw [hdrop] at h
    exact .own w a₂ d₂ y₂ hs₂.eq hs₂.free hs₂.head (h.imp_right And.right)
  rw [hdrop] at h
  refine .third w a₂ x₃ b y₃ (by rw [hs₂.eq, h₃]) hs₂.free hs₂.head hx₃ ?_ (h.imp_right And.right)
  rintro ⟨hw, hx⟩
  refine ho ⟨?_, by rw [getLast?_append_dot hw]; rfl⟩
  -- the run ends where a dot follows it
  cases x₃ with
  | nil => cases hx
  | cons c x₃ =>
      rw [List.head?_cons, Option.some.injEq] at hx
      cases d₂ with
      | nil =>
          rw [List.nil_append] at h₃
          rw [h₃, hx]
          rfl
      | cons e d₂ =>
          have he := hs₂.run e List.mem_cons_self
          rw [(List.cons.inj h₃).1, hx, dot_not_digit] at he
          cases he

theorem dotted_cons (c : Char) {q : Text} (hq : q ≠ []) : dotted (c :: q) = c :: dotted q := by
  rw [dotted, List.dropLast_cons_of_ne_nil hq]
  rfl

theorem dotted_eq {q N r : Text} {b : Char} (hq : q ≠ []) (h : q ++ b :: r = dotted q ++ (N ++ r)) :
    dotted q = q ∧ N = [b] := by
  have hcancel : (q ++ [b]) ++ r = (dotted q ++ N) ++ r := by simpa using h
  obtain ⟨h₁, h₂⟩ := List.append_inj (List.append_cancel_right hcancel) (length_dotted hq).symm
  exact ⟨h₁.symm, h₂.symm⟩

theorem run_nil_of_dot {r r' : Text} (hd : ∀ c ∈ d, c.isDigit = true) (h : d ++ r = '.' :: r') : d = [] := by
  cases d with
  | nil => rfl
  | cons e d =>
      have he := hd e List.mem_cons_self
      rw [(List.cons.inj h).1, dot_not_digit] at he
      cases he

theorem cons_of_head {w r : Text} {c : Char} (hy : (w ++ c :: r).head? = some '.') (hc : c.isDigit = true) :
    ∃ w', w = '.' :: w' := by
  cases w with
  | nil =>
      have : c = '.' := by simpa using hy
      exact absurd this (digit_ne dot_not_digit hc)
  | cons e w =>
      have : e = '.' := by simpa using hy
      exact ⟨w, by rw [this]⟩

/-- One placeholder behind such a run. -/
theorem own_one (h₀ : '{' ∉ t₀) (h₁ : '{' ∉ t₁) (hs : Split Char.isDigit (t₀ ++ (N.digits ++ t₁)) x a d y)
    (hx : x.getLast? = some '.') (hy : y.head? = some '.') (hdm : ∀ c ∈ names dm, c = t₀ ++ (instanceText ++ t₁))
    (h : Next dm x a y) :
    Free Char.isDigit t₀ ∨ OneOwn t₀ ∧ d = [] ∨ OwnThenOne t₀ ∧ N.digits.length = 1 := by
  have hbn : '{' ∉ t₀ ++ (N.digits ++ t₁) := by simp [h₀, h₁, brace_not_mem_digits]
  obtain ⟨hbx, hba, -, hby⟩ := brace_not_mem_split hs hbn
  obtain ⟨x', hx'⟩ := List.getLast?_eq_some_iff.mp hx
  have hfx' : Free Char.isDigit x' := (free_append.mp (hx' ▸ hs.free)).1
  have hn := hs.eq.symm
  -- a second placeholder is not there
  have htwo : ∀ {v r : Text}, x ++ (instanceText ++ (v ++ (instanceText ++ r))) ∈ names dm → False := by
    intro v r hmem
    obtain ⟨-, ht₁⟩ := brace_unique hbx h₀ (hdm _ hmem)
    exact h₁ (by rw [← ht₁]; exact brace_mem v r)
  cases h with
  | first h =>
      obtain ⟨rfl, -⟩ := brace_unique hbx h₀ (hdm _ h)
      exact Or.inl hs.free
  | own w a₂ d₂ y₂ hyw hw ha₂ h =>
      rcases h with h | h
      · have hcut := hdm _ h
        rw [← List.cons_append, ← List.append_assoc] at hcut
        have hbw : '{' ∉ w := fun hm => hby (by rw [hyw]; exact List.mem_append_left _ hm)
        obtain ⟨rfl, rfl⟩ := brace_unique (by simp [hbx, Ne.symm hba, hbw]) h₀ hcut
        obtain ⟨w', rfl⟩ := cons_of_head (by rw [← hyw]; exact hy) ha₂
        have hcancel : d ++ y = '.' :: (w' ++ (N.digits ++ y₂)) := by simpa using hn
        refine Or.inr (Or.inl ⟨⟨x', a, w', ?_, hfx', hs.head, (free_cons.mp hw).2⟩, run_nil_of_dot hs.run hcancel⟩)
        rw [hx']
        simp
      · exact (htwo h).elim
  | third w a₂ x₃ b y₃ hyw hw ha₂ hx₃ hname h =>
      rcases h with h | h
      · have hcut := hdm _ h
        rw [← List.cons_append, ← List.append_assoc] at hcut
        obtain ⟨w', rfl⟩ := cons_of_head (by rw [← hyw]; exact hy) ha₂
        have hbz : '{' ∉ dotted ('.' :: w' ++ a₂ :: x₃) := by
          rw [hyw] at hby
          simp only [List.mem_append, List.mem_cons, not_or] at hby
          exact brace_not_mem_dotted (by simp [hby])
        have hbc : '{' ∉ x ++ a :: dotted ('.' :: w' ++ a₂ :: x₃) := by
          simp only [List.mem_append, List.mem_cons, not_or]
          exact ⟨hbx, Ne.symm hba, hbz⟩
        obtain ⟨rfl, rfl⟩ := brace_unique hbc h₀ hcut
        have hz : dotted ('.' :: w' ++ a₂ :: x₃) = '.' :: dotted (w' ++ a₂ :: x₃) := dotted_cons '.' (by simp)
        have hcancel : d ++ y = dotted ('.' :: w' ++ a₂ :: x₃) ++ (N.digits ++ y₃) := by simpa using hn
        have hd : d = [] := run_nil_of_dot hs.run (by rw [hcancel, hz]; rfl)
        rw [hd, List.nil_append, hyw] at hcancel
        have hcancel' : ('.' :: w' ++ a₂ :: x₃) ++ b :: y₃ = dotted ('.' :: w' ++ a₂ :: x₃) ++ (N.digits ++ y₃) := by
          rw [← hcancel]
          simp
        obtain ⟨hq, hN⟩ := dotted_eq (by simp) hcancel'
        refine Or.inr (Or.inr ⟨⟨x', a, '.' :: w' ++ a₂ :: x₃, ?_, hfx', hs.head, rfl, ?_⟩, by rw [hN]; rfl⟩)
        · rw [hq, hx']
          simp
        · exact ⟨'.' :: w', a₂, x₃, rfl, hw, ha₂, hx₃, hname⟩
      · exact (htwo h).elim

/-- Two placeholders: the first is such a run. -/
theorem own_two (h₀ : '{' ∉ t₀) (h₁ : '{' ∉ t₁) (h₂ : '{' ∉ t₂) (hhead : t₁.head? = some '.')
    (hs : Split Char.isDigit (t₀ ++ (N₁.digits ++ (t₁ ++ (N₂.digits ++ t₂)))) x a d y)
    (hdm : ∀ c ∈ names dm, c = t₀ ++ (instanceText ++ (t₁ ++ (instanceText ++ t₂)))) (h : Next dm x a y) :
    Free Char.isDigit t₀ ∧ N₁.digits = a :: d ∧
      (Free Char.isDigit t₁ ∨ OneInName t₁ ∧ N₂.digits.length = 1) := by
  have hbn : '{' ∉ t₀ ++ (N₁.digits ++ (t₁ ++ (N₂.digits ++ t₂))) := by simp [h₀, h₁, h₂, brace_not_mem_digits]
  obtain ⟨hbx, hba, -, hby⟩ := brace_not_mem_split hs hbn
  have hne : t₁ ≠ [] := by
    rintro rfl
    cases hhead
  have hn := hs.eq.symm
  -- one placeholder is not enough
  have hone : ∀ {v r : Text}, '{' ∉ v → '{' ∉ r → v ++ (instanceText ++ r) ∈ names dm → False := by
    intro v r hv hr hmem
    obtain ⟨-, ht⟩ := brace_unique hv h₀ (hdm _ hmem)
    exact hr (by rw [ht]; exact brace_mem t₁ t₂)
  -- the first run is the first number
  have hruns : x = t₀ → N₁.digits = a :: d ∧ y = t₁ ++ (N₂.digits ++ t₂) := by
    rintro rfl
    have hcancel : (a :: d) ++ y = N₁.digits ++ (t₁ ++ (N₂.digits ++ t₂)) := List.append_cancel_left hn
    have hrun : ∀ c ∈ a :: d, c.isDigit = true := List.forall_mem_cons.mpr ⟨hs.head, hs.run⟩
    have hrest : (t₁ ++ (N₂.digits ++ t₂)).head? = some '.' := by rw [List.head?_append_of_ne_nil _ hne, hhead]
    obtain ⟨hN, hyt⟩ := run_unique hrun N₁.ok hs.rest (head_not_digit hrest) hcancel
    exact ⟨hN.symm, hyt⟩
  cases h with
  | first h => exact (hone hbx hby h).elim
  | own w a₂ d₂ y₂ hyw hw ha₂ h =>
      have hbw : '{' ∉ w := fun hm => hby (by rw [hyw]; exact List.mem_append_left _ hm)
      have hby₂ : '{' ∉ y₂ := fun hm => hby (by rw [hyw]; simp [hm])
      rcases h with h | h
      · rw [← List.cons_append, ← List.append_assoc] at h
        exact (hone (by simp [hbx, Ne.symm hba, hbw]) hby₂ h).elim
      · obtain ⟨hxt, hrest⟩ := brace_unique hbx h₀ (hdm _ h)
        obtain ⟨hwt, -⟩ := brace_unique hbw h₁ hrest
        exact ⟨hxt ▸ hs.free, (hruns hxt).1, Or.inl (hwt ▸ hw)⟩
  | third w a₂ x₃ b y₃ hyw hw ha₂ hx₃ hname h =>
      have hby₃ : '{' ∉ y₃ := fun hm => hby (by rw [hyw]; simp [hm])
      have hbz : '{' ∉ dotted (w ++ a₂ :: x₃) := by
        rw [hyw] at hby
        simp only [List.mem_append, List.mem_cons, not_or] at hby
        exact brace_not_mem_dotted (by simp [hby])
      rcases h with h | h
      · rw [← List.cons_append, ← List.append_assoc] at h
        exact (hone (by simp [hbx, Ne.symm hba, hbz]) hby₃ h).elim
      · obtain ⟨hxt, hrest⟩ := brace_unique hbx h₀ (hdm _ h)
        obtain ⟨hzt, hyt⟩ := brace_unique hbz h₁ hrest
        obtain ⟨hN, hyn⟩ := hruns hxt
        have hcancel : (w ++ a₂ :: x₃) ++ b :: y₃ = dotted (w ++ a₂ :: x₃) ++ (N₂.digits ++ y₃) := by
          rw [hyt, hzt, ← hyn, hyw, hyt]
          simp
        obtain ⟨hq, hN₂⟩ := dotted_eq (by simp) hcancel
        refine ⟨hxt ▸ hs.free, hN, Or.inr ⟨⟨w, a₂, x₃, ?_, hw, ha₂, hx₃, hname⟩, by rw [hN₂]; rfl⟩⟩
        rw [← hzt, hq]

end

/-! ## Counting placeholders -/

section
variable {stray : Stray} {dm : DataModel} {n x d y new q : Text} {a : Char}

theorem count_plain {t : Text} (h : '{' ∉ t) : t.count '{' = 0 := List.count_eq_zero.mpr h

theorem count_instanceText : instanceText.count '{' = 1 := by decide

theorem count_dotted_le (t : Text) : (dotted t).count '{' ≤ t.count '{' := by
  rw [dotted, List.count_append, count_plain (by decide : '{' ∉ ['.'])]
  exact (List.dropLast_sublist t).count_le '{'

theorem count_tries (hx : '{' ∉ x) (ha : a ≠ '{') (h : Tries dm x a q) : ∃ c ∈ names dm, c.count '{' ≤ q.count '{' := by
  obtain ⟨-, -, h | ⟨-, h⟩⟩ := h
  · refine ⟨_, h, ?_⟩
    rw [List.count_append, count_plain hx, List.count_cons_of_ne ha, Nat.zero_add]
    exact (List.drop_sublist 3 q).count_le '{'
  · refine ⟨_, h, ?_⟩
    rw [List.count_append, count_plain hx, Nat.zero_add]

/-- The names tried replace one number, or two when the first run is a segment of its own. -/
theorem count_split {sp : Text} (hx : '{' ∉ x) (ha : a ≠ '{') (hnew : new.take x.length = x)
    (hfirst : n.take (x.length + 1) = x ++ [a]) (hsp : sp.length < maxParameterLength)
    (h : Found (trySplit stray dm n (x.length + 1) new sp)) :
    ∃ c ∈ names dm, c.count '{' ≤ sp.count '{' + 1 := by
  have hlast : (x ++ sp).length < maxParameterLength ∧ x ++ sp ∈ names dm →
      ∃ c ∈ names dm, c.count '{' ≤ sp.count '{' + 1 := by
    rintro ⟨-, hmem⟩
    refine ⟨_, hmem, ?_⟩
    rw [List.count_append, count_plain hx]
    omega
  rcases hr : rewriteSplit stray.splitParam sp with _ | ⟨q, dot⟩
  · rw [found_split_same hr hnew hfirst hsp] at h
    exact hlast h
  rw [found_split_rewritten hr hfirst hsp] at h
  obtain ⟨c, hc, hle⟩ := count_tries hx ha h
  refine ⟨c, hc, le_trans hle ?_⟩
  obtain ⟨x₂, a₂, d₂, y₂, hs₂, hcases⟩ := rewriteSplit_cases hr
  have hcount : sp.count '{' = x₂.count '{' + (a₂ :: (d₂ ++ y₂)).count '{' := by rw [hs₂.eq, List.count_append]
  rw [List.count_cons] at hcount
  obtain ⟨-, rfl, -⟩ | ⟨-, x₃, b, y₃, h₃, -, -, rfl, -⟩ := hcases
  · rw [List.count_append, List.count_append, count_instanceText]
    rw [List.count_append] at hcount
    omega
  have hz := count_dotted_le (x₂ ++ a₂ :: x₃)
  rw [List.count_append, List.count_append, count_instanceText]
  rw [h₃, List.count_append, List.count_cons] at hcount
  rw [List.count_append, List.count_cons] at hz
  omega

/-- **Three placeholders are never found.** -/
theorem count_found (hn : n.length < maxParameterLength) (hb : '{' ∉ n)
    (h : Found (getParamInfoFromDataModel stray dm n)) : ∃ c ∈ names dm, c.count '{' ≤ 2 := by
  by_cases hfree : Free Char.isDigit n
  · rw [found_free hn hfree] at h
    exact ⟨n, h, by rw [count_plain hb]; omega⟩
  obtain ⟨x, a, d, y, hs⟩ := exists_split hfree
  obtain ⟨hbx, hba, hbd, hby⟩ := brace_not_mem_split hs hb
  have hlen := hs.length
  by_cases ho : Own stray.paramName x y
  · rw [found_own hn hs ho] at h
    rcases h with h | ⟨hfit, h | h⟩
    · exact ⟨n, h, by rw [count_plain hb]; omega⟩
    · refine ⟨_, h, ?_⟩
      rw [List.count_append, List.count_append, count_plain hbx, count_plain hby, count_instanceText]
      omega
    · have hsp : (instanceText ++ y).length < maxParameterLength := by
        rw [List.length_append] at hfit
        omega
      obtain ⟨c, hc, hle⟩ := count_split hbx hba (by rw [List.take_left]) hs.take_succ hsp h
      refine ⟨c, hc, ?_⟩
      rw [List.count_append, count_plain hby, count_instanceText] at hle
      omega
  · rw [found_other hn hs ho] at h
    rcases h with h | h
    · exact ⟨n, h, by rw [count_plain hb]; omega⟩
    · have hsp : (d ++ y).length < maxParameterLength := by
        rw [List.length_append]
        omega
      obtain ⟨c, hc, hle⟩ := count_split hbx hba (by rw [List.take_left]) hs.take_succ hsp h
      refine ⟨c, hc, ?_⟩
      rw [List.count_append, count_plain hbd, count_plain hby] at hle
      omega

end

end Tr69HostIf.Waldb
