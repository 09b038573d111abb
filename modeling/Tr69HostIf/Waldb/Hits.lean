import Tr69HostIf.Waldb.Pieces

/-!
# Names the lookup finds

The lookup sees the first digit runs of the flat name. `found_one_free`, `found_one_own`, `found_one_third` :
the names with one placeholder that it finds, by the digits in front of the placeholder; `found_two_free`,
`found_two_third` : those with two.
-/

namespace Tr69HostIf.Waldb
open Store

section
variable {stray : Stray} {dm : DataModel} {n new x w u t N : Text} {a : Char}

theorem free_instanceText : Free Char.isDigit instanceText := by decide

theorem dot_not_digit : ('.' : Char).isDigit = false := by decide

theorem head_not_digit (ht : t.head? = some '.') : ∀ c ∈ t.head?, c.isDigit = false := by
  intro c hc
  rw [ht, Option.mem_some] at hc
  rw [← hc]
  exact dot_not_digit

/-- A number behind text without digits is the first run. -/
theorem split_number (hx : Free Char.isDigit x) (hne : N ≠ []) (hN : ∀ c ∈ N, c.isDigit = true)
    (ht : t.head? = some '.') :
    ∃ b N', N = b :: N' ∧ Split Char.isDigit (x ++ (N ++ t)) x b N' t := by
  cases N with
  | nil => exact absurd rfl hne
  | cons b N' =>
      refine ⟨b, N', rfl, rfl, hx, hN b List.mem_cons_self, fun c hc => hN c (List.mem_cons_of_mem b hc), ?_⟩
      exact head_not_digit ht

theorem getLast?_append_dot {v : Text} (hw : w.getLast? = some '.') : (v ++ w).getLast? = some '.' := by
  rw [List.getLast?_append, hw]
  rfl

/-- A number right behind text without digits: `{i}` takes its place. -/
theorem found_split_number (hfirst : n.take (x.length + 1) = x ++ [a])
    (hlen : (instanceText ++ (w ++ (N ++ t))).length < maxParameterLength) (hw : Free Char.isDigit w)
    (hdot : w.getLast? = some '.') (hne : N ≠ []) (hN : ∀ c ∈ N, c.isDigit = true) (ht : t.head? = some '.') :
    Found (trySplit stray dm n (x.length + 1) new (instanceText ++ (w ++ (N ++ t)))) ↔
      Tries dm x a (instanceText ++ (w ++ (instanceText ++ t))) := by
  obtain ⟨b, N', -, hs⟩ := split_number (free_append.mpr ⟨free_instanceText, hw⟩) hne hN ht
  rw [← List.append_assoc] at hlen ⊢
  have ho : Own stray.splitParam (instanceText ++ w) t := ⟨ht, by rw [getLast?_append_dot hdot]; rfl⟩
  rw [found_split_rewritten (rewriteSplit_own hs ho) hfirst hlen, List.append_assoc]

/-- A number behind one digit that is part of a name. -/
theorem found_split_oneInName (hfirst : n.take (x.length + 1) = x ++ [a]) {b : Char}
    (hlen : (instanceText ++ (u ++ b :: t)).length < maxParameterLength) (hu : OneInName u)
    (hhead : u.head? = some '.') (hdot : u.getLast? = some '.') (hb : b.isDigit = true) :
    Found (trySplit stray dm n (x.length + 1) new (instanceText ++ (u ++ b :: t))) ↔
      Tries dm x a (instanceText ++ (u ++ (instanceText ++ t))) := by
  obtain ⟨y, e, z, rfl, hy, he, hz, hown⟩ := hu
  have hyne : y ≠ [] := by
    rintro rfl
    rw [List.nil_append, List.head?_cons, Option.some.injEq] at hhead
    rw [hhead, dot_not_digit] at he
    cases he
  -- the digit is not the end of the text
  obtain ⟨z', rfl⟩ : ∃ z', z = z' ++ ['.'] := by
    rcases List.eq_nil_or_concat z with rfl | ⟨z', c, rfl⟩
    · rw [List.getLast?_concat, Option.some.injEq] at hdot
      rw [hdot, dot_not_digit] at he
      cases he
    · have hc : c = '.' := by
        rw [List.concat_eq_append, ← List.cons_append, ← List.append_assoc, List.getLast?_concat,
          Option.some.injEq] at hdot
        exact hdot
      exact ⟨z', by rw [hc, List.concat_eq_append]⟩
  have hs : Split Char.isDigit (instanceText ++ (y ++ e :: (z' ++ ['.']) ++ b :: t)) (instanceText ++ y) e []
      (z' ++ ['.'] ++ b :: t) := by
    refine ⟨by simp, free_append.mpr ⟨free_instanceText, hy⟩, he, fun c hc => (by cases hc), fun c hc => ?_⟩
    refine hz c ?_
    cases z' with
    | nil => simpa using hc.symm
    | cons c' z' =>
        have : c' = c := by simpa using hc
        rw [this]
        exact List.mem_append_left _ List.mem_cons_self
  have ho : ¬Own stray.splitParam (instanceText ++ y) (z' ++ ['.'] ++ b :: t) := by
    rintro ⟨h₁, h₂⟩
    refine hown ⟨?_, ?_⟩
    · rw [List.getLast?_append, List.getLast?_eq_some_getLast hyne, Option.some_or, Option.getD_some] at h₂
      rw [List.getLast?_eq_some_getLast hyne, h₂]
    · cases z' with
      | nil => rfl
      | cons c' z' => simpa using h₁
  have h₃ : [] ++ (z' ++ ['.'] ++ b :: t) = (z' ++ ['.']) ++ b :: t := rfl
  rw [found_split_rewritten (rewriteSplit_third hs ho h₃ hz hb) hfirst hlen]
  have hq : dotted (instanceText ++ y ++ e :: (z' ++ ['.'])) = instanceText ++ (y ++ e :: (z' ++ ['.'])) := by
    have : instanceText ++ y ++ e :: (z' ++ ['.']) = (instanceText ++ y ++ e :: z') ++ ['.'] := by simp
    rw [this, dotted, List.dropLast_concat]
    simp
  rw [hq, List.append_assoc]

/-- The lookup behind a first run that is a segment of its own, for a name whose `{i}` form fits. -/
theorem found_own_of {d y : Text} (hn : n.length < maxParameterLength) (h : Split Char.isDigit n x a d y)
    (hdot : x.getLast? = some '.') (hy : y.head? = some '.')
    (hfit : (x ++ (instanceText ++ y)).length < maxParameterLength)
    (hf : x ++ (instanceText ++ y) ∈ names dm ∨
      Found (trySplit stray dm n (x.length + 1) (x ++ (instanceText ++ y)) (instanceText ++ y))) :
    Found (getParamInfoFromDataModel stray dm n) := by
  have ho : Own stray.paramName x y := ⟨hy, by rw [hdot]; rfl⟩
  rw [found_own hn h ho]
  exact Or.inr ⟨hfit, hf⟩

end

section
variable {stray : Stray} {dm : DataModel} {t₀ t₁ t₂ : Text} {N N₁ N₂ : Number}

/-- One placeholder, no digit before it. -/
theorem found_one_free (hn : (t₀ ++ (N.digits ++ t₁)).length < maxParameterLength) (hfree : Free Char.isDigit t₀)
    (hdot : t₀.getLast? = some '.') (h₁ : t₁.head? = some '.')
    (hfit : (t₀ ++ (instanceText ++ t₁)).length < maxParameterLength)
    (hP : t₀ ++ (instanceText ++ t₁) ∈ names dm) :
    Found (getParamInfoFromDataModel stray dm (t₀ ++ (N.digits ++ t₁))) := by
  obtain ⟨b, N', -, hs⟩ := split_number hfree N.ne_nil N.ok h₁
  exact found_own_of hn hs hdot h₁ hfit (Or.inl hP)

/-- What stands before a digit that is the first run and a segment of its own. -/
theorem split_own {x : Text} {e : Char} {y : Text} (hx : Free Char.isDigit x) (he : e.isDigit = true)
    (hy : y.head? = some '.') : Split Char.isDigit (x ++ '.' :: e :: y) (x ++ ['.']) e [] y := by
  refine ⟨by simp, free_append.mpr ⟨hx, ?_⟩, he, fun c hc => (by cases hc), head_not_digit hy⟩
  exact free_cons.mpr ⟨dot_not_digit, free_nil⟩

theorem length_pos_of_head {x r : Text} (h : (x ++ '.' :: r).head? ≠ some '.') : 0 < x.length := by
  cases x with
  | nil => exact absurd rfl h
  | cons c x => exact Nat.succ_pos _

/-- One placeholder, behind one digit that is a segment of its own. -/
theorem found_one_own (hn : (t₀ ++ (N.digits ++ t₁)).length + 2 < maxParameterLength) (ho : OneOwn t₀)
    (hhead : t₀.head? ≠ some '.') (hdot : t₀.getLast? = some '.') (h₁ : t₁.head? = some '.')
    (hfit : (t₀ ++ (instanceText ++ t₁)).length < maxParameterLength)
    (hP : t₀ ++ (instanceText ++ t₁) ∈ names dm) :
    Found (getParamInfoFromDataModel stray dm (t₀ ++ (N.digits ++ t₁))) := by
  obtain ⟨x, e, y, rfl, hx, he, hy⟩ := ho
  have hpos := length_pos_of_head hhead
  have hw : ('.' :: y).getLast? = some '.' := by
    rw [List.getLast?_append_cons, List.getLast?_cons_cons] at hdot
    rw [List.getLast?_cons_cons] at hdot
    exact hdot
  have hwf : Free Char.isDigit ('.' :: y) := free_cons.mpr ⟨dot_not_digit, hy⟩
  have heq : x ++ '.' :: e :: '.' :: y ++ (N.digits ++ t₁) = x ++ '.' :: e :: ('.' :: y ++ (N.digits ++ t₁)) := by simp
  rw [heq] at hn ⊢
  have hs := split_own hx he (y := '.' :: y ++ (N.digits ++ t₁)) rfl
  simp only [List.length_append, List.length_cons] at hn hfit
  refine found_own_of ?_ hs (by simp) rfl ?_ (Or.inr ?_)
  · simp only [List.length_append, List.length_cons]
    omega
  · simp only [List.length_append, List.length_cons, List.length_nil, instanceText]
    omega
  · rw [found_split_number hs.take_succ _ hwf hw N.ne_nil N.ok h₁]
    · have hc : x ++ ['.'] ++ e :: (instanceText ++ ('.' :: y ++ (instanceText ++ t₁))).drop 3 =
          x ++ '.' :: e :: '.' :: y ++ (instanceText ++ t₁) := by simp [instanceText]
      refine ⟨?_, ?_, Or.inl (by rw [hc]; exact hP)⟩
      · simp only [List.length_append, List.length_cons, List.length_nil, instanceText] at hfit ⊢
        omega
      · rw [hc]
        simp only [List.length_append, List.length_cons]
        omega
    · simp only [List.length_append, List.length_cons, List.length_nil, instanceText]
      omega

/-- One placeholder, behind one digit that is a segment of its own and one that is part of a name. -/
theorem found_one_third (hn : (t₀ ++ (N.digits ++ t₁)).length < maxParameterLength) (ho : OwnThenOne t₀)
    (hN : N.digits.length = 1) (hhead : t₀.head? ≠ some '.') (hdot : t₀.getLast? = some '.')
    (hfit : (t₀ ++ (instanceText ++ t₁)).length < maxParameterLength)
    (hP : t₀ ++ (instanceText ++ t₁) ∈ names dm) :
    Found (getParamInfoFromDataModel stray dm (t₀ ++ (N.digits ++ t₁))) := by
  obtain ⟨x, e, u, rfl, hx, he, hu, hone⟩ := ho
  have hpos := length_pos_of_head hhead
  obtain ⟨b, hb⟩ := List.length_eq_one_iff.mp hN
  have hbd : b.isDigit = true := N.ok b (by rw [hb]; exact List.mem_singleton_self b)
  have hune : u ≠ [] := by
    rintro rfl
    cases hu
  have hlast : u.getLast? = some '.' := by
    rwa [List.getLast?_append_cons, List.getLast?_cons_cons, List.getLast?_cons_of_ne_nil hune] at hdot
  have heq : x ++ '.' :: e :: u ++ (N.digits ++ t₁) = x ++ '.' :: e :: (u ++ b :: t₁) := by simp [hb]
  rw [heq] at hn ⊢
  have hy : (u ++ b :: t₁).head? = some '.' := by rw [List.head?_append_of_ne_nil _ hune, hu]
  have hs := split_own hx he hy
  simp only [List.length_append, List.length_cons, List.length_nil, instanceText] at hn hfit
  refine found_own_of ?_ hs (by simp) hy ?_ (Or.inr ?_)
  · simp only [List.length_append, List.length_cons]
    omega
  · simp only [List.length_append, List.length_cons, List.length_nil, instanceText]
    omega
  · rw [found_split_oneInName hs.take_succ _ hone hu hlast hbd]
    · have hc : x ++ ['.'] ++ e :: (instanceText ++ (u ++ (instanceText ++ t₁))).drop 3 =
          x ++ '.' :: e :: u ++ (instanceText ++ t₁) := by simp [instanceText]
      refine ⟨?_, ?_, Or.inl (by rw [hc]; exact hP)⟩
      · simp only [List.length_append, List.length_cons, List.length_nil, instanceText]
        omega
      · rw [hc]
        simp only [List.length_append, List.length_cons, List.length_nil, instanceText]
        omega
    · simp only [List.length_append, List.length_cons, List.length_nil, instanceText]
      omega

/-- Two placeholders, no digit before the second but the first number. -/
theorem found_two_free (hn : (t₀ ++ (N₁.digits ++ (t₁ ++ (N₂.digits ++ t₂)))).length < maxParameterLength)
    (hfree : Free Char.isDigit t₀) (hdot : t₀.getLast? = some '.') (hfree₁ : Free Char.isDigit t₁)
    (hhead₁ : t₁.head? = some '.') (hdot₁ : t₁.getLast? = some '.') (h₂ : t₂.head? = some '.')
    (hfit₁ : (t₀ ++ (instanceText ++ (t₁ ++ (N₂.digits ++ t₂)))).length < maxParameterLength)
    (hfit : (t₀ ++ (instanceText ++ (t₁ ++ (instanceText ++ t₂)))).length < maxParameterLength)
    (hP : t₀ ++ (instanceText ++ (t₁ ++ (instanceText ++ t₂))) ∈ names dm) :
    Found (getParamInfoFromDataModel stray dm (t₀ ++ (N₁.digits ++ (t₁ ++ (N₂.digits ++ t₂))))) := by
  have hne : t₁ ≠ [] := by
    rintro rfl
    cases hhead₁
  have hy : (t₁ ++ (N₂.digits ++ t₂)).head? = some '.' := by rw [List.head?_append_of_ne_nil _ hne, hhead₁]
  obtain ⟨b, N', -, hs⟩ := split_number hfree N₁.ne_nil N₁.ok hy
  refine found_own_of hn hs hdot hy hfit₁ (Or.inr ?_)
  rw [found_split_number hs.take_succ _ hfree₁ hdot₁ N₂.ne_nil N₂.ok h₂]
  · refine ⟨?_, ?_, Or.inr ⟨hfit, hP⟩⟩
    · rw [List.length_append] at hfit
      omega
    · simp only [List.length_append, List.length_cons, List.length_drop] at hfit ⊢
      simp only [instanceText, List.length_cons, List.length_nil] at hfit ⊢
      omega
  · rw [List.length_append] at hfit₁
    omega

/-- Two placeholders with one digit between them, part of a name. -/
theorem found_two_third (hn : (t₀ ++ (N₁.digits ++ (t₁ ++ (N₂.digits ++ t₂)))).length < maxParameterLength)
    (hfree : Free Char.isDigit t₀) (hdot : t₀.getLast? = some '.') (hone : OneInName t₁)
    (hN₂ : N₂.digits.length = 1) (hhead₁ : t₁.head? = some '.') (hdot₁ : t₁.getLast? = some '.')
    (hfit : (t₀ ++ (instanceText ++ (t₁ ++ (instanceText ++ t₂)))).length < maxParameterLength)
    (hP : t₀ ++ (instanceText ++ (t₁ ++ (instanceText ++ t₂))) ∈ names dm) :
    Found (getParamInfoFromDataModel stray dm (t₀ ++ (N₁.digits ++ (t₁ ++ (N₂.digits ++ t₂))))) := by
  have hne : t₁ ≠ [] := by
    rintro rfl
    cases hhead₁
  obtain ⟨b, hb⟩ := List.length_eq_one_iff.mp hN₂
  have hbd : b.isDigit = true := N₂.ok b (by rw [hb]; exact List.mem_singleton_self b)
  rw [hb, List.singleton_append] at hn ⊢
  have hy : (t₁ ++ b :: t₂).head? = some '.' := by rw [List.head?_append_of_ne_nil _ hne, hhead₁]
  obtain ⟨b₁, N', -, hs⟩ := split_number hfree N₁.ne_nil N₁.ok hy
  simp only [List.length_append, List.length_cons, List.length_nil, instanceText] at hn hfit
  refine found_own_of ?_ hs hdot hy ?_ (Or.inr ?_)
  · simp only [List.length_append, List.length_cons]
    omega
  · simp only [List.length_append, List.length_cons, List.length_nil, instanceText]
    omega
  · rw [found_split_oneInName hs.take_succ _ hone hhead₁ hdot₁ hbd]
    · refine ⟨?_, ?_, Or.inr ⟨?_, hP⟩⟩
      all_goals simp only [List.length_append, List.length_cons, List.length_nil, List.length_drop, instanceText]
      all_goals omega
    · simp only [List.length_append, List.length_cons, List.length_nil, instanceText]
      omega

end

end Tr69HostIf.Waldb
