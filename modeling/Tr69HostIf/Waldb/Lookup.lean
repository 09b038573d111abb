import Tr69HostIf.Waldb.DataModel

/-!
# What the lookup tries

* `Found r` : the lookup returns a match; `found_tryName`, `found_strncat` read one check and one `strncat`;
* `rewriteSplit` : what becomes of `splitParam`, and whether the byte that is overwritten with a dot was one;
  `rewriteSplit_cases` : by its digit runs (`Split`);
* `trySplit_same`, `trySplit_rewritten`, `lookup_own`, `lookup_other` : the branches of `getParamInfoFromDataModel`;
* `found_own`, `found_other`, `found_split_same`, `found_split_rewritten` : which names they compare with the data
  model, and which of them have to fit their buffer.
-/

namespace Tr69HostIf.Waldb
open Store

/-- The names of a data model. -/
def names (dm : DataModel) : List Text := dm.flatMap fun o => o.params.map fun p => pathText o.path ++ p.base.chars

theorem mem_names {dm : DataModel} {t : Text} :
    t ∈ names dm ↔ ∃ o ∈ dm, ∃ p ∈ o.params, pathText o.path ++ p.base.chars = t := by
  simp [names]

/-- The parameters of a data model, each with its name. -/
def named (dm : DataModel) : List (Text × DmParameter) :=
  dm.flatMap fun o => o.params.map fun p => (pathText o.path ++ p.base.chars, p)

/-- The first parameter of a name. -/
def firstNamed (dm : DataModel) (t : Text) : Option DmParameter := ((named dm).find? fun e => e.1 = t).map Prod.snd

theorem firstNamed_cons (o : DmObject) (dm : DataModel) (t : Text) :
    firstNamed (o :: dm) t = (o.params.find? fun p => pathText o.path ++ p.base.chars = t).or (firstNamed dm t) := by
  rw [firstNamed, named, List.flatMap_cons, List.find?_append, List.find?_map, Option.map_or, Option.map_map]
  congr 1
  exact Option.map_id'

theorem firstNamed_isSome {dm : DataModel} {t : Text} : (firstNamed dm t).isSome = true ↔ t ∈ names dm := by
  have hnames : names dm = (named dm).map Prod.fst := by simp [names, named, List.map_flatMap, Function.comp_def]
  rw [firstNamed, Option.isSome_map, List.find?_isSome, hnames, List.mem_map]
  simp only [decide_eq_true_eq]

theorem Param.In.mem_names {P : Param} {dm : DataModel} (h : P.In dm) : P.text ∈ names dm := by
  obtain ⟨o, ho, hpath, p, hp, hbase⟩ := h
  rw [Waldb.mem_names]
  refine ⟨o, ho, p, hp, ?_⟩
  rw [hpath, hbase]
  rfl

/-- The lookup returns a match. -/
def Found (r : Except Fault (Option DataModelParam)) : Prop := ∃ info, r = .ok (some info)

theorem found_some (info : DataModelParam) : Found (.ok (some info)) := ⟨info, rfl⟩

theorem not_found_none : ¬Found (.ok none) := fun ⟨_, h⟩ => by cases h

theorem not_found_error (e : Fault) : ¬Found (.error e) := fun ⟨_, h⟩ => by cases h

/-! ## One name -/

section
variable {dm : DataModel} {t : Text}

theorem dot_not_mem (n : Name) : '.' ∉ n.chars := by
  intro h
  have := n.ok '.' h
  revert this
  decide

theorem name_ne_instanceText (m : Name) : m.chars ≠ instanceText := fun h => by
  have := m.ok '{' (by rw [h]; decide)
  revert this
  decide

theorem pathText_concat {path : List Segment} (h : path ≠ []) : ∃ u, pathText path = u ++ ['.'] := by
  obtain ⟨init, s, rfl⟩ := (List.eq_nil_or_concat path).resolve_left h
  refine ⟨pathText init ++ s.text, ?_⟩
  simp [pathText]

theorem rdropWhile_dot (u : Text) {l : Text} (hl : '.' ∉ l) :
    (u ++ ['.'] ++ l).rdropWhile (fun c => decide (c ≠ '.')) = u ++ ['.'] := by
  unfold List.rdropWhile
  have hrev : ∀ c ∈ l.reverse, decide (c ≠ '.') = true := by
    intro c hc
    rw [decide_eq_true_iff]
    rintro rfl
    exact hl (List.mem_reverse.mp hc)
  rw [List.reverse_append, List.dropWhile_append_of_pos hrev]
  simp

theorem strncat_eq {dst src : Text} (h : src.length < maxParameterLength) :
    strncat dst src = if (dst ++ src).length < maxParameterLength then .ok (dst ++ src) else .error .overflow := by
  unfold strncat
  rw [List.take_of_length_le (by omega)]

theorem strncat_fits {dst src : Text} (h : (dst ++ src).length < maxParameterLength) :
    strncat dst src = .ok (dst ++ src) := by
  have hsrc : src.length < maxParameterLength := by
    rw [List.length_append] at h
    omega
  rw [strncat_eq hsrc, if_pos h]

theorem strncat_strncat {dst src src' : Text} (h : src.length < maxParameterLength) (h' : src'.length < maxParameterLength)
    (f : Text → Except Fault (Option DataModelParam)) :
    ((strncat dst src).bind fun t => (strncat t src').bind f) =
      if (dst ++ (src ++ src')).length < maxParameterLength then f (dst ++ (src ++ src')) else .error .overflow := by
  rw [strncat_eq h]
  by_cases hfit : (dst ++ src).length < maxParameterLength
  · rw [if_pos hfit]
    change (strncat (dst ++ src) src').bind f = _
    rw [strncat_eq h', List.append_assoc]
    split <;> rfl
  · have hlong : ¬(dst ++ (src ++ src')).length < maxParameterLength := by
      rw [← List.append_assoc, List.length_append]
      omega
    rw [if_neg hfit, if_neg hlong]
    rfl

/-- The first parameter that matches. -/
theorem checkforParameterNameMatch_first {objectName : Text} {params : List DmParameter}
    (hfits : ∀ p ∈ params, (objectName ++ p.base.chars).length < maxParameterLength) :
    checkforParameterNameMatch objectName t params =
      .ok ((params.find? fun p => objectName ++ p.base.chars = t).map (paramInfo t)) := by
  induction params with
  | nil => rfl
  | cons p params ih =>
      have hp := hfits p List.mem_cons_self
      have htake : objectName.take (maxParameterLength - 1) = objectName := by
        rw [List.length_append] at hp
        exact List.take_of_length_le (by omega)
      have hstep : checkforParameterNameMatch objectName t (p :: params) =
          if objectName ++ p.base.chars = t then .ok (some (paramInfo t p))
          else checkforParameterNameMatch objectName t params := by
        rw [checkforParameterNameMatch, htake, strncat_fits hp]
        rfl
      rw [hstep, List.find?_cons]
      by_cases hname : objectName ++ p.base.chars = t
      · rw [if_pos hname, decide_eq_true hname]
        rfl
      · rw [if_neg hname, decide_eq_false hname]
        exact ih fun q hq => hfits q (List.mem_cons_of_mem p hq)

/-- The objects, for a name whose object part is `o`. -/
theorem checkObjects_first {o : Text}
    (ho : ∀ obj ∈ dm, ∀ p ∈ obj.params, pathText obj.path ++ p.base.chars = t → pathText obj.path = o) :
    checkObjects o t dm = .ok ((firstNamed dm t).map (paramInfo t)) := by
  induction dm with
  | nil => rfl
  | cons obj dm ih =>
      have ih := ih fun obj' h' => ho obj' (List.mem_cons_of_mem obj h')
      rw [checkObjects, firstNamed_cons]
      by_cases hpath : pathText obj.path = o
      · have hfirst := checkforParameterNameMatch_first (t := t) obj.fits
        rw [if_pos hpath, ← hpath, hfirst]
        cases obj.params.find? fun p => pathText obj.path ++ p.base.chars = t with
        | some p => rfl
        | none =>
            rw [← hpath] at ih
            exact ih
      · have hnone : (obj.params.find? fun p => pathText obj.path ++ p.base.chars = t) = none := by
          rw [List.find?_eq_none]
          intro p hp hname
          exact hpath (ho obj List.mem_cons_self p hp (of_decide_eq_true hname))
        rw [if_neg hpath, hnone]
        exact ih

/-- **The search for one name finds the first parameter of that name.** -/
theorem checkforParameterMatch_first (dm : DataModel) (h : t.length < maxParameterLength) :
    checkforParameterMatch dm t = .ok ((firstNamed dm t).map (paramInfo t)) := by
  unfold checkforParameterMatch paramObject
  by_cases hdot : '.' ∈ t
  · have hlen : (t.rdropWhile fun c => decide (c ≠ '.')).length < maxParameterLength :=
      lt_of_le_of_lt (List.rdropWhile_prefix _ t).length_le h
    simp only [if_pos hdot, if_pos hlen]
    refine checkObjects_first fun obj _ p _ hname => ?_
    obtain ⟨u, hu⟩ := pathText_concat obj.path_ne_nil
    rw [← hname, hu, rdropWhile_dot u (dot_not_mem p.base)]
  · simp only [if_neg hdot]
    refine checkObjects_first fun obj _ p _ hname => ?_
    obtain ⟨u, hu⟩ := pathText_concat obj.path_ne_nil
    rw [← hname, hu] at hdot
    simp at hdot

/-- **The search for one name finds the names of the data model, and no others.** -/
theorem checkforParameterMatch_spec (dm : DataModel) (h : t.length < maxParameterLength) :
    t ∈ names dm ∧ Found (checkforParameterMatch dm t) ∨ t ∉ names dm ∧ checkforParameterMatch dm t = .ok none := by
  rw [checkforParameterMatch_first dm h, ← firstNamed_isSome]
  cases firstNamed dm t with
  | some p => exact Or.inl ⟨rfl, found_some _⟩
  | none => exact Or.inr ⟨Bool.false_ne_true, rfl⟩

/-- A name of the data model is found before anything in it is replaced. -/
theorem lookup_first (stray : Stray) (h : t.length < maxParameterLength) (hmem : t ∈ names dm) :
    getParamInfoFromDataModel stray dm t = .ok ((firstNamed dm t).map (paramInfo t)) := by
  obtain ⟨p, hp⟩ := Option.isSome_iff_exists.mp (firstNamed_isSome.mpr hmem)
  have hcheck := checkforParameterMatch_first dm h
  rw [hp, Option.map_some] at hcheck
  rw [getParamInfoFromDataModel, hp]
  split
  · exact hcheck
  · rw [tryName, hcheck]
    rfl

theorem found_check (h : t.length < maxParameterLength) : Found (checkforParameterMatch dm t) ↔ t ∈ names dm := by
  rcases checkforParameterMatch_spec dm h with ⟨hmem, hf⟩ | ⟨hmem, hnone⟩
  · simp [hmem, hf]
  · rw [hnone]
    simp [hmem, not_found_none]

theorem found_tryName (h : t.length < maxParameterLength) (rest : Except Fault (Option DataModelParam)) :
    Found (tryName dm t rest) ↔ t ∈ names dm ∨ Found rest := by
  unfold tryName
  rcases checkforParameterMatch_spec dm h with ⟨hmem, info, hinfo⟩ | ⟨hmem, hnone⟩
  · rw [hinfo]
    simp only [hmem, true_or, iff_true]
    exact found_some info
  · rw [hnone]
    simp only [hmem, false_or]
    exact Iff.rfl

theorem found_ite {c : Prop} [Decidable c] {e : Fault} {r : Except Fault (Option DataModelParam)} :
    Found (if c then r else .error e) ↔ c ∧ Found r := by
  split
  · next h => simp only [h, true_and]
  · next h =>
    simp only [h, false_and, iff_false]
    exact not_found_error e

theorem found_strncat {dst src : Text} (h : src.length < maxParameterLength)
    (f : Text → Except Fault (Option DataModelParam)) :
    Found ((strncat dst src).bind f) ↔ (dst ++ src).length < maxParameterLength ∧ Found (f (dst ++ src)) := by
  rw [← found_ite, strncat_eq h]
  split <;> rfl

end

/-! ## The branches -/

/-- A run between `x` and `y` is a segment of its own. -/
def Own (stray : Char) (x y : Text) : Prop := y.head? = some '.' ∧ x.getLast?.getD stray = '.'

instance (stray : Char) (x y : Text) : Decidable (Own stray x y) := inferInstanceAs (Decidable (_ ∧ _))

theorem ownSegment_split {stray : Char} {l x d y : Text} {a : Char} (h : Split Char.isDigit l x a d y) :
    ownSegment stray l x.length (d.length + 1) ↔ Own stray x y := by
  unfold ownSegment Own
  rw [h.getElem?_run]
  refine and_congr_right fun _ => ?_
  cases hx : x with
  | nil => simp
  | cons c x' =>
      have hne : x ≠ [] := by rw [hx]; exact List.cons_ne_nil c x'
      rw [← hx, if_neg (by rw [List.length_eq_zero_iff]; exact hne), h.getElem?_before hne,
        List.getLast?_eq_some_getLast hne]
      simp

/-! ## The rewritten rest -/

/-- The last character replaced by a dot. -/
def dotted (t : Text) : Text := t.dropLast ++ ['.']

/-- What the lookup makes of `splitParam`: the second number, or the third digit with the byte before it, is
replaced; `true` if that byte was a dot already. -/
def rewriteSplit (stray : Char) (splitParam : Text) : Option (Text × Bool) :=
  match findDigit splitParam with
  | none => none
  | some found =>
      let numOfDigits := getNumberOfDigitsInInstanceNumber splitParam found
      if ownSegment stray splitParam found numOfDigits then
        some (splitParam.take found ++ (instanceText ++ splitParam.drop (found + numOfDigits)), true)
      else
        let str := splitParam.drop (found + 1)
        match findDigit str with
        | none => none
        | some found₂ =>
            some (splitParam.take (found₂ + found) ++ ('.' :: (instanceText ++ str.drop (found₂ + 1))),
              splitParam[found₂ + found]? = some '.')

section
variable {stray : Char} {sp x₂ d₂ y₂ x₃ y₃ : Text} {a₂ b : Char}

theorem rewriteSplit_free (h : Free Char.isDigit sp) : rewriteSplit stray sp = none := by
  unfold rewriteSplit findDigit
  rw [findIdx?_free h]

theorem rewriteSplit_own (h : Split Char.isDigit sp x₂ a₂ d₂ y₂) (ho : Own stray x₂ y₂) :
    rewriteSplit stray sp = some (x₂ ++ (instanceText ++ y₂), true) := by
  unfold rewriteSplit findDigit getNumberOfDigitsInInstanceNumber
  simp only [h.findIdx?, h.length_run, h.drop_run, h.take, if_pos ((ownSegment_split h).mpr ho)]

theorem rewriteSplit_last (h : Split Char.isDigit sp x₂ a₂ d₂ y₂) (ho : ¬Own stray x₂ y₂)
    (hfree : Free Char.isDigit (d₂ ++ y₂)) : rewriteSplit stray sp = none := by
  unfold rewriteSplit findDigit getNumberOfDigitsInInstanceNumber
  simp only [h.findIdx?, h.length_run, h.drop_succ, if_neg (fun hc => ho ((ownSegment_split h).mp hc)),
    findIdx?_free hfree]

/-- The byte before the third digit. -/
theorem take_third (h : sp = (x₂ ++ a₂ :: x₃) ++ b :: y₃) :
    sp.take (x₃.length + x₂.length) = (x₂ ++ a₂ :: x₃).dropLast ∧
      sp[x₃.length + x₂.length]? = (x₂ ++ a₂ :: x₃).getLast? := by
  have hlen : (x₂ ++ a₂ :: x₃).length - 1 = x₃.length + x₂.length := by
    rw [List.length_append, List.length_cons]
    omega
  have hlt : x₃.length + x₂.length < (x₂ ++ a₂ :: x₃).length := by
    rw [List.length_append, List.length_cons]
    omega
  rw [h, List.getLast?_eq_getElem?, List.dropLast_eq_take, hlen]
  exact ⟨List.take_append_of_le_length (by omega), List.getElem?_append_left hlt⟩

theorem rewriteSplit_third (h : Split Char.isDigit sp x₂ a₂ d₂ y₂) (ho : ¬Own stray x₂ y₂)
    (h₃ : d₂ ++ y₂ = x₃ ++ b :: y₃) (hx₃ : Free Char.isDigit x₃) (hb : b.isDigit = true) :
    rewriteSplit stray sp =
      some (dotted (x₂ ++ a₂ :: x₃) ++ (instanceText ++ y₃), decide ((x₂ ++ a₂ :: x₃).getLast? = some '.')) := by
  have hsplit : sp = (x₂ ++ a₂ :: x₃) ++ b :: y₃ := by
    rw [h.eq, h₃]
    simp
  obtain ⟨htake, hlast⟩ := take_third hsplit
  have hdrop : (x₃ ++ b :: y₃).drop (x₃.length + 1) = y₃ := by
    rw [List.drop_length_add_append]
    rfl
  unfold rewriteSplit findDigit getNumberOfDigitsInInstanceNumber
  simp only [h.findIdx?, h.length_run, h.drop_succ, if_neg (fun hc => ho ((ownSegment_split h).mp hc)), h₃,
    findIdx?_first hx₃ hb, htake, hdrop, hlast, dotted, List.append_assoc, List.singleton_append]

/-- How `splitParam` is cut when it is rewritten. -/
theorem rewriteSplit_cases {q : Text} {dot : Bool} (h : rewriteSplit stray sp = some (q, dot)) :
    ∃ x₂ a₂ d₂ y₂, Split Char.isDigit sp x₂ a₂ d₂ y₂ ∧
      (Own stray x₂ y₂ ∧ q = x₂ ++ (instanceText ++ y₂) ∧ dot = true ∨
        ¬Own stray x₂ y₂ ∧ ∃ x₃ b y₃, d₂ ++ y₂ = x₃ ++ b :: y₃ ∧ Free Char.isDigit x₃ ∧ b.isDigit = true ∧
          q = dotted (x₂ ++ a₂ :: x₃) ++ (instanceText ++ y₃) ∧ dot = decide ((x₂ ++ a₂ :: x₃).getLast? = some '.')) := by
  have hdigit : ¬Free Char.isDigit sp := fun hf => by
    rw [rewriteSplit_free hf] at h
    cases h
  obtain ⟨x₂, a₂, d₂, y₂, hs⟩ := exists_split hdigit
  refine ⟨x₂, a₂, d₂, y₂, hs, ?_⟩
  by_cases ho : Own stray x₂ y₂
  · rw [rewriteSplit_own hs ho] at h
    cases h
    exact Or.inl ⟨ho, rfl, rfl⟩
  · by_cases hf : Free Char.isDigit (d₂ ++ y₂)
    · rw [rewriteSplit_last hs ho hf] at h
      cases h
    · obtain ⟨x₃, b, y₃, h₃, hx₃, hb⟩ := exists_first hf
      rw [rewriteSplit_third hs ho h₃ hx₃ hb] at h
      cases h
      exact Or.inr ⟨ho, x₃, b, y₃, h₃, hx₃, hb, rfl, rfl⟩

theorem rewriteSplit_ne_nil {q : Text} {dot : Bool} (h : rewriteSplit stray sp = some (q, dot)) : q ≠ [] := by
  obtain ⟨x₂, a₂, d₂, y₂, -, ⟨-, rfl, -⟩ | ⟨-, x₃, b, y₃, -, -, -, rfl, -⟩⟩ := rewriteSplit_cases h
  · simp [instanceText]
  · simp [instanceText]

end

section
variable {stray : Stray} {dm : DataModel} {n new sp q : Text} {first : Nat} {dot : Bool}

/-- Nothing is rewritten: the rest is tried as it is. -/
theorem trySplit_same (dm : DataModel) (n new : Text) (first : Nat) (h : rewriteSplit stray.splitParam sp = none) :
    ∃ new', (new' = new ∨ new' = n.take first) ∧ trySplit stray dm n first new sp = tryLast dm first new' sp := by
  unfold trySplit
  unfold rewriteSplit at h
  cases hf : findDigit sp with
  | none => exact ⟨new, Or.inl rfl, rfl⟩
  | some found =>
      rw [hf] at h
      simp only at h ⊢
      split
      · next hown =>
        rw [if_pos hown] at h
        cases h
      · next hown =>
        rw [if_neg hown] at h
        cases hf₂ : findDigit (sp.drop (found + 1)) with
        | none => exact ⟨n.take first, Or.inr rfl, rfl⟩
        | some found₂ =>
            rw [hf₂] at h
            cases h

/-- The rest is rewritten to `q`: three characters of it are skipped behind the first digit, and then none. -/
theorem trySplit_rewritten (h : rewriteSplit stray.splitParam sp = some (q, dot)) (hsp : sp.length < maxParameterLength) :
    trySplit stray dm n first new sp =
      if q.length < maxParameterLength then
        (strncat (n.take first) (q.drop 3)).bind fun name => tryName dm name (tryLast dm first name q)
      else .error .overflow := by
  have hdrop : ∀ k, (sp.drop k).length < maxParameterLength := fun k => by
    rw [List.length_drop]
    omega
  unfold trySplit
  unfold rewriteSplit at h
  cases hf : findDigit sp with
  | none =>
      rw [hf] at h
      cases h
  | some found =>
      rw [hf] at h
      simp only at h ⊢
      split
      · next hown =>
        rw [if_pos hown] at h
        cases h
        exact strncat_strncat (by decide) (hdrop _) _
      · next hown =>
        rw [if_neg hown] at h
        cases hf₂ : findDigit (sp.drop (found + 1)) with
        | none =>
            rw [hf₂] at h
            cases h
        | some found₂ =>
            rw [hf₂] at h
            cases h
            have hdrop₂ : ((sp.drop (found + 1)).drop (found₂ + 1)).length < maxParameterLength := by
              rw [List.drop_drop]
              exact hdrop _
            exact strncat_strncat (by decide) hdrop₂ _

end

section
variable {stray : Stray} {dm : DataModel} {n x d y : Text} {a : Char}

theorem lookup_free (h : Free Char.isDigit n) : getParamInfoFromDataModel stray dm n = checkforParameterMatch dm n := by
  unfold getParamInfoFromDataModel findDigit
  rw [findIdx?_free h]

/-- The first run is a segment of its own, and is replaced. -/
theorem lookup_own (hn : n.length < maxParameterLength) (h : Split Char.isDigit n x a d y) (ho : Own stray.paramName x y) :
    getParamInfoFromDataModel stray dm n = tryName dm n
      (if (x ++ (instanceText ++ y)).length < maxParameterLength then
        tryName dm (x ++ (instanceText ++ y))
          (trySplit stray dm n (x.length + 1) (x ++ (instanceText ++ y)) (instanceText ++ y))
      else .error .overflow) := by
  have hy : y.length < maxParameterLength := by
    have := h.length
    omega
  unfold getParamInfoFromDataModel findDigit getNumberOfDigitsInInstanceNumber
  simp only [h.findIdx?, h.length_run, h.drop_run, h.take]
  rw [if_pos ((ownSegment_split h).mpr ho), strncat_eq hy]
  by_cases hsplit : (instanceText ++ y).length < maxParameterLength
  · rw [if_pos hsplit]
    change tryName dm n ((strncat x (instanceText ++ y)).bind _) = _
    rw [strncat_eq hsplit]
    split <;> rfl
  · have hfit : ¬(x ++ (instanceText ++ y)).length < maxParameterLength := by
      rw [List.length_append]
      omega
    rw [if_neg hsplit, if_neg hfit]
    rfl

/-- The first run is not a segment of its own. -/
theorem lookup_other (hn : n.length < maxParameterLength) (h : Split Char.isDigit n x a d y)
    (ho : ¬Own stray.paramName x y) :
    getParamInfoFromDataModel stray dm n =
      tryName dm n (trySplit stray dm n (x.length + 1) (x ++ [a]) (d ++ y)) := by
  have hlen : (d ++ y).length ≤ maxParameterLength - 1 := by
    have := h.length
    rw [List.length_append]
    omega
  unfold getParamInfoFromDataModel findDigit getNumberOfDigitsInInstanceNumber
  simp only [h.findIdx?, h.length_run, h.take_succ, h.drop_succ]
  rw [if_neg (fun hc => ho ((ownSegment_split h).mp hc)), List.take_of_length_le hlen]

/-! ## What is found -/

theorem found_free (hn : n.length < maxParameterLength) (h : Free Char.isDigit n) :
    Found (getParamInfoFromDataModel stray dm n) ↔ n ∈ names dm := by
  rw [lookup_free h]
  exact found_check hn

theorem found_own (hn : n.length < maxParameterLength) (h : Split Char.isDigit n x a d y)
    (ho : Own stray.paramName x y) :
    Found (getParamInfoFromDataModel stray dm n) ↔
      n ∈ names dm ∨ (x ++ (instanceText ++ y)).length < maxParameterLength ∧
        (x ++ (instanceText ++ y) ∈ names dm ∨
          Found (trySplit stray dm n (x.length + 1) (x ++ (instanceText ++ y)) (instanceText ++ y))) := by
  rw [lookup_own hn h ho, found_tryName hn, found_ite]
  exact or_congr_right (and_congr_right fun hfit => found_tryName hfit _)

theorem found_other (hn : n.length < maxParameterLength) (h : Split Char.isDigit n x a d y)
    (ho : ¬Own stray.paramName x y) :
    Found (getParamInfoFromDataModel stray dm n) ↔
      n ∈ names dm ∨ Found (trySplit stray dm n (x.length + 1) (x ++ [a]) (d ++ y)) := by
  rw [lookup_other hn h ho, found_tryName hn]

variable {new sp x₂ d₂ y₂ x₃ y₃ : Text} {a₂ b : Char}

theorem found_tryLast (hnew : new.take x.length = x) (hsp : sp.length < maxParameterLength) :
    Found (tryLast dm (x.length + 1) new sp) ↔ (x ++ sp).length < maxParameterLength ∧ x ++ sp ∈ names dm := by
  unfold tryLast
  rw [Nat.add_sub_cancel, hnew, found_strncat hsp]
  exact and_congr_right fun hfit => found_check hfit

/-- The names tried once `splitParam` has been rewritten to `q`: three characters of it are skipped behind
the first digit, and then none. -/
def Tries (dm : DataModel) (x : Text) (a : Char) (q : Text) : Prop :=
  q.length < maxParameterLength ∧ (x ++ a :: q.drop 3).length < maxParameterLength ∧
    (x ++ a :: q.drop 3 ∈ names dm ∨ (x ++ q).length < maxParameterLength ∧ x ++ q ∈ names dm)

theorem found_rewritten {q : Text} :
    q.length < maxParameterLength ∧
        Found ((strncat (x ++ [a]) (q.drop 3)).bind fun name => tryName dm name (tryLast dm (x.length + 1) name q)) ↔
      Tries dm x a q := by
  unfold Tries
  refine and_congr_right fun hq => ?_
  have hdrop : (q.drop 3).length < maxParameterLength := by
    rw [List.length_drop]
    omega
  rw [found_strncat hdrop, List.append_assoc, List.singleton_append]
  refine and_congr_right fun hfit => ?_
  rw [found_tryName hfit, found_tryLast (by rw [List.take_left]) hq]

theorem found_split_same (h : rewriteSplit stray.splitParam sp = none) (hnew : new.take x.length = x)
    (hfirst : n.take (x.length + 1) = x ++ [a]) (hsp : sp.length < maxParameterLength) :
    Found (trySplit stray dm n (x.length + 1) new sp) ↔
      (x ++ sp).length < maxParameterLength ∧ x ++ sp ∈ names dm := by
  obtain ⟨new', hnew', heq⟩ := trySplit_same dm n new (x.length + 1) h
  rw [heq]
  refine found_tryLast ?_ hsp
  rcases hnew' with rfl | rfl
  · exact hnew
  · rw [hfirst, List.take_left]

theorem found_split_rewritten {q : Text} {dot : Bool} (h : rewriteSplit stray.splitParam sp = some (q, dot))
    (hfirst : n.take (x.length + 1) = x ++ [a]) (hsp : sp.length < maxParameterLength) :
    Found (trySplit stray dm n (x.length + 1) new sp) ↔ Tries dm x a q := by
  rw [trySplit_rewritten h hsp, found_ite, hfirst, found_rewritten]

end

end Tr69HostIf.Waldb
