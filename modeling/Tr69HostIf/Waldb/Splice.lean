import Tr69HostIf.Waldb.Expansion

/-!
# Flat strings along a path

What the helpers of the walk do on the texts of paths.

* `strstr_isSome` : `strstr` finds the texts inside a text;
* `Aligned path t` : `t` is the text of the path with numbers in place of some `{i}`;
* `appendLoop_aligned`, `appendLoop_pathText` : `appendNextObject` keeps the numbers of the common part and takes the
  rest from the data model, unless it meets a name where the data model has `{i}` (`Misspliced`);
* `checkMatchingLoop_aligned` : `checkMatchingParameter` behind an aligned part;
* `replaceWithInstanceNumber_indicator`, `putIndicator_eq` : the last `{i}` replaced and put back.
-/

namespace Tr69HostIf.Waldb
open Store Clib

/-! ## Texts inside texts -/

section
variable {s t : Text}

theorem strstr_isSome : (strstr t s).isSome = true ↔ s <:+: t := by
  rw [strstr, List.findIdx?_isSome, List.any_eq_true]
  constructor
  · rintro ⟨u, hu, hpre⟩
    rw [List.mem_tails] at hu
    exact List.infix_iff_prefix_suffix.mpr ⟨u, List.isPrefixOf_iff_prefix.mp hpre, hu⟩
  · intro h
    obtain ⟨u, hpre, hsuf⟩ := List.infix_iff_prefix_suffix.mp h
    exact ⟨u, (List.mem_tails u t).mpr hsuf, List.isPrefixOf_iff_prefix.mpr hpre⟩

theorem matching_of_inside (h : s <:+: t) : matching t s = some (false, 0) := by
  rw [matching, if_pos (strstr_isSome.mpr h)]

/-- A match by `checkMatchingParameter`. -/
theorem matching_check {inst : Int} (h : matching t s = some (true, inst)) :
    checkMatchingParameter t s = (true, inst) := by
  unfold matching at h
  split at h
  · cases h
  · simp only at h
    split at h
    · next hr =>
      rw [Option.some.injEq, Prod.mk.injEq] at h
      exact Prod.ext hr h.2
    · cases h

/-- A match by `strstr`. -/
theorem matching_strstr {inst : Int} (h : matching t s = some (false, inst)) : inst = 0 ∧ (strstr t s).isSome = true := by
  unfold matching at h
  split at h
  · next hs =>
    rw [Option.some.injEq, Prod.mk.injEq] at h
    exact ⟨h.2.symm, hs⟩
  · simp only at h
    split at h
    · cases h
    · cases h

end

/-! ## Texts of a path -/

/-- The text of a segment, or a number for `{i}`. -/
def SegmentText (seg : Segment) (t : Text) : Prop := t = seg.text ∨ seg = .inst ∧ Digits t

/-- A text of a path with numbers in place of some `{i}`. -/
inductive Aligned : List Segment → Text → Prop
  | nil : Aligned [] []
  | cons {seg : Segment} {t u : Text} {path : List Segment} (h : SegmentText seg t) (hs : Aligned path u) :
      Aligned (seg :: path) (t ++ '.' :: u)

section
variable {path path' : List Segment} {t u X Y : Text}

theorem Aligned.append (h : Aligned path t) (h' : Aligned path' u) : Aligned (path ++ path') (t ++ u) := by
  induction h with
  | nil => exact h'
  | cons h _ ih =>
      rw [List.append_assoc, List.cons_append]
      exact .cons h ih

theorem pathText_append (path path' : List Segment) : pathText (path ++ path') = pathText path ++ pathText path' := by
  simp [pathText]

theorem pathText_cons_append (seg : Segment) (path : List Segment) (Y : Text) :
    pathText (seg :: path) ++ Y = seg.text ++ '.' :: (pathText path ++ Y) := by
  rw [pathText_cons, List.append_assoc, List.cons_append]

theorem dot_not_mem_segment (seg : Segment) : '.' ∉ seg.text := by
  cases seg with
  | name n => exact dot_not_mem n
  | inst => decide

/-- A request that is spelled as the data model spells the beginning of a path. -/
theorem pathText_of_spelled {qs : List Text} (hdot : ∀ q ∈ qs, '.' ∉ q) (hlen : qs.length ≤ path.length)
    (h : joined qs <+: pathText path) : joined qs ++ pathText (path.drop qs.length) = pathText path := by
  induction qs generalizing path with
  | nil => rfl
  | cons q qs ih =>
      cases path with
      | nil => simp at hlen
      | cons seg path =>
          rw [List.forall_mem_cons] at hdot
          obtain ⟨r, hr⟩ := h
          rw [joined_cons, pathText_cons, List.append_assoc, List.cons_append] at hr
          obtain ⟨rfl, hr'⟩ := cut_unique hdot.1 (dot_not_mem_segment seg) hr
          have hrest := ih hdot.2 (Nat.le_of_succ_le_succ hlen) ⟨r, hr'⟩
          rw [joined_cons, pathText_cons, List.length_cons, List.drop_succ_cons, ← hrest]
          simp

/-- The request is aligned with the segments it asks for. -/
theorem aligned_of_asked {env : Env} {qs : List Text} {key : Text} (h : asked env qs key path = true) :
    Aligned (path.take qs.length) (joined qs) := by
  induction qs generalizing key path with
  | nil => exact .nil
  | cons q qs ih =>
      cases path with
      | nil => cases h
      | cons seg path =>
          rw [joined_cons]
          obtain ⟨key', hrest⟩ := exists_of_asked h
          refine .cons ?_ (ih hrest)
          by_cases hq : q = instanceText
          · subst hq
            rw [asked_cons_inst, Bool.and_eq_true, decide_eq_true_eq] at h
            rw [h.1]
            exact Or.inl rfl
          · rw [asked_cons hq, List.any_eq_true] at h
            obtain ⟨c, hc, -⟩ := h
            rcases choices_fixed env key hq seg with hnone | ⟨c', hc', hseg⟩
            · rw [hnone] at hc
              cases hc
            · exact hseg

/-- What is shown at a place is aligned with its path. -/
theorem aligned_of_place {env : Env} {s s' : Place} (h : s' ∈ places (follow env) s path) :
    ∃ t, s'.shown = s.shown ++ t ∧ Aligned path t := by
  induction path generalizing s with
  | nil =>
      rw [places, List.mem_singleton] at h
      exact ⟨[], by rw [h, List.append_nil], .nil⟩
  | cons seg path ih =>
      rw [places, List.mem_flatMap] at h
      obtain ⟨s₁, hs₁, h⟩ := h
      rw [follow, List.mem_map] at hs₁
      obtain ⟨c, hc, rfl⟩ := hs₁
      obtain ⟨t, ht, hal⟩ := ih h
      have hseg : SegmentText seg c.1 := by
        cases seg with
        | name n =>
            rw [choices] at hc
            split at hc
            · rw [List.mem_singleton.mp hc]
              exact Or.inl rfl
            · cases hc
        | inst =>
            have hnum : c ∈ instances env s.key → Digits c.1 := by
              intro hc
              obtain ⟨i, -, rfl⟩ := List.mem_map.mp hc
              exact digits_printNat i
            refine Or.inr ⟨rfl, ?_⟩
            cases hq : s.ahead.head? with
            | none =>
                rw [hq] at hc
                exact hnum hc
            | some q =>
                rw [hq] at hc
                simp only [choices] at hc
                split at hc
                · exact hnum hc
                · split at hc
                  · next hd =>
                    rw [List.mem_singleton.mp hc]
                    exact hd.1
                  · cases hc
      refine ⟨c.1 ++ '.' :: t, ?_, .cons hseg hal⟩
      rw [ht]
      simp [Place.enter]

/-! ## `appendNextObject` -/

theorem appendLoop_same (t X Y : Text) :
    appendLoop (t ++ X) false (t ++ Y) = (appendLoop X false Y).map (t ++ ·) := by
  induction t with
  | nil =>
      show appendLoop X false Y = _
      cases appendLoop X false Y <;> rfl
  | cons c t ih =>
      rw [List.cons_append, List.cons_append, appendLoop, if_pos rfl, ih]
      cases appendLoop X false Y <;> rfl

theorem appendLoop_skip (h : '.' ∉ t) (X attr : Text) :
    appendLoop (t ++ '.' :: X) true attr = (appendLoop X false (attr.drop 4)).map (t ++ '.' :: ·) := by
  induction t with
  | nil => rw [List.nil_append, appendLoop, if_pos rfl]; rfl
  | cons c t ih =>
      rw [List.mem_cons, not_or] at h
      rw [List.cons_append, appendLoop, if_neg (Ne.symm h.1), ih h.2]
      cases appendLoop X false (attr.drop 4) <;> rfl

theorem appendLoop_number (h : Digits t) (X Y : Text) :
    appendLoop (t ++ '.' :: X) false (instanceText ++ '.' :: Y) = (appendLoop X false Y).map (t ++ '.' :: ·) := by
  have hdot : '.' ∉ t := h.not_mem (by decide)
  obtain ⟨c, u, rfl⟩ := List.exists_cons_of_ne_nil h.1
  have hbrace : c ≠ '{' := by
    rintro rfl
    have := h.2 '{' List.mem_cons_self
    revert this
    decide
  rw [List.mem_cons, not_or] at hdot
  show appendLoop (c :: (u ++ '.' :: X)) false ('{' :: 'i' :: '}' :: '.' :: Y) = _
  rw [appendLoop, if_neg hbrace, if_pos rfl, if_neg (Ne.symm hdot.1), appendLoop_skip hdot.2]
  show ((appendLoop X false Y).map _).map _ = _
  cases appendLoop X false Y <;> rfl

/-- A segment that is the data model's, or a number for `{i}`, stays. -/
theorem appendLoop_segment {seg : Segment} (h : SegmentText seg t) (X Y : Text) :
    appendLoop (t ++ '.' :: X) false (seg.text ++ '.' :: Y) = (appendLoop X false Y).map (t ++ '.' :: ·) := by
  obtain rfl | ⟨rfl, hdigits⟩ := h
  · have hsame := appendLoop_same (seg.text ++ ['.']) X Y
    simp only [List.append_assoc, List.singleton_append] at hsame
    exact hsame
  · exact appendLoop_number hdigits X Y

/-- **The numbers of the common part stay.** -/
theorem appendLoop_aligned (h : Aligned path t) (X Y : Text) :
    appendLoop (t ++ X) false (pathText path ++ Y) = (appendLoop X false Y).map (t ++ ·) := by
  induction h with
  | nil => exact appendLoop_same [] X Y
  | @cons seg t u path h _ ih =>
      have hleft : t ++ '.' :: u ++ X = t ++ '.' :: (u ++ X) := List.append_assoc _ _ _
      rw [hleft, pathText_cons_append, appendLoop_segment h, ih]
      cases appendLoop X false Y with
      | error e => rfl
      | ok v => simp [Except.map]

/-- Two different names. -/
theorem appendLoop_names {m n : Text} (hm : '.' ∉ m) (hn : ∀ c ∈ n, c ≠ '.' ∧ c ≠ '{') (hne : m ≠ n) (X Y : Text) :
    appendLoop (m ++ '.' :: X) false (n ++ '.' :: Y) = .ok (n ++ '.' :: Y) := by
  induction m generalizing n with
  | nil =>
      obtain ⟨b, n, rfl⟩ := List.exists_cons_of_ne_nil (Ne.symm hne)
      obtain ⟨hdot, hbrace⟩ := hn b List.mem_cons_self
      rw [List.nil_append, List.cons_append, appendLoop, if_neg (Ne.symm hdot), if_neg hbrace]
  | cons a m ih =>
      rw [List.mem_cons, not_or] at hm
      cases n with
      | nil =>
          rw [List.cons_append, List.nil_append, appendLoop, if_neg (Ne.symm hm.1), if_neg (by decide)]
      | cons b n =>
          rw [List.cons_append, List.cons_append, appendLoop]
          by_cases hab : a = b
          · rw [if_pos hab, ih hm.2 (fun c hc => hn c (List.mem_cons_of_mem b hc)) (fun h => hne (by rw [hab, h]))]
            rw [hab]
            rfl
          · rw [if_neg hab, if_neg (hn b List.mem_cons_self).2]

theorem name_char (n : Name) {c : Char} (h : c ∈ n.chars) : c ≠ '.' ∧ c ≠ '{' := by
  have hc := n.ok c h
  refine ⟨?_, ?_⟩
  · rintro rfl
    revert hc
    decide
  · rintro rfl
    revert hc
    decide

/-- The path behind has `{i}` where the path in front has a name, after the same segments. -/
def Misspliced (c a u : List Segment) : Prop := ∃ n c' a', c = u ++ .name n :: c' ∧ a = u ++ .inst :: a'

theorem Misspliced.cons {c a u : List Segment} (h : Misspliced c a u) (seg : Segment) :
    Misspliced (seg :: c) (seg :: a) (seg :: u) := by
  obtain ⟨n, c', a', rfl, rfl⟩ := h
  exact ⟨n, c', a', rfl, rfl⟩

/-- **The rest is taken from the data model.** -/
theorem appendLoop_pathText {c a : List Segment} (h : ∀ u, ¬Misspliced c a u) :
    appendLoop (pathText c) false (pathText a) = .ok (pathText a) := by
  induction c generalizing a with
  | nil => rfl
  | cons seg c ih =>
      cases a with
      | nil =>
          obtain ⟨x, r, hr⟩ := List.exists_cons_of_ne_nil (pathText_cons_ne_nil seg c)
          rw [hr]
          rfl
      | cons seg' a =>
          rw [pathText_cons, pathText_cons]
          by_cases hseg : seg = seg'
          · subst hseg
            rw [appendLoop_segment (Or.inl rfl), ih fun u hu => h (seg :: u) (hu.cons seg)]
            simp [Except.map]
          · cases seg' with
            | inst =>
                cases seg with
                | name n => exact absurd ⟨n, c, a, rfl, rfl⟩ (h [])
                | inst => exact absurd rfl hseg
            | name n =>
                cases seg with
                | name m =>
                    have hne : m.chars ≠ n.chars := by
                      intro hmn
                      apply hseg
                      cases m
                      cases n
                      simpa using hmn
                    exact appendLoop_names (dot_not_mem m) (fun c hc => name_char n hc) hne _ _
                | inst =>
                    obtain ⟨b, r, hb⟩ := List.exists_cons_of_ne_nil n.ne_nil
                    have hbrace := (name_char n (by rw [hb]; exact List.mem_cons_self)).2
                    simp only [Segment.text, instanceText, List.cons_append, List.nil_append, hb]
                    rw [appendLoop, if_neg (Ne.symm hbrace), if_neg hbrace]

end

/-! ## `checkMatchingParameter` -/

section
variable {path : List Segment} {t X Y w : Text} {v : Int}

theorem checkMatchingLoop_same (t X Y w : Text) (inst : Int) :
    checkMatchingLoop w (t ++ X) false (t ++ Y) inst = checkMatchingLoop w X false Y inst := by
  induction t with
  | nil => rfl
  | cons c t ih =>
      rw [List.cons_append, List.cons_append, checkMatchingLoop, if_pos rfl]
      exact ih

theorem checkMatchingLoop_segment (t X Y w : Text) (inst : Int) :
    checkMatchingLoop w (t ++ '.' :: X) false (t ++ '.' :: Y) inst = checkMatchingLoop w X false Y inst := by
  have hsame := checkMatchingLoop_same (t ++ ['.']) X Y w inst
  rwa [List.append_assoc, List.append_assoc] at hsame

/-- A number with one more digit. -/
def addDigit (n : Int) (c : Char) : Int := toInt (n * 10 + ((c.toNat : Int) - 48))

/-- A number is read up to its dot. -/
theorem checkMatchingLoop_skip (h : '.' ∉ t) (X attr w : Text) (inst : Int) :
    checkMatchingLoop w (t ++ '.' :: X) true attr inst =
      checkMatchingLoop w X false (attr.drop 4) (t.foldl addDigit inst) := by
  induction t generalizing inst with
  | nil =>
      rw [List.nil_append, checkMatchingLoop, if_pos rfl]
      rfl
  | cons c t ih =>
      rw [List.mem_cons, not_or] at h
      rw [List.cons_append, checkMatchingLoop, if_neg (Ne.symm h.1)]
      exact ih h.2 _

/-- **Behind an aligned part the comparison goes on**, with some number. -/
theorem checkMatchingLoop_aligned (h : Aligned path t) {inst : Int}
    (hmatch : checkMatchingLoop w (t ++ X) false (pathText path ++ Y) inst = (true, v)) :
    ∃ inst', checkMatchingLoop w X false Y inst' = (true, v) := by
  induction h generalizing inst with
  | nil => exact ⟨inst, hmatch⟩
  | @cons seg t u path h _ ih =>
      have hleft : t ++ '.' :: u ++ X = t ++ '.' :: (u ++ X) := List.append_assoc _ _ _
      rw [hleft, pathText_cons_append] at hmatch
      rcases h with rfl | ⟨rfl, hdigits⟩
      · rw [checkMatchingLoop_segment] at hmatch
        exact ih hmatch
      · have hdot := hdigits.not_mem (show ('.' : Char).isDigit = false by decide)
        obtain ⟨c, r, rfl⟩ := List.exists_cons_of_ne_nil hdigits.1
        rw [List.mem_cons, not_or] at hdot
        have hbrace : '{' ≠ c := by
          rintro rfl
          have := hdigits.2 '{' List.mem_cons_self
          revert this
          decide
        simp only [Segment.text, instanceText, List.cons_append, List.nil_append] at hmatch
        rw [checkMatchingLoop, if_neg hbrace] at hmatch
        split at hmatch
        · rw [checkMatchingLoop_skip hdot.2] at hmatch
          exact ih hmatch
        · cases hmatch

/-- A request that matches is a beginning of what `appendNextObject` makes of it, and all of it when a number is
delivered. -/
theorem appendLoop_of_match {param attr : Text} {skip : Bool} {inst : Int}
    (hdot : param = [] ∧ skip = false ∨ param.getLast? = some '.')
    (hmatch : checkMatchingLoop w param skip attr inst = (true, v)) :
    ∃ r, appendLoop param skip attr = .ok (param ++ r) ∧ (v ≠ 0 → r = []) := by
  induction param generalizing skip attr inst with
  | nil =>
      obtain rfl : skip = false := by simpa using hdot
      refine ⟨attr, rfl, fun hv => ?_⟩
      rw [checkMatchingLoop, Prod.mk.injEq] at hmatch
      by_contra hne
      rw [if_neg (fun h => hne h.1)] at hmatch
      exact hv hmatch.2.symm
  | cons c param ih =>
      have hlast : (c :: param).getLast? = some '.' := hdot.resolve_left (fun h => by cases h.1)
      -- behind a dot the request may end, inside a number it may not
      have hrest : param = [] ∧ c = '.' ∨ param.getLast? = some '.' := by
        by_cases hnil : param = []
        · subst hnil
          exact Or.inl ⟨rfl, by simpa using hlast⟩
        · rw [List.getLast?_cons_of_ne_nil hnil] at hlast
          exact Or.inr hlast
      have hcons : ∀ {skip' : Bool} {attr' : Text}, (∃ r, appendLoop param skip' attr' = .ok (param ++ r) ∧ (v ≠ 0 → r = [])) →
          ∃ r, (appendLoop param skip' attr').map (c :: ·) = .ok (c :: param ++ r) ∧ (v ≠ 0 → r = []) := by
        rintro skip' attr' ⟨r, hr, hv⟩
        exact ⟨r, by rw [hr]; rfl, hv⟩
      cases skip with
      | true =>
          rw [checkMatchingLoop] at hmatch
          rw [appendLoop]
          by_cases hc : c = '.'
          · rw [if_pos hc] at hmatch ⊢
            exact hcons (ih (hrest.imp_left fun h => ⟨h.1, rfl⟩) hmatch)
          · rw [if_neg hc] at hmatch ⊢
            exact hcons (ih (Or.inr (hrest.resolve_left fun h => hc h.2)) hmatch)
      | false =>
          cases attr with
          | nil => cases hmatch
          | cons a attr =>
              rw [checkMatchingLoop] at hmatch
              rw [appendLoop]
              by_cases hca : a = c
              · rw [if_pos hca] at hmatch
                rw [if_pos hca.symm]
                exact hcons (ih (hrest.imp_left fun h => ⟨h.1, rfl⟩) hmatch)
              · rw [if_neg hca] at hmatch
                rw [if_neg (Ne.symm hca)]
                split at hmatch
                · next hdigit =>
                  have hc : c ≠ '.' := by
                    rintro rfl
                    exact absurd hdigit.2.1 (by decide)
                  rw [if_pos hdigit.1, if_neg hc]
                  exact hcons (ih (Or.inr (hrest.resolve_left fun h => hc h.2)) hmatch)
                · cases hmatch

/-- Below the path of the request no number is delivered. -/
theorem checkMatchingParameter_below (h : Aligned path t) (hY : Y ≠ [])
    (hmatch : checkMatchingParameter (pathText path ++ Y) t = (true, v)) : v = 0 := by
  rw [checkMatchingParameter] at hmatch
  obtain ⟨inst', h'⟩ := checkMatchingLoop_aligned (X := []) h (by rw [List.append_nil]; exact hmatch)
  rw [checkMatchingLoop, if_neg (fun h => hY h.1)] at h'
  exact (Prod.mk.injEq .. ▸ h').2.symm

end

/-! ## Tables -/

section
variable {o : XmlObject} {t u : Text}

theorem base_eq (o : XmlObject) : o.base = pathText o.path := rfl

theorem base_ne_nil (o : XmlObject) : o.base ≠ [] := by
  obtain ⟨u, hu⟩ := pathText_concat o.path_ne_nil
  rw [XmlObject.base, hu]
  simp

theorem getLast_of_endsWithInstance {path : List Segment} (h : isParamEndsWithInstance (pathText path) = true) :
    path.getLast? = some .inst := by
  obtain ⟨r, hr⟩ := List.isSuffixOf_iff_suffix.mp h
  rcases List.eq_nil_or_concat' path with rfl | ⟨z, seg, rfl⟩
  · simp [pathText, indicator] at hr
  · rw [List.getLast?_concat]
    cases seg with
    | inst => rfl
    | name n =>
        exfalso
        have hlast : n.chars.getLast? = some '}' := by
          have hdrop := congrArg (fun u : Text => u.dropLast.getLast?) hr
          have hleft : (r ++ indicator).dropLast.getLast? = some '}' := by
            have : r ++ indicator = r ++ ['{', 'i', '}'] ++ ['.'] := by simp [indicator]
            rw [this, List.dropLast_concat]
            simp
          have hright : (pathText (z ++ [.name n])).dropLast.getLast? = n.chars.getLast? := by
            have : pathText (z ++ [.name n]) = pathText z ++ n.chars ++ ['.'] := by
              rw [pathText_append, pathText_cons]
              simp [pathText, Segment.text]
            rw [this, List.dropLast_concat, List.getLast?_append]
            obtain ⟨c, hc⟩ := List.getLast?_isSome.mpr n.ne_nil |> Option.isSome_iff_exists.mp
            rw [hc]
            rfl
          rw [← hright, ← hleft]
          exact hdrop.symm
        have := n.ok '}' (List.mem_of_getLast? hlast)
        revert this
        decide

theorem getLast_of_isTable (h : isTable o = true) : o.path.getLast? = some .inst := by
  unfold isTable at h
  split at h
  · cases h
  · rw [Bool.and_eq_true] at h
    exact getLast_of_endsWithInstance h.2

theorem replaceWithInstanceNumber_concat (t : Text) (z : Int) :
    replaceWithInstanceNumber (t ++ indicator) z = t ++ (printInt z ++ ['.']).take 9 := by
  have hfind : (strstr (t ++ indicator) indicator).isSome = true := strstr_isSome.mpr ⟨t, [], by simp⟩
  have hlen : (t ++ indicator).length - 4 = t.length := by simp [indicator]
  rw [replaceWithInstanceNumber, if_pos hfind, hlen, List.take_left]

theorem replaceWithInstanceNumber_indicator (t : Text) {i : Nat} (h : (printNat i).length < 9) :
    replaceWithInstanceNumber (t ++ indicator) i = t ++ printNat i ++ ['.'] := by
  rw [replaceWithInstanceNumber_concat, printInt_natCast, List.take_of_length_le, List.append_assoc]
  rw [List.length_append, List.length_singleton]
  omega

theorem putIndicator_eq (h : t <+: u) : putIndicator u t.length = t ++ indicator := by
  obtain ⟨r, rfl⟩ := h
  rw [putIndicator, if_pos (by simp), List.take_left]

/-- Numbers up to `MAX_NUM_PARAMETERS` fit. -/
theorem length_printNat_lt {i : Nat} (h : i ≤ maxNumParameters) : (printNat i).length < 9 := by
  have h4 : (printNat i).length ≤ 4 := by
    apply (Nat.length_toDigits_le_iff (by decide) (by decide)).mpr
    rw [maxNumParameters] at h
    omega
  omega

end

end Tr69HostIf.Waldb
