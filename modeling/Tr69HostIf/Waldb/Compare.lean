import Tr69HostIf.Clib.Ascii
import Tr69HostIf.Waldb.Splice

/-!
# Paths and requests segment by segment

What the loop of `checkMatchingParameter` of `waldb.cpp` makes of a path of the data model and a request.

* `Covers R path qs` : the request has a segment for each of the first segments of the path, related by `R`;
* `Taken` : what the loop takes for a segment; `checkMatchingLoop_covered`, `checkMatchingLoop_not_covered` : the loop by
  segments;
* `numbers path qs` : what the request has in place of `{i}`; `numberRead_digits` : the `int` that the loop makes of it;
* `compared_iff` : for which paths and requests status and number are right.
-/

namespace Tr69HostIf.Waldb
open Store Clib

/-! ## Requests along a path -/

/-- A request has at most as many segments as a path, and each is related to that of the path. -/
def Covers (R : Segment → Text → Prop) (path : List Segment) (qs : List Text) : Prop :=
  qs.length ≤ path.length ∧ ∀ p ∈ path.zip qs, R p.1 p.2

instance (R : Segment → Text → Prop) [∀ seg q, Decidable (R seg q)] (path : List Segment) (qs : List Text) :
    Decidable (Covers R path qs) := inferInstanceAs (Decidable (_ ∧ _))

instance (seg : Segment) (q : Text) : Decidable (SegmentText seg q) := inferInstanceAs (Decidable (_ ∨ _))

/-- The segments that a request has in place of `{i}`. -/
def numbers (path : List Segment) (qs : List Text) : List Text :=
  ((path.zip qs).filter fun p => p.1 = .inst ∧ p.2 ≠ instanceText).map Prod.snd

/-- A text that starts with one of the digits up to 8. -/
def StartsLow (q : Text) : Prop := ∃ c ∈ q.head?, 48 ≤ c.toNat ∧ c.toNat ≤ 56

/-- What the loop takes for a segment of the path. -/
def Taken (seg : Segment) (q : Text) : Prop := q = seg.text ∨ seg = .inst ∧ StartsLow q

/-- The `int` that the loop makes of a segment. -/
def numberRead (q : Text) : Int := q.foldl addDigit 0

section
variable {R R' : Segment → Text → Prop} {path : List Segment} {qs : List Text} {seg : Segment} {q : Text}

theorem covers_nil (R : Segment → Text → Prop) (path : List Segment) : Covers R path [] := by
  refine ⟨Nat.zero_le _, fun p hp => ?_⟩
  rw [List.zip_nil_right] at hp
  exact absurd hp List.not_mem_nil

theorem not_covers_nil (R : Segment → Text → Prop) (q : Text) (qs : List Text) : ¬Covers R [] (q :: qs) :=
  fun h => Nat.not_succ_le_zero _ h.1

theorem covers_cons : Covers R (seg :: path) (q :: qs) ↔ R seg q ∧ Covers R path qs := by
  rw [Covers, Covers, List.length_cons, List.length_cons, Nat.add_le_add_iff_right, List.zip_cons_cons,
    List.forall_mem_cons]
  exact and_left_comm

theorem Covers.mono (h : Covers R path qs) (hR : ∀ p ∈ path.zip qs, R p.1 p.2 → R' p.1 p.2) : Covers R' path qs :=
  ⟨h.1, fun p hp => hR p hp (h.2 p hp)⟩

theorem numbers_cons_inst (hq : q ≠ instanceText) : numbers (.inst :: path) (q :: qs) = q :: numbers path qs := by
  have hkept : decide (Segment.inst = .inst ∧ q ≠ instanceText) = true := decide_eq_true ⟨rfl, hq⟩
  rw [numbers, List.zip_cons_cons, List.filter_cons]
  exact congrArg (List.map Prod.snd) (if_pos hkept)

theorem numbers_cons_text (seg : Segment) (path : List Segment) (qs : List Text) :
    numbers (seg :: path) (seg.text :: qs) = numbers path qs := by
  rw [numbers, List.zip_cons_cons, List.filter_cons_of_neg]
  · rfl
  · rw [decide_eq_true_eq]
    rintro ⟨rfl, hne⟩
    exact hne rfl

theorem mem_numbers_iff : q ∈ numbers path qs ↔ (Segment.inst, q) ∈ path.zip qs ∧ q ≠ instanceText := by
  rw [numbers, List.mem_map]
  constructor
  · rintro ⟨⟨seg, q'⟩, hmem, rfl⟩
    rw [List.mem_filter, decide_eq_true_eq] at hmem
    obtain ⟨hzip, rfl, hne⟩ := hmem
    exact ⟨hzip, hne⟩
  · exact fun h => ⟨(.inst, q), List.mem_filter.mpr ⟨h.1, decide_eq_true ⟨rfl, h.2⟩⟩, rfl⟩

end

/-! ## One segment -/

section
variable {n q X Y w : Text} {inst : Int}

/-- Different texts end the comparison. -/
theorem checkMatchingLoop_differ (hn : ∀ c ∈ n, c ≠ '.' ∧ c ≠ '{') (hq : '.' ∉ q) (hne : q ≠ n) :
    checkMatchingLoop w (q ++ '.' :: X) false (n ++ '.' :: Y) inst = (false, 0) := by
  induction q generalizing n with
  | nil =>
      obtain ⟨b, n, rfl⟩ := List.exists_cons_of_ne_nil (Ne.symm hne)
      obtain ⟨hdot, hbrace⟩ := hn b List.mem_cons_self
      rw [List.nil_append, List.cons_append, checkMatchingLoop, if_neg hdot, if_neg fun h => hbrace h.1]
  | cons c q ih =>
      rw [List.mem_cons, not_or] at hq
      obtain - | ⟨b, n⟩ := n
      · rw [List.cons_append, List.nil_append, checkMatchingLoop, if_neg hq.1, if_neg fun h => absurd h.1 (by decide)]
      · rw [List.cons_append, List.cons_append, checkMatchingLoop]
        by_cases hbc : b = c
        · rw [if_pos hbc]
          exact ih (fun c hc => hn c (List.mem_cons_of_mem b hc)) hq.2 fun h => hne (by rw [hbc, h])
        · rw [if_neg hbc, if_neg fun h => (hn b List.mem_cons_self).2 h.1]

/-- A text that starts with a low digit is read as a number. -/
theorem checkMatchingLoop_number (hq : '.' ∉ q) (hlow : StartsLow q) :
    checkMatchingLoop w (q ++ '.' :: X) false (instanceText ++ '.' :: Y) inst =
      checkMatchingLoop w X false Y (numberRead q) := by
  obtain ⟨c, hc, hlow⟩ := hlow
  obtain ⟨t, rfl⟩ := List.head?_eq_some_iff.mp hc
  have hbrace : '{' ≠ c := by
    rintro rfl
    exact absurd hlow.2 (by decide)
  have hfirst : addDigit 0 c = (c.toNat : Int) - 48 := by
    rw [addDigit, toInt, Int.zero_mul, Int.zero_add]
    apply Int.bmod_eq_of_le
    · omega
    · omega
  rw [List.mem_cons, not_or] at hq
  rw [numberRead, List.foldl_cons, hfirst]
  show checkMatchingLoop w (c :: (t ++ '.' :: X)) false ('{' :: 'i' :: '}' :: '.' :: Y) inst = _
  rw [checkMatchingLoop, if_neg hbrace, if_pos ⟨rfl, hlow⟩, checkMatchingLoop_skip hq.2]
  rfl

/-- Any other text ends the comparison at `{i}`. -/
theorem checkMatchingLoop_no_number (hq : '.' ∉ q) (hne : q ≠ instanceText) (hlow : ¬StartsLow q) :
    checkMatchingLoop w (q ++ '.' :: X) false (instanceText ++ '.' :: Y) inst = (false, 0) := by
  have htail : ∀ c ∈ ['i', '}'], c ≠ '.' ∧ c ≠ '{' :=
    List.forall_mem_cons.mpr ⟨by decide, List.forall_mem_cons.mpr ⟨by decide, fun _ hc => absurd hc List.not_mem_nil⟩⟩
  obtain - | ⟨c, t⟩ := q
  · rfl
  · rw [List.mem_cons, not_or] at hq
    show checkMatchingLoop w (c :: (t ++ '.' :: X)) false ('{' :: (['i', '}'] ++ '.' :: Y)) inst = _
    rw [checkMatchingLoop]
    by_cases hc : '{' = c
    · rw [if_pos hc]
      exact checkMatchingLoop_differ htail hq.2 fun ht => hne (by rw [← hc, ht]; rfl)
    · rw [if_neg hc, if_neg fun h => hlow ⟨c, rfl, h.2⟩]

end

/-! ## The loop -/

section
variable {path : List Segment} {qs : List Text} {w : Text}

/-- The last of some numbers, or the number before. -/
theorem getLast?_read (q : Text) (l : List Text) (inst : Int) :
    ((q :: l).getLast?.map numberRead).getD inst = (l.getLast?.map numberRead).getD (numberRead q) := by
  obtain - | ⟨q', l⟩ := l
  · rfl
  · rw [List.getLast?_cons_cons, List.getLast?_cons]
    rfl

/-- A request that the loop takes along the path is read to its end, with its last number left over. -/
theorem checkMatchingLoop_covered (hdot : ∀ q ∈ qs, '.' ∉ q) (h : Covers Taken path qs) (inst : Int) :
    checkMatchingLoop w (joined qs) false (pathText path) inst =
      (true, if qs.length = path.length ∧ w[w.length - 2]? = some '}' then
        ((numbers path qs).getLast?.map numberRead).getD inst else 0) := by
  induction qs generalizing path inst with
  | nil =>
      show checkMatchingLoop w [] false (pathText path) inst = _
      rw [checkMatchingLoop]
      obtain - | ⟨seg, path⟩ := path
      · exact congrArg (Prod.mk true) (if_congr (and_congr_left' (iff_of_true rfl rfl)) rfl rfl)
      · rw [if_neg fun h => pathText_cons_ne_nil seg path h.1, if_neg fun h => Nat.succ_ne_zero _ h.1.symm]
  | cons q qs ih =>
      obtain - | ⟨seg, path⟩ := path
      · exact absurd h (not_covers_nil _ _ _)
      · obtain ⟨hseg, hrest⟩ := covers_cons.mp h
        rw [List.forall_mem_cons] at hdot
        simp only [joined_cons, pathText_cons, List.length_cons, Nat.add_right_cancel_iff]
        by_cases htext : q = seg.text
        · subst htext
          rw [checkMatchingLoop_segment, ih hdot.2 hrest, numbers_cons_text]
        · obtain ⟨rfl, hlow⟩ := hseg.resolve_left htext
          rw [Segment.text, checkMatchingLoop_number hdot.1 hlow, ih hdot.2 hrest, numbers_cons_inst htext,
            getLast?_read]

theorem checkMatchingLoop_not_covered (hdot : ∀ q ∈ qs, '.' ∉ q) (h : ¬Covers Taken path qs) (inst : Int) :
    checkMatchingLoop w (joined qs) false (pathText path) inst = (false, 0) := by
  induction qs generalizing path inst with
  | nil => exact absurd (covers_nil _ _) h
  | cons q qs ih =>
      rw [List.forall_mem_cons] at hdot
      obtain - | ⟨seg, path⟩ := path
      · obtain ⟨c, u, hu⟩ := List.exists_cons_of_ne_nil (joined_cons_ne_nil q qs)
        rw [hu]
        rfl
      · rw [joined_cons, pathText_cons]
        by_cases htext : q = seg.text
        · subst htext
          rw [checkMatchingLoop_segment]
          exact ih hdot.2 (fun hrest => h (covers_cons.mpr ⟨Or.inl rfl, hrest⟩)) inst
        · cases seg with
          | name n => exact checkMatchingLoop_differ (fun c hc => name_char n hc) hdot.1 htext
          | inst =>
              by_cases hlow : StartsLow q
              · rw [Segment.text, checkMatchingLoop_number hdot.1 hlow]
                exact ih hdot.2 (fun hrest => h (covers_cons.mpr ⟨Or.inr ⟨rfl, hlow⟩, hrest⟩)) _
              · exact checkMatchingLoop_no_number hdot.1 htext hlow

end

/-! ## The number -/

section
variable {path : List Segment} {qs : List Text} {q : Text}

theorem toInt_addDigit (n : Int) (c : Char) : addDigit (toInt n) c = toInt (n * 10 + ((c.toNat : Int) - 48)) := by
  rw [addDigit, toInt, toInt, toInt, ← Int.bmod_add_bmod, Int.bmod_mul_bmod, Int.bmod_add_bmod]

/-- Digits are read as their number, which wraps around. -/
theorem numberRead_digits (h : ∀ c ∈ q, c.isDigit = true) : numberRead q = toInt (natOf q) := by
  induction q using List.reverseRecOn with
  | nil => rfl
  | append_singleton t c ih =>
      have hc := toNat_of_isDigit (h c (by simp))
      have hnat : ((natOf (t ++ [c]) : Nat) : Int) = natOf t * 10 + ((c.toNat : Int) - 48) := by
        rw [natOf_concat]
        omega
      rw [numberRead, List.foldl_concat, ← numberRead, ih fun c hc => h c (List.mem_append_left _ hc), toInt_addDigit,
        hnat]

theorem toInt_eq_self_iff (n : Nat) : toInt n = n ↔ n < 2 ^ 31 := by
  rw [toInt, Int.bmod_def]
  split
  · omega
  · omega

theorem toInt_eq_zero_iff (n : Nat) : toInt n = 0 ↔ 2 ^ 32 ∣ n := by
  rw [toInt, ← Int.dvd_iff_bmod_eq_zero, Int.natCast_dvd_natCast]

/-- A path ends in `{i}` when its last character but one is a brace. -/
theorem last_brace_iff : (pathText path)[(pathText path).length - 2]? = some '}' ↔ path.getLast? = some .inst := by
  obtain rfl | ⟨z, seg, rfl⟩ := List.eq_nil_or_concat' path
  · exact iff_of_false (fun h => by cases h) fun h => by cases h
  · have hlast : ∀ (t : Text) (c : Char), (t ++ [c, '.'])[(t ++ [c, '.']).length - 2]? = some c := fun t c => by simp
    have htext : pathText (z ++ [seg]) = pathText z ++ (seg.text ++ ['.']) := by
      rw [pathText_append]
      simp [pathText]
    rw [htext, List.getLast?_concat, Option.some.injEq]
    cases seg with
    | inst =>
        have := hlast (pathText z ++ ['{', 'i']) '}'
        rw [List.append_assoc] at this
        exact iff_of_true this rfl
    | name n =>
        obtain ⟨t, c, hn⟩ := (List.eq_nil_or_concat' n.chars).resolve_left n.ne_nil
        have hc : c ≠ '}' := by
          rintro rfl
          have := n.ok '}' (by rw [hn]; exact List.mem_concat_self)
          revert this
          decide
        have := hlast (pathText z ++ t) c
        rw [Segment.text, hn, List.append_assoc t, List.singleton_append, ← List.append_assoc, this]
        exact iff_of_false (fun h => hc (Option.some.inj h)) Segment.noConfusion

end

/-! ## When the comparison is right -/

/-- The value of a segment; `{i}` has none. -/
def valueOf (q : Text) : Int := if Digits q then natOf q else 0

/-- The number to be delivered: the value of the last segment, where the request goes down to a final `{i}`. -/
def delivered (path : List Segment) (qs : List Text) : Int :=
  if qs.length = path.length ∧ path.getLast? = some .inst then (qs.getLast?.map valueOf).getD 0 else 0

/-- `checkMatchingParameter` takes the requests that cover the path and delivers the number. -/
def Compared (path : List Segment) (request : Text) : Prop :=
  ((checkMatchingParameter (pathText path) request).1 = true ↔ Covers SegmentText path (segments request)) ∧
    ((checkMatchingParameter (pathText path) request).1 = true →
      (checkMatchingParameter (pathText path) request).2 = delivered path (segments request))

/-- No number starts with 9, nothing stands behind a first digit but digits, and the number left over is that of the last
segment: an `int`, or nothing but multiples of `2 ^ 32` before a final `{i}`. -/
structure Comparable (path : List Segment) (qs : List Text) : Prop where
  nine : Covers SegmentText path qs → ∀ q ∈ numbers path qs, q.head? ≠ some '9'
  digits : Covers Taken path qs → ∀ q ∈ numbers path qs, Digits q
  last : Covers SegmentText path qs → qs.length = path.length → path.getLast? = some .inst →
    ∀ q ∈ (numbers path qs).getLast?, if qs.getLast? = some q then natOf q < 2 ^ 31 else 2 ^ 32 ∣ natOf q

section
variable {path : List Segment} {qs : List Text} {q : Text} {request : Text}

theorem startsLow_iff (h : Digits q) : StartsLow q ↔ q.head? ≠ some '9' := by
  obtain ⟨c, t, rfl⟩ := List.exists_cons_of_ne_nil h.1
  have hc := toNat_of_isDigit (h.2 c List.mem_cons_self)
  have hnine : (c :: t).head? ≠ some '9' ↔ c.toNat ≠ 57 := by
    rw [List.head?_cons, Ne, Option.some.injEq]
    exact not_congr ⟨fun h => h ▸ rfl, fun h => Char.toNat_inj.mp h⟩
  rw [hnine]
  constructor
  · rintro ⟨d, hd, hlow⟩
    obtain rfl := Option.some.inj hd
    omega
  · exact fun hne => ⟨c, rfl, by omega⟩

theorem digits_of_covers (h : Covers SegmentText path qs) : ∀ q ∈ numbers path qs, Digits q := fun q hq => by
  obtain ⟨hmem, hne⟩ := mem_numbers_iff.mp hq
  exact ((h.2 _ hmem).resolve_left hne).2

/-- The last segment is the last of the numbers, unless it is `{i}`. -/
theorem numbers_concat {z : List Segment} {y : List Text} (hlen : y.length = z.length) (q : Text) :
    numbers (z ++ [.inst]) (y ++ [q]) = numbers z y ++ if q = instanceText then [] else [q] := by
  rw [numbers, List.zip_append hlen.symm, List.filter_append, List.map_append]
  congr 1
  split
  · next hq =>
    rw [hq]
    rfl
  · next hq =>
    have hone : numbers [.inst] [q] = q :: numbers [] [] := numbers_cons_inst hq
    exact hone

/-- A request that goes down to a final `{i}` has a last segment for it. -/
theorem exists_last (hlen : qs.length = path.length) (hlast : path.getLast? = some .inst) :
    ∃ z y q, path = z ++ [.inst] ∧ qs = y ++ [q] ∧ y.length = z.length := by
  obtain ⟨z, rfl⟩ := List.getLast?_eq_some_iff.mp hlast
  obtain rfl | ⟨y, q, rfl⟩ := List.eq_nil_or_concat' qs
  · rw [List.length_append, List.length_singleton] at hlen
    exact absurd hlen.symm (Nat.succ_ne_zero _)
  · rw [List.length_append, List.length_append] at hlen
    exact ⟨z, y, q, rfl, rfl, Nat.add_right_cancel hlen⟩

/-- The number left over is the one to deliver. -/
theorem delivered_iff (h : Covers SegmentText path qs) (hlen : qs.length = path.length)
    (hlast : path.getLast? = some .inst) :
    ((numbers path qs).getLast?.map numberRead).getD 0 = delivered path qs ↔
      ∀ q ∈ (numbers path qs).getLast?, if qs.getLast? = some q then natOf q < 2 ^ 31 else 2 ^ 32 ∣ natOf q := by
  have hall := digits_of_covers h
  rw [delivered, if_pos ⟨hlen, hlast⟩]
  obtain ⟨z, y, q, rfl, rfl, hlen'⟩ := exists_last hlen hlast
  rw [List.getLast?_concat]
  rw [numbers_concat hlen'] at hall ⊢
  by_cases hq : q = instanceText
  · -- the last segment has no value, so what is left over of the numbers in front has to be 0
    have hvalue : valueOf q = 0 := by
      rw [hq]
      decide
    rw [if_pos hq, List.append_nil] at hall ⊢
    cases hl : (numbers z y).getLast? with
    | none => exact iff_of_true hvalue.symm fun q' hq' => by cases hq'
    | some q' =>
        have hmem := List.mem_of_getLast? hl
        have hne : q ≠ q' := fun h => (mem_numbers_iff.mp hmem).2 (h ▸ hq)
        have hread : numberRead q' = toInt (natOf q') := numberRead_digits (hall q' hmem).2
        show numberRead q' = valueOf q ↔ _
        rw [hvalue, hread, toInt_eq_zero_iff]
        simp only [Option.mem_def, Option.some.injEq, forall_eq', hne, if_false]
  · rw [if_neg hq] at hall ⊢
    have hdigits := hall q (List.mem_append_right _ List.mem_cons_self)
    have hread : numberRead q = toInt (natOf q) := numberRead_digits hdigits.2
    have hvalue : valueOf q = natOf q := if_pos hdigits
    rw [List.getLast?_concat]
    show numberRead q = valueOf q ↔ _
    rw [hvalue, hread, toInt_eq_self_iff]
    simp only [Option.mem_def, Option.some.injEq, forall_eq', if_true]

/-- What `checkMatchingParameter` returns. -/
theorem checkMatchingParameter_eq (path : List Segment) (h : request.getLast? = some '.') :
    ((checkMatchingParameter (pathText path) request).1 = true ↔ Covers Taken path (segments request)) ∧
      (Covers Taken path (segments request) → (checkMatchingParameter (pathText path) request).2 =
        if (segments request).length = path.length ∧ path.getLast? = some .inst then
          ((numbers path (segments request)).getLast?.map numberRead).getD 0 else 0) := by
  obtain ⟨hjoin, hdot⟩ := joined_segments h
  have hrun : checkMatchingParameter (pathText path) request =
      checkMatchingLoop (pathText path) (joined (segments request)) false (pathText path) 0 := by
    rw [hjoin]
    rfl
  rw [hrun]
  by_cases hcovers : Covers Taken path (segments request)
  · rw [checkMatchingLoop_covered hdot hcovers]
    exact ⟨iff_of_true rfl hcovers, fun _ => if_congr (and_congr_right' last_brace_iff) rfl rfl⟩
  · rw [checkMatchingLoop_not_covered hdot hcovers]
    exact ⟨iff_of_false Bool.false_ne_true hcovers, fun h => absurd h hcovers⟩

/-- Where the numbers are plain, what the loop takes is what spells the path. -/
theorem Comparable.covers_iff (h : Comparable path qs) : Covers Taken path qs ↔ Covers SegmentText path qs := by
  constructor
  · intro htaken
    apply htaken.mono
    rintro ⟨seg, q⟩ hmem (htext | ⟨rfl, -⟩)
    · exact Or.inl htext
    · by_cases hq : q = instanceText
      · exact Or.inl hq
      · exact Or.inr ⟨rfl, h.digits htaken q (mem_numbers_iff.mpr ⟨hmem, hq⟩)⟩
  · intro hspelled
    apply hspelled.mono
    rintro ⟨seg, q⟩ hmem (htext | ⟨rfl, hdigits⟩)
    · exact Or.inl htext
    · by_cases hq : q = instanceText
      · exact Or.inl hq
      · have hnine := h.nine hspelled q (mem_numbers_iff.mpr ⟨hmem, hq⟩)
        exact Or.inr ⟨rfl, (startsLow_iff hdigits).mpr hnine⟩

/-- **Status and number are right exactly for** the paths and requests that meet `Comparable`. -/
theorem compared_iff (path : List Segment) (h : request.getLast? = some '.') :
    Compared path request ↔ Comparable path (segments request) := by
  obtain ⟨hstatus, hnumber⟩ := checkMatchingParameter_eq path h
  rw [Compared, hstatus]
  generalize segments request = qs at hstatus hnumber ⊢
  constructor
  · rintro ⟨hcovers, hdelivered⟩
    refine ⟨fun hspelled q hq => ?_, fun htaken => digits_of_covers (hcovers.mp htaken), fun hspelled hlen hlast => ?_⟩
    · obtain ⟨hmem, hne⟩ := mem_numbers_iff.mp hq
      have hlow := (((hcovers.mpr hspelled).2 _ hmem).resolve_left hne).2
      exact (startsLow_iff (digits_of_covers hspelled q hq)).mp hlow
    · have htaken := hcovers.mpr hspelled
      rw [← delivered_iff hspelled hlen hlast, ← hdelivered htaken, hnumber htaken, if_pos ⟨hlen, hlast⟩]
  · intro hcomparable
    refine ⟨hcomparable.covers_iff, fun htaken => ?_⟩
    have hspelled := hcomparable.covers_iff.mp htaken
    rw [hnumber htaken]
    split
    · next hlast => exact (delivered_iff hspelled hlast.1 hlast.2).mpr (hcomparable.last hspelled hlast.1 hlast.2)
    · next hlast => rw [delivered, if_neg hlast]

end

/-- The interface with the number 12. -/
theorem compared_twelve : Compared ethernetPath "Device.Ethernet.Interface.12.".toList := by
  have hlast : "Device.Ethernet.Interface.12.".toList.getLast? = some '.' := by decide +kernel
  have hsegments : segments "Device.Ethernet.Interface.12.".toList =
      ["Device".toList, "Ethernet".toList, "Interface".toList, "12".toList] := by decide +kernel
  apply (compared_iff ethernetPath hlast).mpr
  rw [hsegments]
  exact ⟨fun _ => by decide +kernel, fun _ => by decide +kernel, fun _ _ _ => by decide +kernel⟩

/-- The interface with the number 9 is not found, `1x` is taken for the first one, and an earlier number is delivered for
a final `{i}`. -/
theorem not_compared :
    ¬Compared ethernetPath "Device.Ethernet.Interface.9.".toList ∧
      ¬Compared ethernetPath "Device.Ethernet.Interface.1x.".toList ∧
      ¬Compared (ethernetPath ++ [interface, .inst]) "Device.Ethernet.Interface.3.Interface.{i}.".toList := by
  refine ⟨fun h => ?_, fun h => ?_, fun h => ?_⟩
  · have hcovers : Covers SegmentText ethernetPath (segments "Device.Ethernet.Interface.9.".toList) := by decide +kernel
    have hstatus := h.1.mpr hcovers
    exact absurd hstatus (by decide +kernel)
  · have hcovers := h.1.mp (by decide +kernel)
    exact absurd hcovers (by decide +kernel)
  · have hnumber := h.2 (by decide +kernel)
    exact absurd hnumber (by decide +kernel)

end Tr69HostIf.Waldb
