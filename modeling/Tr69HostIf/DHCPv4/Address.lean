import Tr69HostIf.Clib.Ascii
import Tr69HostIf.Clib.Scanf
import Tr69HostIf.Store.Lines

/-!
# The addresses that `isValidIPAddr` accepts

A pass over the characters counts the dots and whatever is not a digit, and a loop over the tokens of `strtok_r` looks at
the numbers. The tokenizer skips empty segments, so that it comes to four tokens behind three dots only when none is empty.

* `isValidIPAddr` : the code, both loops as recursions on what they use up;
* `isValidIPAddr_iff` : exactly the dotted quads of at most 15 characters are accepted.
-/

namespace Tr69HostIf.DHCPv4
open Store Clib

/-- `strtok_r` with one delimiter: the token, and what stands behind the delimiter that ends it. -/
def strtokR (delim : Char) (t : Text) : Option (Text × Text) :=
  let u := t.dropWhile fun c => c = delim
  if u = [] then none else some (u.takeWhile fun c => c ≠ delim, (u.dropWhile fun c => c ≠ delim).drop 1)

/-- The loop that counts: `count` dots, and `alpha` characters that are neither dots nor digits. -/
def countLoop : Nat → Nat → Text → Nat × Nat
  | count, alpha, [] => (count, alpha)
  | count, alpha, c :: t =>
      if c = '.' then countLoop (count + 1) alpha t
      else if c.isDigit then countLoop count alpha t
      else countLoop count (alpha + 1) t

/-- `val` is not above 255, and not negative. -/
def inRange (tptr : Text) : Bool := !(decide (255 < intOf tptr) || decide (intOf tptr < 0))

/-- `while(count)`, over the tokens behind the first. -/
def segmentLoop : Nat → Text → Bool
  | 0, _ => true
  | count + 1, rest =>
      match strtokR '.' rest with
      | some (tptr, rest) => if inRange tptr then segmentLoop count rest else false
      | none => false

/-- `hostIf_DHCPv4Client::isValidIPAddr`; `temp` has room for 15 characters. -/
def isValidIPAddr (addr : Text) : Bool :=
  if 15 < addr.length then false
  else
    let temp := addr
    let counts := countLoop 0 0 temp
    if counts.1 ≠ 3 then false
    else if counts.2 ≠ 0 then false
    else
      match strtokR '.' temp with
      | some (tptr, rest) => if inRange tptr then segmentLoop counts.1 rest else false
      | none => false

/-! ## Counting -/

section
variable {t w r : Text} {d : Char}

theorem countLoop_fst (count alpha : Nat) (t : Text) : (countLoop count alpha t).1 = count + t.count '.' := by
  induction t generalizing count alpha with
  | nil => rfl
  | cons c t ih =>
      rw [countLoop]
      split
      · next hc =>
        subst hc
        rw [ih, List.count_cons_self, Nat.add_right_comm, Nat.add_assoc]
      · next hc =>
        rw [List.count_cons_of_ne hc]
        split
        · exact ih count alpha
        · exact ih count (alpha + 1)

theorem countLoop_snd (count alpha : Nat) (t : Text) :
    (countLoop count alpha t).2 = alpha + t.countP fun c => c ≠ '.' && !c.isDigit := by
  induction t generalizing count alpha with
  | nil => rfl
  | cons c t ih =>
      rw [countLoop]
      split
      · next hc =>
        rw [ih, List.countP_cons_of_neg (by simp [hc])]
      · next hc =>
        split
        · next hdigit => rw [ih, List.countP_cons_of_neg (by simp [hdigit])]
        · next hdigit => rw [ih, List.countP_cons_of_pos (by simp [hc, hdigit]), Nat.add_right_comm, Nat.add_assoc]

/-- Three dots, and digits otherwise. -/
theorem counts_iff : ((countLoop 0 0 t).1 = 3 ∧ (countLoop 0 0 t).2 = 0) ↔
    t.count '.' = 3 ∧ ∀ c ∈ t, c = '.' ∨ c.isDigit = true := by
  rw [countLoop_fst, countLoop_snd, Nat.zero_add, Nat.zero_add, List.countP_eq_zero]
  refine and_congr_right fun _ => forall₂_congr fun c _ => ?_
  by_cases hc : c = '.'
  · simp [hc]
  · simp [hc]

/-! ## Tokens -/

/-- A token stands behind delimiters, and before the end or another one. -/
theorem strtokR_spec (h : strtokR d t = some (w, r)) : w ≠ [] ∧ d ∉ w ∧
    ∃ k, (t = List.replicate k d ++ w ∧ r = []) ∨ t = List.replicate k d ++ (w ++ d :: r) := by
  have hfront : t.takeWhile (fun c => c = d) = List.replicate (t.takeWhile fun c => c = d).length d :=
    List.eq_replicate_of_mem fun a ha => of_decide_eq_true (List.mem_takeWhile_imp (p := fun c => decide (c = d)) ha)
  have ht : t = List.replicate (t.takeWhile fun c => c = d).length d ++ t.dropWhile fun c => c = d := by
    rw [← hfront, List.takeWhile_append_dropWhile]
  have hhead := List.head?_dropWhile_not (fun c => decide (c = d)) t
  rw [strtokR] at h
  generalize hu : (t.dropWhile fun c => decide (c = d)) = u at h ht hhead
  split at h
  · cases h
  · next hne =>
    rw [Option.some.injEq, Prod.mk.injEq] at h
    obtain ⟨rfl, rfl⟩ := h
    obtain ⟨c, v, rfl⟩ := List.exists_cons_of_ne_nil hne
    have hc : c ≠ d := of_decide_eq_false hhead
    refine ⟨?_, fun hmem => ?_, (t.takeWhile fun c => c = d).length, ?_⟩
    · have hpos : (c :: v).takeWhile (fun c => c ≠ d) = c :: v.takeWhile fun c => c ≠ d :=
        List.takeWhile_cons_of_pos (decide_eq_true hc)
      rw [hpos]
      exact List.cons_ne_nil _ _
    · exact of_decide_eq_true (List.mem_takeWhile_imp (p := fun c => decide (c ≠ d)) hmem) rfl
    · have hsplit := List.takeWhile_append_dropWhile (p := fun c => decide (c ≠ d)) (l := c :: v)
      have hstop := List.head?_dropWhile_not (fun c => decide (c ≠ d)) (c :: v)
      generalize hrest : ((c :: v).dropWhile fun c => decide (c ≠ d)) = rest at hsplit hstop
      obtain - | ⟨a, rest⟩ := rest
      · rw [List.append_nil] at hsplit
        rw [hsplit]
        exact Or.inl ⟨ht, rfl⟩
      · have ha : a = d := of_not_not (of_decide_eq_false hstop)
        rw [ha] at hsplit
        exact Or.inr (by rw [List.drop_one, List.tail_cons, hsplit]; exact ht)

theorem strtokR_token (hne : w ≠ []) (hd : d ∉ w) (r : Text) : strtokR d (w ++ d :: r) = some (w, r) := by
  obtain ⟨c, v, rfl⟩ := List.exists_cons_of_ne_nil hne
  have hc : ¬decide (c = d) = true := fun h => hd (of_decide_eq_true h ▸ List.mem_cons_self)
  have hdrop : ((c :: v) ++ d :: r).dropWhile (fun c => c = d) = (c :: v) ++ d :: r := List.dropWhile_cons_of_neg hc
  rw [strtokR, hdrop, if_neg (List.append_ne_nil_of_left_ne_nil hne _), takeWhile_ne hd, dropWhile_ne hd]
  rfl

theorem strtokR_last (hne : w ≠ []) (hd : d ∉ w) : strtokR d w = some (w, []) := by
  obtain ⟨c, v, rfl⟩ := List.exists_cons_of_ne_nil hne
  have hc : ¬decide (c = d) = true := fun h => hd (of_decide_eq_true h ▸ List.mem_cons_self)
  have hall : ∀ a ∈ c :: v, decide (a ≠ d) = true := fun a ha => decide_eq_true fun heq => hd (heq ▸ ha)
  have hdrop : (c :: v).dropWhile (fun c => c = d) = c :: v := List.dropWhile_cons_of_neg hc
  rw [strtokR, hdrop, if_neg hne, List.takeWhile_eq_self_iff.mpr hall,
    List.dropWhile_eq_nil_iff.mpr hall]
  rfl

/-! ## Segments -/

/-- `n + 1` segments with dots between them. -/
def Dotted (P : Text → Prop) : Nat → Text → Prop
  | 0, t => P t
  | n + 1, t => ∃ w r, t = w ++ '.' :: r ∧ P w ∧ Dotted P n r

theorem Dotted.length_le {P : Text → Prop} {n : Nat} (hne : ∀ w, P w → w ≠ []) (h : Dotted P n t) :
    2 * n + 1 ≤ t.length := by
  induction n generalizing t with
  | zero => exact List.length_pos_iff.mpr (hne t h)
  | succ n ih =>
      obtain ⟨w, r, rfl, hw, hr⟩ := h
      have hwlen := List.length_pos_iff.mpr (hne w hw)
      have hrlen := ih hr
      rw [List.length_append, List.length_cons]
      omega

/-- Segments are short when there are many. -/
theorem Dotted.imp {P Q : Text → Prop} {n : Nat} (hne : ∀ w, P w → w ≠ []) (h : Dotted P n t)
    (hPQ : ∀ w, w ⊆ t → w.length + 2 * n ≤ t.length → P w → Q w) : Dotted Q n t := by
  induction n generalizing t with
  | zero => exact hPQ t (List.Subset.refl t) (Nat.le_refl _) h
  | succ n ih =>
      obtain ⟨w, r, rfl, hw, hr⟩ := h
      have hwlen := List.length_pos_iff.mpr (hne w hw)
      have hrlen := hr.length_le hne
      have hlen : (w ++ '.' :: r).length = w.length + (r.length + 1) := by rw [List.length_append, List.length_cons]
      refine ⟨w, r, rfl, hPQ w (List.subset_append_left _ _) (by omega) hw, ih hr fun v hv hvlen hP => ?_⟩
      exact hPQ v (fun c hc => List.mem_append_right _ (List.mem_cons_of_mem _ (hv hc))) (by omega) hP

/-- A segment as the loop takes it. -/
def Segment (w : Text) : Prop := w ≠ [] ∧ '.' ∉ w ∧ inRange w = true

theorem segmentLoop_of_dotted {n : Nat} (h : Dotted Segment n t) : segmentLoop (n + 1) t = true := by
  induction n generalizing t with
  | zero =>
      obtain ⟨hne, hdot, hrange⟩ := h
      rw [segmentLoop, strtokR_last hne hdot]
      exact if_pos hrange
  | succ n ih =>
      obtain ⟨w, r, rfl, ⟨hne, hdot, hrange⟩, hr⟩ := h
      rw [segmentLoop, strtokR_token hne hdot]
      exact (if_pos hrange).trans (ih hr)

/-- What a token and the rest of the loop say about the dots. -/
theorem count_token (hd : '.' ∉ w) (k : Nat) :
    (List.replicate k '.' ++ w).count '.' = k ∧
      (List.replicate k '.' ++ (w ++ '.' :: r)).count '.' = k + 1 + r.count '.' := by
  have hw : w.count '.' = 0 := List.count_eq_zero.mpr hd
  constructor
  · rw [List.count_append, List.count_replicate_self, hw, Nat.add_zero]
  · rw [List.count_append, List.count_append, List.count_replicate_self, hw, List.count_cons_self]
    omega

theorem segmentLoop_token {n : Nat} (h : segmentLoop (n + 1) t = true) :
    ∃ w r, strtokR '.' t = some (w, r) ∧ inRange w = true ∧ segmentLoop n r = true := by
  rw [segmentLoop] at h
  split at h
  · next w r htoken =>
    split at h
    · next hrange => exact ⟨w, r, htoken, hrange, h⟩
    · cases h
  · cases h

/-- `n + 1` tokens need `n` dots, and with no more dots than that they are all there is. -/
theorem dotted_of_segmentLoop {n : Nat} (h : segmentLoop (n + 1) t = true) :
    n ≤ t.count '.' ∧ (t.count '.' = n → Dotted Segment n t) := by
  induction n generalizing t with
  | zero =>
      obtain ⟨w, r, htoken, hrange, -⟩ := segmentLoop_token h
      obtain ⟨hne, hdot, k, ⟨rfl, -⟩ | rfl⟩ := strtokR_spec htoken
      · rw [(count_token hdot k (r := [])).1]
        refine ⟨Nat.zero_le _, ?_⟩
        rintro rfl
        exact ⟨hne, hdot, hrange⟩
      · rw [(count_token hdot k).2]
        exact ⟨Nat.zero_le _, fun hcount => by omega⟩
  | succ n ih =>
      obtain ⟨w, r, htoken, hrange, hloop⟩ := segmentLoop_token h
      obtain ⟨hle, hdotted⟩ := ih hloop
      obtain ⟨hne, hdot, k, ⟨-, rfl⟩ | rfl⟩ := strtokR_spec htoken
      · obtain ⟨w', r', hnone, -⟩ := segmentLoop_token hloop
        cases hnone
      · rw [(count_token hdot k).2]
        refine ⟨by omega, fun hcount => ?_⟩
        obtain rfl : k = 0 := by omega
        exact ⟨w, r, rfl, ⟨hne, hdot, hrange⟩, hdotted (by omega)⟩

/-! ## Dotted quads -/

/-- Decimal digits with a value of at most 255. -/
def Octet (w : Text) : Prop := Digits w ∧ natOf w ≤ 255

/-- A segment of digits that is not too long to be converted is in range when its value is. -/
theorem inRange_iff (h : Digits w) (hlen : w.length ≤ 9) : inRange w = true ↔ natOf w ≤ 255 := by
  have hlt : natOf w < 10 ^ 9 := lt_of_lt_of_le (natOf_lt h.2) (Nat.pow_le_pow_right (by decide) hlen)
  have hint : intOf w = natOf w := intOf_digits h (by omega)
  rw [inRange, hint, Bool.not_eq_true', Bool.or_eq_false_iff, decide_eq_false_iff_not, decide_eq_false_iff_not]
  omega

/-- The two passes. -/
theorem isValidIPAddr_eq (addr : Text) : isValidIPAddr addr = true ↔
    addr.length ≤ 15 ∧ ((countLoop 0 0 addr).1 = 3 ∧ (countLoop 0 0 addr).2 = 0) ∧ segmentLoop 4 addr = true := by
  rw [isValidIPAddr]
  by_cases hlen : 15 < addr.length
  · rw [if_pos hlen]
    exact iff_of_false Bool.false_ne_true fun h => Nat.not_lt.mpr h.1 hlen
  · rw [if_neg hlen]
    by_cases hdots : (countLoop 0 0 addr).1 = 3
    · by_cases halpha : (countLoop 0 0 addr).2 = 0
      · simp only [hdots, halpha, ne_eq, not_true_eq_false, if_false, and_self, true_and, Nat.not_lt.mp hlen]
        rfl
      · simp only [hdots, halpha, ne_eq, not_true_eq_false, not_false_eq_true, if_false, if_true, and_false, false_and]
        exact iff_of_false Bool.false_ne_true id
    · simp only [hdots, ne_eq, not_false_eq_true, if_true, false_and, and_false]
      exact iff_of_false Bool.false_ne_true id

theorem segment_iff (hdigits : ∀ c ∈ w, c = '.' ∨ c.isDigit = true) (hlen : w.length ≤ 9) : Segment w ↔ Octet w := by
  constructor
  · rintro ⟨hne, hdot, hrange⟩
    have hw : Digits w := ⟨hne, fun c hc => (hdigits c hc).resolve_left fun heq => hdot (heq ▸ hc)⟩
    exact ⟨hw, (inRange_iff hw hlen).mp hrange⟩
  · rintro ⟨hw, hle⟩
    exact ⟨hw.1, hw.not_mem (by decide), (inRange_iff hw hlen).mpr hle⟩

/-- Four segments of digits, each short as there are four of them. -/
theorem dotted_iff (hdigits : ∀ c ∈ t, c = '.' ∨ c.isDigit = true) (hlen : t.length ≤ 15) :
    Dotted Segment 3 t ↔ Dotted Octet 3 t := by
  constructor
  · intro h
    apply h.imp (fun w hw => hw.1)
    exact fun w hw hwlen => (segment_iff (fun c hc => hdigits c (hw hc)) (by omega)).mp
  · intro h
    apply h.imp (fun w hw => hw.1.1)
    exact fun w hw hwlen => (segment_iff (fun c hc => hdigits c (hw hc)) (by omega)).mpr

/-- What the first pass finds in numbers with dots between them. -/
theorem Dotted.counts {n : Nat} (h : Dotted Octet n t) :
    t.count '.' = n ∧ ∀ c ∈ t, c = '.' ∨ c.isDigit = true := by
  induction n generalizing t with
  | zero => exact ⟨List.count_eq_zero.mpr (h.1.not_mem (by decide)), fun c hc => Or.inr (h.1.2 c hc)⟩
  | succ n ih =>
      obtain ⟨w, r, rfl, hw, hr⟩ := h
      obtain ⟨hcount, hdigits⟩ := ih hr
      constructor
      · rw [List.count_append, List.count_eq_zero.mpr (hw.1.not_mem (by decide)), List.count_cons_self, hcount,
          Nat.zero_add]
      · intro c hc
        obtain hc | hc := List.mem_append.mp hc
        · exact Or.inr (hw.1.2 c hc)
        · exact (List.mem_cons.mp hc).elim Or.inl (hdigits c)

theorem isValidIPAddr_dotted (addr : Text) : isValidIPAddr addr = true ↔ addr.length ≤ 15 ∧ Dotted Octet 3 addr := by
  rw [isValidIPAddr_eq]
  refine and_congr_right fun hlen => ?_
  rw [counts_iff]
  constructor
  · rintro ⟨⟨hcount, hdigits⟩, hloop⟩
    exact (dotted_iff hdigits hlen).mp ((dotted_of_segmentLoop hloop).2 hcount)
  · intro h
    exact ⟨h.counts, segmentLoop_of_dotted ((dotted_iff h.counts.2 hlen).mpr h)⟩

/-- **The addresses accepted are the dotted quads** of at most 15 characters. -/
theorem isValidIPAddr_iff (addr : Text) : isValidIPAddr addr = true ↔
    addr.length ≤ 15 ∧ ∃ a b c d, addr = a ++ '.' :: (b ++ '.' :: (c ++ '.' :: d)) ∧
      Octet a ∧ Octet b ∧ Octet c ∧ Octet d := by
  rw [isValidIPAddr_dotted]
  refine and_congr_right fun _ => ?_
  constructor
  · rintro ⟨a, -, rfl, ha, b, -, rfl, hb, c, d, rfl, hc, hd⟩
    exact ⟨a, b, c, d, rfl, ha, hb, hc, hd⟩
  · rintro ⟨a, b, c, d, rfl, ha, hb, hc, hd⟩
    exact ⟨a, _, rfl, ha, b, _, rfl, hb, c, d, rfl, hc, hd⟩

end

end Tr69HostIf.DHCPv4
