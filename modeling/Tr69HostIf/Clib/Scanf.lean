import Tr69HostIf.Clib.Ascii
import Tr69HostIf.Store.Scan

/-!
# Conversions of `sscanf`

A conversion takes what it reads from the front of a text and leaves the rest.

* `scanInt`, `scanSet`, `scanChar` : `%d`, `%n[^c]` and a character of the format;
* `NumberField w` : blanks, a sign and digits, which is what `%d` reads; `intOf w` : the `int` that it stores;
* `scanInt_iff`, `scanSet_iff` : what is read in front of a given rest;
* `StartsPositive w` : a positive number stands in front, `strtol_pos_iff`.
-/

namespace Tr69HostIf.Clib
open Store

/-- Blanks, an optional sign and at least one digit. -/
def NumberField (w : List Char) : Prop := Digits (splitSign (w.dropWhile isspace)).2

instance (w : List Char) : Decidable (NumberField w) := inferInstanceAs (Decidable (Digits _))

/-- The `int` stored for a number: the `long` that `strtol` makes of it, cut to 32 bits. -/
def intOf (w : List Char) : Int := Int.bmod (strtol w).1 (2 ^ 32)

/-- `%d`. -/
def scanInt (t : List Char) : Option (Int × List Char) :=
  if (splitSign (t.dropWhile isspace)).2.takeWhile Char.isDigit = [] then none else some (intOf t, (strtol t).2)

/-- `%n[^stop]`. -/
def scanSet (n : Nat) (stop : Char) (t : List Char) : Option (List Char × List Char) :=
  let w := (t.takeWhile fun c => c ≠ stop).take n
  if w = [] then none else some (w, t.drop w.length)

/-- A character of the format. -/
def scanChar (c : Char) : List Char → Option (List Char)
  | [] => none
  | a :: t => if a = c then some t else none

/-- `%n[^stop]` and the character that stops it, before the rest of the format. -/
def scanSetThen {β : Type} (n : Nat) (stop : Char) (k : List Char → List Char → Option β) (t : List Char) : Option β :=
  (scanSet n stop t).bind fun p => (scanChar stop p.2).bind (k p.1)

/-- `%d` and a character, before the rest of the format. -/
def scanIntThen {β : Type} (stop : Char) (k : Int → List Char → Option β) (t : List Char) : Option β :=
  (scanInt t).bind fun p => (scanChar stop p.2).bind (k p.1)

section
variable {t w x y r : List Char} {c stop : Char}

theorem splitSign_other (hminus : c ≠ '-') (hplus : c ≠ '+') : splitSign (c :: t) = (false, c :: t) := by
  unfold splitSign
  split
  · next heq =>
    injection heq with hc
    exact absurd hc hminus
  · next heq =>
    injection heq with hc
    exact absurd hc hplus
  · rfl

/-- A text is its sign and the rest. -/
theorem exists_sign (t : List Char) : ∃ sign, t = sign ++ (splitSign t).2 ∧ (∀ c ∈ sign, c = '-' ∨ c = '+') ∧
    ∀ x, Digits x → splitSign (sign ++ x) = ((splitSign t).1, x) := by
  have hdigits : ∀ x, Digits x → splitSign x = (false, x) := fun x hx => by
    obtain ⟨c, x, rfl⟩ := List.exists_cons_of_ne_nil hx.1
    exact splitSign_of_isDigit (hx.2 c List.mem_cons_self)
  have hnone : ∀ c ∈ ([] : List Char), c = '-' ∨ c = '+' := fun c hc => (List.not_mem_nil hc).elim
  obtain - | ⟨c, t⟩ := t
  · exact ⟨[], rfl, hnone, hdigits⟩
  · by_cases hminus : c = '-'
    · subst hminus
      exact ⟨['-'], rfl, fun c hc => Or.inl (List.mem_singleton.mp hc), fun x _ => rfl⟩
    · by_cases hplus : c = '+'
      · subst hplus
        exact ⟨['+'], rfl, fun c hc => Or.inr (List.mem_singleton.mp hc), fun x _ => rfl⟩
      · rw [splitSign_other hminus hplus]
        exact ⟨[], rfl, hnone, hdigits⟩

theorem not_space_of_sign (h : c = '-' ∨ c = '+') : isspace c = false := by
  obtain rfl | rfl := h
  · rfl
  · rfl

/-- There is nothing else in a number. -/
theorem NumberField.not_mem (h : NumberField w) (hspace : isspace c = false) (hsign : ¬(c = '-' ∨ c = '+'))
    (hdigit : c.isDigit = false) : c ∉ w := by
  intro hmem
  rw [← List.takeWhile_append_dropWhile (p := isspace) (l := w), List.mem_append] at hmem
  obtain hmem | hmem := hmem
  · rw [List.mem_takeWhile_imp hmem] at hspace
    cases hspace
  · obtain ⟨sign, heq, hall, -⟩ := exists_sign (w.dropWhile isspace)
    rw [heq, List.mem_append] at hmem
    exact hmem.elim (fun hc => hsign (hall c hc)) (Digits.not_mem h hdigit)

theorem splitSign_append (h : Digits (splitSign y).2) (hr : ∀ c ∈ r.head?, c.isDigit = false) :
    (splitSign (y ++ r)).1 = (splitSign y).1 ∧ (splitSign (y ++ r)).2.takeWhile Char.isDigit = (splitSign y).2 ∧
      (splitSign (y ++ r)).2.drop (splitSign y).2.length = r := by
  have hsplit : splitSign (y ++ r) = ((splitSign y).1, (splitSign y).2 ++ r) := by
    obtain - | ⟨c, y⟩ := y
    · exact absurd rfl h.1
    · by_cases hminus : c = '-'
      · subst hminus
        rfl
      · by_cases hplus : c = '+'
        · subst hplus
          rfl
        · rw [List.cons_append, splitSign_other hminus hplus, splitSign_other hminus hplus]
          rfl
  rw [hsplit]
  exact ⟨rfl, takeWhile_run h.2 hr, List.drop_left⟩

theorem NumberField.dropWhile_append (h : NumberField w) (r : List Char) :
    (w ++ r).dropWhile isspace = w.dropWhile isspace ++ r := by
  rw [List.dropWhile_append, if_neg]
  intro hnil
  rw [List.isEmpty_iff] at hnil
  rw [NumberField, hnil] at h
  exact h.1 rfl

/-- `strtol` reads a number to its end. -/
theorem strtol_append (h : NumberField w) (hr : ∀ c ∈ r.head?, c.isDigit = false) :
    strtol (w ++ r) = ((strtol w).1, r) := by
  obtain ⟨hsign, htake, hdrop⟩ := splitSign_append h hr
  have htake' : (splitSign (w.dropWhile isspace)).2.takeWhile Char.isDigit = (splitSign (w.dropWhile isspace)).2 :=
    takeWhile_digits h
  have hne : ¬(splitSign (w.dropWhile isspace)).2 = [] := h.1
  simp only [strtol, h.dropWhile_append, hsign, htake, htake', hdrop, if_neg hne]
  split
  · rfl
  · rfl

theorem scanInt_append (h : NumberField w) (hr : ∀ c ∈ r.head?, c.isDigit = false) :
    scanInt (w ++ r) = some (intOf w, r) := by
  obtain ⟨-, htake, -⟩ := splitSign_append h hr
  rw [scanInt, h.dropWhile_append, htake, if_neg h.1, intOf, strtol_append h hr]
  rfl

theorem dropWhile_blanks {b : List Char} (hb : ∀ c ∈ b, isspace c = true) (hx : ∀ c ∈ x, isspace c = false) :
    (b ++ x).dropWhile isspace = x := by
  rw [List.dropWhile_append_of_pos hb]
  obtain - | ⟨c, x⟩ := x
  · rfl
  · exact List.dropWhile_cons_of_neg (Bool.eq_false_iff.mp (hx c List.mem_cons_self))

/-- What `%d` reads is a number, up to what is not a digit. -/
theorem exists_numberField {v : Int} (h : scanInt t = some (v, r)) :
    ∃ w, t = w ++ r ∧ NumberField w ∧ v = intOf w := by
  rw [scanInt] at h
  split at h
  · cases h
  · next hne =>
    rw [Option.some.injEq, Prod.mk.injEq] at h
    obtain ⟨rfl, rfl⟩ := h
    obtain ⟨sign, hsign, hplain, hsplit⟩ := exists_sign (t.dropWhile isspace)
    generalize hx : (splitSign (t.dropWhile isspace)).2 = x at hsign hne
    have hdigits : Digits (x.takeWhile Char.isDigit) := ⟨hne, fun c hc => List.mem_takeWhile_imp hc⟩
    have hsolid : ∀ c ∈ sign ++ x.takeWhile Char.isDigit, isspace c = false := fun c hc =>
      (List.mem_append.mp hc).elim (fun hmem => not_space_of_sign (hplain c hmem))
        fun hmem => isspace_of_isDigit (hdigits.2 c hmem)
    have hfield : NumberField (t.takeWhile isspace ++ (sign ++ x.takeWhile Char.isDigit)) := by
      rw [NumberField, dropWhile_blanks (fun c hc => List.mem_takeWhile_imp hc) hsolid, hsplit _ hdigits]
      exact hdigits
    have hrest : ∀ c ∈ (x.dropWhile Char.isDigit).head?, c.isDigit = false := fun c hc => by
      have hnot := List.head?_dropWhile_not Char.isDigit x
      rw [Option.mem_def.mp hc] at hnot
      exact hnot
    have ht : t = t.takeWhile isspace ++ (sign ++ x.takeWhile Char.isDigit) ++ x.dropWhile Char.isDigit := by
      rw [List.append_assoc, List.append_assoc, List.takeWhile_append_dropWhile, ← hsign,
        List.takeWhile_append_dropWhile]
    have hread := strtol_append hfield hrest
    rw [← ht] at hread
    refine ⟨t.takeWhile isspace ++ (sign ++ x.takeWhile Char.isDigit), ?_, hfield, ?_⟩
    · rw [hread]
      exact ht
    · rw [intOf, hread, intOf]

/-- What `%d` reads in front of a text that does not start with a digit. -/
theorem scanInt_iff {v : Int} (hr : ∀ c ∈ r.head?, c.isDigit = false) :
    scanInt t = some (v, r) ↔ ∃ w, t = w ++ r ∧ NumberField w ∧ v = intOf w := by
  constructor
  · exact exists_numberField
  · rintro ⟨w, rfl, hw, rfl⟩
    exact scanInt_append hw hr

/-- What `%n[^stop]` reads in front of the character that stops it. -/
theorem scanSet_iff {n : Nat} :
    scanSet n stop t = some (w, stop :: r) ↔ t = w ++ stop :: r ∧ stop ∉ w ∧ w ≠ [] ∧ w.length ≤ n := by
  constructor
  · intro h
    rw [scanSet] at h
    split at h
    · cases h
    · next hne =>
      rw [Option.some.injEq, Prod.mk.injEq] at h
      obtain ⟨rfl, hdrop⟩ := h
      have hstop : stop ∉ t.takeWhile fun c => c ≠ stop := fun hmem => by
        have hself := List.mem_takeWhile_imp hmem
        rw [decide_eq_true_eq] at hself
        exact hself rfl
      have ht : t = (t.takeWhile fun c => c ≠ stop).take n ++ stop :: r := by
        have hprefix := (List.take_prefix n _).trans (List.takeWhile_prefix (l := t) fun c => decide (c ≠ stop))
        rw [← hdrop]
        exact (List.prefix_iff_eq_append.mp hprefix).symm
      exact ⟨ht, fun hmem => hstop (List.mem_of_mem_take hmem), hne, List.length_take_le n _⟩
  · rintro ⟨rfl, hstop, hne, hlen⟩
    have htake : ((w ++ stop :: r).takeWhile fun c => c ≠ stop).take n = w := by
      rw [takeWhile_ne hstop, List.take_of_length_le hlen]
    rw [scanSet, htake, if_neg hne, List.drop_left]

theorem scanChar_iff : scanChar c t = some r ↔ t = c :: r := by
  obtain - | ⟨a, t⟩ := t
  · exact iff_of_false (Option.some_ne_none r).symm (List.cons_ne_nil c r).symm
  · rw [scanChar, List.cons.injEq]
    split
    · next hc => rw [Option.some.injEq, and_iff_right hc]
    · next hc => exact iff_of_false (Option.some_ne_none r).symm fun h => hc h.1

variable {β : Type} {v : β}

theorem scanSetThen_iff {n : Nat} {k : List Char → List Char → Option β} :
    scanSetThen n stop k t = some v ↔
      ∃ w r, t = w ++ stop :: r ∧ (stop ∉ w ∧ w ≠ [] ∧ w.length ≤ n) ∧ k w r = some v := by
  rw [scanSetThen, Option.bind_eq_some_iff]
  constructor
  · rintro ⟨⟨w, u⟩, hset, hbind⟩
    obtain ⟨r, hchar, hk⟩ := Option.bind_eq_some_iff.mp hbind
    obtain rfl : u = stop :: r := scanChar_iff.mp hchar
    obtain ⟨ht, hw⟩ := scanSet_iff.mp hset
    exact ⟨w, r, ht, hw, hk⟩
  · rintro ⟨w, r, ht, hw, hk⟩
    exact ⟨(w, stop :: r), scanSet_iff.mpr ⟨ht, hw⟩, Option.bind_eq_some_iff.mpr ⟨r, scanChar_iff.mpr rfl, hk⟩⟩

theorem scanIntThen_iff {k : Int → List Char → Option β} (hstop : stop.isDigit = false) :
    scanIntThen stop k t = some v ↔ ∃ w r, t = w ++ stop :: r ∧ NumberField w ∧ k (intOf w) r = some v := by
  have hhead : ∀ r, ∀ c ∈ (stop :: r).head?, c.isDigit = false := fun r c hc => by
    rw [List.head?_cons, Option.mem_some] at hc
    exact hc ▸ hstop
  rw [scanIntThen, Option.bind_eq_some_iff]
  constructor
  · rintro ⟨⟨z, u⟩, hint, hbind⟩
    obtain ⟨r, hchar, hk⟩ := Option.bind_eq_some_iff.mp hbind
    obtain rfl : u = stop :: r := scanChar_iff.mp hchar
    obtain ⟨w, ht, hw, rfl⟩ := (scanInt_iff (hhead r)).mp hint
    exact ⟨w, r, ht, hw, hk⟩
  · rintro ⟨w, r, ht, hw, hk⟩
    exact ⟨(intOf w, stop :: r), (scanInt_iff (hhead r)).mpr ⟨w, ht, hw, rfl⟩,
      Option.bind_eq_some_iff.mpr ⟨r, scanChar_iff.mpr rfl, hk⟩⟩

/-! ## Plain numbers -/

theorem Digits.numberField (h : Digits w) : NumberField w := by
  rw [NumberField, h.split]
  exact h

/-- A number of an `int` is stored as it is. -/
theorem intOf_digits (h : Digits w) (hlt : natOf w < 2 ^ 31) : intOf w = natOf w := by
  have hlong : (natOf w : Int) ≤ 2 ^ 63 - 1 := by omega
  rw [intOf, strtol_digits h, min_eq_left hlong]
  apply Int.bmod_eq_of_le
  · omega
  · omega

/-! ## Positive numbers -/

/-- Blanks, a `+` or none, and the digits of a positive number, in front of anything. -/
def StartsPositive (w : List Char) : Prop :=
  ∃ b s d r, w = b ++ (s ++ d) ++ r ∧ (∀ c ∈ b, isspace c = true) ∧ (s = [] ∨ s = ['+']) ∧ Digits d ∧ 0 < natOf d

theorem exists_plus (h : (splitSign t).1 = false) : ∃ s, (s = [] ∨ s = ['+']) ∧ t = s ++ (splitSign t).2 := by
  obtain - | ⟨c, t⟩ := t
  · exact ⟨[], Or.inl rfl, rfl⟩
  · by_cases hplus : c = '+'
    · exact ⟨['+'], Or.inr rfl, by rw [hplus]; rfl⟩
    · by_cases hminus : c = '-'
      · rw [hminus] at h
        cases h
      · exact ⟨[], Or.inl rfl, by rw [splitSign_other hminus hplus]; rfl⟩

/-- Blanks, a plus and digits are a number, which `strtol` reads. -/
theorem strtol_plus {b s d : List Char} (hb : ∀ c ∈ b, isspace c = true) (hs : s = [] ∨ s = ['+']) (hd : Digits d)
    (hr : ∀ c ∈ r.head?, c.isDigit = false) : strtol (b ++ (s ++ d) ++ r) = (min (natOf d : Int) (2 ^ 63 - 1), r) := by
  have hplain : ∀ c ∈ s ++ d, isspace c = false := fun c hc => by
    obtain hmem | hmem := List.mem_append.mp hc
    · obtain rfl | rfl := hs
      · exact absurd hmem List.not_mem_nil
      · rw [List.mem_singleton.mp hmem]
        rfl
    · exact isspace_of_isDigit (hd.2 c hmem)
  have hsplit : splitSign ((b ++ (s ++ d)).dropWhile isspace) = (false, d) := by
    rw [dropWhile_blanks hb hplain]
    obtain rfl | rfl := hs
    · obtain ⟨c, d, rfl⟩ := List.exists_cons_of_ne_nil hd.1
      exact splitSign_of_isDigit (hd.2 c List.mem_cons_self)
    · rfl
  have hfield : NumberField (b ++ (s ++ d)) := by
    rw [NumberField, hsplit]
    exact hd
  have hread : (strtol (b ++ (s ++ d))).1 = min (natOf d : Int) (2 ^ 63 - 1) := by
    simp only [strtol, hsplit, takeWhile_digits hd, if_neg hd.1]
    rfl
  rw [strtol_append hfield hr, hread]

theorem strtol_pos_iff : 0 < (strtol w).1 ↔ StartsPositive w := by
  constructor
  · intro hpos
    have hdigits : ¬(splitSign (w.dropWhile isspace)).2.takeWhile Char.isDigit = [] := fun h => by
      rw [strtol, if_pos h] at hpos
      exact absurd hpos (lt_irrefl 0)
    rw [strtol, if_neg hdigits] at hpos
    have hsign : (splitSign (w.dropWhile isspace)).1 = false := by
      by_contra hneg
      rw [if_pos ((Bool.not_eq_false _).mp hneg)] at hpos
      omega
    rw [if_neg (by rw [hsign]; exact Bool.false_ne_true)] at hpos
    obtain ⟨s, hs, heq⟩ := exists_plus hsign
    refine ⟨w.takeWhile isspace, s, _, (splitSign (w.dropWhile isspace)).2.dropWhile Char.isDigit, ?_,
      fun c hc => List.mem_takeWhile_imp hc, hs, ⟨hdigits, fun c hc => List.mem_takeWhile_imp hc⟩, by omega⟩
    rw [List.append_assoc, List.append_assoc, List.takeWhile_append_dropWhile, ← heq, List.takeWhile_append_dropWhile]
  · rintro ⟨b, s, d, r, rfl, hb, hs, hd, hpos⟩
    -- the number goes on as long as there are digits
    have hall : Digits (d ++ r.takeWhile Char.isDigit) :=
      ⟨fun h => hd.1 (List.append_eq_nil_iff.mp h).1, fun c hc =>
        (List.mem_append.mp hc).elim (hd.2 c) fun hmem => List.mem_takeWhile_imp hmem⟩
    have hrest : ∀ c ∈ (r.dropWhile Char.isDigit).head?, c.isDigit = false := fun c hc => by
      have hnot := List.head?_dropWhile_not Char.isDigit r
      rw [Option.mem_def.mp hc] at hnot
      exact hnot
    have hw : b ++ (s ++ d) ++ r = b ++ (s ++ (d ++ r.takeWhile Char.isDigit)) ++ r.dropWhile Char.isDigit := by
      simp only [List.append_assoc, List.takeWhile_append_dropWhile]
    have hgrow : natOf d ≤ natOf (d ++ r.takeWhile Char.isDigit) := by
      rw [natOf_append]
      exact (Nat.le_mul_of_pos_left _ (Nat.pow_pos (by decide))).trans (Nat.le_add_right _ _)
    rw [hw, strtol_plus hb hs hall hrest]
    omega

end

end Tr69HostIf.Clib
