import Mathlib.Algebra.Group.Int.Defs
import Mathlib.Algebra.Group.Nat.Defs
import Mathlib.Data.Int.Order.Basic
import Mathlib.Data.List.TakeWhile

/-!
# Decimal numbers in C

`strtol`, `strtoul` and what `printf` makes of a number, for 64-bit `long`.

* `printNat`, `printInt` : the conversions `%u`, `%lu` and `%d`;
* `strtol t`, `strtoul t` : the number and the rest of the text, out-of-range numbers clamped;
* `Digits t` : a non-empty string of decimal digits, `natOf t` its number;
* `strtol_digits`, `strtol_neg`, `strtoul_digits` : what is read from a literal, `strtol_printInt` : a printed
  number is read back;
* `ReadWhole t` : a text that `strtol` reads to its end, `strtol_snd_eq_nil_iff`.
-/

namespace Tr69HostIf.Clib

/-- `isspace` in the C locale. -/
def isspace (c : Char) : Bool := c = ' ' || c = '\t' || c = '\n' || c = '\x0b' || c = '\x0c' || c = '\r'

/-- The number a string of digits denotes. -/
def natOf (t : List Char) : Nat := Nat.ofDigitChars 10 t 0

/-- `%u` and `%lu`. -/
def printNat (n : Nat) : List Char := Nat.toDigits 10 n

/-- `%d`. -/
def printInt (z : Int) : List Char := if z < 0 then '-' :: printNat z.natAbs else printNat z.toNat

/-- An optional sign. -/
def splitSign : List Char → Bool × List Char
  | '-' :: t => (true, t)
  | '+' :: t => (false, t)
  | t => (false, t)

/-- `strtol(t, &tail, 10)`; without a digit nothing is read. -/
def strtol (t : List Char) : Int × List Char :=
  let s := splitSign (t.dropWhile isspace)
  let ds := s.2.takeWhile Char.isDigit
  if ds = [] then (0, t)
  else if s.1 then (max (-(natOf ds : Int)) (-2 ^ 63), s.2.drop ds.length)
  else (min (natOf ds : Int) (2 ^ 63 - 1), s.2.drop ds.length)

/-- `strtoul(t, &tail, 10)`. -/
def strtoul (t : List Char) : Nat × List Char :=
  let s := splitSign (t.dropWhile isspace)
  let ds := s.2.takeWhile Char.isDigit
  if ds = [] then (0, t)
  else if 2 ^ 64 ≤ natOf ds then (2 ^ 64 - 1, s.2.drop ds.length)
  else if s.1 then ((2 ^ 64 - natOf ds) % 2 ^ 64, s.2.drop ds.length)
  else (natOf ds, s.2.drop ds.length)

/-- A non-empty string of decimal digits. -/
def Digits (t : List Char) : Prop := t ≠ [] ∧ ∀ c ∈ t, c.isDigit = true

instance (t : List Char) : Decidable (Digits t) := @instDecidableAnd _ _ _ (List.decidableBAll _ t)

theorem digits_printNat (n : Nat) : Digits (printNat n) :=
  ⟨Nat.toDigits_ne_nil, fun _ hc => Nat.isDigit_of_mem_toDigits (by decide) (by decide) hc⟩

theorem printInt_natCast (n : Nat) : printInt n = printNat n := if_neg (Int.not_lt.mpr (Int.natCast_nonneg n))

@[simp] theorem natOf_printNat (n : Nat) : natOf (printNat n) = n := Nat.ofDigitChars_ten_toDigits

theorem Digits.not_mem {t : List Char} (h : Digits t) {c : Char} (hc : c.isDigit = false) : c ∉ t := fun hmem => by
  rw [h.2 c hmem] at hc
  cases hc

theorem printNat_injective {m n : Nat} (h : printNat m = printNat n) : m = n := by
  rw [← natOf_printNat m, h, natOf_printNat]

section
variable {t : List Char}

theorem isspace_of_isDigit {c : Char} (h : c.isDigit = true) : isspace c = false := by
  cases hs : isspace c with
  | false => rfl
  | true =>
      simp only [isspace, Bool.or_eq_true, decide_eq_true_eq] at hs
      rcases hs with ((((rfl | rfl) | rfl) | rfl) | rfl) | rfl <;> simp at h

theorem splitSign_of_isDigit {c : Char} (h : c.isDigit = true) : splitSign (c :: t) = (false, c :: t) := by
  unfold splitSign
  split
  · next heq =>
    injection heq with hc
    subst hc
    simp at h
  · next heq =>
    injection heq with hc
    subst hc
    simp at h
  · rfl

theorem takeWhile_digits (h : Digits t) : t.takeWhile Char.isDigit = t := List.takeWhile_eq_self_iff.mpr h.2

theorem Digits.split (h : Digits t) : splitSign (t.dropWhile isspace) = (false, t) := by
  obtain ⟨c, r, rfl⟩ := List.exists_cons_of_ne_nil h.1
  have hc := h.2 c List.mem_cons_self
  rw [List.dropWhile_cons_of_neg (by simp [isspace_of_isDigit hc]), splitSign_of_isDigit hc]

theorem strtol_digits (h : Digits t) : strtol t = (min (natOf t : Int) (2 ^ 63 - 1), []) := by
  simp only [strtol, h.split, takeWhile_digits h, if_neg h.1, List.drop_length]
  rfl

theorem strtol_neg (h : Digits t) : strtol ('-' :: t) = (max (-(natOf t : Int)) (-2 ^ 63), []) := by
  have hs : splitSign (('-' :: t).dropWhile isspace) = (true, t) := rfl
  simp only [strtol, hs, takeWhile_digits h, if_neg h.1, List.drop_length]
  rfl

theorem strtoul_digits (h : Digits t) : strtoul t = (min (natOf t) (2 ^ 64 - 1), []) := by
  simp only [strtoul, h.split, takeWhile_digits h, if_neg h.1, List.drop_length]
  split
  · next hle => rw [min_eq_right (by omega)]
  · next hlt => rw [min_eq_left (by omega)]; rfl

end

/-- **A printed number is read back.** -/
theorem strtol_printInt {z : Int} (h : -2 ^ 63 ≤ z) (h' : z < 2 ^ 63) : strtol (printInt z) = (z, []) := by
  unfold printInt
  split
  · rw [strtol_neg (digits_printNat _), natOf_printNat]
    congr 1
    omega
  · rw [strtol_digits (digits_printNat _), natOf_printNat]
    congr 1
    omega

/-- How wide a number is printed. -/
theorem length_printInt_le_iff {z : Int} {w : Nat} (hw : 0 < w) :
    (printInt z).length ≤ w + 1 ↔ -10 ^ w < z ∧ z < 10 ^ (w + 1) := by
  have hpow : ((10 ^ w : Nat) : Int) = 10 ^ w := Int.natCast_pow 10 w
  have hpow' : ((10 ^ (w + 1) : Nat) : Int) = 10 ^ (w + 1) := Int.natCast_pow 10 (w + 1)
  have hpos : 0 < 10 ^ w := Nat.pow_pos (by decide)
  have hpos' : 0 < 10 ^ (w + 1) := Nat.pow_pos (by decide)
  rw [← hpow, ← hpow']
  by_cases hneg : z < 0
  · have hlen := Nat.length_toDigits_le_iff (b := 10) (n := z.natAbs) (by decide) hw
    rw [printInt, if_pos hneg, List.length_cons, printNat, Nat.add_le_add_iff_right, hlen]
    omega
  · have hlen := Nat.length_toDigits_le_iff (b := 10) (n := z.toNat) (by decide) w.succ_pos
    rw [printInt, if_neg hneg, printNat, hlen]
    omega

/-! ## Texts that are read to the end -/

/-- What `strtol` reads to the end: the empty text, or blanks, a sign and digits. -/
def ReadWhole (t : List Char) : Prop := t = [] ∨ Digits (splitSign (t.dropWhile isspace)).2

instance (t : List Char) : Decidable (ReadWhole t) := inferInstanceAs (Decidable (_ ∨ _))

theorem drop_takeWhile_eq_nil_iff {t : List Char} :
    t.drop (t.takeWhile Char.isDigit).length = [] ↔ ∀ c ∈ t, c.isDigit = true := by
  have hdrop : t.drop (t.takeWhile Char.isDigit).length = t.dropWhile Char.isDigit := by
    have happ := List.takeWhile_append_dropWhile (p := Char.isDigit) (l := t)
    calc t.drop (t.takeWhile Char.isDigit).length
        = (t.takeWhile Char.isDigit ++ t.dropWhile Char.isDigit).drop (t.takeWhile Char.isDigit).length := by rw [happ]
      _ = t.dropWhile Char.isDigit := List.drop_left
  rw [hdrop, List.dropWhile_eq_nil_iff]

theorem strtol_snd_eq_nil_iff {t : List Char} : (strtol t).2 = [] ↔ ReadWhole t := by
  unfold ReadWhole Digits
  by_cases hds : (splitSign (t.dropWhile isspace)).2.takeWhile Char.isDigit = []
  · have hno : ¬ Digits (splitSign (t.dropWhile isspace)).2 := fun h => by
      rw [takeWhile_digits h] at hds
      exact h.1 hds
    have heq : strtol t = (0, t) := by simp only [strtol, if_pos hds]
    rw [heq]
    exact ⟨Or.inl, fun h => h.resolve_right hno⟩
  · have hne : (splitSign (t.dropWhile isspace)).2 ≠ [] := fun h => by
      rw [h] at hds
      exact hds rfl
    have ht : t ≠ [] := by
      rintro rfl
      exact hds rfl
    have heq : (strtol t).2 = (splitSign (t.dropWhile isspace)).2.drop
        ((splitSign (t.dropWhile isspace)).2.takeWhile Char.isDigit).length := by
      unfold strtol
      simp only [if_neg hds]
      split <;> rfl
    rw [heq, drop_takeWhile_eq_nil_iff]
    exact ⟨fun h => Or.inr ⟨hne, h⟩, fun h => (h.resolve_left ht).2⟩

end Tr69HostIf.Clib
