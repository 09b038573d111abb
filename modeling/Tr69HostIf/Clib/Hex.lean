import Tr69HostIf.Clib.Decimal

/-!
# Hexadecimal numbers in C

`strtoul` with base 16, and `printf` with a fixed width, for 64-bit `long`.

* `printHex w n` : the conversion `%0wX` of a number with at most `w` digits;
* `strtoulHex t` : the number a text begins with, `hexOf t` the number of a string of digits;
* `hexOf_printHex` : a printed number is read back, `strtoulHex_printHex` by `strtoul` too;
* `isxdigit_printHex`, `length_printHex` : what is printed;
* `printHexNat n` : the conversion `%x`, read back by `hexOf_printHexNat`.
-/

namespace Tr69HostIf.Clib

/-- The digits of `%X`. -/
def hexDigits : List Char := ['0', '1', '2', '3', '4', '5', '6', '7', '8', '9', 'A', 'B', 'C', 'D', 'E', 'F']

/-- A digit of `%X`. -/
def hexDigit (n : Nat) : Char := hexDigits.getD (n % 16) '0'

/-- `%0wX`. -/
def printHex : Nat → Nat → List Char
  | 0, _ => []
  | w + 1, n => printHex w (n / 16) ++ [hexDigit n]

/-- `isxdigit`. -/
def isxdigit (c : Char) : Bool := c.isDigit || ('a' ≤ c && c ≤ 'f') || ('A' ≤ c && c ≤ 'F')

/-- The value of a digit. -/
def hexValue (c : Char) : Nat :=
  if c.isDigit then c.toNat - 48 else if 'a' ≤ c then c.toNat - 87 else c.toNat - 55

/-- The number a string of digits denotes. -/
def hexOf (t : List Char) : Nat := t.foldl (fun n c => 16 * n + hexValue c) 0

/-- The text behind an optional `0x`. -/
def dropHexMark : List Char → List Char
  | '0' :: x :: c :: t => if (x = 'x' ∨ x = 'X') ∧ isxdigit c = true then c :: t else '0' :: x :: c :: t
  | t => t

/-- `strtoul(t, NULL, 16)`. -/
def strtoulHex (t : List Char) : Nat :=
  let s := splitSign (t.dropWhile isspace)
  let n := hexOf ((dropHexMark s.2).takeWhile isxdigit)
  if 2 ^ 64 ≤ n then 2 ^ 64 - 1 else if s.1 then (2 ^ 64 - n) % 2 ^ 64 else n

/-! ## Printed numbers -/

theorem hexDigit_spec (n : Nat) : isxdigit (hexDigit n) = true ∧ hexValue (hexDigit n) = n % 16 := by
  have hall : ∀ d < 16, isxdigit (hexDigits.getD d '0') = true ∧ hexValue (hexDigits.getD d '0') = d := by decide
  exact hall (n % 16) (Nat.mod_lt n (by decide))

theorem length_printHex (w n : Nat) : (printHex w n).length = w := by
  induction w generalizing n with
  | zero => rfl
  | succ w ih => rw [printHex, List.length_append, ih, List.length_singleton]

theorem isxdigit_printHex {w n : Nat} : ∀ c ∈ printHex w n, isxdigit c = true := by
  induction w generalizing n with
  | zero => intro c hc; cases hc
  | succ w ih =>
      intro c hc
      rw [printHex, List.mem_append, List.mem_singleton] at hc
      rcases hc with hc | rfl
      · exact ih c hc
      · exact (hexDigit_spec n).1

/-- **A printed number is read back.** -/
theorem hexOf_printHex {w n : Nat} (h : n < 16 ^ w) : hexOf (printHex w n) = n := by
  induction w generalizing n with
  | zero =>
      rw [pow_zero, Nat.lt_one_iff] at h
      rw [h]
      rfl
  | succ w ih =>
      have hn : n / 16 < 16 ^ w := by
        rw [pow_succ] at h
        omega
      rw [printHex, hexOf, List.foldl_append]
      show 16 * hexOf (printHex w (n / 16)) + hexValue (hexDigit n) = n
      rw [ih hn, (hexDigit_spec n).2]
      omega

theorem xdigit_ne {c d : Char} (h : isxdigit c = true) (hd : isxdigit d = false) : c ≠ d := by
  rintro rfl
  rw [h] at hd
  cases hd

/-- Digits are no space and no sign. -/
theorem splitSign_xdigits {t : List Char} (h : ∀ c ∈ t, isxdigit c = true) :
    splitSign (t.dropWhile isspace) = (false, t) := by
  cases t with
  | nil => rfl
  | cons c t =>
      have hc := h c List.mem_cons_self
      have hspace : isspace c = false := by
        simp only [isspace, Bool.or_eq_false_iff, decide_eq_false_iff_not]
        refine ⟨⟨⟨⟨⟨?_, ?_⟩, ?_⟩, ?_⟩, ?_⟩, ?_⟩ <;> exact xdigit_ne hc (by decide)
      rw [List.dropWhile_cons_of_neg (by rw [hspace]; exact Bool.false_ne_true)]
      unfold splitSign
      split
      · next heq => exact absurd (List.cons.inj heq).1 (xdigit_ne hc (by decide))
      · next heq => exact absurd (List.cons.inj heq).1 (xdigit_ne hc (by decide))
      · rfl

theorem dropHexMark_xdigits {t : List Char} (h : ∀ c ∈ t, isxdigit c = true) : dropHexMark t = t := by
  unfold dropHexMark
  split
  · next x c t =>
    have hx := h x (by simp)
    rw [if_neg]
    rintro ⟨rfl | rfl, -⟩
    · exact absurd hx (by decide)
    · exact absurd hx (by decide)
  · rfl

theorem strtoulHex_printHex {w n : Nat} (hw : w ≤ 16) (h : n < 16 ^ w) : strtoulHex (printHex w n) = n := by
  have hall : ∀ c ∈ printHex w n, isxdigit c = true := isxdigit_printHex
  have htake : (printHex w n).takeWhile isxdigit = printHex w n := List.takeWhile_eq_self_iff.mpr hall
  have hlt : n < 2 ^ 64 := Nat.lt_of_lt_of_le h (Nat.pow_le_pow_right (by decide) hw)
  simp only [strtoulHex, splitSign_xdigits hall, dropHexMark_xdigits hall, htake, hexOf_printHex h]
  rw [if_neg (by omega)]
  rfl

/-! ## `%x` -/

/-- `%x`. -/
def printHexNat (n : Nat) : List Char := Nat.toDigits 16 n

theorem digitChar_spec {d : Nat} (h : d < 16) : isxdigit d.digitChar = true ∧ hexValue d.digitChar = d := by
  have hall : ∀ d < 16, isxdigit d.digitChar = true ∧ hexValue d.digitChar = d := by decide
  exact hall d h

theorem hexOf_printHexNat (n : Nat) : hexOf (printHexNat n) = n := by
  induction n using Nat.strong_induction_on with
  | _ n ih =>
      unfold printHexNat at ih ⊢
      rw [Nat.toDigits_eq_if (by decide)]
      split
      · next h =>
        show 16 * 0 + hexValue n.digitChar = n
        rw [(digitChar_spec h).2]
        omega
      · next h =>
        rw [hexOf, List.foldl_append]
        show 16 * hexOf (Nat.toDigits 16 (n / 16)) + hexValue (n % 16).digitChar = n
        rw [ih (n / 16) (by omega), (digitChar_spec (Nat.mod_lt n (by decide))).2]
        omega

theorem printHexNat_injective {m n : Nat} (h : printHexNat m = printHexNat n) : m = n := by
  rw [← hexOf_printHexNat m, h, hexOf_printHexNat]

theorem isxdigit_printHexNat (n : Nat) : ∀ c ∈ printHexNat n, isxdigit c = true := by
  induction n using Nat.strong_induction_on with
  | _ n ih =>
      unfold printHexNat at ih ⊢
      rw [Nat.toDigits_eq_if (by decide)]
      split
      · next h =>
        intro c hc
        rw [List.mem_singleton.mp hc]
        exact (digitChar_spec h).1
      · next h =>
        intro c hc
        rcases List.mem_append.mp hc with hc | hc
        · exact ih (n / 16) (by omega) c hc
        · rw [List.mem_singleton.mp hc]
          exact (digitChar_spec (Nat.mod_lt n (by decide))).1

end Tr69HostIf.Clib
