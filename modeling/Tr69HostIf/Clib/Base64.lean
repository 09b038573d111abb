import Tr69HostIf.Clib.Bits

/-!
# Base64

* `alphabet`, `encode` : the standard encoding with padding;
* `sextets t` : the values of the digits in front of the padding, other characters left out (`sextets_filter`);
* `bits_encode` : the sextets of an encoding hold the bits of the bytes, and fewer than six zeros.
-/

namespace Tr69HostIf.Clib

/-! ## The encoding -/

/-- The digits of base 64. -/
def alphabet : List Char := "ABCDEFGHIJKLMNOPQRSTUVWXYZabcdefghijklmnopqrstuvwxyz0123456789+/".toList

/-- A digit. -/
def digit (n : Nat) : Char := alphabet.getD n 'A'

/-- The value of a digit. -/
def sextet (c : Char) : Option Nat := alphabet.findIdx? (· == c)

/-- Four digits for three bytes, with `=` for what is missing at the end. -/
def encode : List Nat → List Char
  | [] => []
  | [a] => [digit (a / 4), digit (a % 4 * 16), '=', '=']
  | [a, b] => [digit (a / 4), digit (a % 4 * 16 + b / 16), digit (b % 16 * 4), '=']
  | a :: b :: c :: l =>
      digit (a / 4) :: digit (a % 4 * 16 + b / 16) :: digit (b % 16 * 4 + c / 64) :: digit (c % 64) :: encode l

theorem sextet_digit {n : Nat} (h : n < 64) : sextet (digit n) = some n := by
  have hall : ∀ n < 64, sextet (digit n) = some n := by decide +kernel
  exact hall n h

theorem sextet_lt {c : Char} {n : Nat} (h : sextet c = some n) : n < 64 := by
  have := (List.findIdx?_eq_some_iff_findIdx_eq.mp h).1
  exact this

/-! ## The bits of an encoding -/

/-- The digits of a text in front of the padding, and their values. -/
def sextets (t : List Char) : List Nat := (t.takeWhile (· ≠ '=')).filterMap sextet

theorem digit_ne {n : Nat} (h : n < 64) : digit n ≠ '=' := by
  have hall : ∀ n < 64, digit n ≠ '=' := by decide +kernel
  exact hall n h

theorem sextets_digit {n : Nat} (h : n < 64) (t : List Char) : sextets (digit n :: t) = n :: sextets t := by
  unfold sextets
  rw [List.takeWhile_cons_of_pos (by simpa using digit_ne h), List.filterMap_cons_some (sextet_digit h)]

theorem sextets_cons {c : Char} (h : c ≠ '=') (t : List Char) : sextets (c :: t) = (sextet c).toList ++ sextets t := by
  unfold sextets
  rw [List.takeWhile_cons_of_pos (by simpa using h), List.filterMap_cons]
  cases sextet c <;> rfl

@[simp] theorem sextets_padding (t : List Char) : sextets ('=' :: t) = [] := rfl

/-- A character of an encoding. -/
def isBase64 (c : Char) : Bool := (sextet c).isSome || c == '='

/-- Other characters do not count. -/
theorem sextets_filter (t : List Char) : sextets (t.filter isBase64) = sextets t := by
  induction t with
  | nil => rfl
  | cons c t ih =>
      by_cases hc : c = '='
      · rw [hc, List.filter_cons_of_pos rfl, sextets_padding, sextets_padding]
      · rw [sextets_cons hc]
        cases hs : sextet c with
        | none =>
            rw [List.filter_cons_of_neg (by simp [isBase64, hs, hc]), ih]
            rfl
        | some n => rw [List.filter_cons_of_pos (by simp [isBase64, hs]), sextets_cons hc, ih, hs]

/-- The second digit of a group: two bits of one byte and four of the next. -/
theorem natBits_second (a : Nat) {b : Nat} (hb : b < 256) :
    natBits 6 (a % 4 * 16 + b / 16) = natBits 2 a ++ natBits 4 (b / 16) := by
  rw [← natBits_mod 2 a (Nat.le_refl 2)]
  exact natBits_join 2 (j := 4) (by omega)

theorem natBits_third (b : Nat) {c : Nat} (hc : c < 256) :
    natBits 6 (b % 16 * 4 + c / 64) = natBits 4 b ++ natBits 2 (c / 64) := by
  rw [← natBits_mod 4 b (Nat.le_refl 4)]
  exact natBits_join 4 (j := 2) (by omega)

/-- **The digits hold the bits of the bytes**, and fewer than six zeros behind them. -/
theorem bits_encode {l : List Nat} (hl : ∀ b ∈ l, b < 256) :
    ∃ k < 6, (sextets (encode l)).flatMap (natBits 6) = l.flatMap (natBits 8) ++ List.replicate k false := by
  induction l using encode.induct with
  | case1 => exact ⟨0, by decide, rfl⟩
  | case2 a =>
      have ha := hl a (by simp)
      refine ⟨4, by decide, ?_⟩
      rw [encode, sextets_digit (by omega), sextets_digit (by omega), sextets_padding]
      simp only [List.flatMap_cons, List.flatMap_nil, List.append_nil]
      rw [show a % 4 * 16 = a % 4 * 16 + 0 / 16 from rfl, natBits_second a (by decide), natBits_add 6 2 a,
        List.append_assoc, Nat.zero_div, natBits_zero]
      rfl
  | case3 a b =>
      have ha := hl a (by simp)
      have hb := hl b (by simp)
      refine ⟨2, by decide, ?_⟩
      rw [encode, sextets_digit (by omega), sextets_digit (by omega), sextets_digit (by omega), sextets_padding]
      simp only [List.flatMap_cons, List.flatMap_nil, List.append_nil]
      rw [natBits_second a hb, show b % 16 * 4 = b % 16 * 4 + 0 / 64 from rfl, natBits_third b (by decide),
        natBits_add 6 2 a, natBits_add 4 4 b, Nat.zero_div, natBits_zero]
      simp only [List.append_assoc]
      rfl
  | case4 a b c l ih =>
      have ha := hl a (by simp)
      have hb := hl b (by simp)
      have hc := hl c (by simp)
      obtain ⟨k, hk, hbits⟩ := ih fun x hx => hl x (by simp [hx])
      refine ⟨k, hk, ?_⟩
      rw [encode, sextets_digit (by omega), sextets_digit (by omega), sextets_digit (by omega), sextets_digit (by omega)]
      simp only [List.flatMap_cons]
      rw [hbits, natBits_second a hb, natBits_third b hc, ← show 2 ^ 6 = 64 from rfl, natBits_mod 6 c (Nat.le_refl 6),
        natBits_add 6 2 a, natBits_add 4 4 b, natBits_add 2 6 c]
      simp only [List.append_assoc]
      rfl

end Tr69HostIf.Clib
