import Tr69HostIf.Transport.Message

/-!
# Values as text

* `Literal t v` : the text `t` denotes `v`, leading zeros and both spellings of a truth value included;
* `Value.text v` : the canonical literal of `v`, `literal_text`;
* `literal_printNat`, `literal_printInt` : what a printed number denotes.
-/

namespace Tr69HostIf.Transport
open Store Clib

/-- The truth value a text denotes. -/
def boolOf (t : Text) : Option Bool :=
  if strcasecmp t "true".toList || t = "1".toList then some true
  else if strcasecmp t "false".toList || t = "0".toList then some false
  else none

/-- The text denotes the integer. -/
def IntLiteral (t : Text) (z : Int) : Prop :=
  (Digits t ∧ z = natOf t) ∨ ∃ ds, t = '-' :: ds ∧ Digits ds ∧ z = -(natOf ds : Int)

/-- The text denotes the value. -/
def Literal (t : Text) : Value → Prop
  | .string s => t = s.chars
  | .int z => IntLiteral t z.toInt
  | .unsignedInt n => Digits t ∧ natOf t = n.toNat
  | .unsignedLong n => Digits t ∧ natOf t = n.toNat
  | .boolean v => boolOf t = some v

/-- The canonical literal. -/
def Value.text : Value → Text
  | .string s => s.chars
  | .int z => printInt z.toInt
  | .unsignedInt n => printNat n.toNat
  | .unsignedLong n => printNat n.toNat
  | .boolean v => if v then "true".toList else "false".toList

theorem not_digits_minus (t : Text) : ¬Digits ('-' :: t) := fun h => by
  have := h.2 '-' List.mem_cons_self
  simp at this

theorem intLiteral_printInt {z w : Int} : IntLiteral (printInt z) w ↔ w = z := by
  unfold IntLiteral printInt
  split
  · next h =>
    constructor
    · rintro (⟨hd, -⟩ | ⟨ds, hds, -, hw⟩)
      · exact absurd hd (not_digits_minus _)
      · injection hds with _ hds
        rw [← hds, natOf_printNat] at hw
        omega
    · rintro rfl
      refine Or.inr ⟨_, rfl, digits_printNat _, ?_⟩
      rw [natOf_printNat]
      omega
  · next h =>
    constructor
    · rintro (⟨-, hw⟩ | ⟨ds, hds, -, -⟩)
      · rw [natOf_printNat] at hw
        omega
      · exact absurd (hds ▸ digits_printNat _) (not_digits_minus ds)
    · rintro rfl
      refine Or.inl ⟨digits_printNat _, ?_⟩
      rw [natOf_printNat]
      omega

/-- A number printed with `%d` denotes a natural number when it is that number. -/
theorem digits_printInt {z : Int} {n : Nat} : (Digits (printInt z) ∧ natOf (printInt z) = n) ↔ z = n := by
  unfold printInt
  split
  · next h =>
    refine ⟨fun hd => absurd hd.1 (not_digits_minus _), fun hz => ?_⟩
    omega
  · next h =>
    rw [natOf_printNat]
    refine ⟨fun hd => ?_, fun hz => ⟨digits_printNat _, ?_⟩⟩
    · omega
    · omega

theorem digits_printNat_iff {m n : Nat} : (Digits (printNat m) ∧ natOf (printNat m) = n) ↔ m = n := by
  rw [natOf_printNat]
  exact ⟨And.right, fun h => ⟨digits_printNat m, h⟩⟩

theorem printInt_injective {z w : Int} (h : printInt z = printInt w) : z = w :=
  intLiteral_printInt.mp (h ▸ intLiteral_printInt.mpr rfl)

theorem toLower_of_isDigit {c : Char} (h : c.isDigit = true) : c.toLower = c := by
  have hc : ¬(c.val ≥ 'A'.val ∧ c.val ≤ 'Z'.val) := by
    simp only [Char.isDigit, Bool.and_eq_true, decide_eq_true_eq] at h
    intro hu
    exact absurd (UInt32.le_trans hu.1 h.2) (by decide)
  exact dif_neg hc

/-- No printed number starts with a letter. -/
theorem strcasecmp_printInt {z : Int} {c : Char} {t : Text} (hc : c.isDigit = false) (hc' : c.toLower = c)
    (hne : c ≠ '-') : strcasecmp (printInt z) (c :: t) = false := by
  obtain ⟨d, r, hd⟩ := List.exists_cons_of_ne_nil (digits_printNat z.toNat).1
  have hdig := (digits_printNat z.toNat).2 d (by rw [hd]; exact List.mem_cons_self)
  rw [strcasecmp, beq_eq_false_iff_ne, List.map_cons, hc']
  intro h
  unfold printInt at h
  split at h
  · rw [List.map_cons] at h
    injection h with h
    exact hne h.symm
  · rw [hd, List.map_cons, toLower_of_isDigit hdig] at h
    injection h with h
    rw [h, hc] at hdig
    cases hdig

theorem boolOf_printInt {z : Int} {v : Bool} : boolOf (printInt z) = some v ↔ z = v.toNat := by
  have ht : strcasecmp (printInt z) "true".toList = false := strcasecmp_printInt (by decide) (by decide) (by decide)
  have hf : strcasecmp (printInt z) "false".toList = false := strcasecmp_printInt (by decide) (by decide) (by decide)
  have h1 : printInt z = "1".toList ↔ z = 1 := ⟨fun h => printInt_injective (h.trans rfl), fun h => h ▸ rfl⟩
  have h0 : printInt z = "0".toList ↔ z = 0 := ⟨fun h => printInt_injective (h.trans rfl), fun h => h ▸ rfl⟩
  simp only [boolOf, ht, hf, Bool.false_or, decide_eq_true_eq, h1, h0]
  cases v with
  | true =>
      by_cases h : z = 1
      · simp [h]
      · by_cases h' : z = 0
        · simp [h']
        · simp [h, h']
  | false =>
      by_cases h : z = 1
      · simp [h]
      · by_cases h' : z = 0
        · simp [h']
        · simp [h, h']

theorem literal_text (v : Value) : Literal v.text v := by
  cases v with
  | string s => exact rfl
  | int z => exact intLiteral_printInt.mpr rfl
  | unsignedInt n => exact digits_printNat_iff.mpr rfl
  | unsignedLong n => exact digits_printNat_iff.mpr rfl
  | boolean v => cases v <;> rfl

end Tr69HostIf.Transport
