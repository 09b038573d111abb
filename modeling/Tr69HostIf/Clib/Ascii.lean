import Tr69HostIf.Clib.Bytes
import Tr69HostIf.Clib.Decimal
import Mathlib.Data.List.Induction

/-!
# Decimal text taken for a number

What a reader of `w` bytes, least significant byte first, sees of a string of digits.

* `ascii w n` : the number in the `w` ASCII digits of `n`, `leNat_digits`;
* `natOf_take` : leading digits are a quotient;
* `natOf_lt_reread` : a text shorter than the number of bytes never reads as itself, however often it is printed;
* `Fixed` : a table of the texts that, read as a number, printed and read again, come out as their own number;
  `Fixed.reread_iff` : it has them all, `fixedFour` and `fixedEight` : the tables for four and for eight bytes.
-/

namespace Tr69HostIf.Clib

/-- The number in the `w` low decimal digits of `n`, written in ASCII. -/
def ascii : Nat → Nat → Nat
  | 0, _ => 0
  | w + 1, n => ascii w (n / 10) + 256 ^ w * (48 + n % 10)

/-! ## Digits -/

section
variable {t u : List Char}

theorem toNat_of_isDigit {c : Char} (h : c.isDigit = true) : 48 ≤ c.toNat ∧ c.toNat ≤ 57 := by
  simp only [Char.isDigit, Bool.and_eq_true, decide_eq_true_eq] at h
  exact ⟨UInt32.le_iff_toNat_le.mp h.1, UInt32.le_iff_toNat_le.mp h.2⟩

theorem byte_of_isDigit {c : Char} (h : c.isDigit = true) : byte c = 48 + (c.toNat - 48) := by
  have hc := toNat_of_isDigit h
  rw [byte]
  omega

theorem natOf_append (t u : List Char) : natOf (t ++ u) = 10 ^ u.length * natOf t + natOf u := by
  rw [natOf, Nat.ofDigitChars_append, Nat.ofDigitChars_eq_ofDigitChars_zero]
  rfl

theorem natOf_singleton (c : Char) : natOf [c] = c.toNat - 48 := by
  rw [natOf, Nat.ofDigitChars_cons, Nat.ofDigitChars_nil]
  exact Nat.zero_add _

theorem natOf_concat (t : List Char) (c : Char) : natOf (t ++ [c]) = 10 * natOf t + (c.toNat - 48) := by
  rw [natOf_append, natOf_singleton, List.length_singleton, pow_one]

theorem natOf_lt (h : ∀ c ∈ t, c.isDigit = true) : natOf t < 10 ^ t.length := by
  induction t using List.reverseRecOn with
  | nil => exact Nat.one_pos
  | append_singleton t c ih =>
      have ht := ih fun d hd => h d (List.mem_append_left _ hd)
      have hc := toNat_of_isDigit (h c (by simp))
      rw [natOf_concat, List.length_append, List.length_singleton, pow_succ]
      omega

/-- Leading digits are a quotient. -/
theorem natOf_take (h : ∀ c ∈ t, c.isDigit = true) (k : Nat) :
    natOf (t.take k) = natOf t / 10 ^ (t.length - k) := by
  have hsplit : natOf t = 10 ^ (t.length - k) * natOf (t.take k) + natOf (t.drop k) := by
    have := natOf_append (t.take k) (t.drop k)
    rwa [List.take_append_drop, List.length_drop] at this
  have hlt : natOf (t.drop k) < 10 ^ (t.length - k) := by
    have := natOf_lt (t := t.drop k) fun c hc => h c (List.mem_of_mem_drop hc)
    rwa [List.length_drop] at this
  rw [hsplit, Nat.mul_add_div (Nat.pow_pos (by decide)), Nat.div_eq_of_lt hlt, Nat.add_zero]

/-! ## Digits as bytes -/

theorem leNat_of_length {w : Nat} (h : t.length = w) : leNat w (t ++ u) = leNat w t := by
  have := leNat_append w 0 (b := u) h
  rwa [leNat, Nat.mul_zero, Nat.add_zero] at this

theorem leNat_digits {w : Nat} (h : ∀ c ∈ t, c.isDigit = true) (hw : t.length = w) : leNat w t = ascii w (natOf t) := by
  induction t using List.reverseRecOn generalizing w with
  | nil =>
      subst hw
      rfl
  | append_singleton t c ih =>
      obtain rfl : w = t.length + 1 := by rw [← hw, List.length_append, List.length_singleton]
      have ht := ih (fun d hd => h d (List.mem_append_left _ hd)) rfl
      have hdig := h c (by simp)
      have hc := toNat_of_isDigit hdig
      have hdiv : (10 * natOf t + (c.toNat - 48)) / 10 = natOf t := by omega
      have hmod : (10 * natOf t + (c.toNat - 48)) % 10 = c.toNat - 48 := by omega
      rw [leNat_append t.length 1 rfl, ht, natOf_concat, ascii, hdiv, hmod, leNat, leNat, byte_of_isDigit hdig]
      rfl

/-- What is seen of at least `w` digits. -/
theorem leNat_leading {w : Nat} (h : ∀ c ∈ t, c.isDigit = true) (hw : w ≤ t.length) :
    leNat w (t ++ u) = ascii w (natOf t / 10 ^ (t.length - w)) := by
  have hlen : (t.take w).length = w := by rw [List.length_take, Nat.min_eq_left hw]
  rw [← natOf_take h w, ← leNat_digits (fun c hc => h c (List.mem_of_mem_take hc)) hlen]
  conv_lhs => rw [← List.take_append_drop w t, List.append_assoc]
  exact leNat_of_length hlen

theorem le_leNat {w k : Nat} (h : ∀ c ∈ t, c.isDigit = true) (hk : k < t.length) (hkw : k < w) :
    48 * 256 ^ k ≤ leNat w (t ++ u) := by
  induction k generalizing t w with
  | zero =>
      obtain ⟨c, t, rfl⟩ := List.exists_cons_of_length_pos hk
      obtain ⟨w, rfl⟩ := Nat.exists_eq_add_of_lt hkw
      have hc := byte_of_isDigit (h c List.mem_cons_self)
      rw [Nat.zero_add, List.cons_append, leNat]
      omega
  | succ k ih =>
      obtain ⟨c, t, rfl⟩ := List.exists_cons_of_length_pos (Nat.zero_lt_of_lt hk)
      obtain ⟨w, rfl⟩ : ∃ v, w = v + 1 := ⟨w - 1, by omega⟩
      have := ih (fun d hd => h d (List.mem_cons_of_mem c hd)) (Nat.lt_of_succ_lt_succ hk) (Nat.lt_of_succ_lt_succ hkw)
      rw [List.cons_append, leNat, pow_succ]
      omega

theorem pow_ten_le (k : Nat) : 10 ^ (k + 1) ≤ 48 * 256 ^ k := by
  induction k with
  | zero => decide
  | succ k ih =>
      rw [pow_succ, pow_succ 256]
      omega

/-- **A text shorter than the number of bytes reads as a larger number.** -/
theorem natOf_lt_reread {w : Nat} (h : Digits t) (hw : t.length < w) (r : List Char) :
    natOf t < leNat w (printNat (leNat w (t ++ u)) ++ r) := by
  have hpos : 0 < t.length := List.length_pos_iff.mpr h.1
  obtain ⟨k, hk⟩ : ∃ k, t.length = k + 1 := ⟨t.length - 1, by omega⟩
  have hread : 10 ^ t.length ≤ leNat w (t ++ u) := by
    have := le_leNat (u := u) h.2 (show k < t.length by omega) (show k < w by omega)
    have := pow_ten_le k
    rw [hk]
    omega
  have hlong : t.length < (printNat (leNat w (t ++ u))).length := by
    have := (Nat.length_toDigits_le_iff (b := 10) (n := leNat w (t ++ u)) (by decide) hpos).not.mpr (by omega)
    rw [printNat]
    omega
  calc natOf t < 10 ^ t.length := natOf_lt h.2
    _ ≤ 10 ^ (t.length + 1) := Nat.pow_le_pow_right (by decide) (by omega)
    _ ≤ 48 * 256 ^ t.length := pow_ten_le _
    _ ≤ leNat w (printNat (leNat w (t ++ u)) ++ r) := le_leNat (digits_printNat _).2 hlong hw

end

/-! ## The size of ASCII digits -/

theorem ascii_bounds (w n : Nat) : 48 * 256 ^ w ≤ 255 * ascii w n + 48 ∧ 255 * ascii w n + 57 ≤ 57 * 256 ^ w := by
  induction w generalizing n with
  | zero => exact ⟨Nat.le_refl 48, Nat.le_refl 57⟩
  | succ w ih =>
      obtain ⟨hlo, hhi⟩ := ih (n / 10)
      have hmod := Nat.mod_lt n (show 0 < 10 by decide)
      have hlo' : 256 ^ w * 48 ≤ 256 ^ w * (48 + n % 10) := Nat.mul_le_mul_left _ (by omega)
      have hhi' : 256 ^ w * (48 + n % 10) ≤ 256 ^ w * 57 := Nat.mul_le_mul_left _ (by omega)
      rw [ascii, pow_succ]
      omega

theorem ascii_mod (w n : Nat) : ascii w (n % 10 ^ w) = ascii w n := by
  induction w generalizing n with
  | zero => rfl
  | succ w ih =>
      have hdiv : n % 10 ^ (w + 1) / 10 = n / 10 % 10 ^ w := by
        rw [pow_succ', Nat.mod_mul_right_div_self]
      have hmod : n % 10 ^ (w + 1) % 10 = n % 10 := Nat.mod_mod_of_dvd n (Dvd.intro_left (10 ^ w) rfl)
      rw [ascii, hdiv, hmod, ih, ascii]

theorem ascii_add (a m n : Nat) : ascii (a + m) n = ascii a (n / 10 ^ m) + 256 ^ a * ascii m n := by
  induction m generalizing n with
  | zero => rw [Nat.add_zero, pow_zero, Nat.div_one, ascii, Nat.mul_zero, Nat.add_zero]
  | succ m ih =>
      rw [← Nat.add_assoc, ascii, ih, Nat.div_div_eq_div_mul, ← pow_succ', pow_add, ascii]
      ring

/-- The last `m` digits decide the number up to what the others can add. -/
theorem ascii_last (a m c : Nat) :
    ascii (a + m) (c % 10 ^ m) ≤ ascii (a + m) c ∧
      255 * ascii (a + m) c < 255 * ascii (a + m) (c % 10 ^ m) + 9 * 256 ^ a := by
  have hz : c % 10 ^ m / 10 ^ m = 0 := Nat.div_eq_of_lt (Nat.mod_lt _ (Nat.pow_pos (by decide)))
  have hlow := ascii_bounds a 0
  have hhigh := ascii_bounds a (c / 10 ^ m)
  have hzero : 255 * ascii a 0 + 48 = 48 * 256 ^ a := by
    clear hlow hhigh hz
    induction a with
    | zero => rfl
    | succ a ih =>
        rw [ascii, pow_succ, Nat.zero_div, Nat.zero_mod]
        omega
  rw [ascii_add, ascii_add, hz, ascii_mod]
  omega

/-! ## Texts that read as themselves -/

/-- `texts` has, by length and number, the texts that come out as their own number when their `w` first bytes are
printed over them; the ASCII digits of a number have `w + l` digits themselves, and the length counts up to `2 * w + l`. -/
structure Fixed (w l : Nat) (texts : List (Nat × Nat)) : Prop where
  low : 255 * 10 ^ (w + l - 1) + 48 ≤ 48 * 256 ^ w
  high : 57 * 256 ^ w ≤ 255 * 10 ^ (w + l)
  sound : ∀ p ∈ texts, w + l ≤ p.1 ∧ ascii w (ascii w (p.2 / 10 ^ (p.1 - w)) / 10 ^ l) = p.2
  complete : ∀ n j, j ≤ w → ascii w (ascii w (n / 10 ^ (l + j)) / 10 ^ l) = n → (w + l + j, n) ∈ texts

namespace Fixed
variable {w l : Nat} {texts : List (Nat × Nat)}

theorem length_ascii (h : Fixed w l texts) (hw : 0 < w) (n : Nat) :
    10 ^ (w + l - 1) ≤ ascii w n ∧ ascii w n < 10 ^ (w + l) ∧ (printNat (ascii w n)).length = w + l := by
  have hbounds := ascii_bounds w n
  have hlow := h.low
  have hhigh := h.high
  have hlo : 10 ^ (w + l - 1) ≤ ascii w n := by omega
  have hhi : ascii w n < 10 ^ (w + l) := by omega
  refine ⟨hlo, hhi, ?_⟩
  have hle := (Nat.length_toDigits_le_iff (b := 10) (n := ascii w n) (by decide) (show 0 < w + l by omega)).mpr hhi
  have hge : w + l - 1 < (printNat (ascii w n)).length := by
    rcases Nat.eq_zero_or_pos (w + l - 1) with hz | hpos
    · rw [hz]
      exact List.length_pos_iff.mpr (digits_printNat _).1
    · exact Nat.lt_of_not_le fun hle => absurd ((Nat.length_toDigits_le_iff (by decide) hpos).mp hle) (by omega)
  rw [printNat] at hge ⊢
  omega

/-- Print and read again, for a text that fills the bytes. -/
theorem reread_eq (h : Fixed w l texts) (hw : 0 < w) {t : List Char} (ht : ∀ c ∈ t, c.isDigit = true)
    (hlen : w ≤ t.length) (u r : List Char) :
    leNat w (printNat (leNat w (t ++ u)) ++ r) = ascii w (ascii w (natOf t / 10 ^ (t.length - w)) / 10 ^ l) := by
  obtain ⟨-, -, hlong⟩ := h.length_ascii hw (natOf t / 10 ^ (t.length - w))
  rw [leNat_leading ht hlen, leNat_leading (digits_printNat _).2 (by omega), hlong, natOf_printNat, Nat.add_sub_cancel_left]

/-- **The table has every text that reads as itself.** -/
theorem reread_iff (h : Fixed w l texts) (hw : 0 < w) {t : List Char} (ht : Digits t) (u r : List Char) :
    leNat w (printNat (leNat w (t ++ u)) ++ r) = natOf t ↔ (min t.length (2 * w + l), natOf t) ∈ texts := by
  constructor
  · intro heq
    have hlen : w ≤ t.length := Nat.le_of_not_lt fun hlt => absurd heq (Nat.ne_of_gt (natOf_lt_reread ht hlt r))
    rw [h.reread_eq hw ht.2 hlen] at heq
    obtain ⟨hlo, hhi, -⟩ := h.length_ascii hw (ascii w (natOf t / 10 ^ (t.length - w)) / 10 ^ l)
    rw [heq] at hlo hhi
    have hlong : w + l ≤ t.length := by
      have hlt := Nat.lt_of_le_of_lt hlo (natOf_lt ht.2)
      have := (Nat.pow_lt_pow_iff_right (show 1 < 10 by decide)).mp hlt
      omega
    rcases Nat.le_total t.length (2 * w + l) with hle | hge
    · rw [Nat.min_eq_left hle]
      have := h.complete (natOf t) (t.length - (w + l)) (by omega)
      rw [show l + (t.length - (w + l)) = t.length - w by omega, show w + l + (t.length - (w + l)) = t.length by omega] at this
      exact this heq
    · have hz : natOf t / 10 ^ (l + w) = natOf t / 10 ^ (t.length - w) := by
        rw [Nat.div_eq_of_lt (by rw [Nat.add_comm]; exact hhi), Nat.div_eq_of_lt]
        exact Nat.lt_of_lt_of_le hhi (Nat.pow_le_pow_right (by decide) (by omega))
      rw [Nat.min_eq_right hge]
      have := h.complete (natOf t) w (Nat.le_refl w)
      rw [hz, show w + l + w = 2 * w + l by omega] at this
      exact this heq
  · intro hmem
    obtain ⟨hlong, heq⟩ := h.sound _ hmem
    simp only at hlong heq
    have hlen : w ≤ t.length := by omega
    obtain ⟨-, hhi, -⟩ := h.length_ascii hw (ascii w (natOf t / 10 ^ (min t.length (2 * w + l) - w)) / 10 ^ l)
    rw [heq] at hhi
    rw [h.reread_eq hw ht.2 hlen]
    rcases Nat.le_total t.length (2 * w + l) with hle | hge
    · rwa [Nat.min_eq_left hle] at heq
    · rw [Nat.min_eq_right hge, show 2 * w + l - w = w + l by omega, Nat.div_eq_of_lt hhi] at heq
      rw [Nat.div_eq_of_lt (Nat.lt_of_lt_of_le hhi (Nat.pow_le_pow_right (by decide) (by omega)))]
      exact heq

end Fixed

/-! ## The tables -/

/-- If the `m` last digits of the leading digits of `n` are `h`, then `n` is in the table or does not read as itself. -/
def settles (w l m : Nat) (texts : List (Nat × Nat)) (h n : Nat) : Bool :=
  (List.range (w + 1)).all fun j =>
    n / 10 ^ (l + j) % 10 ^ m != h || ascii w (ascii w (n / 10 ^ (l + j)) / 10 ^ l) != n || texts.contains (w + l + j, n)

/-- The number that `h` leads to with a carry of `e`; the match makes it a literal before it is copied. -/
def settlesFrom (w l m : Nat) (texts : List (Nat × Nat)) (h e : Nat) : Bool :=
  match ascii w (ascii w h / 10 ^ l + e) with
  | 0 => settles w l m texts h 0
  | n + 1 => settles w l m texts h (n + 1)

theorem settlesFrom_eq (w l m : Nat) (texts : List (Nat × Nat)) (h e : Nat) :
    settlesFrom w l m texts h e = settles w l m texts h (ascii w (ascii w h / 10 ^ l + e)) := by
  unfold settlesFrom
  split
  · next heq => rw [heq]
  · next heq => rw [heq]

/-- **It is enough to go through the `m` last digits**, if the others cannot carry more than once. -/
theorem complete_of_settles {a m l : Nat} {texts : List (Nat × Nat)} (hgap : 9 * 256 ^ a ≤ 255 * 10 ^ l)
    (hall : ((List.range (10 ^ m)).all fun h =>
      settlesFrom (a + m) l m texts h 0 && settlesFrom (a + m) l m texts h 1) = true)
    (n j : Nat) (hj : j ≤ a + m) (heq : ascii (a + m) (ascii (a + m) (n / 10 ^ (l + j)) / 10 ^ l) = n) :
    (a + m + l + j, n) ∈ texts := by
  have hm : n / 10 ^ (l + j) % 10 ^ m < 10 ^ m := Nat.mod_lt _ (Nat.pow_pos (by decide))
  obtain ⟨hlo, hhi⟩ := ascii_last a m (n / 10 ^ (l + j))
  -- the quotient is one of the two that the last digits leave
  have hcarry : ascii (a + m) (n / 10 ^ (l + j)) / 10 ^ l = ascii (a + m) (n / 10 ^ (l + j) % 10 ^ m) / 10 ^ l + 0 ∨
      ascii (a + m) (n / 10 ^ (l + j)) / 10 ^ l = ascii (a + m) (n / 10 ^ (l + j) % 10 ^ m) / 10 ^ l + 1 := by
    have hmono := Nat.div_le_div_right (c := 10 ^ l) hlo
    have hnext : ascii (a + m) (n / 10 ^ (l + j)) / 10 ^ l ≤
        (ascii (a + m) (n / 10 ^ (l + j) % 10 ^ m) + 10 ^ l) / 10 ^ l := Nat.div_le_div_right (by omega)
    rw [Nat.add_div_right _ (Nat.pow_pos (by decide))] at hnext
    omega
  have hboth := List.all_eq_true.mp hall _ (List.mem_range.mpr hm)
  rw [Bool.and_eq_true, settlesFrom_eq, settlesFrom_eq] at hboth
  have hsettles : settles (a + m) l m texts (n / 10 ^ (l + j) % 10 ^ m) n = true := by
    rcases hcarry with hc | hc
    · have := hboth.1
      rwa [← hc, heq] at this
    · have := hboth.2
      rwa [← hc, heq] at this
  have hat := List.all_eq_true.mp hsettles j (List.mem_range.mpr (by omega))
  rw [heq] at hat
  simpa using hat

/-- The texts that four bytes read as themselves. -/
def fixedFour : List (Nat × Nat) :=
  [(9, 809054264), (9, 842608697), (9, 859387192), (9, 892941625), (9, 909259832), (9, 942814265), (9, 959592760),
    (10, 842150968), (11, 875967033), (11, 959592760), (13, 876097592)]

theorem fixed_four : Fixed 4 5 fixedFour where
  low := by decide
  high := by decide
  sound := by decide +kernel
  complete := complete_of_settles (a := 2) (m := 2) (by decide) (by decide +kernel)

/-- The texts that eight bytes read as themselves. -/
def fixedEight : List (Nat × Nat) :=
  [(19, 3761694493677860659), (21, 3690476935214217523), (21, 3978992063335248180), (22, 3905520484475942963),
    (23, 3761130418526762291), (23, 3835156155507882035), (24, 3762533421133347123), (25, 3473172738354853683),
    (25, 3618696405187574067), (26, 3472609792813970995), (27, 3618697496059393075)]

theorem fixed_eight : Fixed 8 11 fixedEight where
  low := by decide
  high := by decide
  sound := by decide +kernel
  complete := complete_of_settles (a := 5) (m := 3) (by decide) (by decide +kernel)

end Tr69HostIf.Clib
