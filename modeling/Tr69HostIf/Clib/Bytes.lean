import Mathlib.Data.Nat.Init
import Mathlib.Tactic.Ring

/-!
# Numbers in byte buffers

A buffer is a list of characters, one for each byte.

* `leNat n t` : the number in the first `n` bytes of `t`, least significant byte first; `leBytes n v` : the
  `n` bytes of `v`;
* `overwrite w t` : `t` with `w` written over its start;
* `leNat_overwrite` : a number is read back, up to the width it was written with;
* `leNat_append` : the bytes behind the first ones;
* `leNat_leBytes_takeWhile` : which numbers survive a copy that stops at a zero byte.
-/

namespace Tr69HostIf.Clib

/-- The byte that a character stands for. -/
def byte (c : Char) : Nat := c.toNat % 256

/-- The number in the first `n` bytes. -/
def leNat : Nat → List Char → Nat
  | 0, _ => 0
  | _ + 1, [] => 0
  | n + 1, c :: t => byte c + 256 * leNat n t

/-- The `n` low bytes of a number. -/
def leBytes : Nat → Nat → List Char
  | 0, _ => []
  | n + 1, v => Char.ofNat (v % 256) :: leBytes n (v / 256)

/-- A buffer after a write to its start. -/
def overwrite (w t : List Char) : List Char := w ++ t.drop w.length

theorem byte_lt (c : Char) : byte c < 256 := Nat.mod_lt _ (by decide)

theorem byte_ofNat {n : Nat} (h : n < 256) : byte (Char.ofNat n) = n := by
  have hv : n.isValidChar := Or.inl (by omega)
  have hn : (Char.ofNat n).toNat = n := by
    rw [Char.ofNat, dif_pos hv]
    rfl
  rw [byte, hn, Nat.mod_eq_of_lt h]

@[simp] theorem length_leBytes (n v : Nat) : (leBytes n v).length = n := by
  induction n generalizing v with
  | zero => rfl
  | succ n ih => rw [leBytes, List.length_cons, ih]

theorem length_overwrite {w t : List Char} (h : w.length ≤ t.length) : (overwrite w t).length = t.length := by
  rw [overwrite, List.length_append, List.length_drop]
  omega

theorem leNat_lt (n : Nat) (t : List Char) : leNat n t < 256 ^ n := by
  induction n generalizing t with
  | zero => exact Nat.one_pos
  | succ n ih =>
      cases t with
      | nil => exact Nat.pow_pos (by decide)
      | cons c t =>
          have hc := byte_lt c
          have ht := ih t
          rw [leNat, pow_succ]
          omega

/-- Seven-bit bytes leave the sign bit clear. -/
theorem two_mul_leNat_lt (n : Nat) {t : List Char} (h : ∀ c ∈ t, byte c < 128) : 2 * leNat n t < 256 ^ n := by
  induction n generalizing t with
  | zero => exact Nat.one_pos
  | succ n ih =>
      cases t with
      | nil => exact Nat.pow_pos (by decide)
      | cons c t =>
          have hc := h c List.mem_cons_self
          have ht := ih fun d hd => h d (List.mem_cons_of_mem c hd)
          rw [leNat, pow_succ]
          omega

theorem leNat_append (m n : Nat) {a b : List Char} (h : a.length = m) :
    leNat (m + n) (a ++ b) = leNat m a + 256 ^ m * leNat n b := by
  induction a generalizing m with
  | nil =>
      subst h
      simp [leNat]
  | cons c a ih =>
      obtain ⟨m, rfl⟩ : ∃ k, m = k + 1 := ⟨a.length, h.symm⟩
      rw [List.cons_append, show m + 1 + n = (m + n) + 1 by omega, leNat, leNat, ih m (Nat.succ.inj h)]
      ring

theorem leNat_leBytes (n v : Nat) : leNat n (leBytes n v) = v % 256 ^ n := by
  induction n generalizing v with
  | zero => rw [leNat, pow_zero, Nat.mod_one]
  | succ n ih =>
      rw [leBytes, leNat, ih, byte_ofNat (Nat.mod_lt _ (by decide)), pow_succ', Nat.mod_mul]

/-- **A number is read back.** -/
theorem leNat_overwrite (n v : Nat) (t : List Char) : leNat n (overwrite (leBytes n v) t) = v % 256 ^ n := by
  have h := leNat_append n 0 (b := t.drop (leBytes n v).length) (length_leBytes n v)
  rw [leNat_leBytes, leNat, Nat.mul_zero, Nat.add_zero] at h
  exact h

/-! ## Numbers copied as strings -/

theorem leNat_takeWhile_append (n : Nat) (p : Char → Bool) {a b : List Char} (h : a.length = n) :
    leNat n ((a ++ b).takeWhile p) = leNat n (a.takeWhile p) := by
  induction a generalizing n with
  | nil =>
      subst h
      rfl
  | cons c a ih =>
      obtain ⟨n, rfl⟩ : ∃ k, n = k + 1 := ⟨a.length, h.symm⟩
      rw [List.cons_append, List.takeWhile_cons, List.takeWhile_cons]
      cases p c with
      | true =>
          simp only [if_true, leNat]
          rw [ih n (Nat.succ.inj h)]
      | false => rfl

theorem ofNat_ne_nul {n : Nat} (h : n < 256) : (Char.ofNat n ≠ '\x00') ↔ n ≠ 0 := by
  refine not_congr ⟨fun he => ?_, fun he => by rw [he]⟩
  have := congrArg byte he
  rwa [byte_ofNat h] at this

/-- **Bytes copied up to the first zero byte are still the number exactly when no other byte stands behind a zero
byte.** -/
theorem leNat_leBytes_takeWhile (n : Nat) {v : Nat} (h : v < 256 ^ n) :
    leNat n ((leBytes n v).takeWhile (· ≠ '\x00')) = v ↔ ∀ k < n, v / 256 ^ k % 256 = 0 → v < 256 ^ k := by
  induction n generalizing v with
  | zero =>
      rw [pow_zero, Nat.lt_one_iff] at h
      subst h
      simp [leNat]
  | succ n ih =>
      have hdiv : v / 256 < 256 ^ n := by
        rw [pow_succ] at h
        exact Nat.div_lt_of_lt_mul (by rwa [Nat.mul_comm])
      have hrest : (∀ k < n, v / 256 / 256 ^ k % 256 = 0 → v / 256 < 256 ^ k) ↔
          ∀ k < n, v / 256 ^ (k + 1) % 256 = 0 → v < 256 ^ (k + 1) := by
        refine forall_congr' fun k => imp_congr_right fun _ => ?_
        rw [Nat.div_div_eq_div_mul, ← pow_succ', Nat.div_lt_iff_lt_mul (by decide), ← pow_succ]
      have hsplit : (∀ k < n + 1, v / 256 ^ k % 256 = 0 → v < 256 ^ k) ↔
          (v % 256 = 0 → v < 1) ∧ ∀ k < n, v / 256 ^ (k + 1) % 256 = 0 → v < 256 ^ (k + 1) := by
        constructor
        · exact fun hall => ⟨by simpa using hall 0 (by omega), fun k hk => hall (k + 1) (by omega)⟩
        · rintro ⟨hzero, hall⟩ k hk
          cases k with
          | zero => simpa using hzero
          | succ k => exact hall k (by omega)
      rw [hsplit, ← hrest, leBytes, List.takeWhile_cons]
      by_cases hbyte : v % 256 = 0
      · rw [if_neg (by simp [hbyte])]
        show 0 = v ↔ _
        constructor
        · rintro rfl
          simp
        · rintro ⟨hzero, -⟩
          have := hzero hbyte
          omega
      · have hlt : v % 256 < 256 := Nat.mod_lt v (by decide)
        rw [if_pos (by simpa using (ofNat_ne_nul hlt).mpr hbyte), leNat, byte_ofNat hlt, ← ih hdiv]
        constructor
        · intro heq
          exact ⟨fun h0 => absurd h0 hbyte, by omega⟩
        · rintro ⟨-, heq⟩
          rw [heq]
          omega

end Tr69HostIf.Clib
