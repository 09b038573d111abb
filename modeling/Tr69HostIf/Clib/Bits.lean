import Mathlib.Data.List.Basic
import Mathlib.Tactic.Ring

/-!
# The bits of a number

* `natBits k v` : the `k` low bits of `v`, the highest first; `natBits_add` cuts them in two and `natBits_join` puts
  them together, `natBits_injective` : they determine a number below `2 ^ k`;
* `natBits_and`, `flatMap_natBits_and` : the bits of a bitwise and;
* `flatMap_natBits_injective` : numbers of `k` bits, written one after the other, are determined by their bits;
* `zipWith_and_mask` : a mask of ones in front of zeros.
-/

namespace Tr69HostIf.Clib

/-- The `k` low bits of a number, the highest first. -/
def natBits : Nat → Nat → List Bool
  | 0, _ => []
  | k + 1, v => natBits k (v / 2) ++ [decide (v % 2 = 1)]

@[simp] theorem length_natBits (k v : Nat) : (natBits k v).length = k := by
  induction k generalizing v with
  | zero => rfl
  | succ k ih => rw [natBits, List.length_append, ih, List.length_singleton]

theorem natBits_add (a b v : Nat) : natBits (a + b) v = natBits a (v / 2 ^ b) ++ natBits b v := by
  induction b generalizing v with
  | zero => simp [natBits]
  | succ b ih =>
      rw [← Nat.add_assoc, natBits, natBits, ih, List.append_assoc, Nat.div_div_eq_div_mul, ← Nat.pow_succ']

theorem natBits_mod (k v : Nat) {m : Nat} (h : k ≤ m) : natBits k (v % 2 ^ m) = natBits k v := by
  induction k generalizing v m with
  | zero => rfl
  | succ k ih =>
      obtain ⟨m, rfl⟩ := Nat.exists_eq_add_of_le' (Nat.one_le_of_lt h)
      have hdiv : v % 2 ^ (m + 1) / 2 = v / 2 % 2 ^ m := by
        rw [Nat.pow_succ', Nat.mod_mul_right_div_self]
      have hmod : v % 2 ^ (m + 1) % 2 = v % 2 := Nat.mod_mod_of_dvd _ (Dvd.intro_left (2 ^ m) rfl)
      rw [natBits, natBits, hdiv, hmod, ih _ (by omega)]

theorem natBits_join (i : Nat) {j x y : Nat} (h : y < 2 ^ j) :
    natBits (i + j) (x * 2 ^ j + y) = natBits i x ++ natBits j y := by
  have hdiv : (x * 2 ^ j + y) / 2 ^ j = x := by
    rw [Nat.add_comm, Nat.add_mul_div_right _ _ (Nat.two_pow_pos j), Nat.div_eq_of_lt h, Nat.zero_add]
  have hmod : (x * 2 ^ j + y) % 2 ^ j = y := by
    rw [Nat.add_comm, Nat.add_mul_mod_self_right, Nat.mod_eq_of_lt h]
  rw [natBits_add, hdiv, ← natBits_mod j (x * 2 ^ j + y) (Nat.le_refl j), hmod]

/-- The bits of a number determine it. -/
theorem natBits_injective {k v w : Nat} (hv : v < 2 ^ k) (hw : w < 2 ^ k) (h : natBits k v = natBits k w) : v = w := by
  induction k generalizing v w with
  | zero =>
      rw [Nat.pow_zero] at hv hw
      omega
  | succ k ih =>
      rw [Nat.pow_succ] at hv hw
      obtain ⟨hhigh, hlow⟩ := List.append_inj' h rfl
      have hdiv : v / 2 = w / 2 := ih (by omega) (by omega) hhigh
      have hmod : v % 2 = 1 ↔ w % 2 = 1 := by simpa using hlow
      omega

theorem natBits_zero (k : Nat) : natBits k 0 = List.replicate k false := by
  induction k with
  | zero => rfl
  | succ k ih => simp [natBits, ih, List.replicate_succ']

theorem length_flatMap_natBits (k : Nat) (l : List Nat) : (l.flatMap (natBits k)).length = k * l.length := by
  induction l with
  | nil => rfl
  | cons v l ih => rw [List.flatMap_cons, List.length_append, ih, length_natBits, List.length_cons]; ring

/-- Numbers written one after the other are determined by their bits. -/
theorem flatMap_natBits_injective {k : Nat} (hk : 0 < k) {l l' : List Nat} (hl : ∀ v ∈ l, v < 2 ^ k)
    (hl' : ∀ v ∈ l', v < 2 ^ k) (h : l.flatMap (natBits k) = l'.flatMap (natBits k)) : l = l' := by
  have hlen : l.length = l'.length := by
    have := congrArg List.length h
    rw [length_flatMap_natBits, length_flatMap_natBits] at this
    exact Nat.eq_of_mul_eq_mul_left hk this
  induction l generalizing l' with
  | nil => exact (List.length_eq_zero_iff.mp hlen.symm).symm
  | cons v l ih =>
      cases l' with
      | nil => cases hlen
      | cons w l' =>
          rw [List.flatMap_cons, List.flatMap_cons] at h
          obtain ⟨hhead, htail⟩ := List.append_inj h (by rw [length_natBits, length_natBits])
          rw [natBits_injective (hl v List.mem_cons_self) (hl' w List.mem_cons_self) hhead,
            ih (fun x hx => hl x (List.mem_cons_of_mem v hx)) (fun x hx => hl' x (List.mem_cons_of_mem w hx)) htail
              (Nat.succ.inj hlen)]

/-! ## Bitwise and -/

theorem natBits_and (k v w : Nat) : natBits k (v &&& w) = List.zipWith (· && ·) (natBits k v) (natBits k w) := by
  induction k generalizing v w with
  | zero => rfl
  | succ k ih =>
      have hdiv : (v &&& w) / 2 = v / 2 &&& w / 2 := Nat.and_div_two
      have hmod : decide ((v &&& w) % 2 = 1) = (decide (v % 2 = 1) && decide (w % 2 = 1)) := by
        rw [← Bool.decide_and, decide_eq_decide]
        exact Nat.and_mod_two_eq_one
      rw [natBits, natBits, natBits, hdiv, ih, hmod,
        List.zipWith_append (by rw [length_natBits, length_natBits]), List.zipWith_cons_cons, List.zipWith_nil_right]

theorem flatMap_natBits_and (k : Nat) {l l' : List Nat} (h : l.length = l'.length) :
    (List.zipWith (· &&& ·) l l').flatMap (natBits k) =
      List.zipWith (· && ·) (l.flatMap (natBits k)) (l'.flatMap (natBits k)) := by
  induction l generalizing l' with
  | nil => rfl
  | cons v l ih =>
      cases l' with
      | nil => cases h
      | cons w l' =>
          rw [List.zipWith_cons_cons, List.flatMap_cons, List.flatMap_cons, List.flatMap_cons, natBits_and,
            List.zipWith_append (by rw [length_natBits, length_natBits]), ih (Nat.succ.inj h)]

theorem zipWith_and_mask (x : List Bool) {n m : Nat} (h : x.length = n + m) :
    List.zipWith (· && ·) x (List.replicate n true ++ List.replicate m false) = x.take n ++ List.replicate m false := by
  induction n generalizing x with
  | zero =>
      induction m generalizing x with
      | zero => simp [List.length_eq_zero_iff.mp h]
      | succ m ih =>
          cases x with
          | nil => simp at h
          | cons b x => simpa [List.replicate_succ] using ih x (by simpa using h)
  | succ n ih =>
      cases x with
      | nil => simp at h; omega
      | cons b x =>
          rw [List.replicate_succ, List.cons_append, List.zipWith_cons_cons, ih x (by simp at h; omega), Bool.and_true,
            List.take_succ_cons, List.cons_append]

end Tr69HostIf.Clib
