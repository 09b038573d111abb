import Mathlib.Tactic.TypeStar

/-!
# Runs that stop at a fault

* `tryRun step s l` : the state after the inputs `l`, or the first fault;
* `AfterHistory ok h l` : every input of `l` meets `ok` after `h` and the inputs in front of it;
* `tryRun_isOk_iff` : a run whose steps fault by what has come before is faultless exactly when no input comes
  after a history that makes it fault.
-/

namespace Tr69HostIf.Store

section
variable {σ ι ε : Type*} (step : σ → ι → Except ε σ)

/-- The state after the inputs, as long as no step faults. -/
def tryRun : σ → List ι → Except ε σ
  | s, [] => .ok s
  | s, i :: l =>
      match step s i with
      | .ok t => tryRun t l
      | .error e => .error e

/-- Every input meets `ok` after the inputs in front of it. -/
def AfterHistory (ok : List ι → ι → Prop) : List ι → List ι → Prop
  | _, [] => True
  | h, i :: l => ok h i ∧ AfterHistory ok (h ++ [i]) l

instance AfterHistory.decidable {ok : List ι → ι → Prop} [∀ h i, Decidable (ok h i)] :
    ∀ h l : List ι, Decidable (AfterHistory ok h l)
  | _, [] => inferInstanceAs (Decidable True)
  | h, i :: l => @instDecidableAnd _ _ _ (AfterHistory.decidable (h ++ [i]) l)

variable {step}

theorem AfterHistory.append {ok : List ι → ι → Prop} {h l l' : List ι} :
    AfterHistory ok h (l ++ l') ↔ AfterHistory ok h l ∧ AfterHistory ok (h ++ l) l' := by
  induction l generalizing h with
  | nil => simp [AfterHistory]
  | cons i l ih =>
      rw [List.cons_append, AfterHistory, AfterHistory, ih, and_assoc, List.append_assoc]
      rfl

/-- **The history rule.** `I h s` says what the inputs `h` have made of the state. -/
theorem tryRun_isOk_iff {I : List ι → σ → Prop} {ok : List ι → ι → Prop}
    (hok : ∀ h s i, I h s → ok h i → ∃ t, step s i = .ok t ∧ I (h ++ [i]) t)
    (hfault : ∀ h s i, I h s → ¬ok h i → ∃ e, step s i = .error e) {h : List ι} {s : σ} (hs : I h s) (l : List ι) :
    (tryRun step s l).isOk = true ↔ AfterHistory ok h l := by
  induction l generalizing h s with
  | nil => exact iff_of_true rfl trivial
  | cons i l ih =>
      rw [tryRun, AfterHistory]
      by_cases hi : ok h i
      · obtain ⟨t, ht, hI⟩ := hok h s i hs hi
        rw [ht]
        exact (ih hI).trans (and_iff_right hi).symm
      · obtain ⟨e, he⟩ := hfault h s i hs hi
        rw [he]
        exact iff_of_false Bool.false_ne_true fun h => hi h.1

end

end Tr69HostIf.Store
