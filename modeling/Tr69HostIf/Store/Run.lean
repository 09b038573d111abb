import Mathlib.Data.List.Basic
import Mathlib.Tactic.TypeStar

/-!
# Runs of a step function

* `run step s l` : the state after the inputs `l`;
* `Along step ok s l` : every input of the run meets `ok` in the state it is taken in;
* `Along.invariant` : what every such step preserves holds after the run, `Along.ghost` : the same for a
  relation between two states that take the same inputs, `Along.history` : for one between the state and
  what the run has put out so far;
* `run_invariant_of`, `run_invariant` : the same where the condition is on the inputs alone, or none;
* `Along.iff_kept` : what is lost for good exactly at the steps that fail `ok` tells the runs that meet it;
* `Along.congr` : conditions that agree under an invariant agree along runs.
-/

namespace Tr69HostIf.Store

section
variable {σ ι : Type*} (step : σ → ι → σ)

/-- The state after the inputs `l`. -/
def run (s : σ) (l : List ι) : σ := l.foldl step s

@[simp] theorem run_nil (s : σ) : run step s [] = s := rfl

@[simp] theorem run_cons (s : σ) (i : ι) (l : List ι) : run step s (i :: l) = run step (step s i) l := rfl

theorem run_append (s : σ) (l l' : List ι) : run step s (l ++ l') = run step (run step s l) l' := List.foldl_append

/-- Every input meets `ok` in the state it is taken in. -/
def Along (ok : σ → ι → Prop) : σ → List ι → Prop
  | _, [] => True
  | s, i :: l => ok s i ∧ Along ok (step s i) l

instance Along.decidable {ok : σ → ι → Prop} [∀ s i, Decidable (ok s i)] :
    ∀ (s : σ) (l : List ι), Decidable (Along step ok s l)
  | _, [] => inferInstanceAs (Decidable True)
  | s, i :: l => @instDecidableAnd _ _ _ (Along.decidable (step s i) l)

variable {step}

theorem Along.append {ok : σ → ι → Prop} {s : σ} {l l' : List ι} :
    Along step ok s (l ++ l') ↔ Along step ok s l ∧ Along step ok (run step s l) l' := by
  induction l generalizing s with
  | nil => simp [Along]
  | cons i l ih => rw [List.cons_append, Along, ih, Along, and_assoc]; rfl

/-- **The invariant rule.** -/
theorem Along.invariant {ok : σ → ι → Prop} {I : σ → Prop} (hstep : ∀ s i, I s → ok s i → I (step s i)) {s : σ}
    {l : List ι} (hs : I s) (h : Along step ok s l) : I (run step s l) := by
  induction l generalizing s with
  | nil => exact hs
  | cons i l ih => exact ih (hstep s i hs h.1) h.2

/-- **The invariant rule with a ghost**: `I c s` relates the state to a second state that takes the same
inputs. -/
theorem Along.ghost {γ : Type*} {ok : σ → ι → Prop} {g : γ → ι → γ} {I : γ → σ → Prop}
    (hstep : ∀ c s i, I c s → ok s i → I (g c i) (step s i)) {c : γ} {s : σ} {l : List ι} (hs : I c s)
    (hl : Along step ok s l) : I (run g c l) (run step s l) := by
  induction l generalizing c s with
  | nil => exact hs
  | cons i l ih => exact ih (hstep c s i hs hl.1) hl.2

/-- The ghost of a history: `I h s` relates the state to the outputs `g` collected so far. -/
theorem Along.history {γ : Type*} {ok : σ → ι → Prop} (g : ι → List γ) {I : List γ → σ → Prop}
    (hstep : ∀ h s i, I h s → ok s i → I (h ++ g i) (step s i)) {h : List γ} {s : σ} {l : List ι} (hs : I h s)
    (hl : Along step ok s l) : I (h ++ l.flatMap g) (run step s l) := by
  have hrun : ∀ (l : List ι) (h : List γ), run (fun h i => h ++ g i) h l = h ++ l.flatMap g := by
    intro l
    induction l with
    | nil => simp
    | cons i l ih =>
        intro h
        rw [run_cons, ih, List.append_assoc]
        rfl
  rw [← hrun]
  exact Along.ghost hstep hs hl

theorem Along.and_forall {ok : σ → ι → Prop} {p : ι → Prop} {s : σ} {l : List ι} (hp : ∀ i ∈ l, p i)
    (h : Along step ok s l) : Along step (fun s i => p i ∧ ok s i) s l := by
  induction l generalizing s with
  | nil => trivial
  | cons i l ih =>
      exact ⟨⟨hp i List.mem_cons_self, h.1⟩, ih (fun j hj => hp j (List.mem_cons_of_mem i hj)) h.2⟩

/-- Two conditions that agree wherever an invariant of the one holds agree along runs. -/
theorem Along.congr {ok ok' : σ → ι → Prop} {I : σ → Prop} (hstep : ∀ s i, I s → ok s i → I (step s i))
    (hiff : ∀ s i, I s → (ok' s i ↔ ok s i)) {s : σ} (hs : I s) (l : List ι) :
    Along step ok' s l ↔ Along step ok s l := by
  induction l generalizing s with
  | nil => exact Iff.rfl
  | cons i l ih =>
      rw [Along, Along, hiff s i hs]
      exact and_congr_right fun hok => ih (hstep s i hs hok)

/-- A state that a step keeps exactly when it meets `ok`, and that does not come back, is there at the end of
exactly the runs along which every step meets `ok`. -/
theorem Along.iff_kept {ok : σ → ι → Prop} {I K : σ → Prop} (hstep : ∀ s i, I s → I (step s i))
    (hkept : ∀ s i, I s → K s → (K (step s i) ↔ ok s i)) (hlost : ∀ s i, I s → ¬K s → ¬K (step s i)) {s : σ}
    (hs : I s) (hk : K s) (l : List ι) : K (run step s l) ↔ Along step ok s l := by
  have hgone : ∀ (l : List ι) {s : σ}, I s → ¬K s → ¬K (run step s l) := by
    intro l
    induction l with
    | nil => exact fun _ hk => hk
    | cons i l ih => exact fun hs hk => ih (hstep _ i hs) (hlost _ i hs hk)
  induction l generalizing s with
  | nil => exact iff_of_true hk trivial
  | cons i l ih =>
      rw [run_cons, Along, ← hkept s i hs hk]
      by_cases hi : K (step s i)
      · exact (ih (hstep s i hs) hi).trans (and_iff_right hi).symm
      · exact iff_of_false (hgone l (hstep s i hs) hi) fun h => hi h.1

theorem along_of_forall {ok : ι → Prop} {s : σ} {l : List ι} (h : ∀ i ∈ l, ok i) :
    Along step (fun _ i => ok i) s l := by
  induction l generalizing s with
  | nil => trivial
  | cons i l ih => exact ⟨h i List.mem_cons_self, ih fun j hj => h j (List.mem_cons_of_mem i hj)⟩

theorem run_invariant_of {ok : ι → Prop} {I : σ → Prop} (hstep : ∀ s i, I s → ok i → I (step s i)) {s : σ}
    {l : List ι} (hs : I s) (h : ∀ i ∈ l, ok i) : I (run step s l) :=
  Along.invariant hstep hs (along_of_forall h)

theorem run_invariant {I : σ → Prop} (hstep : ∀ s i, I s → I (step s i)) {s : σ} (hs : I s) (l : List ι) :
    I (run step s l) :=
  run_invariant_of (fun s i h _ => hstep s i h) hs fun _ _ => trivial

end

end Tr69HostIf.Store
