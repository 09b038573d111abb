import Tr69HostIf.Waldb.Lookup

/-!
# The names a lookup tries

* `Attempts` : names tried one after the other, up to the end or an overflow; `Attempts.run` : the first of them
  that the data model has;
* `attempts stray n` : the names `getParamInfoFromDataModel` tries for `n`, whatever the data model, `run_attempts`;
* `Attempts.Safe` : nothing overflows, `safe_attempts`;
* `lookup_answers` : a lookup of a name that leaves room for two placeholders does not overflow.
-/

namespace Tr69HostIf.Waldb
open Store

/-- Names to try in order. -/
inductive Attempts
  | done
  | fault
  | attempt (name : Text) (rest : Attempts)

namespace Attempts

/-- The search for one name after the other. -/
def run (dm : DataModel) : Attempts → Except Fault (Option DataModelParam)
  | done => .ok none
  | fault => .error .overflow
  | attempt name rest => tryName dm name (rest.run dm)

/-- `strncat`, then the attempts made with the text. -/
def cat (dst src : Text) (k : Text → Attempts) : Attempts :=
  match strncat dst src with
  | .ok t => k t
  | .error _ => fault

theorem run_cat (dm : DataModel) (dst src : Text) (k : Text → Attempts) :
    (cat dst src k).run dm = (strncat dst src).bind fun t => (k t).run dm := by
  unfold cat
  cases strncat dst src with
  | ok t => rfl
  | error e => cases e; rfl

end Attempts

open Attempts

/-- The end of the lookup. -/
def attemptsLast (first : Nat) (newparamName splitParam : Text) : Attempts :=
  cat (newparamName.take (first - 1)) splitParam fun name => attempt name done

/-- The lookup from `// Check if splitParam has a digit` on. -/
def attemptsSplit (stray : Stray) (paramName : Text) (first : Nat) (newparamName splitParam : Text) : Attempts :=
  match findDigit splitParam with
  | none => attemptsLast first newparamName splitParam
  | some found =>
      let newparamName := paramName.take first
      let numOfDigits := getNumberOfDigitsInInstanceNumber splitParam found
      if ownSegment stray.splitParam splitParam found numOfDigits then
        cat (splitParam.take found) instanceText fun split =>
          cat split (splitParam.drop (found + numOfDigits)) fun split =>
            cat newparamName (split.drop 3) fun name => attempt name (attemptsLast first name split)
      else
        let str := splitParam.drop (found + 1)
        match findDigit str with
        | none => attemptsLast first newparamName splitParam
        | some found₂ =>
            cat (splitParam.take (found₂ + found)) ('.' :: instanceText) fun split =>
              cat split (str.drop (found₂ + 1)) fun split =>
                cat newparamName (split.drop 3) fun name => attempt name (attemptsLast first name split)

/-- The names a lookup tries. -/
def attempts (stray : Stray) (paramName : Text) : Attempts :=
  match findDigit paramName with
  | none => attempt paramName done
  | some found =>
      attempt paramName <|
        let numOfDigits := getNumberOfDigitsInInstanceNumber paramName found
        if ownSegment stray.paramName paramName found numOfDigits then
          cat instanceText (paramName.drop (found + numOfDigits)) fun splitParam =>
            cat (paramName.take found) splitParam fun name =>
              attempt name (attemptsSplit stray paramName (found + 1) name splitParam)
        else
          attemptsSplit stray paramName (found + 1) (paramName.take (found + 1))
            ((paramName.drop (found + 1)).take (maxParameterLength - 1))

section
variable (stray : Stray) (dm : DataModel)

theorem run_last_attempt (name : Text) : (attempt name done).run dm = checkforParameterMatch dm name := by
  change tryName dm name (.ok none) = _
  unfold tryName
  cases checkforParameterMatch dm name with
  | error e => rfl
  | ok r => cases r <;> rfl

theorem run_attemptsLast (first : Nat) (new sp : Text) :
    (attemptsLast first new sp).run dm = tryLast dm first new sp := by
  unfold attemptsLast tryLast
  rw [run_cat]
  simp only [run_last_attempt]

theorem run_attemptsSplit (n : Text) (first : Nat) (new sp : Text) :
    (attemptsSplit stray n first new sp).run dm = trySplit stray dm n first new sp := by
  unfold attemptsSplit trySplit
  cases findDigit sp with
  | none => exact run_attemptsLast dm first new sp
  | some found =>
      simp only
      split
      · simp only [run_cat, Attempts.run, run_attemptsLast]
      · cases findDigit (sp.drop (found + 1)) with
        | none => exact run_attemptsLast dm first _ sp
        | some found₂ => simp only [run_cat, Attempts.run, run_attemptsLast]

/-- **The lookup tries these names and no others.** -/
theorem run_attempts (n : Text) : (attempts stray n).run dm = getParamInfoFromDataModel stray dm n := by
  unfold attempts getParamInfoFromDataModel
  cases findDigit n with
  | none => exact run_last_attempt dm n
  | some found =>
      simp only [Attempts.run]
      split
      · simp only [run_cat, Attempts.run, run_attemptsSplit]
      · rw [run_attemptsSplit]

end

/-! ## Overflow -/

namespace Attempts

/-- Only names that fit are tried, and nothing overflows. -/
inductive Safe : Attempts → Prop
  | done : Safe done
  | attempt {name : Text} {rest : Attempts} : name.length < maxParameterLength → Safe rest → Safe (attempt name rest)

theorem Safe.run {dm : DataModel} {a : Attempts} (h : Safe a) : ∃ r, a.run dm = .ok r := by
  induction h with
  | done => exact ⟨none, rfl⟩
  | @attempt name rest hname _ ih =>
      change ∃ r, tryName dm name (rest.run dm) = .ok r
      unfold tryName
      rcases checkforParameterMatch_spec dm hname with ⟨-, info, hinfo⟩ | ⟨-, hnone⟩
      · rw [hinfo]
        exact ⟨some info, rfl⟩
      · rw [hnone]
        exact ih

theorem safe_cat {dst src : Text} {k : Text → Attempts} (hfit : dst.length + src.length < maxParameterLength)
    (h : Safe (k (dst ++ src))) : Safe (cat dst src k) := by
  rw [cat, strncat_fits (by rw [List.length_append]; exact hfit)]
  exact h

end Attempts

theorem safe_attemptsLast {first : Nat} {new sp : Text} (h : first - 1 + sp.length < maxParameterLength) :
    Safe (attemptsLast first new sp) := by
  have hfit : (new.take (first - 1)).length + sp.length < maxParameterLength := by
    rw [List.length_take]
    omega
  apply safe_cat hfit
  exact .attempt (by rw [List.length_append]; exact hfit) .done

theorem safe_attemptsSplit {stray : Stray} {n : Text} {first : Nat} {new sp : Text}
    (h : first + sp.length + 4 < maxParameterLength) : Safe (attemptsSplit stray n first new sp) := by
  have hi : instanceText.length = 3 := rfl
  have rewritten : ∀ q : Text, q.length ≤ sp.length + 4 →
      Safe (cat (n.take first) (q.drop 3) fun name => attempt name (attemptsLast first name q)) := by
    intro q hq
    have hfit : (n.take first).length + (q.drop 3).length < maxParameterLength := by
      rw [List.length_take, List.length_drop]
      omega
    apply safe_cat hfit
    refine .attempt (by rw [List.length_append]; exact hfit) (safe_attemptsLast ?_)
    omega
  unfold attemptsSplit
  cases findDigit sp with
  | none =>
      apply safe_attemptsLast
      omega
  | some found =>
      simp only
      split
      · apply safe_cat
        · rw [List.length_take, hi]
          omega
        apply safe_cat
        · simp only [List.length_append, List.length_take, List.length_drop, hi]
          omega
        apply rewritten
        simp only [List.length_append, List.length_take, List.length_drop, hi]
        omega
      · cases findDigit (sp.drop (found + 1)) with
        | none =>
            apply safe_attemptsLast
            omega
        | some found₂ =>
            apply safe_cat
            · rw [List.length_take, List.length_cons, hi]
              omega
            apply safe_cat
            · simp only [List.length_append, List.length_take, List.length_drop, List.length_cons, hi]
              omega
            apply rewritten
            simp only [List.length_append, List.length_take, List.length_drop, List.length_cons, hi]
            omega

theorem safe_attempts {stray : Stray} {n : Text} (h : n.length + 8 < maxParameterLength) : Safe (attempts stray n) := by
  have hi : instanceText.length = 3 := rfl
  unfold attempts
  cases hf : findDigit n with
  | none => exact .attempt (by omega) .done
  | some found =>
      have hfound : found < n.length := by
        have := List.findIdx?_eq_some_iff_getElem.mp hf
        exact this.1
      refine .attempt (by omega) ?_
      simp only
      split
      · apply safe_cat
        · rw [List.length_drop, hi]
          omega
        apply safe_cat
        · simp only [List.length_append, List.length_take, List.length_drop, hi]
          omega
        refine .attempt ?_ (safe_attemptsSplit ?_)
        · simp only [List.length_append, List.length_take, List.length_drop, hi]
          omega
        · simp only [List.length_append, List.length_drop, hi]
          omega
      · apply safe_attemptsSplit
        rw [List.length_take, List.length_drop]
        omega

/-- **A lookup of a name that leaves room for its placeholders comes to an answer.** -/
theorem lookup_answers {stray : Stray} {n : Text} (dm : DataModel) (h : n.length + 8 < maxParameterLength) :
    ∃ r, getParamInfoFromDataModel stray dm n = .ok r := by
  rw [← run_attempts]
  exact (safe_attempts h).run

end Tr69HostIf.Waldb
