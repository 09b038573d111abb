import Tr69HostIf.Waldb.Splice

/-!
# Rounds of the walk

* `Finishes env frame zero w pChild r` : the loop of `getList` ends with `r`; `listLoop_mono` : a larger bound changes
  nothing then;
* `finishes_of_loop` : a round and the rounds behind it;
* `finishes_unmatched`, `finishes_skipped`, `finishes_object`, `finishes_empty`, `finishes_table` : the rounds at one
  object, by what the walk does with it;
* `instanceLoop_finishes` : the recursive calls for the instances of a table.
-/

namespace Tr69HostIf.Waldb
open Store Clib

theorem bind_eq_ok {α β : Type} {x : Except WalkFault α} {f : α → Except WalkFault β} {b : β} :
    x.bind f = .ok b ↔ ∃ a, x = .ok a ∧ f a = .ok b := by
  cases x with
  | error e => simp [Except.bind]
  | ok a => simp [Except.bind]

/-! ## The bound -/

section
variable {env : Env} {list list' : Text → Walk → Node → Except WalkFault (Walk × Option Node)}

/-- The recursive call of a round whose bound is `fuel`. -/
def listAt (env : Env) (fuel : Nat) (name : Text) (w : Walk) (node : Node) : Except WalkFault (Walk × Option Node) :=
  listLoop env fuel ⟨name, decide (w.currentParam ≠ [])⟩ [] w (some node)

theorem instanceLoop_mono (h : ∀ name w node r, list name w node = .ok r → list' name w node = .ok r) {pChild : Option Node}
    {is : List Nat} {w : Walk} {sChild : Option Node} {r : Walk × Option Node}
    (hr : instanceLoop env list pChild is w sChild = .ok r) : instanceLoop env list' pChild is w sChild = .ok r := by
  induction is generalizing w sChild with
  | nil => exact hr
  | cons i is ih =>
      cases pChild with
      | none => cases hr
      | some child =>
          simp only [instanceLoop] at hr ⊢
          split at hr
          · cases hr
          · next hlen =>
            rw [if_neg hlen]
            obtain ⟨current, hcurrent, hr⟩ := bind_eq_ok.mp hr
            obtain ⟨r', hlist, hr⟩ := bind_eq_ok.mp hr
            exact bind_eq_ok.mpr ⟨current, hcurrent, bind_eq_ok.mpr ⟨r', h _ _ _ _ hlist, ih hr⟩⟩

theorem tableStep_mono (h : ∀ name w node r, list name w node = .ok r → list' name w node = .ok r) {attr : Text}
    {inst : Int} {w : Walk} {pChild : Option Node} {r : RoundEnd} (hr : tableStep env list attr inst w pChild = .ok r) :
    tableStep env list' attr inst w pChild = .ok r := by
  obtain ⟨actual, hactual, hr⟩ := bind_eq_ok.mp hr
  obtain ⟨w', hloop, hr⟩ := bind_eq_ok.mp hr
  refine bind_eq_ok.mpr ⟨actual, hactual, bind_eq_ok.mpr ⟨w', ?_, hr⟩⟩
  split at hloop
  · next hinst =>
    rw [if_pos hinst]
    exact instanceLoop_mono h hloop
  · next hinst =>
    rw [if_neg hinst]
    exact hloop

theorem round_mono (h : ∀ name w node r, list name w node = .ok r → list' name w node = .ok r) {frame : Frame}
    {zero : Text} {w : Walk} {node : Node} {r : RoundEnd} (hr : round env list frame zero w node = .ok r) :
    round env list' frame zero w node = .ok r := by
  cases node with
  | model => exact hr
  | parameter o rest p ps => exact hr
  | object o rest =>
      simp only [round, objectStep] at hr ⊢
      split at hr
      · exact hr
      · split at hr
        · next hskip =>
          rw [if_pos hskip]
          exact hr
        · next hskip =>
          rw [if_neg hskip]
          obtain ⟨current, hcurrent, hr⟩ := bind_eq_ok.mp hr
          refine bind_eq_ok.mpr ⟨current, hcurrent, ?_⟩
          split at hr
          · next htable =>
            rw [if_pos htable]
            exact tableStep_mono h hr
          · next htable =>
            rw [if_neg htable]
            exact hr

theorem listLoop_succ (env : Env) (fuel : Nat) (frame : Frame) (zero : Text) (w : Walk) (node : Node) :
    listLoop env (fuel + 1) frame zero w (some node) =
      (round env (listAt env fuel) frame zero w node).bind fun
        | .loop zero w pChild => listLoop env fuel frame zero w pChild
        | .done w pChild => .ok (w, pChild) := rfl

/-- **What the walk returns does not depend on the bound.** -/
theorem listLoop_mono {fuel fuel' : Nat} (hle : fuel ≤ fuel') {frame : Frame} {zero : Text} {w : Walk}
    {pChild : Option Node} {r : Walk × Option Node} (h : listLoop env fuel frame zero w pChild = .ok r) :
    listLoop env fuel' frame zero w pChild = .ok r := by
  induction fuel generalizing fuel' frame zero w pChild r with
  | zero =>
      cases pChild with
      | none => cases fuel' <;> exact h
      | some node => cases h
  | succ fuel ih =>
      cases pChild with
      | none => cases fuel' <;> exact h
      | some node =>
          obtain ⟨fuel', rfl⟩ : ∃ k, fuel' = k + 1 := ⟨fuel' - 1, by omega⟩
          rw [listLoop_succ] at h ⊢
          obtain ⟨e, hround, h⟩ := bind_eq_ok.mp h
          have hle' : fuel ≤ fuel' := by omega
          have hround' := round_mono (fun _ _ _ _ hr => ih hle' hr) hround
          refine bind_eq_ok.mpr ⟨e, hround', ?_⟩
          cases e with
          | done w p => exact h
          | loop zero w p => exact ih hle' h

end

/-! ## One round -/

section
variable {env : Env} {frame : Frame} {zero : Text} {w : Walk} {r : Walk × Option Node}

/-- The loop ends with `r`. -/
def Finishes (env : Env) (frame : Frame) (zero : Text) (w : Walk) (pChild : Option Node) (r : Walk × Option Node) : Prop :=
  ∃ fuel, listLoop env fuel frame zero w pChild = .ok r

theorem finishes_none : Finishes env frame zero w none (w, none) := ⟨0, rfl⟩

theorem finishes_of_loop {node : Node} {zero' : Text} {w' : Walk} {pChild : Option Node} (k : Nat)
    (hround : ∀ fuel, k ≤ fuel → round env (listAt env fuel) frame zero w node = .ok (.loop zero' w' pChild))
    (h : Finishes env frame zero' w' pChild r) : Finishes env frame zero w (some node) r := by
  obtain ⟨fuel, hfuel⟩ := h
  refine ⟨max k fuel + 1, ?_⟩
  rw [listLoop_succ, hround _ (Nat.le_max_left k fuel)]
  exact listLoop_mono (Nat.le_max_right k fuel) hfuel

variable {o : XmlObject} {rest : List XmlObject}

/-- An object that does not match ends a recursive call. -/
theorem finishes_return (hrec : frame.isRecursiveCall = true) (hmatch : matching o.base frame.paramName = none) :
    Finishes env frame zero w (some (.object o rest)) (w, some (.object o rest)) := by
  refine ⟨1, ?_⟩
  rw [listLoop_succ]
  simp [round, objectStep, hmatch, hrec, Except.bind]

/-- An object that does not match is passed in the first call. -/
theorem finishes_unmatched (hrec : frame.isRecursiveCall = false) (hmatch : matching o.base frame.paramName = none)
    (h : Finishes env frame zero w (nodeOf rest) r) : Finishes env frame zero w (some (.object o rest)) r := by
  refine finishes_of_loop 0 (fun fuel _ => ?_) h
  simp [round, objectStep, hmatch, hrec]

/-- An object below a table without instances is passed. -/
theorem finishes_skipped {m : Bool × Int} (hmatch : matching o.base frame.paramName = some m) (hzero : zero ≠ [])
    (hskip : zero <:+: o.base) (h : Finishes env frame zero w (nodeOf rest) r) :
    Finishes env frame zero w (some (.object o rest)) r := by
  refine finishes_of_loop 0 (fun fuel _ => ?_) h
  simp only [round, objectStep, hmatch]
  rw [if_pos ⟨hzero, strstr_isSome.mpr hskip⟩]

/-- The parameters of an object, and on to the next one. -/
theorem finishes_parameters {p : DmParameter} {ps : List DmParameter} {listed : List (Text × Text)}
    (hlist : listParameters w.currentParam (p :: ps) w.listed = .ok listed)
    (h : Finishes env frame zero ⟨w.currentParam, listed⟩ (nodeOf rest) r) :
    Finishes env frame zero w (some (.parameter o rest p ps)) r := by
  refine finishes_of_loop 0 (fun fuel _ => ?_) h
  simp only [round, parameterStep, hlist]
  rfl

/-- From the first child of an object, or from the next object if it has none. -/
theorem finishes_child {listed : List (Text × Text)} (hlist : listParameters w.currentParam o.params w.listed = .ok listed)
    (h : Finishes env frame zero ⟨w.currentParam, listed⟩ (nodeOf rest) r) :
    Finishes env frame zero w ((firstChild o rest).or (nodeOf rest)) r := by
  unfold firstChild
  cases hparams : o.params with
  | nil =>
      rw [hparams] at hlist
      obtain rfl : w.listed = listed := by simpa [listParameters] using hlist
      exact h
  | cons p ps =>
      rw [hparams] at hlist
      exact finishes_parameters hlist h

section
variable {status : Bool} {inst : Int} {current : Text} (hmatch : matching o.base frame.paramName = some (status, inst))
  (hzero : zero = [] ∨ ¬zero <:+: o.base)
  (hcurrent : appendNextObject (if status && !frame.isRecursiveCall then frame.paramName else w.currentParam) o.base =
    .ok current)

include hmatch hzero hcurrent

/-- The round at an object that matches. -/
theorem objectStep_matched (list : Text → Walk → Node → Except WalkFault (Walk × Option Node)) :
    objectStep env list frame zero w o rest =
      if isTable o then tableStep env list o.base inst ⟨current, w.listed⟩ ((firstChild o rest).or (nodeOf rest))
      else .ok (.loop [] ⟨current, w.listed⟩ ((firstChild o rest).or (nodeOf rest))) := by
  have hskip : ¬(zero ≠ [] ∧ (strstr o.base zero).isSome = true) := by
    rintro ⟨hne, hsome⟩
    rcases hzero with hnil | hinfix
    · exact hne hnil
    · exact hinfix (strstr_isSome.mp hsome)
  simp only [objectStep, hmatch]
  rw [if_neg hskip]
  simp only [hcurrent]
  rfl

/-- An object that is no table, or one whose number the request fixes. -/
theorem finishes_object {listed : List (Text × Text)}
    (hfixed : isTable o = true → ∃ n : Nat, getNumberofInstances env o.base = .ok n ∧ inst ≠ 0 ∧ inst ≤ n)
    (hlist : listParameters current o.params w.listed = .ok listed)
    (h : Finishes env frame [] ⟨current, listed⟩ (nodeOf rest) r) :
    Finishes env frame zero w (some (.object o rest)) r := by
  refine finishes_of_loop 0 (fun fuel _ => ?_) (finishes_child (w := ⟨current, w.listed⟩) hlist h)
  rw [round, objectStep_matched hmatch hzero hcurrent]
  split
  · next htable =>
    obtain ⟨n, hn, hne, hle⟩ := hfixed htable
    simp only [tableStep, hn, Except.bind]
    rw [if_neg hne, if_neg hne, if_pos hle]
    simp only
    rw [if_neg hne]
  · rfl

/-- A table with parameters and a fixed number that no instance has, or without instances: the walk comes back to the
table and passes it. -/
theorem finishes_empty (htable : isTable o = true) (hparams : o.params ≠ []) {n : Nat}
    (hn : getNumberofInstances env o.base = .ok n) (hnone : inst = 0 ∧ n = 0 ∨ inst ≠ 0 ∧ ¬inst ≤ n)
    (h : Finishes env frame o.base ⟨current, w.listed⟩ (nodeOf rest) r) :
    Finishes env frame zero w (some (.object o rest)) r := by
  obtain ⟨p, ps, hcons⟩ := List.exists_cons_of_ne_nil hparams
  have hfirst : (firstChild o rest).or (nodeOf rest) = some (.parameter o rest p ps) := by
    unfold firstChild
    rw [hcons]
    rfl
  have hlen : o.base.length < maxParameterLength := by
    have := o.fits p (by rw [hcons]; exact List.mem_cons_self)
    rw [List.length_append] at this
    exact lt_of_le_of_lt (Nat.le_add_right _ _) this
  have hne : o.base ≠ [] := by
    obtain ⟨u, hu⟩ := pathText_concat o.path_ne_nil
    rw [XmlObject.base, hu]
    simp
  -- the second round stands at the table again, and skips it
  have hagain : Finishes env frame o.base ⟨current, w.listed⟩ (some (.object o rest)) r :=
    finishes_skipped hmatch hne (List.infix_refl _) h
  refine finishes_of_loop 0 (fun fuel _ => ?_) hagain
  rw [round, objectStep_matched hmatch hzero hcurrent, if_pos htable, hfirst]
  simp only [tableStep, hn, Except.bind]
  rcases hnone with ⟨rfl, rfl⟩ | ⟨hinst, hle⟩
  · simp [instanceLoop, strcpyS, hlen, Node.parent]
  · rw [if_neg hinst, if_neg hinst, if_neg hle]
    simp [strcpyS, hlen, Node.parent]

/-- A table with instances. -/
theorem finishes_table (htable : isTable o = true) (hinst : inst = 0) {n : Nat} (hpos : n ≠ 0)
    (hn : getNumberofInstances env o.base = .ok n) {w' : Walk} {sChild : Option Node} {k : Nat}
    (hloop : ∀ fuel, k ≤ fuel → instanceLoop env (listAt env fuel) ((firstChild o rest).or (nodeOf rest))
      (List.range' 1 n) ⟨current, w.listed⟩ ((firstChild o rest).or (nodeOf rest)) = .ok (w', sChild))
    (h : Finishes env frame [] w' sChild r) : Finishes env frame zero w (some (.object o rest)) r := by
  refine finishes_of_loop k (fun fuel hfuel => ?_) h
  rw [round, objectStep_matched hmatch hzero hcurrent, if_pos htable]
  simp only [tableStep, hn, Except.bind]
  rw [if_pos hinst, if_pos hinst, hloop fuel hfuel]
  simp only
  rw [if_neg (by exact_mod_cast hpos)]

end

/-! ## The instances of a table -/

/-- **The recursive calls list one instance after the other**, and leave the buffer as it was. -/
theorem instanceLoop_finishes (env : Env) (t : Text) (child : Node) (after : Option Node) (out : Nat → List (Text × Text))
    {is : List Nat} (hbuf : ∀ i ∈ is, (t ++ printNat i ++ ['.']).length < maxParameterLength) (hsmall : ∀ i ∈ is, i ≤ maxNumParameters)
    (listed : List (Text × Text)) (hroom : (listed ++ is.flatMap out).length ≤ maxNumParameters)
    (hcall : ∀ i ∈ is, ∀ listed : List (Text × Text), (listed ++ out i).length ≤ maxNumParameters → ∃ current,
      Finishes env ⟨strcpyS (child.parentAttribute env), true⟩ [] ⟨t ++ printNat i ++ ['.'], listed⟩ (some child)
        (⟨current, listed ++ out i⟩, after) ∧ t <+: current)
    (sChild : Option Node) :
    ∃ k, ∀ fuel, k ≤ fuel → instanceLoop env (listAt env fuel) (some child) is ⟨t ++ indicator, listed⟩ sChild =
      .ok (⟨t ++ indicator, listed ++ is.flatMap out⟩, if is = [] then sChild else after) := by
  induction is generalizing listed sChild with
  | nil => exact ⟨0, fun fuel _ => by simp [instanceLoop]⟩
  | cons i is ih =>
      rw [List.forall_mem_cons] at hbuf hsmall hcall
      rw [List.flatMap_cons, ← List.append_assoc] at hroom
      have hroom' : (listed ++ out i).length ≤ maxNumParameters := by
        rw [List.length_append] at hroom
        omega
      obtain ⟨current, ⟨k₁, hk₁⟩, hpre⟩ := hcall.1 listed hroom'
      obtain ⟨k₂, hk₂⟩ := ih hbuf.2 hsmall.2 (listed ++ out i) hroom hcall.2 after
      refine ⟨max k₁ k₂, fun fuel hfuel => ?_⟩
      have hlen : ¬(t ++ indicator).length < 4 := by simp [indicator]
      have hlen' : (t ++ indicator).length - 4 = t.length := by simp [indicator]
      have hcurrent : buffer (replaceWithInstanceNumber (t ++ indicator) i) = .ok (t ++ printNat i ++ ['.']) := by
        rw [replaceWithInstanceNumber_indicator t (length_printNat_lt hsmall.1), buffer, if_pos hbuf.1]
      have hlist : listAt env fuel (strcpyS (child.parentAttribute env)) ⟨t ++ printNat i ++ ['.'], listed⟩ child =
          .ok (⟨current, listed ++ out i⟩, after) := by
        have hne : decide (t ++ printNat i ++ ['.'] ≠ []) = true := by simp
        rw [listAt]
        simp only [hne]
        exact listLoop_mono (le_trans (Nat.le_max_left k₁ k₂) hfuel) hk₁
      simp only [instanceLoop]
      rw [if_neg hlen, hcurrent]
      simp only [Except.bind, hlist, hlen', putIndicator_eq hpre]
      rw [hk₂ fuel (le_trans (Nat.le_max_right k₁ k₂) hfuel), List.flatMap_cons, List.append_assoc]
      simp

end

end Tr69HostIf.Waldb
