import Mathlib.Logic.Relation
import Tr69HostIf.Waldb.Rounds

/-!
# The walk ends and stays inside the document

* `Turn` : what the loop of `getList` does at a node before it calls itself, `round_eq_turn`;
* `Step`, `Visits` : from the state of the walk at a node, or between two calls for a table, to the next one;
* `Good` : what has to hold of a state: a table whose instances are to be passed over has a parameter and a path that
  fits its buffer, a table with instances has a node behind it, a parameter has its syntax, and the buffers suffice;
* `objectsFrom` : the objects from a node on, which no round makes more; `returns_of_good` : the walk ends by induction
  on them;
* `inside_iff` : the walk ends inside the document exactly when it meets good states only.
-/

namespace Tr69HostIf.Waldb
open Store Clib

/-- The round at a node, up to the calls for the instances of a table. -/
inductive Turn
  | back (w : Walk) (node : Option Node)
  | onward (zeroInstance : Text) (w : Walk) (node : Option Node)
  | calls (w : Walk) (child : Option Node) (instances : Nat)

/-- The turn at a table. -/
def tableTurn (env : Env) (attr : Text) (inst : Int) (w : Walk) (pChild : Option Node) : Except WalkFault Turn :=
  (getNumberofInstances env attr).bind fun actualInstance =>
    if inst = 0 ∧ 0 < actualInstance then .ok (.calls w pChild actualInstance)
    else if inst = 0 ∨ (actualInstance : Int) < inst then
      match pChild with
      | none => .error .nullPointer
      | some child => .ok (.onward (strcpyS attr) w (some child.parent))
    else .ok (.onward [] w pChild)

/-- The turn at a node. -/
def turn (env : Env) (frame : Frame) (zeroInstance : Text) (w : Walk) : Node → Except WalkFault Turn
  | .model => .ok (.onward zeroInstance w (some .model))
  | .parameter _ rest p ps =>
      (listParameters w.currentParam (p :: ps) w.listed).map fun listed =>
        .onward zeroInstance { w with listed := listed } (nodeOf rest)
  | .object o rest =>
      match matching o.base frame.paramName with
      | none =>
          if frame.isRecursiveCall then .ok (.back w (some (.object o rest)))
          else .ok (.onward zeroInstance w (nodeOf rest))
      | some (status, inst) =>
          if zeroInstance ≠ [] ∧ (strstr o.base zeroInstance).isSome then .ok (.onward zeroInstance w (nodeOf rest))
          else
            (appendNextObject (if status && !frame.isRecursiveCall then frame.paramName else w.currentParam)
              o.base).bind fun current =>
                if isTable o then
                  tableTurn env o.base inst { w with currentParam := current } ((firstChild o rest).or (nodeOf rest))
                else .ok (.onward [] { w with currentParam := current } ((firstChild o rest).or (nodeOf rest)))

/-- How a round ends. -/
def Turn.finish (env : Env) (list : Text → Walk → Node → Except WalkFault (Walk × Option Node)) :
    Turn → Except WalkFault RoundEnd
  | .back w node => .ok (.done w node)
  | .onward zeroInstance w node => .ok (.loop zeroInstance w node)
  | .calls w child n => (instanceLoop env list child (List.range' 1 n) w child).map fun r => .loop [] r.1 r.2

theorem tableStep_eq_turn (env : Env) (list : Text → Walk → Node → Except WalkFault (Walk × Option Node)) (attr : Text)
    (inst : Int) (w : Walk) (pChild : Option Node) :
    tableStep env list attr inst w pChild = (tableTurn env attr inst w pChild).bind (Turn.finish env list) := by
  unfold tableStep tableTurn
  cases getNumberofInstances env attr with
  | error e => rfl
  | ok actual =>
      simp only [Except.bind]
      by_cases hi : inst = 0
      · cases actual with
        | zero =>
            simp only [hi, List.range'_zero, instanceLoop]
            cases pChild <;> rfl
        | succ n =>
            have hn : ¬ (((n + 1 : Nat) : Int) = 0) := by omega
            simp only [hi, if_true, Nat.zero_lt_succ, and_self, hn, if_false]
            show _ = (instanceLoop env list pChild (List.range' 1 (n + 1)) w pChild).map _
            cases instanceLoop env list pChild (List.range' 1 (n + 1)) w pChild <;> rfl
      · by_cases hle : inst ≤ actual
        · have hlt : ¬ ((actual : Int) < inst) := Int.not_lt.mpr hle
          simp only [hi, hle, hlt, if_true, if_false, false_and, false_or]
          rfl
        · have hlt : (actual : Int) < inst := Int.not_le.mp hle
          simp only [hi, hle, hlt, if_true, if_false, false_and, or_true]
          cases pChild <;> rfl

/-- **A round is its turn, and the calls behind it.** -/
theorem round_eq_turn (env : Env) (list : Text → Walk → Node → Except WalkFault (Walk × Option Node)) (frame : Frame)
    (zero : Text) (w : Walk) (node : Node) :
    round env list frame zero w node = (turn env frame zero w node).bind (Turn.finish env list) := by
  cases node with
  | model => rfl
  | parameter o rest p ps =>
      simp only [round, parameterStep, turn]
      cases listParameters w.currentParam (p :: ps) w.listed <;> rfl
  | object o rest =>
      simp only [round, objectStep, turn]
      cases matching o.base frame.paramName with
      | none => cases hr : frame.isRecursiveCall <;> simp [Except.bind, Turn.finish]
      | some m =>
          obtain ⟨status, inst⟩ := m
          simp only []
          by_cases hz : zero ≠ [] ∧ (strstr o.base zero).isSome = true
          · rw [if_pos hz, if_pos hz]
            rfl
          · rw [if_neg hz, if_neg hz]
            cases appendNextObject (if status && !frame.isRecursiveCall then frame.paramName else w.currentParam)
                o.base with
            | error e => rfl
            | ok current =>
                simp only [Except.bind]
                cases isTable o with
                | true => exact tableStep_eq_turn env list _ _ _ _
                | false => rfl

/-! ## States of the walk -/

/-- Where the walk is: at a node in one of its calls, or in front of the `k` calls for the instances from `i` on. -/
inductive State
  | node (frame : Frame) (zeroInstance : Text) (w : Walk) (node : Node)
  | calls (w : Walk) (child sChild : Option Node) (i k : Nat)

/-- `currentParam` with the number of an instance. -/
def Walk.numbered (w : Walk) (i : Nat) : Walk := { w with currentParam := replaceWithInstanceNumber w.currentParam i }

/-- The arguments of the call for an instance. -/
def Walk.frame (env : Env) (w : Walk) (child : Node) : Frame :=
  ⟨strcpyS (child.parentAttribute env), decide (w.currentParam ≠ [])⟩

/-- `currentParam` behind a call, with its number replaced by `{i}.` again. -/
def Walk.renumbered (w : Walk) (len : Nat) : Walk := { w with currentParam := putIndicator w.currentParam len }

/-- From one state to the next, or into a call. -/
inductive Step (env : Env) : State → State → Prop
  | onward {frame zero w node zero' w' node'} (h : turn env frame zero w node = .ok (.onward zero' w' (some node'))) :
      Step env (.node frame zero w node) (.node frame zero' w' node')
  | calls {frame zero w node w' child n} (h : turn env frame zero w node = .ok (.calls w' child n)) :
      Step env (.node frame zero w node) (.calls w' child child 1 n)
  | called {frame zero w node w' child n fuel r node'} (h : turn env frame zero w node = .ok (.calls w' child n))
      (hr : instanceLoop env (listAt env fuel) child (List.range' 1 n) w' child = .ok (r, some node')) :
      Step env (.node frame zero w node) (.node frame [] r node')
  | call {w child s i k} :
      Step env (.calls w (some child) s i (k + 1)) (.node ((w.numbered i).frame env child) [] (w.numbered i) child)
  | next {w child s i k r} (hr : Finishes env ((w.numbered i).frame env child) [] (w.numbered i) (some child) r) :
      Step env (.calls w (some child) s i (k + 1))
        (.calls (r.1.renumbered (w.currentParam.length - 4)) (some child) r.2 (i + 1) k)

/-- The walk comes from one state to the other. -/
def Visits (env : Env) : State → State → Prop := Relation.ReflTransGen (Step env)

/-- The walk returns from the state. -/
def State.Returns (env : Env) : State → Prop
  | .node frame zero w pChild => ∃ r, Finishes env frame zero w (some pChild) r
  | .calls w child s i k => ∃ fuel r, instanceLoop env (listAt env fuel) child (List.range' i k) w s = .ok r

/-- No instance of a table is walked over. -/
def NoInstance (inst : Int) (actualInstance : Nat) : Prop :=
  if inst = 0 then actualInstance = 0 else (actualInstance : Int) < inst

/-- A table whose number of instances can be asked for, with a parameter and a path that fits its buffer when no instance
is walked over. -/
def GoodTable (env : Env) (o : XmlObject) (inst : Int) : Prop :=
  ∃ actual, getNumberofInstances env o.base = .ok actual ∧
    (NoInstance inst actual → o.params ≠ [] ∧ o.base.length < maxParameterLength)

/-- An object that is walked over has a name that fits its buffer, and is a good table if it is one. -/
def GoodObject (env : Env) (frame : Frame) (zero : Text) (w : Walk) (o : XmlObject) : Prop :=
  ∀ status inst, matching o.base frame.paramName = some (status, inst) →
    ¬ (zero ≠ [] ∧ (strstr o.base zero).isSome = true) →
      (∃ current, appendNextObject (if status && !frame.isRecursiveCall then frame.paramName else w.currentParam)
        o.base = .ok current) ∧
      (isTable o = true → GoodTable env o inst)

/-- A state the walk gets over. -/
def Good (env : Env) : State → Prop
  | .node _ _ _ .model => False
  | .node _ _ w (.parameter _ _ p ps) =>
      w.currentParam = [] ∨ ∀ q ∈ (p :: ps).take (maxNumParameters - w.listed.length), q.syntaxNodes ≠ []
  | .node frame zero w (.object o _) => GoodObject env frame zero w o
  | .calls _ _ _ _ 0 => True
  | .calls w child _ i (_ + 1) =>
      child ≠ none ∧ 4 ≤ w.currentParam.length ∧
        (replaceWithInstanceNumber w.currentParam i).length < maxParameterLength

section
variable {env : Env} {frame : Frame} {zero : Text} {w : Walk}

/-! ## A walk that returns meets good states only -/

theorem map_eq_ok {α β : Type} {x : Except WalkFault α} {f : α → β} {b : β} :
    x.map f = .ok b ↔ ∃ a, x = .ok a ∧ f a = b := by
  cases x with
  | error e => simp [Except.map]
  | ok a => simp [Except.map]

theorem listParameters_ok_iff (currentParam : Text) (ps : List DmParameter) (listed : List (Text × Text)) :
    (∃ l, listParameters currentParam ps listed = .ok l) ↔
      currentParam = [] ∨ ∀ q ∈ ps.take (maxNumParameters - listed.length), q.syntaxNodes ≠ [] := by
  induction ps generalizing listed with
  | nil => simp [listParameters]
  | cons p ps ih =>
      unfold listParameters
      by_cases hroom : listed.length < maxNumParameters ∧ 0 < currentParam.length
      · rw [if_pos hroom]
        have hne : currentParam ≠ [] := List.ne_nil_of_length_pos hroom.2
        obtain ⟨k, hk⟩ : ∃ k, maxNumParameters - listed.length = k + 1 :=
          ⟨maxNumParameters - listed.length - 1, by omega⟩
        rw [hk, List.take_succ_cons, List.forall_mem_cons, or_iff_right hne]
        cases hnodes : p.syntaxNodes with
        | nil => simp
        | cons node nodes =>
            have hlen : maxNumParameters - (listed.length + 1) = k := by omega
            simp only [ih, List.length_append, List.length_singleton, hlen, or_iff_right hne]
            simp
      · rw [if_neg hroom, ih]
        by_cases hne : currentParam = []
        · simp [hne]
        · have hpos := List.length_pos_iff.mpr hne
          have hfull : maxNumParameters - listed.length = 0 := by omega
          simp [hfull]

/-- Beside the objects the walk turns for ever. -/
theorem model_not_ok (fuel : Nat) (frame : Frame) (zero : Text) (w : Walk) (r : Walk × Option Node) :
    listLoop env fuel frame zero w (some .model) ≠ .ok r := by
  induction fuel with
  | zero => exact fun h => by cases h
  | succ fuel ih => exact ih

/-- A returning walk has a turn that is no fault. -/
theorem turn_of_ok {fuel : Nat} {node : Node} {r : Walk × Option Node}
    (h : listLoop env fuel frame zero w (some node) = .ok r) :
    ∃ k t e, fuel = k + 1 ∧ turn env frame zero w node = .ok t ∧ Turn.finish env (listAt env k) t = .ok e ∧
      (match e with
        | .loop zero w pChild => listLoop env k frame zero w pChild
        | .done w pChild => .ok (w, pChild)) = .ok r := by
  cases fuel with
  | zero => cases h
  | succ k =>
      rw [listLoop_succ, round_eq_turn] at h
      obtain ⟨e, hround, h⟩ := bind_eq_ok.mp h
      obtain ⟨t, ht, he⟩ := bind_eq_ok.mp hround
      exact ⟨k, t, e, rfl, ht, he, h⟩

theorem instanceLoop_listAt_mono {fuel fuel' : Nat} (hle : fuel ≤ fuel') {child s : Option Node} {is : List Nat}
    {r : Walk × Option Node} (h : instanceLoop env (listAt env fuel) child is w s = .ok r) :
    instanceLoop env (listAt env fuel') child is w s = .ok r :=
  instanceLoop_mono (fun _ _ _ _ hr => listLoop_mono hle hr) h

/-- A call for an instance, and the calls behind it. -/
theorem instanceLoop_succ {fuel : Nat} {child s : Option Node} {i k : Nat} {r : Walk × Option Node}
    (h : instanceLoop env (listAt env fuel) child (List.range' i (k + 1)) w s = .ok r) :
    ∃ c r', child = some c ∧ 4 ≤ w.currentParam.length ∧
      (replaceWithInstanceNumber w.currentParam i).length < maxParameterLength ∧
      listLoop env fuel ((w.numbered i).frame env c) [] (w.numbered i) (some c) = .ok r' ∧
      instanceLoop env (listAt env fuel) child (List.range' (i + 1) k)
        (r'.1.renumbered (w.currentParam.length - 4)) r'.2 = .ok r := by
  rw [List.range'_succ] at h
  cases child with
  | none => cases h
  | some c =>
      simp only [instanceLoop] at h
      split at h
      · cases h
      · next hlen =>
        obtain ⟨current, hcurrent, h⟩ := bind_eq_ok.mp h
        obtain ⟨r', hcall, h⟩ := bind_eq_ok.mp h
        unfold buffer at hcurrent
        split at hcurrent
        · next hfits =>
          rw [← Except.ok.inj hcurrent] at hcall
          exact ⟨c, r', rfl, Nat.not_lt.mp hlen, hfits, hcall, h⟩
        · cases hcurrent

/-- What the loop returns does not depend on the bound. -/
theorem finishes_unique {pChild : Option Node} {r r' : Walk × Option Node} (h : Finishes env frame zero w pChild r)
    (h' : Finishes env frame zero w pChild r') : r = r' := by
  obtain ⟨k, hk⟩ := h
  obtain ⟨k', hk'⟩ := h'
  have hmax := listLoop_mono (Nat.le_max_left k k') hk
  rw [listLoop_mono (Nat.le_max_right k k') hk'] at hmax
  exact (Except.ok.inj hmax).symm

/-- A step of a returning walk leads to a returning walk. -/
theorem Step.returns {c d : State} (hs : Step env c d) (h : c.Returns env) : d.Returns env := by
  cases hs with
  | onward ht =>
      obtain ⟨r, fuel, hr⟩ := h
      obtain ⟨k, t, e, -, ht', he, hr⟩ := turn_of_ok hr
      rw [ht] at ht'
      rw [← Except.ok.inj ht'] at he
      rw [← Except.ok.inj he] at hr
      exact ⟨r, k, hr⟩
  | calls ht =>
      obtain ⟨r, fuel, hr⟩ := h
      obtain ⟨k, t, e, -, ht', he, hr⟩ := turn_of_ok hr
      rw [ht] at ht'
      rw [← Except.ok.inj ht'] at he
      obtain ⟨r', hr', -⟩ := map_eq_ok.mp he
      exact ⟨k, r', hr'⟩
  | called ht hloop =>
      rename_i fuel r₀ node'
      obtain ⟨r, fuel', hr⟩ := h
      obtain ⟨k, t, e, -, ht', he, hr⟩ := turn_of_ok hr
      rw [ht] at ht'
      rw [← Except.ok.inj ht'] at he
      obtain ⟨r', hr', he⟩ := map_eq_ok.mp he
      have hmax := instanceLoop_listAt_mono (Nat.le_max_left k fuel) hr'
      rw [instanceLoop_listAt_mono (Nat.le_max_right k fuel) hloop] at hmax
      rw [← he, ← Except.ok.inj hmax] at hr
      exact ⟨r, k, hr⟩
  | call =>
      obtain ⟨fuel, r, hr⟩ := h
      obtain ⟨c, r', hc, -, -, hcall, -⟩ := instanceLoop_succ hr
      rw [← Option.some.inj hc] at hcall
      exact ⟨r', fuel, hcall⟩
  | next hfin =>
      obtain ⟨fuel, r, hr⟩ := h
      obtain ⟨c, r', hc, -, -, hcall, hrest⟩ := instanceLoop_succ hr
      rw [← Option.some.inj hc] at hcall
      rw [finishes_unique ⟨fuel, hcall⟩ hfin] at hrest
      exact ⟨fuel, r, hrest⟩

/-- The turn at an object that is walked over. -/
theorem turn_object {o : XmlObject} {rest : List XmlObject} {status : Bool} {inst : Int}
    (hm : matching o.base frame.paramName = some (status, inst))
    (hz : ¬ (zero ≠ [] ∧ (strstr o.base zero).isSome = true)) :
    turn env frame zero w (.object o rest) =
      (appendNextObject (if status && !frame.isRecursiveCall then frame.paramName else w.currentParam)
        o.base).bind fun current =>
          if isTable o then
            tableTurn env o.base inst { w with currentParam := current } ((firstChild o rest).or (nodeOf rest))
          else .ok (.onward [] { w with currentParam := current } ((firstChild o rest).or (nodeOf rest))) := by
  simp only [turn, hm, if_neg hz]

/-- The turn at a table none of whose instances is walked over. -/
theorem tableTurn_noInstance {attr : Text} {inst : Int} {actual : Nat} {pChild : Option Node}
    (ha : getNumberofInstances env attr = .ok actual) (hn : NoInstance inst actual) :
    tableTurn env attr inst w pChild =
      match pChild with
      | none => .error .nullPointer
      | some child => .ok (.onward (strcpyS attr) w (some child.parent)) := by
  unfold NoInstance at hn
  unfold tableTurn
  rw [ha]
  simp only [Except.bind]
  by_cases hi : inst = 0
  · rw [if_pos hi] at hn
    rw [if_neg (by omega), if_pos (Or.inl hi)]
  · rw [if_neg hi] at hn
    rw [if_neg (by omega), if_pos (Or.inr hn)]

theorem firstChild_of_params {o : XmlObject} (rest : List XmlObject) (h : o.params ≠ []) :
    ∃ p ps, (firstChild o rest).or (nodeOf rest) = some (.parameter o rest p ps) := by
  unfold firstChild
  cases hp : o.params with
  | nil => exact absurd hp h
  | cons p ps => exact ⟨p, ps, rfl⟩

/-- A table without instances whose path empties the buffer is met again and again. -/
theorem long_table_not_ok {o : XmlObject} {rest : List XmlObject} {status : Bool} {inst : Int} {actual : Nat}
    (hm : matching o.base frame.paramName = some (status, inst)) (htable : isTable o = true)
    (ha : getNumberofInstances env o.base = .ok actual) (hn : NoInstance inst actual) (hp : o.params ≠ [])
    (hlen : ¬ o.base.length < maxParameterLength) (fuel : Nat) (w : Walk) (r : Walk × Option Node) :
    listLoop env fuel frame [] w (some (.object o rest)) ≠ .ok r := by
  induction fuel generalizing w with
  | zero => exact fun h => by cases h
  | succ fuel ih =>
      intro h
      obtain ⟨k, t, e, hk, ht, he, h⟩ := turn_of_ok h
      obtain rfl : fuel = k := by omega
      obtain ⟨p, ps, hchild⟩ := firstChild_of_params rest hp
      rw [turn_object hm fun hz => hz.1 rfl, hchild] at ht
      obtain ⟨current, -, ht⟩ := bind_eq_ok.mp ht
      rw [if_pos htable, tableTurn_noInstance ha hn] at ht
      rw [← Except.ok.inj ht] at he
      rw [← Except.ok.inj he] at h
      have hempty : strcpyS o.base = [] := if_neg hlen
      rw [hempty] at h
      exact ih _ h

theorem State.Returns.good {c : State} (h : c.Returns env) : Good env c := by
  cases c with
  | calls w child s i k =>
      cases k with
      | zero => trivial
      | succ k =>
          obtain ⟨fuel, r, hr⟩ := h
          obtain ⟨c, r', hc, hlen, hfits, -, -⟩ := instanceLoop_succ hr
          refine ⟨?_, hlen, hfits⟩
          rw [hc]
          exact Option.some_ne_none c
  | node frame zero w node =>
      obtain ⟨r, fuel, hr⟩ := h
      cases node with
      | model => exact model_not_ok fuel frame zero w r hr
      | parameter o rest p ps =>
          obtain ⟨k, t, e, -, ht, -, -⟩ := turn_of_ok hr
          obtain ⟨l, hl, -⟩ := map_eq_ok.mp ht
          exact (listParameters_ok_iff _ _ _).mp ⟨l, hl⟩
      | object o rest =>
          intro status inst hm hz
          obtain ⟨k, t, e, -, ht, he, hend⟩ := turn_of_ok hr
          rw [turn_object hm hz] at ht
          obtain ⟨current, hcurrent, ht⟩ := bind_eq_ok.mp ht
          refine ⟨⟨current, hcurrent⟩, fun htable => ?_⟩
          rw [if_pos htable] at ht
          obtain ⟨actual, ha⟩ : ∃ actual, getNumberofInstances env o.base = .ok actual := by
            obtain ⟨actual, ha, -⟩ := bind_eq_ok.mp ht
            exact ⟨actual, ha⟩
          refine ⟨actual, ha, fun hn => ?_⟩
          rw [tableTurn_noInstance ha hn] at ht
          by_cases hp : o.params = []
          · have hfirst : firstChild o rest = none := by
              unfold firstChild
              rw [hp]
            rw [hfirst, Option.none_or] at ht
            cases rest with
            | nil => cases ht
            | cons a rest =>
                rw [← Except.ok.inj ht] at he
                rw [← Except.ok.inj he] at hend
                exact absurd hend (model_not_ok k frame _ _ r)
          · refine ⟨hp, ?_⟩
            by_contra hlen
            obtain ⟨p, ps, hchild⟩ := firstChild_of_params rest hp
            rw [hchild] at ht
            rw [← Except.ok.inj ht] at he
            rw [← Except.ok.inj he] at hend
            have hempty : strcpyS o.base = [] := if_neg hlen
            rw [hempty] at hend
            exact long_table_not_ok hm htable ha hn hp hlen k _ r hend

/-- A walk that returns meets good states only. -/
theorem good_of_returns {c d : State} (hv : Visits env c d) (h : c.Returns env) : Good env d := by
  have hd : d.Returns env := by
    induction hv with
    | refl => exact h
    | tail _ hs ih => exact hs.returns ih
  exact hd.good

/-! ## The objects ahead -/

/-- The objects from a node on. -/
def objectsFrom : Option Node → Nat
  | some (.object _ rest) => rest.length + 1
  | some (.parameter _ rest _ _) => rest.length
  | _ => 0

/-- The end of the document, or one of the last `n` objects. -/
def Landed (n : Nat) (pChild : Option Node) : Prop :=
  pChild = none ∨ ∃ o rest, pChild = some (.object o rest) ∧ rest.length + 1 ≤ n

theorem Landed.mono {m n : Nat} {pChild : Option Node} (h : Landed m pChild) (hle : m ≤ n) : Landed n pChild := by
  rcases h with h | ⟨o, rest, h, hlen⟩
  · exact Or.inl h
  · exact Or.inr ⟨o, rest, h, le_trans hlen hle⟩

theorem Landed.objectsFrom_le {n : Nat} {pChild : Option Node} (h : Landed n pChild) : objectsFrom pChild ≤ n := by
  rcases h with rfl | ⟨o, rest, rfl, hlen⟩
  · exact Nat.zero_le n
  · exact hlen

theorem objectsFrom_nodeOf (l : List XmlObject) : objectsFrom (nodeOf l) = l.length := by
  cases l <;> rfl

theorem objectsFrom_child (o : XmlObject) (rest : List XmlObject) :
    objectsFrom ((firstChild o rest).or (nodeOf rest)) = rest.length := by
  unfold firstChild
  cases o.params with
  | nil => exact objectsFrom_nodeOf rest
  | cons p ps => rfl

/-- The turn has no more than `n` objects ahead of it. -/
def Turn.Ahead (n : Nat) : Turn → Prop
  | .back _ pChild => Landed n pChild
  | .onward _ _ pChild => objectsFrom pChild ≤ n
  | .calls _ child k => 0 < k ∧ objectsFrom child < n

/-- The turn at a table, which may go on at the parent of a parameter. -/
theorem tableTurn_ahead {o : XmlObject} {rest : List XmlObject} {attr : Text} {inst : Int} {t : Turn}
    (h : tableTurn env attr inst w ((firstChild o rest).or (nodeOf rest)) = .ok t) : t.Ahead (rest.length + 1) := by
  have hchild := objectsFrom_child o rest
  unfold tableTurn at h
  obtain ⟨actual, -, h⟩ := bind_eq_ok.mp h
  split at h
  · next hn =>
    rw [← Except.ok.inj h]
    refine ⟨hn.2, ?_⟩
    rw [hchild]
    exact Nat.lt_succ_self _
  · split at h
    · split at h
      · cases h
      · next child hc =>
        rw [← Except.ok.inj h]
        rw [hc] at hchild
        cases child with
        | model => exact Nat.zero_le _
        | object a rest' => exact Nat.zero_le _
        | parameter a rest' p ps =>
            have hlen : rest'.length = rest.length := hchild
            show rest'.length + 1 ≤ rest.length + 1
            omega
    · rw [← Except.ok.inj h]
      show objectsFrom _ ≤ rest.length + 1
      omega

/-- No turn has more objects ahead of it than its node. -/
theorem turn_ahead {node : Node} {t : Turn} (h : turn env frame zero w node = .ok t) :
    t.Ahead (objectsFrom (some node)) := by
  cases node with
  | model =>
      rw [← Except.ok.inj h]
      exact le_refl _
  | parameter o rest p ps =>
      obtain ⟨l, -, rfl⟩ := map_eq_ok.mp h
      show objectsFrom (nodeOf rest) ≤ rest.length
      rw [objectsFrom_nodeOf]
  | object o rest =>
      have hnext : objectsFrom (nodeOf rest) ≤ rest.length + 1 := by
        rw [objectsFrom_nodeOf]
        omega
      cases hm : matching o.base frame.paramName with
      | none =>
          simp only [turn, hm] at h
          split at h
          · rw [← Except.ok.inj h]
            exact Or.inr ⟨o, rest, rfl, le_refl _⟩
          · rw [← Except.ok.inj h]
            exact hnext
      | some m =>
          obtain ⟨status, inst⟩ := m
          by_cases hz : zero ≠ [] ∧ (strstr o.base zero).isSome = true
          · simp only [turn, hm, if_pos hz] at h
            rw [← Except.ok.inj h]
            exact hnext
          · rw [turn_object hm hz] at h
            obtain ⟨current, -, h⟩ := bind_eq_ok.mp h
            split at h
            · exact tableTurn_ahead h
            · rw [← Except.ok.inj h]
              show objectsFrom _ ≤ rest.length + 1
              rw [objectsFrom_child]
              exact Nat.le_succ _

/-- The calls for the instances of a table end behind it. -/
theorem instanceLoop_landed {list : Text → Walk → Node → Except WalkFault (Walk × Option Node)}
    (hlist : ∀ name w node r, list name w node = .ok r → Landed (objectsFrom (some node)) r.2) {child : Option Node}
    {is : List Nat} {s : Option Node} {r : Walk × Option Node} (hs : is = [] → Landed (objectsFrom child) s)
    (h : instanceLoop env list child is w s = .ok r) : Landed (objectsFrom child) r.2 := by
  induction is generalizing w s with
  | nil =>
      rw [← Except.ok.inj h]
      exact hs rfl
  | cons i is ih =>
      cases child with
      | none => cases h
      | some c =>
          simp only [instanceLoop] at h
          split at h
          · cases h
          · obtain ⟨current, -, h⟩ := bind_eq_ok.mp h
            obtain ⟨r', hcall, h⟩ := bind_eq_ok.mp h
            exact ih (fun _ => hlist _ _ _ _ hcall) h

/-- **A call returns the end of the document or an object ahead of it.** -/
theorem listLoop_landed {fuel : Nat} {pChild : Option Node} {r : Walk × Option Node}
    (h : listLoop env fuel frame zero w pChild = .ok r) : Landed (objectsFrom pChild) r.2 := by
  induction fuel generalizing frame zero w pChild r with
  | zero =>
      cases pChild with
      | none =>
          rw [← Except.ok.inj h]
          exact Or.inl rfl
      | some node => cases h
  | succ fuel ih =>
      cases pChild with
      | none =>
          rw [← Except.ok.inj h]
          exact Or.inl rfl
      | some node =>
          obtain ⟨k, t, e, hk, ht, he, h⟩ := turn_of_ok h
          obtain rfl : fuel = k := by omega
          have hle := turn_ahead ht
          cases t with
          | back w' p =>
              rw [← Except.ok.inj he] at h
              rw [← Except.ok.inj h]
              exact hle
          | onward zero' w' p =>
              rw [← Except.ok.inj he] at h
              exact (ih h).mono hle
          | calls w' child n =>
              obtain ⟨r', hr', he⟩ := map_eq_ok.mp he
              rw [← he] at h
              have hpos : 0 < n := hle.1
              have hne : List.range' 1 n ≠ [] := by
                rw [ne_eq, List.range'_eq_nil_iff]
                omega
              have hland := instanceLoop_landed (fun _ _ _ _ hr => ih hr) (fun hnil => absurd hnil hne) hr'
              exact (ih h).mono (le_trans hland.objectsFrom_le (le_of_lt hle.2))

/-! ## A walk through good states returns -/

/-- What goes down with every turn: three for each object ahead, less at its parameters and where it is passed over. -/
def rank (zero : Text) : Node → Nat
  | .object o rest => 3 * rest.length + if zero ≠ [] ∧ (strstr o.base zero).isSome = true then 1 else 3
  | .parameter _ rest _ _ => 3 * rest.length + 2
  | .model => 0

theorem rank_object (zero : Text) (o : XmlObject) (rest : List XmlObject) :
    rank zero (.object o rest) =
      3 * rest.length + if zero ≠ [] ∧ (strstr o.base zero).isSome = true then 1 else 3 := rfl

theorem rank_object_le (zero : Text) (o : XmlObject) (rest : List XmlObject) : rank zero (.object o rest) ≤ 3 * rest.length + 3 := by
  rw [rank_object]
  split <;> omega

theorem rank_of_landed {n : Nat} {node : Node} (zero : Text) (h : Landed n (some node)) : rank zero node ≤ 3 * n := by
  rcases h with h | ⟨o, rest, h, hlen⟩
  · cases h
  · rw [Option.some.inj h]
    have := rank_object_le zero o rest
    omega

/-- The next sibling has a lower rank. -/
theorem rank_nodeOf {rest : List XmlObject} {node : Node} (zero : Text) (h : nodeOf rest = some node) :
    rank zero node ≤ 3 * rest.length := by
  cases rest with
  | nil => cases h
  | cons a rest =>
      rw [← Option.some.inj h]
      have := rank_object_le zero a rest
      rw [List.length_cons]
      omega

theorem rank_child {o : XmlObject} {rest : List XmlObject} {node : Node} (zero : Text)
    (h : (firstChild o rest).or (nodeOf rest) = some node) : rank zero node ≤ 3 * rest.length + 2 := by
  unfold firstChild at h
  cases hp : o.params with
  | nil =>
      rw [hp] at h
      have := rank_nodeOf zero h
      omega
  | cons p ps =>
      rw [hp] at h
      rw [← Option.some.inj h]
      exact le_refl _

/-- The turn goes down. -/
def Turn.Down (n : Nat) : Turn → Prop
  | .back _ _ => True
  | .onward zero _ pChild => ∀ node, pChild = some node → rank zero node < n
  | .calls _ child k => 0 < k ∧ (∀ node, child = some node → rank [] node < n) ∧ 3 * objectsFrom child < n

/-- The turn at a table goes down: to its instances, behind it, or to the table as one that is passed over. -/
theorem tableTurn_down {o : XmlObject} {rest : List XmlObject} {inst : Int} {actual : Nat}
    (ha : getNumberofInstances env o.base = .ok actual)
    (hgood : NoInstance inst actual → o.params ≠ [] ∧ o.base.length < maxParameterLength) :
    ∃ t, tableTurn env o.base inst w ((firstChild o rest).or (nodeOf rest)) = .ok t ∧ t.Down (3 * rest.length + 3) := by
  have hdown : ∀ node, (firstChild o rest).or (nodeOf rest) = some node → rank [] node < 3 * rest.length + 3 := by
    intro node hn
    have := rank_child [] hn
    omega
  by_cases hn : NoInstance inst actual
  · obtain ⟨hp, hfits⟩ := hgood hn
    obtain ⟨p, ps, hchild⟩ := firstChild_of_params rest hp
    rw [tableTurn_noInstance ha hn, hchild]
    refine ⟨_, rfl, fun node hnode => ?_⟩
    have hzero : strcpyS o.base = o.base := if_pos hfits
    have hparent : rank o.base (Node.parameter o rest p ps).parent = 3 * rest.length + 1 := by
      show rank o.base (.object o rest) = _
      rw [rank_object, if_pos ⟨base_ne_nil o, strstr_isSome.mpr List.infix_rfl⟩]
    rw [← Option.some.inj hnode, hzero, hparent]
    omega
  · unfold tableTurn
    rw [ha]
    simp only [Except.bind]
    by_cases hc : inst = 0 ∧ 0 < actual
    · rw [if_pos hc]
      refine ⟨_, rfl, hc.2, hdown, ?_⟩
      rw [objectsFrom_child]
      omega
    · have hno : ¬ (inst = 0 ∨ (actual : Int) < inst) := by
        unfold NoInstance at hn
        split at hn <;> omega
      rw [if_neg hc, if_neg hno]
      exact ⟨_, rfl, hdown⟩

/-- **Every turn at a good state goes down.** -/
theorem turn_down {node : Node} (h : Good env (.node frame zero w node)) :
    ∃ t, turn env frame zero w node = .ok t ∧ t.Down (rank zero node) := by
  cases node with
  | model => exact h.elim
  | parameter o rest p ps =>
      obtain ⟨l, hl⟩ := (listParameters_ok_iff w.currentParam (p :: ps) w.listed).mpr h
      refine ⟨.onward zero { w with listed := l } (nodeOf rest), by simp only [turn, hl]; rfl, fun node hn => ?_⟩
      have := rank_nodeOf zero hn
      show rank zero node < 3 * rest.length + 2
      omega
  | object o rest =>
      have hnext : ∀ node, nodeOf rest = some node → rank zero node < rank zero (.object o rest) := by
        intro node hn
        have := rank_nodeOf zero hn
        rw [rank_object]
        split <;> omega
      cases hm : matching o.base frame.paramName with
      | none =>
          simp only [turn, hm]
          cases frame.isRecursiveCall with
          | true => exact ⟨_, rfl, trivial⟩
          | false => exact ⟨_, rfl, hnext⟩
      | some m =>
          obtain ⟨status, inst⟩ := m
          by_cases hz : zero ≠ [] ∧ (strstr o.base zero).isSome = true
          · refine ⟨.onward zero w (nodeOf rest), ?_, hnext⟩
            simp only [turn, hm, if_pos hz]
          · have hrank : rank zero (.object o rest) = 3 * rest.length + 3 := by
              rw [rank_object, if_neg hz]
            have hdown : ∀ node, (firstChild o rest).or (nodeOf rest) = some node →
                rank [] node < rank zero (.object o rest) := by
              intro node hn
              have := rank_child [] hn
              omega
            obtain ⟨⟨current, hcurrent⟩, htable⟩ := h status inst hm hz
            rw [turn_object hm hz, hcurrent]
            simp only [Except.bind]
            by_cases ht : isTable o = true
            · rw [if_pos ht, hrank]
              obtain ⟨actual, ha, hgood⟩ := htable ht
              exact tableTurn_down ha hgood
            · rw [if_neg ht]
              exact ⟨_, rfl, hdown⟩

theorem finishes_of_finish {node : Node} {t : Turn} {k : Nat} {zero' : Text} {w' : Walk} {pChild : Option Node}
    {r : Walk × Option Node} (ht : turn env frame zero w node = .ok t)
    (he : Turn.finish env (listAt env k) t = .ok (.loop zero' w' pChild)) (h : Finishes env frame zero' w' pChild r) :
    Finishes env frame zero w (some node) r := by
  refine finishes_of_loop k (fun fuel hfuel => ?_) h
  rw [round_eq_turn, ht]
  cases t with
  | back w' p => exact he
  | onward zero' w' p => exact he
  | calls w' child n =>
      obtain ⟨r', hr', he⟩ := map_eq_ok.mp he
      exact map_eq_ok.mpr ⟨r', instanceLoop_listAt_mono hfuel hr', he⟩

/-- The calls for the instances return when each of them does. -/
theorem calls_return {child : Option Node}
    (hcall : ∀ frame w node, child = some node → (∀ d, Visits env (.node frame [] w node) d → Good env d) →
      ∃ r, Finishes env frame [] w (some node) r) {k : Nat} (i : Nat) (w : Walk) (s : Option Node)
    (h : ∀ d, Visits env (.calls w child s i k) d → Good env d) :
    (State.calls w child s i k).Returns env := by
  induction k generalizing i w s with
  | zero => exact ⟨0, (w, s), rfl⟩
  | succ k ih =>
      obtain ⟨hne, hlen, hfits⟩ := h _ Relation.ReflTransGen.refl
      obtain ⟨c, rfl⟩ := Option.ne_none_iff_exists'.mp hne
      obtain ⟨r, fuel, hr⟩ := hcall _ _ c rfl fun d hd => h d (hd.head .call)
      obtain ⟨fuel', r', hr'⟩ := ih (i + 1) _ r.2 fun d hd => h d (hd.head (.next ⟨fuel, hr⟩))
      refine ⟨max fuel fuel', r', ?_⟩
      rw [List.range'_succ]
      simp only [instanceLoop]
      rw [if_neg (Nat.not_lt.mpr hlen), buffer, if_pos hfits]
      exact bind_eq_ok.mpr ⟨_, rfl, bind_eq_ok.mpr ⟨r, listLoop_mono (Nat.le_max_left fuel fuel') hr,
        instanceLoop_listAt_mono (Nat.le_max_right fuel fuel') hr'⟩⟩

/-- A walk that meets good states only returns, by induction on the rank. -/
theorem returns_of_good {node : Node} (h : ∀ d, Visits env (.node frame zero w node) d → Good env d) :
    ∃ r, Finishes env frame zero w (some node) r := by
  induction hn : rank zero node using Nat.strong_induction_on generalizing frame zero w node with
  | _ n ih =>
      obtain ⟨t, ht, hdown⟩ := turn_down (h _ Relation.ReflTransGen.refl)
      rw [hn] at hdown
      cases t with
      | back w' p =>
          refine ⟨(w', p), 1, ?_⟩
          rw [listLoop_succ, round_eq_turn, ht]
          rfl
      | onward zero' w' p =>
          cases p with
          | none => exact ⟨_, finishes_of_finish (k := 0) ht rfl finishes_none⟩
          | some node' =>
              obtain ⟨r, hr⟩ := ih _ (hdown node' rfl) (fun d hd => h d (hd.head (.onward ht))) rfl
              exact ⟨r, finishes_of_finish (k := 0) ht rfl hr⟩
      | calls w' child k =>
          obtain ⟨hpos, hchild, hlanded⟩ := hdown
          obtain ⟨fuel, r, hr⟩ := calls_return
            (fun frame w node hc hd => ih _ (hchild node hc) hd rfl) 1 w' child fun d hd => h d (hd.head (.calls ht))
          have hne : List.range' 1 k ≠ [] := by
            rw [ne_eq, List.range'_eq_nil_iff]
            omega
          have hland := instanceLoop_landed (fun _ _ _ _ hr => listLoop_landed hr) (fun hnil => absurd hnil hne) hr
          have hfinish : Turn.finish env (listAt env fuel) (.calls w' child k) = .ok (.loop [] r.1 r.2) :=
            map_eq_ok.mpr ⟨r, hr, rfl⟩
          obtain ⟨w'', p⟩ := r
          cases p with
          | none => exact ⟨_, finishes_of_finish ht hfinish finishes_none⟩
          | some node' =>
              have hlt : rank [] node' < n := lt_of_le_of_lt (rank_of_landed [] hland) hlanded
              obtain ⟨r, hr'⟩ := ih _ hlt (fun d hd => h d (hd.head (.called ht hr))) rfl
              exact ⟨r, finishes_of_finish ht hfinish hr'⟩

end

/-! ## The walk over a document -/

/-- The walk over a document ends, and is at objects and parameters only. -/
structure StaysInside (env : Env) (dm : List XmlObject) (request : Text) : Prop where
  ends : ∃ bound, ∀ fuel, bound ≤ fuel → ∃ r, getList env fuel request ⟨[], []⟩ (nodeOf dm) = .ok r
  nodes : ∀ start, nodeOf dm = some start → ∀ frame zero w node,
    Visits env (.node ⟨request, false⟩ [] ⟨[], []⟩ start) (.node frame zero w node) → node ≠ .model

/-- A walk that ends inside the document meets good states only. -/
theorem StaysInside.good {env : Env} {dm : List XmlObject} {request : Text} (h : StaysInside env dm request) {start : Node}
    (hstart : nodeOf dm = some start) {d : State} (hd : Visits env (.node ⟨request, false⟩ [] ⟨[], []⟩ start) d) :
    Good env d := by
  obtain ⟨bound, hbound⟩ := h.ends
  obtain ⟨r, hr⟩ := hbound bound (le_refl bound)
  have hlist : getList env bound request ⟨[], []⟩ (nodeOf dm) =
      listLoop env bound ⟨request, false⟩ [] ⟨[], []⟩ (nodeOf dm) := rfl
  rw [hlist, hstart] at hr
  exact good_of_returns hd ⟨r, bound, hr⟩

/-- **The walk ends inside the document exactly when it meets good states only.** -/
theorem inside_iff (env : Env) (dm : List XmlObject) (request : Text) :
    StaysInside env dm request ↔
      ∀ start, nodeOf dm = some start → ∀ d, Visits env (.node ⟨request, false⟩ [] ⟨[], []⟩ start) d → Good env d := by
  constructor
  · intro h start hstart d hd
    exact h.good hstart hd
  · intro h
    refine ⟨?_, fun start hstart frame zero w node hv => ?_⟩
    · cases hstart : nodeOf dm with
      | none => exact ⟨0, fun fuel _ => ⟨(⟨[], []⟩, none), by cases fuel <;> rfl⟩⟩
      | some start =>
          obtain ⟨r, bound, hr⟩ := returns_of_good (h start hstart)
          exact ⟨bound, fun fuel hfuel => ⟨r, listLoop_mono hfuel hr⟩⟩
    · rintro rfl
      exact h start hstart _ hv

/-- `Device.Ethernet.Interface.{i}.` without parameters. -/
def bareInterface : XmlObject where
  path := ethernetPath
  path_ne_nil := ethernetPath_ne_nil
  params := []
  distinct := by decide
  fits := by decide
  maxEntries := some "unbounded".toList

/-- No instance of any table. -/
def noEntries : Env := ⟨fun _ => 0, "data-model".toList⟩

/-- A table without parameters and without instances leads out of the document: to the element around the objects when
an object follows it, to no node when it is the last. -/
theorem bare_table_not_inside :
    ¬ StaysInside noEntries [bareInterface, bareInterface] "Device.Ethernet.".toList ∧
      ¬ StaysInside noEntries [bareInterface] "Device.Ethernet.".toList := by
  have hbad : ∀ rest, ¬ Good noEntries (.node ⟨"Device.Ethernet.".toList, false⟩ [] ⟨[], []⟩ (.object bareInterface rest)) := by
    intro rest h
    have hm : matching bareInterface.base "Device.Ethernet.".toList = some (false, 0) := by decide +kernel
    obtain ⟨actual, ha, hgood⟩ := (h false 0 hm (by decide)).2 (by decide +kernel)
    have hzero : getNumberofInstances noEntries bareInterface.base = .ok 0 := by rfl
    rw [hzero] at ha
    exact (hgood (Except.ok.inj ha).symm).1 rfl
  constructor
  · exact fun h => hbad _ (h.good rfl Relation.ReflTransGen.refl)
  · exact fun h => hbad _ (h.good rfl Relation.ReflTransGen.refl)

end Tr69HostIf.Waldb
