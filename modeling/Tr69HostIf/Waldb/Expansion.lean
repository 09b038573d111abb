import Tr69HostIf.Store.Paths
import Tr69HostIf.Waldb.Lookup
import Tr69HostIf.Waldb.Walk

/-!
# What a wildcard stands for

The parameters under a requested path, stated on the paths of the data model alone.

* `choices` : the texts that can stand for a segment: a name for itself, `{i}` for the numbers `1 … N` of the table,
  or for the one that the request fixes, if it is one of them;
* `expansion` : the names under the request with their types, in document order;
* `expansion_perm`, `mem_expansion` : what they are, apart from the order;
* `Exact` : `getChildParamNamesFromDataModel` returns them;
* `asked` : a path lies under the request;
* `asked_split`, `dead_of_not_asked` : how the expansion walks along a path.
-/

namespace Tr69HostIf.Waldb
open Store Clib

/-- The segments of a dot-terminated path. -/
def segments (request : Text) : List Text := (request.splitOn '.').dropLast

/-- Segments with a dot behind each. -/
def joined (qs : List Text) : Text := qs.flatMap fun q => q ++ ['.']

/-- The data type of a parameter. -/
def DmParameter.type (p : DmParameter) : Option Text := (paramInfo [] p).dataType

/-- Where the expansion stands: the segments of the request ahead, the name so far, and the same name with its numbers
in canonical form. -/
structure Place where
  ahead : List Text
  shown : Text
  key : Text

/-- The beginning of a request. -/
def start (request : Text) : Place := ⟨segments request, [], []⟩

/-- Behind a segment, of which the texts are chosen. -/
def Place.enter (s : Place) (c : Text × Text) : Place := ⟨s.ahead.tail, s.shown ++ c.1 ++ ['.'], s.key ++ c.2 ++ ['.']⟩

section
variable (env : Env)

/-- The instance count of the table whose instances stand below `key`: the value of its own counting parameter. -/
def ownCount (key : Text) : Nat :=
  env.entries ((instanceNumParamHash key.dropLast).getD (key.dropLast ++ "NumberOfEntries".toList))

/-- All instances of a table. -/
def instances (key : Text) : List (Text × Text) :=
  (List.range' 1 (ownCount env key)).map fun i => (printNat i, printNat i)

/-- The texts for a segment, as they are shown and in canonical form; `q` is the segment of the request. -/
def choices (q : Option Text) (key : Text) : Segment → List (Text × Text)
  | .name n => if q = none ∨ q = some n.chars then [(n.chars, n.chars)] else []
  | .inst =>
      match q with
      | none => instances env key
      | some q =>
          if q = instanceText then instances env key
          else if Digits q ∧ 1 ≤ natOf q ∧ natOf q ≤ ownCount env key then [(q, printNat (natOf q))] else []

/-- The places behind a segment. -/
def follow (s : Place) (seg : Segment) : List Place := (choices env s.ahead.head? s.key seg).map s.enter

/-- The parameters of an object, once the request is behind. -/
def shownParams (s : Place) (params : List DmParameter) : List (Text × Option Text) :=
  if s.ahead = [] then params.map fun p => (s.shown ++ p.base.chars, p.type) else []

/-- The objects as items of a tree. -/
def items (dm : List XmlObject) : List (List Segment × List DmParameter) := dm.map fun o => (o.path, o.params)

/-- **The names under a request, with their types, in document order.** -/
def expansion (dm : List XmlObject) (request : Text) : List (Text × Option Text) :=
  expand (follow env) shownParams (start request) (items dm)

/-- `getChildParamNamesFromDataModel` returns, and returns the names under the request with their types. -/
def Exact (dm : List XmlObject) (request : Text) : Prop :=
  ∃ bound, ∀ fuel, bound ≤ fuel → ∃ status listed,
    getChildParamNamesFromDataModel env fuel (some dm) request = .ok (status, listed) ∧
      listed.map (fun x => (x.1, some x.2)) = expansion env dm request

/-- A path lies under the request, and the numbers that the request fixes are numbers of instances. -/
def asked : List Text → Text → List Segment → Bool
  | [], _, _ => true
  | _ :: _, _, [] => false
  | q :: qs, key, s :: path =>
      if q = instanceText then
        s = .inst && (qs.isEmpty || (instances env key).any fun c => asked qs (key ++ c.2 ++ ['.']) path)
      else (choices env (some q) key s).any fun c => asked qs (key ++ c.2 ++ ['.']) path

end

section
variable {env : Env} {dm : List XmlObject} {request : Text} {x : Text × Option Text}

/-- The parameters at all places of all objects, each once. -/
theorem expansion_perm : (expansion env dm request).Perm
    (dm.flatMap fun o => (places (follow env) (start request) o.path).flatMap fun s => shownParams s o.params) := by
  have h := @expand_perm _ _ _ _ _ (follow env) shownParams (start request) (items dm)
  rwa [items, List.flatMap_map] at h

theorem mem_expansion : x ∈ expansion env dm request ↔ ∃ o ∈ dm, ∃ s ∈ places (follow env) (start request) o.path,
    s.ahead = [] ∧ ∃ p ∈ o.params, x = (s.shown ++ p.base.chars, p.type) := by
  rw [expansion_perm.mem_iff]
  simp only [List.mem_flatMap, shownParams]
  constructor
  · rintro ⟨o, ho, s, hs, hx⟩
    split at hx
    · next hahead =>
      obtain ⟨p, hp, rfl⟩ := List.mem_map.mp hx
      exact ⟨o, ho, s, hs, hahead, p, hp, rfl⟩
    · cases hx
  · rintro ⟨o, ho, s, hs, hahead, p, hp, rfl⟩
    refine ⟨o, ho, s, hs, ?_⟩
    rw [if_pos hahead]
    exact List.mem_map.mpr ⟨p, hp, rfl⟩

end

/-- An object lies below another one. -/
def below (o a : XmlObject) : Bool := o.path.isPrefixOf a.path

/-- No object stands behind one that is below it, and the objects below an object stand directly behind it. -/
def DocumentOrder : List XmlObject → Prop
  | [] => True
  | o :: rest =>
      (∀ a ∈ rest, ¬a.path <+: o.path) ∧ (∀ a ∈ rest.dropWhile (below o), ¬o.path <+: a.path) ∧ DocumentOrder rest

/-! ## Requests -/

theorem joined_cons (q : Text) (qs : List Text) : joined (q :: qs) = q ++ '.' :: joined qs := by simp [joined]

theorem joined_cons_ne_nil (q : Text) (qs : List Text) : joined (q :: qs) ≠ [] := by
  rw [joined_cons]
  exact List.append_ne_nil_of_right_ne_nil _ (List.cons_ne_nil _ _)

theorem joined_segments {request : Text} (h : request.getLast? = some '.') :
    joined (segments request) = request ∧ ∀ q ∈ segments request, '.' ∉ q := by
  induction hlen : request.length using Nat.strong_induction_on generalizing request with
  | _ len ih =>
      have hdot : '.' ∈ request := List.mem_of_getLast? h
      obtain ⟨u, v, rfl, hu⟩ := List.eq_append_cons_of_mem hdot
      have hsplit : segments (u ++ '.' :: v) = u :: segments v := by
        rw [segments, List.splitOn_append_cons_self_of_not_mem hu, List.dropLast_cons_of_ne_nil (List.splitOn_ne_nil '.' v)]
        rfl
      rw [hsplit]
      by_cases hv : v = []
      · subst hv
        have hnil : segments [] = [] := rfl
        rw [hnil]
        exact ⟨by simp [joined], by simpa using hu⟩
      · have hlast : v.getLast? = some '.' := by
          rwa [List.getLast?_append_cons, List.getLast?_cons_of_ne_nil hv] at h
        have hlt : v.length < len := by
          rw [← hlen, List.length_append, List.length_cons]
          omega
        obtain ⟨hjoin, hfree⟩ := ih v.length hlt hlast rfl
        refine ⟨?_, List.forall_mem_cons.mpr ⟨hu, hfree⟩⟩
        rw [joined, List.flatMap_cons, ← joined, hjoin]
        simp

section
variable {env : Env} {key : Text}

/-- What a request fixes is one text, or nothing. -/
theorem choices_fixed (env : Env) (key : Text) {q : Text} (hq : q ≠ instanceText) (seg : Segment) :
    choices env (some q) key seg = [] ∨
      ∃ c, choices env (some q) key seg = [(q, c)] ∧ (q = seg.text ∨ seg = .inst ∧ Digits q) := by
  cases seg with
  | name n =>
      rw [choices]
      split
      · next h =>
        have hn : q = n.chars := by simpa using h
        exact Or.inr ⟨n.chars, by rw [hn], Or.inl hn⟩
      · exact Or.inl rfl
  | inst =>
      simp only [choices, if_neg hq]
      split
      · next h => exact Or.inr ⟨_, rfl, Or.inr ⟨trivial, h.1⟩⟩
      · exact Or.inl rfl

theorem asked_cons_inst (qs : List Text) (seg : Segment) (path : List Segment) :
    asked env (instanceText :: qs) key (seg :: path) = (decide (seg = .inst) &&
      (qs.isEmpty || (instances env key).any fun c => asked env qs (key ++ c.2 ++ ['.']) path)) := by
  rw [asked, if_pos rfl]

theorem asked_cons {q : Text} (hq : q ≠ instanceText) (qs : List Text) (seg : Segment) (path : List Segment) :
    asked env (q :: qs) key (seg :: path) =
      (choices env (some q) key seg).any fun c => asked env qs (key ++ c.2 ++ ['.']) path := by
  rw [asked, if_neg hq]

theorem asked_nil (path : List Segment) : asked env [] key path = true := by cases path <;> rfl

/-- Behind the first segment. -/
theorem exists_of_asked {q : Text} {qs : List Text} {seg : Segment} {path : List Segment}
    (h : asked env (q :: qs) key (seg :: path) = true) : ∃ key', asked env qs key' path = true := by
  by_cases hq : q = instanceText
  · subst hq
    rw [asked_cons_inst, Bool.and_eq_true, Bool.or_eq_true, List.isEmpty_iff, List.any_eq_true] at h
    rcases h.2 with rfl | ⟨c, -, h⟩
    · exact ⟨key, asked_nil path⟩
    · exact ⟨_, h⟩
  · rw [asked_cons hq, List.any_eq_true] at h
    obtain ⟨c, -, h⟩ := h
    exact ⟨_, h⟩

/-- What lies below a path under the request lies under it. -/
theorem asked_of_below {qs : List Text} {path path' : List Segment} (h : asked env qs key path = true)
    (hpre : path <+: path') : asked env qs key path' = true := by
  induction qs generalizing key path path' with
  | nil => exact asked_nil path'
  | cons q qs ih =>
      cases path with
      | nil => cases h
      | cons seg path =>
          obtain ⟨rest, rfl⟩ := hpre
          rw [List.cons_append]
          by_cases hq : q = instanceText
          · subst hq
            rw [asked_cons_inst, Bool.and_eq_true, Bool.or_eq_true, List.any_eq_true] at h ⊢
            refine ⟨h.1, h.2.imp_right ?_⟩
            rintro ⟨c, hc, h⟩
            exact ⟨c, hc, ih h (List.prefix_append path rest)⟩
          · rw [asked_cons hq, List.any_eq_true] at h ⊢
            obtain ⟨c, hc, h⟩ := h
            exact ⟨c, hc, ih h (List.prefix_append path rest)⟩

theorem length_le_of_asked {qs : List Text} {path : List Segment} (h : asked env qs key path = true) :
    qs.length ≤ path.length := by
  induction qs generalizing key path with
  | nil => exact Nat.zero_le _
  | cons q qs ih =>
      cases path with
      | nil => cases h
      | cons seg path =>
          obtain ⟨key', h'⟩ := exists_of_asked h
          have := ih h'
          simp only [List.length_cons]
          omega

end

/-! ## The walk along a path -/

section
variable {env : Env} {s : Place} {path : List Segment}

theorem follow_fixed {q : Text} {qs : List Text} (hs : s.ahead = q :: qs) (seg : Segment) :
    follow env s seg = (choices env (some q) s.key seg).map s.enter := by
  rw [follow, hs, List.head?_cons]

/-- A path that is not under the request leads to no parameter. -/
theorem dead_of_not_asked (h : asked env s.ahead s.key path = false) : Dead (follow env) shownParams s path := by
  induction path generalizing s with
  | nil =>
      apply Dead.leaf
      intro params
      rw [shownParams, if_neg]
      intro hnil
      rw [hnil, asked_nil] at h
      cases h
  | cons seg path ih =>
      apply Dead.step
      intro s' hs'
      cases hs : s.ahead with
      | nil =>
          rw [hs, asked_nil] at h
          cases h
      | cons q qs =>
          rw [hs] at h
          rw [follow_fixed hs, List.mem_map] at hs'
          obtain ⟨c, hc, rfl⟩ := hs'
          have hahead : (s.enter c).ahead = qs := by rw [Place.enter, hs, List.tail_cons]
          apply ih
          rw [hahead]
          by_cases hq : q = instanceText
          · subst hq
            cases seg with
            | name n =>
                rw [choices] at hc
                split at hc
                · next hn => exact absurd (show n.chars = instanceText by simpa [eq_comm] using hn) (name_ne_instanceText n)
                · cases hc
            | inst =>
                have hc' : c ∈ instances env s.key := by simpa [choices] using hc
                rw [asked_cons_inst] at h
                simp only [decide_true, Bool.true_and, Bool.or_eq_false_iff, List.any_eq_false] at h
                exact eq_false_of_ne_true (h.2 c hc')
          · rw [asked_cons hq, List.any_eq_false] at h
            exact eq_false_of_ne_true (h c hc)

/-- The request leaves an `{i}` here open. -/
def Place.IsOpen (s : Place) : Prop := s.ahead = [] ∨ s.ahead = [instanceText]

/-- The first `{i}` of a path that the request leaves open: the path `z` in front of it, and the place there. -/
def Opens (env : Env) (s : Place) (path : List Segment) : Prop :=
  ∃ z y s', path = z ++ .inst :: y ∧ Through (follow env) s z s' ∧ s'.IsOpen ∧
    s'.shown ++ indicator ++ pathText y = s.shown ++ joined s.ahead ++ pathText (path.drop s.ahead.length)

/-- A path on which the request leaves nothing open, and the place at its end. -/
def Ends (env : Env) (s : Place) (path : List Segment) (s' : Place) : Prop :=
  Through (follow env) s path s' ∧ s'.ahead = [] ∧
    s'.shown = s.shown ++ joined s.ahead ++ pathText (path.drop s.ahead.length) ∧
    (path.getLast? = some .inst → path.length = s.ahead.length ∧ s.ahead.getLast? ≠ some instanceText)

theorem pathText_cons (seg : Segment) (path : List Segment) : pathText (seg :: path) = seg.text ++ '.' :: pathText path := by
  simp [pathText]

theorem pathText_cons_ne_nil (seg : Segment) (path : List Segment) : pathText (seg :: path) ≠ [] := by
  rw [pathText_cons]
  exact List.append_ne_nil_of_right_ne_nil _ (List.cons_ne_nil _ _)

/-- One segment of which the text is certain. -/
theorem split_cons {seg : Segment} {c : Text × Text} (hstep : follow env s seg = [s.enter c])
    (hahead : asked env s.ahead.tail (s.enter c).key path = true)
    (hshown : c.1 ++ '.' :: (joined s.ahead.tail ++ pathText (path.drop s.ahead.tail.length)) =
      joined s.ahead ++ pathText ((seg :: path).drop s.ahead.length))
    (hlast : seg = .inst → s.ahead ≠ [] ∧ s.ahead.head? ≠ some instanceText)
    (ih : Opens env (s.enter c) path ∨ ∃ s', Ends env (s.enter c) path s') :
    Opens env s (seg :: path) ∨ ∃ s', Ends env s (seg :: path) s' := by
  have htail : (s.enter c).ahead = s.ahead.tail := rfl
  have hpre : (s.enter c).shown ++ joined s.ahead.tail ++ pathText (path.drop s.ahead.tail.length) =
      s.shown ++ joined s.ahead ++ pathText ((seg :: path).drop s.ahead.length) := by
    have : (s.enter c).shown ++ joined s.ahead.tail ++ pathText (path.drop s.ahead.tail.length) =
        s.shown ++ (c.1 ++ '.' :: (joined s.ahead.tail ++ pathText (path.drop s.ahead.tail.length))) := by
      simp [Place.enter]
    rw [this, hshown, List.append_assoc]
  rcases ih with ⟨z, y, s', rfl, hz, hopen, htext⟩ | ⟨s', hthrough, hend, htext, hinst⟩
  · exact Or.inl ⟨seg :: z, y, s', rfl, Through.cons hstep hz, hopen, by rw [htext, htail, hpre]⟩
  · refine Or.inr ⟨s', Through.cons hstep hthrough, hend, by rw [htext, htail, hpre], ?_⟩
    intro hseg
    rw [htail] at hinst
    by_cases hpath : path = []
    · subst hpath
      obtain ⟨hne, hhead⟩ := hlast (by simpa using hseg)
      obtain ⟨q, qs, hqs⟩ := List.exists_cons_of_ne_nil hne
      have hnil : qs = [] := by
        have := length_le_of_asked hahead
        rw [hqs, List.tail_cons, List.length_nil] at this
        exact List.length_eq_zero_iff.mp (Nat.le_zero.mp this)
      rw [hqs, hnil] at hhead ⊢
      exact ⟨rfl, hhead⟩
    · rw [List.getLast?_cons_of_ne_nil hpath] at hseg
      obtain ⟨hlen, hne⟩ := hinst hseg
      have hpos : 0 < path.length := List.length_pos_iff.mpr hpath
      obtain ⟨q, qs, hqs⟩ : ∃ q qs, s.ahead = q :: qs := by
        apply List.exists_cons_of_ne_nil
        intro hnil
        rw [hnil, List.tail_nil, List.length_nil] at hlen
        omega
      rw [hqs, List.tail_cons] at hlen hne
      rw [hqs]
      refine ⟨by simp [hlen], ?_⟩
      have hqsne : qs ≠ [] := by
        rintro rfl
        rw [List.length_nil] at hlen
        omega
      rw [List.getLast?_cons_of_ne_nil hqsne]
      exact hne

/-- **A path under the request: either it has an open `{i}`, or its text is certain.** -/
theorem asked_split (hfree : instanceText ∉ s.ahead.dropLast) (h : asked env s.ahead s.key path = true) :
    Opens env s path ∨ ∃ s', Ends env s path s' := by
  induction path generalizing s with
  | nil =>
      have hnil : s.ahead = [] := List.length_eq_zero_iff.mp (Nat.le_zero.mp (length_le_of_asked h))
      refine Or.inr ⟨s, Through.nil s, hnil, ?_, fun h => by cases h⟩
      simp [hnil, joined, pathText]
  | cons seg path ih =>
      cases hs : s.ahead with
      | nil =>
          cases seg with
          | inst =>
              refine Or.inl ⟨[], path, s, rfl, Through.nil s, Or.inl hs, ?_⟩
              rw [hs]
              simp [joined, indicator, Segment.text, instanceText, pathText_cons]
          | name n =>
              have hstep : follow env s (.name n) = [s.enter (n.chars, n.chars)] := by simp [follow, hs, choices]
              have hahead : (s.enter (n.chars, n.chars)).ahead = [] := by rw [Place.enter, hs]; rfl
              refine split_cons hstep (by rw [hs]; exact asked_nil path) ?_ (fun h => by cases h) (ih ?_ ?_)
              · rw [hs]
                simp [joined, pathText_cons, Segment.text]
              · simp [hahead]
              · rw [hahead]
                exact asked_nil path
      | cons q qs =>
          rw [hs] at h hfree
          by_cases hq : q = instanceText
          · subst hq
            have hqs : qs = [] := by
              by_contra hne
              rw [List.dropLast_cons_of_ne_nil hne] at hfree
              exact hfree List.mem_cons_self
            subst hqs
            rw [asked_cons_inst, Bool.and_eq_true, decide_eq_true_eq] at h
            rw [h.1]
            refine Or.inl ⟨[], path, s, rfl, Through.nil s, Or.inr hs, ?_⟩
            rw [hs]
            simp [joined, indicator, instanceText]
          · rw [asked_cons hq, List.any_eq_true] at h
            obtain ⟨c, hc, h⟩ := h
            rcases choices_fixed env s.key hq seg with hnone | ⟨c', hc', -⟩
            · rw [hnone] at hc
              cases hc
            · obtain rfl : c = (q, c') := by simpa [hc'] using hc
              have hstep : follow env s seg = [s.enter (q, c')] := by rw [follow_fixed hs, hc', List.map_singleton]
              have hahead : (s.enter (q, c')).ahead = qs := by rw [Place.enter, hs, List.tail_cons]
              refine split_cons hstep (by rw [hs]; exact h) ?_ ?_ (ih ?_ ?_)
              · rw [hs]
                simp [joined]
              · intro _
                rw [hs]
                exact ⟨List.cons_ne_nil q qs, fun h => hq (Option.some.inj h)⟩
              · rw [hahead]
                intro hmem
                apply hfree
                rw [List.dropLast_cons_of_ne_nil (by rintro rfl; cases hmem)]
                exact List.mem_cons_of_mem q hmem
              · rw [hahead]
                exact h

/-- The request ahead of a place. -/
theorem ahead_of_place {s' : Place} (h : s' ∈ places (follow env) s path) : s'.ahead = s.ahead.drop path.length := by
  induction path generalizing s with
  | nil =>
      rw [places, List.mem_singleton] at h
      rw [h]
      rfl
  | cons seg path ih =>
      rw [places, List.mem_flatMap] at h
      obtain ⟨s₁, hs₁, h⟩ := h
      rw [follow, List.mem_map] at hs₁
      obtain ⟨c, -, rfl⟩ := hs₁
      rw [ih h, Place.enter, List.length_cons, List.drop_tail]

/-- The places behind an open `{i}`. -/
theorem follow_open (h : s.IsOpen) :
    follow env s .inst = (List.range' 1 (ownCount env s.key)).map fun i => s.enter (printNat i, printNat i) := by
  have hchoices : choices env s.ahead.head? s.key .inst = instances env s.key := by
    rcases h with h | h
    · rw [h]
      rfl
    · rw [h, List.head?_cons, choices, if_pos rfl]
  rw [follow, hchoices, instances, List.map_map]
  rfl

end

/-! ## Document order -/

section
variable {o a : XmlObject} {dm pre post : List XmlObject}

theorem below_iff : below o a = true ↔ o.path <+: a.path := List.isPrefixOf_iff_prefix

theorem DocumentOrder.of_append (h : DocumentOrder (pre ++ post)) : DocumentOrder post := by
  induction pre with
  | nil => exact h
  | cons o pre ih => exact ih h.2.2

/-- An object has one place in the document. -/
theorem DocumentOrder.unique (h : DocumentOrder dm) (ho : o ∈ dm) (ha : a ∈ dm) (hpath : o.path = a.path) : o = a := by
  induction dm with
  | nil => cases ho
  | cons b dm ih =>
      obtain ⟨hfirst, -, hrest⟩ := h
      rcases List.mem_cons.mp ho with rfl | ho'
      · rcases List.mem_cons.mp ha with rfl | ha'
        · rfl
        · exact absurd (hpath ▸ List.prefix_refl _) (hfirst a ha')
      · rcases List.mem_cons.mp ha with rfl | ha'
        · exact absurd (hpath ▸ List.prefix_refl _) (hfirst o ho')
        · exact ih hrest ho' ha'

/-- The objects below an object are those directly behind it. -/
theorem DocumentOrder.mem_below (h : DocumentOrder (pre ++ o :: post)) (ha : a ∈ pre ++ o :: post)
    (hpre : o.path <+: a.path) (hne : a ≠ o) : a ∈ post.takeWhile (below o) := by
  induction pre with
  | nil =>
      rcases List.mem_cons.mp ha with rfl | ha'
      · exact absurd rfl hne
      · rw [← List.takeWhile_append_dropWhile (p := below o) (l := post), List.mem_append] at ha'
        exact ha'.resolve_right fun hdrop => h.2.1 a hdrop hpre
  | cons b pre ih =>
      rcases List.mem_cons.mp ha with rfl | ha'
      · exact absurd hpre (h.1 o (by simp))
      · exact ih h.2.2 ha'

end

end Tr69HostIf.Waldb
