import Tr69HostIf.Waldb.Rounds

/-!
# Where the walk is right

The inputs on which `getList` meets none of its slips.

* `Regular` : the objects matched are those under the request, the number at the end of the request is checked, every
  `{i}` on the way is a table with parameters whose count is the one `getNumberofInstances` reads, and the texts fit
  (`TableRight`, `ObjectRight`);
* `Refused` : nothing is asked for, and nothing is listed;
* `Stands`, `Block` : where a call of `getList` stands, and what it has in front of it;
* `append_first`, `append_next` : the buffer at the next object.
-/

namespace Tr69HostIf.Waldb
open Store Clib

/-! ## The condition -/

section
variable (env : Env) (dm : List XmlObject) (request : Text)

/-- The object lies under the request. -/
def isAsked (o : XmlObject) : Bool := asked env (segments request) [] o.path

/-- A parameter whose name fits its slot, and whose first node below `<syntax>` is its type. -/
structure ParamRight (s : Place) (p : DmParameter) : Prop where
  name : (s.shown ++ p.base.chars).length < maxParameterLength
  type : ∃ node nodes, p.syntaxNodes = node :: nodes ∧ p.type = some node.value ∧ node.value.length < maxDatatypeLength

/-- An object at a place that is reached. -/
structure ObjectRight (o : XmlObject) (s : Place) : Prop where
  path : s.shown.length < maxParameterLength
  params : ∀ p ∈ o.params, ParamRight s p

/-- A table in front of whose instances the place `s` stands. -/
structure TableRight (o : XmlObject) (s : Place) : Prop where
  table : isTable o = true
  params : o.params ≠ []
  count : getNumberofInstances env o.base = .ok (ownCount env s.key)
  fits : (s.shown ++ indicator).length < maxParameterLength
  behind : ownCount env s.key ≠ 0 → ∀ pre post, dm = pre ++ o :: post →
    ∀ a ∈ (post.dropWhile (below o)).head?, matching a.base o.base = none
  empty : ownCount env s.key = 0 → ∀ pre post, dm = pre ++ o :: post →
    ∀ a ∈ ((post.dropWhile (below o)).filter (isAsked env request)).head?, ¬o.base <:+: a.base

/-- The walk meets none of its slips. -/
structure Regular : Prop where
  short : request.length < maxParameterLength
  openLast : instanceText ∉ (segments request).dropLast
  openLiteral : (segments request).getLast? = some instanceText →
    ∀ o ∈ dm, isAsked env request o = true → request <+: o.base
  matched : ∀ o ∈ dm, (matching o.base request).isSome = isAsked env request o
  first : ∀ o ∈ (dm.filter (isAsked env request)).head?, (strstr o.base request).isSome = true → request <+: o.base
  fixed : ∀ o ∈ dm, isAsked env request o = true → isTable o = true → o.path.length = (segments request).length →
    (segments request).getLast? ≠ some instanceText → ∀ m ∈ matching o.base request,
      ∃ n : Nat, getNumberofInstances env o.base = .ok n ∧ m.2 ≠ 0 ∧ m.2 ≤ n
  tables : ∀ o ∈ dm, isAsked env request o = true → ∀ z, z ++ [.inst] <+: o.path →
    ∀ s ∈ places (follow env) (start request) z, s.IsOpen →
      ∃ T ∈ dm, T.path = z ++ [.inst] ∧ TableRight env dm request T s
  objects : ∀ o ∈ dm, ∀ s ∈ places (follow env) (start request) o.path, s.ahead = [] → ObjectRight o s
  spliced : ∀ pre c a post, dm.filter (isAsked env request) = pre ++ c :: a :: post →
    ∀ u, Misspliced (c.path.drop (segments request).length) (a.path.drop (segments request).length) u →
      .inst ∈ u ∨ (strstr a.base request).isSome = true →
        places (follow env) (start request) (a.path.take ((segments request).length + u.length)) = []

/-- Nothing is asked for, and the walk lists nothing: no object matches, or the first that does is a table that has
not got the number in the request, and the others contain its path. -/
structure Refused : Prop where
  nothing : ∀ o ∈ dm, isAsked env request o = false
  stops : isWildCardParam (request.take (maxParameterLength - 1)) = false ∨
    (∀ o ∈ dm, matching o.base (request.take (maxParameterLength - 1)) = none) ∨
    ∃ pre o post, ∃ inst : Int, ∃ n : Nat, dm = pre ++ o :: post ∧
      (∀ a ∈ pre, matching a.base (request.take (maxParameterLength - 1)) = none) ∧
      matching o.base (request.take (maxParameterLength - 1)) = some (true, inst) ∧
      isTable o = true ∧ o.params ≠ [] ∧ getNumberofInstances env o.base = .ok n ∧ inst ≠ 0 ∧ ¬inst ≤ n ∧
      ∀ a ∈ post, matching a.base (request.take (maxParameterLength - 1)) ≠ none → o.base <:+: a.base

end

/-! ## Where a call stands -/

section
variable (env : Env) (dm : List XmlObject) (request : Text) (frame : Frame) (h : List Segment) (s : Place)

/-- A call of `getList`: the first one, or the one for an instance of the table at path `h`. -/
structure Stands : Prop where
  place : s ∈ places (follow env) (start request) h
  call : (frame = ⟨request, false⟩ ∧ h = [] ∧ s = start request) ∨
    (frame = ⟨pathText h, true⟩ ∧ s.ahead = [] ∧ (.inst ∈ h.drop (segments request).length ∨
      ∀ a ∈ dm, isAsked env request a = true → (strstr a.base request).isSome = true))

/-- The object lies strictly below the path of the call, and under the request. -/
structure Inside (o : XmlObject) : Prop where
  path : h <+: o.path
  proper : o.path ≠ h
  asked : asked env s.ahead s.key (o.path.drop h.length) = true

/-- What the buffer holds at an object. -/
def currentText (o : XmlObject) : Text :=
  s.shown ++ joined s.ahead ++ pathText ((o.path.drop h.length).drop s.ahead.length)

/-- The objects `L` are what a call has in front of it, and `R` is what comes then. -/
structure Block (D L R : List XmlObject) : Prop where
  split : dm = D ++ L ++ R
  inside : ∀ o ∈ L, isAsked env request o = true → Inside env h s o
  all : frame.isRecursiveCall = true → ∀ o ∈ L, isAsked env request o = true
  closed : ∀ o ∈ L, isAsked env request o = true → ∀ z, z ++ [.inst] <+: o.path.drop h.length →
    ∀ s' ∈ places (follow env) s z, s'.IsOpen → ∃ T ∈ L, T.path = h ++ z ++ [.inst]
  after : ∀ a ∈ R.head?, ¬h <+: a.path
  ends : frame.isRecursiveCall = false → R = []

end

section
variable {env : Env} {dm : List XmlObject} {request : Text} {frame : Frame} {h : List Segment} {s : Place}
variable {o c : XmlObject}

theorem currentText_shown : s.shown <+: currentText h s o := by
  rw [currentText, List.append_assoc]
  exact List.prefix_append _ _

/-- The path of an object, cut where its text stops being certain. -/
theorem Inside.base_eq (hs : s ∈ places (follow env) (start request) h) (ho : Inside env h s o) :
    ∃ path, Aligned path (s.shown ++ joined s.ahead) ∧
      o.base = pathText path ++ pathText ((o.path.drop h.length).drop s.ahead.length) := by
  obtain ⟨t, ht, hal⟩ := aligned_of_place hs
  have hshown : s.shown = t := ht
  obtain ⟨x, hx⟩ := ho.path
  have hdrop : o.path.drop h.length = x := by rw [← hx, List.drop_left]
  have hasked := ho.asked
  rw [hdrop] at hasked
  refine ⟨h ++ x.take s.ahead.length, ?_, ?_⟩
  · rw [hshown]
    exact hal.append (aligned_of_asked hasked)
  · rw [XmlObject.base, hdrop, ← hx, ← pathText_append, List.append_assoc, List.take_append_drop]

/-- The buffer at the first object. -/
theorem append_first (hs : s ∈ places (follow env) (start request) h) (ho : Inside env h s o) :
    appendLoop (s.shown ++ joined s.ahead) false o.base = .ok (currentText h s o) := by
  obtain ⟨path, hal, hbase⟩ := ho.base_eq hs
  have happ := appendLoop_aligned hal [] (pathText ((o.path.drop h.length).drop s.ahead.length))
  rw [List.append_nil] at happ
  rw [hbase, happ]
  rfl

/-- The buffer at the object behind `c`. -/
theorem append_next (hs : s ∈ places (follow env) (start request) h) (ho : Inside env h s o)
    (hsplice : ∀ u, ¬Misspliced ((c.path.drop h.length).drop s.ahead.length) ((o.path.drop h.length).drop s.ahead.length) u) :
    appendLoop (currentText h s c) false o.base = .ok (currentText h s o) := by
  obtain ⟨path, hal, hbase⟩ := ho.base_eq hs
  rw [hbase, currentText, appendLoop_aligned hal, appendLoop_pathText hsplice]
  rfl

/-! ## What the round finds -/

/-- Every proper beginning of the object's path is reached. -/
def Reached (env : Env) (request : Text) (o : XmlObject) : Prop :=
  ∀ k, k < o.path.length → places (follow env) (start request) (o.path.take k) ≠ []

/-- The buffer is fit for the object, once it is reached. -/
def Ready (env : Env) (request : Text) (frame : Frame) (h : List Segment) (s : Place) (current : Text) (o : XmlObject) :
    Prop :=
  Reached env request o → ∀ m, matching o.base frame.paramName = some m →
    appendLoop (if m.1 && !frame.isRecursiveCall then frame.paramName else current) false o.base =
      .ok (currentText h s o)

theorem reached_of_place {p : List Segment} {s' : Place} (hs' : s' ∈ places (follow env) (start request) p)
    (hp : p <+: o.path) (hlen : o.path.length ≤ p.length + 1) : Reached env request o := by
  intro k hk hnil
  obtain ⟨x, hx⟩ := hp
  have htake : o.path.take k = p.take k := by
    rw [← hx, List.take_append_of_le_length (by omega)]
  rw [← List.take_append_drop k p] at hs'
  obtain ⟨s₁, h₁⟩ := exists_place_of_append hs'
  rw [htake] at hnil
  rw [hnil] at h₁
  cases h₁

theorem start_text (hdot : request.getLast? = some '.') : (start request).shown ++ joined (start request).ahead = request :=
  (joined_segments hdot).1

/-- The buffer at the first object of the first call. -/
theorem ready_start (hdot : request.getLast? = some '.') (hreg : Regular env dm request)
    (hin : Inside env [] (start request) o) (hfirst : o ∈ (dm.filter (isAsked env request)).head?) :
    Ready env request ⟨request, false⟩ [] (start request) [] o := by
  intro _ m hm
  have hplace : start request ∈ places (follow env) (start request) [] := List.mem_singleton.mpr rfl
  obtain ⟨status, inst⟩ := m
  cases status with
  | true =>
      have happ := append_first hplace hin
      rw [start_text hdot] at happ
      exact happ
  | false =>
      have hpre := hreg.first o hfirst (matching_strstr hm).2
      have hseg := joined_segments hdot
      rw [← hseg.1] at hpre
      have hlen : (segments request).length ≤ o.path.length := length_le_of_asked hin.asked
      show Except.ok o.base = _
      rw [XmlObject.base, ← pathText_of_spelled hseg.2 hlen hpre]
      rfl

section
variable (hs : Stands env dm request frame h s)

include hs

theorem Stands.matching_nested (hrec : frame.isRecursiveCall = true) (hpre : h <+: o.path) :
    matching o.base frame.paramName = some (false, 0) := by
  rcases hs.call with ⟨rfl, -, -⟩ | ⟨rfl, -, -⟩
  · cases hrec
  · apply matching_of_inside
    obtain ⟨x, hx⟩ := hpre
    rw [XmlObject.base, ← hx, pathText_append]
    exact List.IsPrefix.isInfix (List.prefix_append _ _)

/-- The objects under the request match. -/
theorem Stands.exists_matching (hreg : Regular env dm request) (ho : o ∈ dm) (hasked : isAsked env request o = true)
    (hin : Inside env h s o) : ∃ m, matching o.base frame.paramName = some m := by
  rcases hs.call with ⟨rfl, -, -⟩ | ⟨rfl, -, -⟩
  · have := hreg.matched o ho
    rw [hasked, Option.isSome_iff_exists] at this
    exact this
  · exact ⟨_, hs.matching_nested rfl hin.path⟩

/-- A table with an open `{i}` is not taken for an instance. -/
theorem Stands.inst_eq_zero (hdot : request.getLast? = some '.') (hreg : Regular env dm request) (ho : o ∈ dm) (hasked : isAsked env request o = true)
    (hin : Inside env h s o) {z : List Segment} {s' : Place} (hpath : o.path = h ++ z ++ [.inst])
    (hs' : s' ∈ places (follow env) s z) (hopen : s'.IsOpen) {m : Bool × Int}
    (hm : matching o.base frame.paramName = some m) : m.2 = 0 := by
  rcases hs.call with ⟨rfl, rfl, rfl⟩ | ⟨rfl, -, -⟩
  · obtain ⟨status, inst⟩ := m
    cases status with
    | false => exact (matching_strstr hm).1
    | true =>
        have hcheck := matching_check hm
        have hahead := ahead_of_place hs'
        rcases hopen with hopen | hopen
        · -- the path goes on behind the request
          have hlen : (segments request).length ≤ z.length := by
            have := congrArg List.length (hopen.symm.trans hahead)
            simp only [start, List.length_nil, List.length_drop] at this
            omega
          obtain ⟨path, hal, hbase⟩ := hin.base_eq hs.place
          have hdrop : (o.path.drop ([] : List Segment).length).drop (start request).ahead.length ≠ [] := by
            intro hnil
            have := congrArg List.length hnil
            simp only [start, List.length_drop, List.length_nil, hpath, List.length_append, List.length_singleton] at this
            omega
          have htext : pathText ((o.path.drop ([] : List Segment).length).drop (start request).ahead.length) ≠ [] := by
            obtain ⟨u, hu⟩ := pathText_concat hdrop
            rw [hu]
            simp
          rw [start_text hdot] at hal
          rw [hbase] at hcheck
          exact checkMatchingParameter_below hal htext hcheck
        · -- the request ends in an open `{i}`
          have hlast : (segments request).getLast? = some instanceText := by
            have h1 : (segments request).drop z.length = [instanceText] := by
              rw [← hopen]
              exact hahead.symm
            rw [← List.take_append_drop z.length (segments request), h1, List.getLast?_concat]
          have hinfix := (hreg.openLiteral hlast o ho hasked).isInfix
          rw [matching_of_inside hinfix] at hm
          cases hm
  · rw [hs.matching_nested rfl hin.path] at hm
    obtain rfl := Option.some.inj hm
    rfl

/-- The buffer at the first object of a recursive call. -/
theorem ready_nested (hrec : frame.isRecursiveCall = true) (hin : Inside env h s o) :
    Ready env request frame h s s.shown o := by
  intro _ m _
  have hnil : s.ahead = [] := by
    rcases hs.call with ⟨rfl, -, -⟩ | ⟨-, hnil, -⟩
    · cases hrec
    · exact hnil
  have happ := append_first hs.place hin
  rw [hnil] at happ
  simpa [hrec, joined] using happ

/-- The buffer at the next object. -/
theorem ready_next (hdot : request.getLast? = some '.') (hreg : Regular env dm request) (ho : o ∈ dm)
    (hasked : isAsked env request o = true) (hin : Inside env h s o) (hc : h <+: c.path) {c' : XmlObject}
    {pre post : List XmlObject} (hadj : dm.filter (isAsked env request) = pre ++ c' :: o :: post)
    (hcc : c.path <+: c'.path) : Ready env request frame h s (currentText h s c) o := by
  intro hreached m hm
  by_cases hreset : m.1 && !frame.isRecursiveCall
  · rw [if_pos hreset]
    rcases hs.call with ⟨rfl, rfl, rfl⟩ | ⟨rfl, -, -⟩
    · have happ := append_first hs.place hin
      rw [start_text hdot] at happ
      exact happ
    · simp at hreset
  · rw [if_neg hreset]
    refine append_next hs.place hin fun u hu => ?_
    obtain ⟨n, y, x, hy, hx⟩ := hu
    obtain ⟨y', hy'⟩ := hcc
    -- the same segments, counted from the end of the request
    have hmiss : ∃ v, Misspliced (c'.path.drop (segments request).length) (o.path.drop (segments request).length) v ∧
        (.inst ∈ v ∨ (strstr o.base request).isSome = true) := by
      rcases hs.call with ⟨rfl, rfl, rfl⟩ | ⟨rfl, hnil, hdeep⟩
      · have hy : c.path.drop (segments request).length = u ++ .name n :: y := hy
        have hle : (segments request).length ≤ c.path.length := by
          have := congrArg List.length hy
          simp only [List.length_drop, List.length_append, List.length_cons] at this
          omega
        refine ⟨u, ⟨n, y ++ y', x, ?_, hx⟩, Or.inr ?_⟩
        · rw [← hy', List.drop_append_of_le_length hle, hy, List.append_assoc, List.cons_append]
        · obtain ⟨status, inst⟩ := m
          cases status with
          | true => simp at hreset
          | false => exact (matching_strstr hm).2
      · have hle : (segments request).length ≤ h.length := by
          have := congrArg List.length (hnil.symm.trans (ahead_of_place hs.place))
          simp only [start, List.length_nil, List.length_drop] at this
          omega
        rw [hnil] at hx hy
        obtain ⟨cx, hcx⟩ := hc
        obtain ⟨ox, hox⟩ := hin.path
        have hcx' : cx = u ++ .name n :: y := by
          rw [← hy, ← hcx, List.drop_left]
          rfl
        have hox' : ox = u ++ .inst :: x := by
          rw [← hx, ← hox, List.drop_left]
          rfl
        refine ⟨h.drop (segments request).length ++ u, ⟨n, y ++ y', x, ?_, ?_⟩, ?_⟩
        · rw [← hy', ← hcx, List.append_assoc, List.drop_append_of_le_length hle, hcx']
          simp
        · rw [← hox, List.drop_append_of_le_length hle, hox', List.append_assoc]
        · rcases hdeep with hdeep | hdeep
          · exact Or.inl (List.mem_append_left u hdeep)
          · exact Or.inr (hdeep o ho hasked)
    obtain ⟨v, hv, hv'⟩ := hmiss
    refine hreached _ ?_ (hreg.spliced pre c' o post hadj v hv hv')
    obtain ⟨n, y, x, -, hx⟩ := hv
    have := congrArg List.length hx
    simp only [List.length_drop, List.length_append, List.length_cons] at this
    omega

end

end

end Tr69HostIf.Waldb
