import Tr69HostIf.Waldb.Blocks

/-!
# The walk over a block

* `Walked` : a call of `getList` walks over a block and lists its expansion;
* `walked_unasked`, `walked_certain`, `walked_empty`, `walked_table` : one lemma for each kind of first object;
* `walked_block` : by induction on the block.
-/

namespace Tr69HostIf.Waldb
open Store Clib

/-! ## The names of a block -/

/-- Slots of the two lists. -/
def slots (l : List (Text × Option Text)) : List (Text × Text) := l.map fun x => (x.1, x.2.getD [])

theorem slots_append (l l' : List (Text × Option Text)) : slots (l ++ l') = slots l ++ slots l' := List.map_append

theorem length_slots (l : List (Text × Option Text)) : (slots l).length = l.length := List.length_map _

/-- The objects of a block, seen from path `h`. -/
def itemsFrom (h : List Segment) (L : List XmlObject) : List (List Segment × List DmParameter) :=
  L.map fun o => (o.path.drop h.length, o.params)

/-- The names below a place, for the objects of a block. -/
def namesBelow (env : Env) (h : List Segment) (s : Place) (L : List XmlObject) : List (Text × Option Text) :=
  expand (follow env) shownParams s (itemsFrom h L)

/-- What a call of `getList` has to find when it comes to a block. -/
structure Prepared (env : Env) (request : Text) (frame : Frame) (h : List Segment) (s : Place) (L : List XmlObject)
    (zero : Text) (w : Walk) : Prop where
  zero : zero = [] ∨ ∀ a ∈ (L.filter (isAsked env request)).head?, ¬zero <:+: a.base
  ready : ∀ a ∈ (L.filter (isAsked env request)).head?, Ready env request frame h s w.currentParam a
  shown : s.shown <+: w.currentParam

/-- The call walks over the block and lists its names. -/
def Walked (env : Env) (frame : Frame) (h : List Segment) (s : Place) (L R : List XmlObject) (zero : Text) (w : Walk) : Prop :=
  ∃ zero' current, s.shown <+: current ∧
    ∀ r, Finishes env frame zero' ⟨current, w.listed ++ slots (namesBelow env h s L)⟩ (nodeOf R) r →
      Finishes env frame zero w (nodeOf (L ++ R)) r

section
variable {env : Env} {dm : List XmlObject} {request : Text} {frame : Frame} {h : List Segment} {s : Place}
variable {o : XmlObject} {D L R : List XmlObject} {zero : Text} {w : Walk}

/-- The parameters of an object fill their slots. -/
theorem listParameters_eq {params : List DmParameter} (hne : s.shown ≠ []) (hahead : s.ahead = [])
    (hright : ∀ p ∈ params, ParamRight s p) (listed : List (Text × Text))
    (hroom : listed.length + params.length ≤ maxNumParameters) :
    listParameters s.shown params listed = .ok (listed ++ slots (shownParams s params)) := by
  have hshown : shownParams s params = params.map fun p => (s.shown ++ p.base.chars, p.type) := if_pos hahead
  rw [hshown]
  clear hshown
  induction params generalizing listed with
  | nil => simp [listParameters, slots]
  | cons p params ih =>
      rw [List.forall_mem_cons] at hright
      obtain ⟨node, nodes, hnodes, htype, hlen⟩ := hright.1.type
      rw [List.length_cons] at hroom
      have hcond : listed.length < maxNumParameters ∧ 0 < s.shown.length :=
        ⟨by omega, List.length_pos_iff.mpr hne⟩
      have hname : (s.shown ++ p.base.chars).take (maxParameterLength - 1) = s.shown ++ p.base.chars :=
        List.take_of_length_le (Nat.le_sub_one_of_lt hright.1.name)
      have hvalue : node.value.take (maxDatatypeLength - 1) = node.value :=
        List.take_of_length_le (Nat.le_sub_one_of_lt hlen)
      have hroom' : (listed ++ [(s.shown ++ p.base.chars, node.value)]).length + params.length ≤ maxNumParameters := by
        rw [List.length_append, List.length_singleton]
        omega
      rw [listParameters, if_pos hcond, hnodes]
      simp only [hname, hvalue]
      rw [ih hright.2 _ hroom']
      simp [slots, htype]

theorem walked_nil (hshown : s.shown <+: w.currentParam) : Walked env frame h s [] R zero w := by
  have hnil : namesBelow env h s [] = [] := expand_nil
  refine ⟨zero, w.currentParam, hshown, fun r hr => ?_⟩
  simpa [hnil, slots] using hr

theorem namesBelow_unasked (hs : Stands env dm request frame h s) (hb : Block env dm request frame h s D (o :: L) R)
    (hasked : isAsked env request o = false) : namesBelow env h s (o :: L) = namesBelow env h s L := by
  rcases hs.call with ⟨rfl, rfl, rfl⟩ | ⟨rfl, -, -⟩
  · exact expand_dead (dead_of_not_asked (s := start request) hasked) o.params _
  · rw [hb.all rfl o List.mem_cons_self] at hasked
    cases hasked

/-- An object that is not under the request. -/
theorem walked_unasked (hreg : Regular env dm request) (hs : Stands env dm request frame h s)
    (hb : Block env dm request frame h s D (o :: L) R) (hasked : isAsked env request o = false)
    (ih : Walked env frame h s L R zero w) : Walked env frame h s (o :: L) R zero w := by
  have hnames := namesBelow_unasked hs hb hasked
  rcases hs.call with ⟨rfl, rfl, rfl⟩ | ⟨rfl, -, -⟩
  · have hmatch : matching o.base request = none := by
      have hmem : o ∈ dm := by
        rw [hb.split]
        simp
      have := hreg.matched o hmem
      rw [hasked] at this
      simpa using this
    obtain ⟨zero', current, hshown, hlead⟩ := ih
    rw [Walked, hnames]
    exact ⟨zero', current, hshown, fun r hr => finishes_unmatched rfl hmatch (hlead r hr)⟩
  · rw [hb.all rfl o List.mem_cons_self] at hasked
    cases hasked

/-- The buffer at an object whose text fits. -/
theorem Prepared.append (hp : Prepared env request frame h s (o :: L) zero w) (hasked : isAsked env request o = true)
    (hreached : Reached env request o) {m : Bool × Int} (hm : matching o.base frame.paramName = some m)
    (hfits : (currentText h s o).length < maxParameterLength) :
    appendNextObject (if m.1 && !frame.isRecursiveCall then frame.paramName else w.currentParam) o.base =
      .ok (currentText h s o) := by
  have hhead : o ∈ ((o :: L).filter (isAsked env request)).head? := by
    rw [List.filter_cons_of_pos hasked]
    rfl
  rw [appendNextObject, hp.ready o hhead hreached m hm]
  simp [Except.bind, buffer, hfits]

theorem Prepared.clear (hp : Prepared env request frame h s (o :: L) zero w) (hasked : isAsked env request o = true) :
    zero = [] ∨ ¬zero <:+: o.base := by
  refine hp.zero.imp_right fun hzero => hzero o ?_
  rw [List.filter_cons_of_pos hasked]
  rfl

/-- The object asked for before `a` is the last one of those handled. -/
theorem exists_adjacent {X Y : List XmlObject} (hdm : dm = D ++ X ++ Y ++ R)
    (hX : ∀ c ∈ X, isAsked env request c = true ∧ o.path <+: c.path) (hne : X ≠ []) {a : XmlObject}
    (ha : a ∈ (Y.filter (isAsked env request)).head?) :
    ∃ pre c post, dm.filter (isAsked env request) = pre ++ c :: a :: post ∧ o.path <+: c.path := by
  obtain ⟨X', c, rfl⟩ := (List.eq_nil_or_concat' X).resolve_left hne
  obtain ⟨ys, hys⟩ : ∃ ys, Y.filter (isAsked env request) = a :: ys := by
    cases hY : Y.filter (isAsked env request) with
    | nil =>
        rw [hY] at ha
        cases ha
    | cons b ys =>
        rw [hY] at ha
        obtain rfl : b = a := Option.some.inj ha
        exact ⟨ys, rfl⟩
  have hX' : (X' ++ [c]).filter (isAsked env request) = X' ++ [c] := List.filter_eq_self.mpr fun b hb => (hX b hb).1
  refine ⟨D.filter (isAsked env request) ++ X', c, ys ++ R.filter (isAsked env request), ?_, ?_⟩
  · rw [hdm, List.filter_append, List.filter_append, List.filter_append, hX', hys]
    simp
  · exact (hX c (by simp)).2

/-- What the call finds behind the objects `X`, of which the first is `o`. -/
theorem prepared_next (hdot : request.getLast? = some '.') (hreg : Regular env dm request)
    (hs : Stands env dm request frame h s) (hpre : h <+: o.path) {X : List XmlObject}
    (hb : Block env dm request frame h s (D ++ X) L R) (hX : ∀ c ∈ X, isAsked env request c = true ∧ o.path <+: c.path)
    (hne : X ≠ []) (hzero : zero = [] ∨ ∀ a ∈ (L.filter (isAsked env request)).head?, ¬zero <:+: a.base)
    (listed : List (Text × Text)) : Prepared env request frame h s L zero ⟨currentText h s o, listed⟩ := by
  refine ⟨hzero, ?_, currentText_shown⟩
  intro a ha
  obtain ⟨haL, hasked⟩ := List.mem_filter.mp (List.mem_of_head? ha)
  obtain ⟨pre, c, post, hadj, hc⟩ := exists_adjacent hb.split hX hne ha
  have hmem : a ∈ dm := by
    rw [hb.split]
    exact List.mem_append_left R (List.mem_append_right _ haL)
  exact ready_next hs hdot hreg hmem hasked (hb.inside a haL hasked) hpre hadj hc

theorem Aligned.ne_nil {path : List Segment} {t : Text} (h : Aligned path t) (hne : path ≠ []) : t ≠ [] := by
  cases h with
  | nil => exact absurd rfl hne
  | cons _ _ => simp

/-- An object whose text is certain. -/
theorem walked_certain (hdot : request.getLast? = some '.') (hreg : Regular env dm request)
    (hs : Stands env dm request frame h s) (hb : Block env dm request frame h s D (o :: L) R)
    (hp : Prepared env request frame h s (o :: L) zero w) (hasked : isAsked env request o = true) {s' : Place}
    (hends : Ends env s (o.path.drop h.length) s')
    (hroom : w.listed.length + (namesBelow env h s (o :: L)).length ≤ maxNumParameters)
    (ih : ∀ w', Prepared env request frame h s L [] w' →
      w'.listed.length + (namesBelow env h s L).length ≤ maxNumParameters → Walked env frame h s L R [] w') :
    Walked env frame h s (o :: L) R zero w := by
  have hmem : o ∈ dm := by
    rw [hb.split]
    simp
  have hin := hb.inside o List.mem_cons_self hasked
  obtain ⟨hthrough, hahead, htext, hlast⟩ := id hends
  have hplace : s' ∈ places (follow env) (start request) o.path := by
    obtain ⟨x, hx⟩ := hin.path
    have := mem_places_append hs.place hthrough.mem_places
    rwa [← hx, List.drop_left, hx] at this
  have hright := hreg.objects o hmem s' hplace hahead
  have hne : s'.shown ≠ [] := by
    obtain ⟨t, ht, hal⟩ := aligned_of_place hplace
    rw [ht]
    exact hal.ne_nil o.path_ne_nil
  have hnames : namesBelow env h s (o :: L) = shownParams s' o.params ++ namesBelow env h s L :=
    expand_here hthrough o.params _
  have hparams : (shownParams s' o.params).length = o.params.length := by simp [shownParams, hahead]
  rw [hnames, List.length_append, hparams] at hroom
  have hlist := listParameters_eq hne hahead hright.params w.listed (by omega)
  obtain ⟨⟨status, inst⟩, hm⟩ := hs.exists_matching hreg hmem hasked hin
  have hreached : Reached env request o := reached_of_place hplace (List.prefix_refl _) (Nat.le_succ _)
  have htext' : currentText h s o = s'.shown := htext.symm
  have happ := hp.append hasked hreached hm (by rw [htext']; exact hright.path)
  have hfixed : isTable o = true → ∃ n : Nat, getNumberofInstances env o.base = .ok n ∧ inst ≠ 0 ∧ inst ≤ n := by
    intro htable
    have hinst := getLast_of_isTable htable
    obtain ⟨x, hx⟩ := hin.path
    have hx' : x ≠ [] := by
      rintro rfl
      exact hin.proper (by rw [← hx, List.append_nil])
    rw [← hx, List.drop_left] at hlast
    rw [← hx, List.getLast?_append_of_ne_nil h hx'] at hinst
    obtain ⟨hlen, hne⟩ := hlast hinst
    rcases hs.call with ⟨rfl, rfl, rfl⟩ | ⟨rfl, hnil, -⟩
    · obtain rfl : x = o.path := hx
      exact hreg.fixed o hmem hasked htable hlen hne (status, inst) hm
    · rw [hnil, List.length_nil, List.length_eq_zero_iff] at hlen
      exact absurd hlen hx'
  have hb' := hb.tail hends.not_open
  have hprep : Prepared env request frame h s L [] ⟨currentText h s o, w.listed ++ slots (shownParams s' o.params)⟩ :=
    prepared_next hdot hreg hs hin.path hb' (by simpa using hasked) (List.cons_ne_nil o []) (Or.inl rfl) _
  obtain ⟨zero', current, hshown, hlead⟩ := ih _ hprep (by simp [slots, hparams]; omega)
  rw [Walked, hnames]
  refine ⟨zero', current, hshown, ?_⟩
  intro r hr
  refine finishes_object hm (hp.clear hasked) happ hfixed (by rw [htext']; exact hlist) (hlead r ?_)
  rw [slots_append, ← List.append_assoc] at hr
  exact hr

/-! ## Tables -/

/-- The place behind instance `i` of a table. -/
def Place.instance (s : Place) (i : Nat) : Place := s.enter (printNat i, printNat i)

theorem Place.IsOpen.instance_ahead (hopen : s.IsOpen) (i : Nat) : (s.instance i).ahead = [] := by
  have htail : (s.instance i).ahead = s.ahead.tail := rfl
  rw [htail]
  rcases hopen with h | h
  · rw [h, List.tail_nil]
  · rw [h, List.tail_cons]

/-- The names of one instance of a table. -/
def instanceNames (env : Env) (o : XmlObject) (L : List XmlObject) (s' : Place) (i : Nat) : List (Text × Option Text) :=
  shownParams (s'.instance i) o.params ++ namesBelow env o.path (s'.instance i) (L.takeWhile (below o))

/-- **The names of a table, instance by instance, then those behind it.** -/
theorem namesBelow_table (hdoc : DocumentOrder dm) (hs : Stands env dm request frame h s)
    (hb : Block env dm request frame h s D (o :: L) R) {z : List Segment} {s' : Place}
    (hpath : o.path = h ++ z ++ [.inst]) (hthrough : Through (follow env) s z s') (hopen : s'.IsOpen) :
    namesBelow env h s (o :: L) =
      (List.range' 1 (ownCount env s'.key)).flatMap (instanceNames env o L s') ++
        namesBelow env h s (L.dropWhile (below o)) := by
  have hpre : h <+: o.path := by
    rw [hpath, List.append_assoc]
    exact List.prefix_append _ _
  have hlen : o.path.length = h.length + (z.length + 1) := by
    rw [hpath]
    simp
  have hdrop : o.path.drop h.length = z ++ [.inst] := by rw [hpath, List.append_assoc, List.drop_left]
  have hcut : ∀ a : XmlObject, o.path <+: a.path → z ++ [.inst] <+: a.path.drop h.length := by
    rintro a ⟨x, hx⟩
    rw [← hx, List.drop_append_of_le_length (by omega), hdrop]
    exact List.prefix_append _ _
  have hblock : ∀ x ∈ itemsFrom h (o :: L.takeWhile (below o)), z ++ [.inst] <+: x.1 := by
    intro x hx
    obtain ⟨a, ha, rfl⟩ := List.mem_map.mp hx
    rcases List.mem_cons.mp ha with rfl | ha
    · exact hcut a (List.prefix_refl _)
    · exact hcut a (below_iff.mp (List.mem_takeWhile_imp ha))
  have hafter : ∀ x ∈ (itemsFrom h (L.dropWhile (below o))).head?, ¬z ++ [.inst] <+: x.1 := by
    intro x hx hz
    rw [itemsFrom, List.head?_map, Option.mem_def, Option.map_eq_some_iff] at hx
    obtain ⟨a, ha, rfl⟩ := hx
    have ha' : a ∈ L.dropWhile (below o) := List.mem_of_head? ha
    have hha : h <+: a.path := by
      rcases hs.call with ⟨-, rfl, -⟩ | ⟨rfl, -, -⟩
      · exact List.nil_prefix
      · have haL : a ∈ o :: L := List.mem_cons_of_mem o (List.dropWhile_subset _ ha')
        exact (hb.inside a haL (hb.all rfl a haL)).path
    refine (hb.span hdoc hpre).2.2 a (List.mem_append_left R ha') ?_
    obtain ⟨y, hy⟩ := hha
    rw [← hy, List.drop_left] at hz
    rw [hpath, ← hy, List.append_assoc]
    exact (List.prefix_append_right_inj h).mpr hz
  have hitems : itemsFrom h (o :: L) = itemsFrom h (o :: L.takeWhile (below o)) ++ itemsFrom h (L.dropWhile (below o)) := by
    rw [itemsFrom, itemsFrom, itemsFrom, ← List.map_append, List.cons_append, List.takeWhile_append_dropWhile]
  have hbehind : (itemsFrom h (o :: L.takeWhile (below o))).map (behind (z.length + 1)) =
      ([], o.params) :: itemsFrom o.path (L.takeWhile (below o)) := by
    rw [itemsFrom, List.map_map, List.map_cons]
    congr 1
    · simp [behind, hlen]
    · apply List.map_congr_left
      intro a _
      simp [behind, hlen]
  rw [namesBelow, hitems, expand_block hthrough .inst hblock hafter, hbehind, follow_open hopen, List.flatMap_map]
  congr 1
  apply List.flatMap_congr
  intro i _
  exact expand_leaf o.params _

/-- The loop ends at an object that does not match. -/
theorem finishes_behind (hrec : frame.isRecursiveCall = true)
    (hR : ∀ a ∈ R.head?, matching a.base frame.paramName = none) : Finishes env frame zero w (nodeOf R) (w, nodeOf R) := by
  cases R with
  | nil => exact finishes_none
  | cons a R => exact finishes_return hrec (hR a rfl)

/-- Objects below a table without instances are passed. -/
theorem finishes_below {B M : List XmlObject} {r : Walk × Option Node} (hne : zero ≠ [])
    (hmatch : ∀ a ∈ B, ∃ m, matching a.base frame.paramName = some m) (hB : ∀ a ∈ B, zero <:+: a.base)
    (hr : Finishes env frame zero w (nodeOf M) r) : Finishes env frame zero w (nodeOf (B ++ M)) r := by
  induction B with
  | nil => exact hr
  | cons a B ih =>
      rw [List.forall_mem_cons] at hmatch hB
      obtain ⟨m, hm⟩ := hmatch.1
      exact finishes_skipped hm hne hB.1 (ih hmatch.2 hB.2)

theorem length_le_flatMap {α β : Type} {f : α → List β} (l : List α) (h : ∀ x, 1 ≤ (f x).length) :
    l.length ≤ (l.flatMap f).length := by
  induction l with
  | nil => simp
  | cons x l ih =>
      have := h x
      rw [List.flatMap_cons, List.length_append, List.length_cons]
      omega

section
variable (hdot : request.getLast? = some '.') (hdoc : DocumentOrder dm) (hreg : Regular env dm request)
  (hs : Stands env dm request frame h s) (hb : Block env dm request frame h s D (o :: L) R)
  (hp : Prepared env request frame h s (o :: L) zero w) (hasked : isAsked env request o = true)
  {z : List Segment} {s' : Place} (hpath : o.path = h ++ z ++ [.inst]) (hthrough : Through (follow env) s z s')
  (hopen : s'.IsOpen) (htext : s'.shown ++ indicator = currentText h s o) (hright : TableRight env dm request o s')

include hs hthrough in
theorem place_in_front : s' ∈ places (follow env) (start request) (h ++ z) :=
  mem_places_append hs.place hthrough.mem_places

include hs hpath hthrough hopen in
/-- The places of the instances. -/
theorem place_instance {i : Nat} (hi : i ∈ List.range' 1 (ownCount env s'.key)) :
    s'.instance i ∈ places (follow env) (start request) o.path ∧ (s'.instance i).ahead = [] := by
  have hstep : s'.instance i ∈ places (follow env) s' [.inst] := by
    rw [places, follow_open hopen, List.mem_flatMap]
    exact ⟨s'.instance i, List.mem_map.mpr ⟨i, hi, rfl⟩, List.mem_singleton.mpr rfl⟩
  refine ⟨?_, hopen.instance_ahead i⟩
  rw [hpath]
  exact mem_places_append (place_in_front hs hthrough) hstep

include hreg hs hpath hthrough hopen in
/-- Where the call for an instance stands. -/
theorem stands_instance {i : Nat} (hi : i ∈ List.range' 1 (ownCount env s'.key)) :
    Stands env dm request ⟨pathText o.path, true⟩ o.path (s'.instance i) := by
  obtain ⟨hplace, hahead⟩ := place_instance hs hpath hthrough hopen hi
  refine ⟨hplace, Or.inr ⟨rfl, hahead, ?_⟩⟩
  have hfront : s'.ahead = (segments request).drop (h ++ z).length :=
    ahead_of_place (place_in_front hs hthrough)
  rcases hopen with hnil | hinst
  · left
    have hlen : (segments request).length ≤ (h ++ z).length := by
      have := congrArg List.length (hnil.symm.trans hfront)
      simp only [List.length_nil, List.length_drop] at this
      omega
    rw [hpath, List.drop_append_of_le_length hlen]
    exact List.mem_append_right _ (List.mem_singleton.mpr rfl)
  · right
    intro a ha hask
    have hlast : (segments request).getLast? = some instanceText := by
      rw [← List.take_append_drop (h ++ z).length (segments request), ← hfront, hinst, List.getLast?_concat]
    exact strstr_isSome.mpr (hreg.openLiteral hlast a ha hask).isInfix

include hdoc hreg hs hb hasked hpath hthrough hopen hright in
/-- The call for an instance lists the names of the instance. -/
theorem finishes_instance {i : Nat} (hi : i ∈ List.range' 1 (ownCount env s'.key))
    (ihBelow : ∀ w', Prepared env request ⟨pathText o.path, true⟩ o.path (s'.instance i) (L.takeWhile (below o)) [] w' →
      w'.listed.length + (namesBelow env o.path (s'.instance i) (L.takeWhile (below o))).length ≤ maxNumParameters →
        Walked env ⟨pathText o.path, true⟩ o.path (s'.instance i) (L.takeWhile (below o)) (L.dropWhile (below o) ++ R) [] w')
    (listed : List (Text × Text)) (hroom : listed.length + (instanceNames env o L s' i).length ≤ maxNumParameters) :
    ∃ current, s'.shown <+: current ∧
      Finishes env ⟨o.base, true⟩ [] ⟨(s'.instance i).shown, listed⟩ (firstChild o (L ++ R))
        (⟨current, listed ++ slots (instanceNames env o L s' i)⟩, nodeOf (L.dropWhile (below o) ++ R)) := by
  obtain ⟨hplace, hahead⟩ := place_instance hs hpath hthrough hopen hi
  have hstands := stands_instance hreg hs hpath hthrough hopen hi
  have hpre : h <+: o.path := by
    rw [hpath, List.append_assoc]
    exact List.prefix_append _ _
  have hblock := hb.nested hdoc hpre hreg hasked hplace hahead
  have hmem : o ∈ dm := by
    rw [hb.split]
    simp
  have hobject := hreg.objects o hmem _ hplace hahead
  have hne : (s'.instance i).shown ≠ [] := by simp [Place.instance, Place.enter]
  have hlength : (shownParams (s'.instance i) o.params).length = o.params.length := by simp [shownParams, hahead]
  rw [instanceNames, List.length_append, hlength] at hroom
  have hlist := listParameters_eq hne hahead hobject.params listed (by omega)
  have hprep : Prepared env request ⟨pathText o.path, true⟩ o.path (s'.instance i) (L.takeWhile (below o)) []
      ⟨(s'.instance i).shown, listed ++ slots (shownParams (s'.instance i) o.params)⟩ := by
    refine ⟨Or.inl rfl, fun a ha => ?_, List.prefix_refl _⟩
    obtain ⟨haL, hask⟩ := List.mem_filter.mp (List.mem_of_head? ha)
    exact ready_nested hstands rfl (hblock.inside a haL hask)
  obtain ⟨zero', current, hshown, hlead⟩ := ihBelow _ hprep (by simp [slots, hlength]; omega)
  refine ⟨current, ?_, ?_⟩
  · refine List.IsPrefix.trans ?_ hshown
    exact ⟨printNat i ++ ['.'], by simp [Place.instance, Place.enter]⟩
  · have hpos : ownCount env s'.key ≠ 0 := by
      rintro hzero
      rw [hzero] at hi
      cases hi
    have hbehind : ∀ a ∈ (L.dropWhile (below o) ++ R).head?, matching a.base o.base = none := by
      rw [← (hb.span hdoc hpre).2.1]
      exact hright.behind hpos D (L ++ R) (by rw [hb.split]; simp)
    have hend := hlead _ (finishes_behind rfl hbehind)
    rw [← List.append_assoc, List.takeWhile_append_dropWhile] at hend
    obtain ⟨p, ps, hcons⟩ := List.exists_cons_of_ne_nil hright.params
    have hfirst : firstChild o (L ++ R) = some (.parameter o (L ++ R) p ps) := by
      unfold firstChild
      rw [hcons]
    rw [hcons] at hlist
    rw [hfirst]
    refine finishes_parameters hlist ?_
    rw [instanceNames, slots_append, ← List.append_assoc]
    rw [← hcons]
    exact hend

include hdot hreg hs hb hp hasked hpath hthrough hopen htext hright in
/-- The round at a table finds no number, and leaves `{i}` in the buffer. -/
theorem table_matched : ∃ status, matching o.base frame.paramName = some (status, 0) ∧
    appendNextObject (if status && !frame.isRecursiveCall then frame.paramName else w.currentParam) o.base =
      .ok (s'.shown ++ indicator) := by
  have hmem : o ∈ dm := by
    rw [hb.split]
    simp
  have hin := hb.inside o List.mem_cons_self hasked
  have hreached : Reached env request o := by
    refine reached_of_place (place_in_front hs hthrough) ?_ ?_
    · rw [hpath]
      exact List.prefix_append _ _
    · rw [hpath, List.length_append, List.length_singleton]
  obtain ⟨⟨status, inst⟩, hm⟩ := hs.exists_matching hreg hmem hasked hin
  obtain rfl : inst = 0 := hs.inst_eq_zero hdot hreg hmem hasked hin hpath hthrough.mem_places hopen hm
  refine ⟨status, hm, ?_⟩
  rw [htext]
  exact hp.append hasked hreached hm (by rw [← htext]; exact hright.fits)

include hasked in
theorem table_asked : ∀ c ∈ o :: L.takeWhile (below o), isAsked env request c = true ∧ o.path <+: c.path := by
  rw [List.forall_mem_cons]
  refine ⟨⟨hasked, List.prefix_refl _⟩, fun c hc => ?_⟩
  have hbelow := below_iff.mp (List.mem_takeWhile_imp hc)
  exact ⟨asked_of_below hasked hbelow, hbelow⟩

include hdot hdoc hreg hs hb hp hasked hpath hthrough hopen htext hright in
/-- A table without instances: the walk passes it and what is below it. -/
theorem walked_empty (hzero : ownCount env s'.key = 0)
    (hroom : w.listed.length + (namesBelow env h s (o :: L)).length ≤ maxNumParameters)
    (ihRest : ∀ zero' w', Prepared env request frame h s (L.dropWhile (below o)) zero' w' →
      w'.listed.length + (namesBelow env h s (L.dropWhile (below o))).length ≤ maxNumParameters →
        Walked env frame h s (L.dropWhile (below o)) R zero' w') :
    Walked env frame h s (o :: L) R zero w := by
  obtain ⟨status, hm, happ⟩ := table_matched hdot hreg hs hb hp hasked hpath hthrough hopen htext hright
  have hin := hb.inside o List.mem_cons_self hasked
  have hnames : namesBelow env h s (o :: L) = namesBelow env h s (L.dropWhile (below o)) := by
    rw [namesBelow_table hdoc hs hb hpath hthrough hopen, hzero]
    rfl
  have hclear : o.base = [] ∨ ∀ a ∈ ((L.dropWhile (below o)).filter (isAsked env request)).head?, ¬o.base <:+: a.base := by
    refine Or.inr fun a ha => hright.empty hzero D (L ++ R) (by rw [hb.split]; simp) a ?_
    rw [(hb.span hdoc hin.path).2.1, List.filter_append, List.head?_append, Option.mem_def.mp ha]
    rfl
  have hprep := prepared_next hdot hreg hs hin.path (hb.rest hdoc hin.path) (table_asked hasked) (List.cons_ne_nil _ _) hclear
    w.listed
  rw [hnames] at hroom
  obtain ⟨zero', current, hshown, hlead⟩ := ihRest _ _ hprep hroom
  rw [Walked, hnames]
  refine ⟨zero', current, hshown, fun r hr => ?_⟩
  have hcount := hright.count
  rw [hzero] at hcount
  refine finishes_empty hm (hp.clear hasked) happ hright.table hright.params hcount (Or.inl ⟨rfl, rfl⟩) ?_
  show Finishes env frame o.base _ (nodeOf (L ++ R)) r
  rw [htext, ← List.takeWhile_append_dropWhile (p := below o) (l := L), List.append_assoc]
  refine finishes_below (base_ne_nil o) (fun a ha => ?_) (fun a ha => ?_) (hlead r hr)
  · have haL : a ∈ o :: L := List.mem_cons_of_mem o (List.takeWhile_subset _ ha)
    have hask := (table_asked hasked a (List.mem_cons_of_mem o ha)).1
    have hadm : a ∈ dm := by
      rw [hb.split]
      exact List.mem_append_left R (List.mem_append_right D haL)
    exact hs.exists_matching hreg hadm hask (hb.inside a haL hask)
  · obtain ⟨x, hx⟩ := (table_asked hasked a (List.mem_cons_of_mem o ha)).2
    rw [XmlObject.base, XmlObject.base, ← hx, pathText_append]
    exact (List.prefix_append _ _).isInfix

include hopen hright in
/-- A table with names that fit into the lists has few instances. -/
theorem ownCount_le (hfit : ((List.range' 1 (ownCount env s'.key)).flatMap (instanceNames env o L s')).length ≤ maxNumParameters) :
    ownCount env s'.key ≤ maxNumParameters := by
  have hone : ∀ i, 1 ≤ (instanceNames env o L s' i).length := by
    intro i
    have hpos := List.length_pos_iff.mpr hright.params
    simp only [instanceNames, shownParams, hopen.instance_ahead i, if_true, List.length_append, List.length_map]
    omega
  have hcount := length_le_flatMap (List.range' 1 (ownCount env s'.key)) hone
  rw [List.length_range'] at hcount
  omega

include hdoc hreg hs hb hasked hpath hthrough hopen hright in
/-- The recursive calls for all instances. -/
theorem finishes_instances (hpos : ownCount env s'.key ≠ 0) (listed : List (Text × Text))
    (hroom : listed.length + ((List.range' 1 (ownCount env s'.key)).flatMap (instanceNames env o L s')).length ≤
      maxNumParameters)
    (ihBelow : ∀ i ∈ List.range' 1 (ownCount env s'.key), ∀ w',
      Prepared env request ⟨pathText o.path, true⟩ o.path (s'.instance i) (L.takeWhile (below o)) [] w' →
        w'.listed.length + (namesBelow env o.path (s'.instance i) (L.takeWhile (below o))).length ≤ maxNumParameters →
          Walked env ⟨pathText o.path, true⟩ o.path (s'.instance i) (L.takeWhile (below o)) (L.dropWhile (below o) ++ R) [] w') :
    ∃ k, ∀ fuel, k ≤ fuel →
      instanceLoop env (listAt env fuel) ((firstChild o (L ++ R)).or (nodeOf (L ++ R))) (List.range' 1 (ownCount env s'.key))
          ⟨s'.shown ++ indicator, listed⟩ ((firstChild o (L ++ R)).or (nodeOf (L ++ R))) =
        .ok (⟨s'.shown ++ indicator,
          listed ++ slots ((List.range' 1 (ownCount env s'.key)).flatMap (instanceNames env o L s'))⟩,
          nodeOf (L.dropWhile (below o) ++ R)) := by
  have hmem : o ∈ dm := by
    rw [hb.split]
    simp
  obtain ⟨p, ps, hcons⟩ := List.exists_cons_of_ne_nil hright.params
  have hfirst : firstChild o (L ++ R) = some (.parameter o (L ++ R) p ps) := by
    unfold firstChild
    rw [hcons]
  have hslots : (List.range' 1 (ownCount env s'.key)).flatMap (fun i => slots (instanceNames env o L s' i)) =
      slots ((List.range' 1 (ownCount env s'.key)).flatMap (instanceNames env o L s')) := by
    rw [slots, List.map_flatMap]
    rfl
  have hsmall : ∀ i ∈ List.range' 1 (ownCount env s'.key), i ≤ maxNumParameters := by
    have hcount := ownCount_le hopen hright (le_trans (Nat.le_add_left _ _) hroom)
    intro i hi
    rw [List.mem_range'_1] at hi
    omega
  have hbuf : ∀ i ∈ List.range' 1 (ownCount env s'.key), (s'.shown ++ printNat i ++ ['.']).length < maxParameterLength := by
    intro i hi
    obtain ⟨hplace, hahead⟩ := place_instance hs hpath hthrough hopen hi
    exact (hreg.objects o hmem _ hplace hahead).path
  have hname : strcpyS (Node.parentAttribute env (.parameter o (L ++ R) p ps)) = o.base := by
    have := o.fits p (by rw [hcons]; exact List.mem_cons_self)
    rw [List.length_append] at this
    exact if_pos (lt_of_le_of_lt (Nat.le_add_right _ _) this)
  have hfill : (listed ++ (List.range' 1 (ownCount env s'.key)).flatMap fun i =>
      slots (instanceNames env o L s' i)).length ≤ maxNumParameters := by
    rw [hslots, List.length_append, length_slots]
    exact hroom
  have hcall : ∀ i ∈ List.range' 1 (ownCount env s'.key), ∀ listed : List (Text × Text),
      (listed ++ slots (instanceNames env o L s' i)).length ≤ maxNumParameters → ∃ current,
        Finishes env ⟨strcpyS (Node.parentAttribute env (.parameter o (L ++ R) p ps)), true⟩ []
          ⟨s'.shown ++ printNat i ++ ['.'], listed⟩ (some (.parameter o (L ++ R) p ps))
          (⟨current, listed ++ slots (instanceNames env o L s' i)⟩, nodeOf (L.dropWhile (below o) ++ R)) ∧
        s'.shown <+: current := by
    intro i hi listed hfit
    rw [List.length_append, length_slots] at hfit
    obtain ⟨current, hshown, hfin⟩ :=
      finishes_instance hdoc hreg hs hb hasked hpath hthrough hopen hright hi (ihBelow i hi) listed hfit
    rw [hfirst] at hfin
    rw [hname]
    exact ⟨current, hfin, hshown⟩
  obtain ⟨k, hloop⟩ := instanceLoop_finishes env s'.shown (.parameter o (L ++ R) p ps)
    (nodeOf (L.dropWhile (below o) ++ R)) (fun i => slots (instanceNames env o L s' i)) hbuf hsmall listed hfill hcall
    (some (.parameter o (L ++ R) p ps))
  rw [if_neg (by simpa using hpos), hslots] at hloop
  refine ⟨k, ?_⟩
  rw [hfirst]
  exact hloop

include hdot hdoc hreg hs hb hp hasked hpath hthrough hopen htext hright in
/-- A table with instances: one recursive call for each. -/
theorem walked_table (hpos : ownCount env s'.key ≠ 0)
    (hroom : w.listed.length + (namesBelow env h s (o :: L)).length ≤ maxNumParameters)
    (ihBelow : ∀ i ∈ List.range' 1 (ownCount env s'.key), ∀ w',
      Prepared env request ⟨pathText o.path, true⟩ o.path (s'.instance i) (L.takeWhile (below o)) [] w' →
        w'.listed.length + (namesBelow env o.path (s'.instance i) (L.takeWhile (below o))).length ≤ maxNumParameters →
          Walked env ⟨pathText o.path, true⟩ o.path (s'.instance i) (L.takeWhile (below o)) (L.dropWhile (below o) ++ R) [] w')
    (ihRest : ∀ zero' w', Prepared env request frame h s (L.dropWhile (below o)) zero' w' →
      w'.listed.length + (namesBelow env h s (L.dropWhile (below o))).length ≤ maxNumParameters →
        Walked env frame h s (L.dropWhile (below o)) R zero' w') :
    Walked env frame h s (o :: L) R zero w := by
  obtain ⟨status, hm, happ⟩ := table_matched hdot hreg hs hb hp hasked hpath hthrough hopen htext hright
  have hin := hb.inside o List.mem_cons_self hasked
  have hnames := namesBelow_table hdoc hs hb hpath hthrough hopen
  rw [hnames, List.length_append] at hroom
  obtain ⟨k, hloop⟩ := finishes_instances hdoc hreg hs hb hasked hpath hthrough hopen hright hpos w.listed (by omega) ihBelow
  have hprep := prepared_next hdot hreg hs hin.path (hb.rest hdoc hin.path) (table_asked hasked) (List.cons_ne_nil _ _)
    (Or.inl rfl) (w.listed ++ slots ((List.range' 1 (ownCount env s'.key)).flatMap (instanceNames env o L s')))
  obtain ⟨zero', current, hshown, hlead⟩ := ihRest _ _ hprep (by rw [List.length_append, length_slots]; omega)
  rw [Walked, hnames]
  refine ⟨zero', current, hshown, fun r hr => ?_⟩
  rw [slots_append, ← List.append_assoc] at hr
  rw [← htext] at hlead
  exact finishes_table hm (hp.clear hasked) happ hright.table rfl hpos hright.count hloop (hlead r hr)

end

/-! ## Whole blocks -/

/-- **A call walks over its block and lists the names in it.** By induction on the block: what is below a table and
what is behind it are shorter blocks. -/
theorem walked_block (hdot : request.getLast? = some '.') (hdoc : DocumentOrder dm) (hreg : Regular env dm request)
    (hs : Stands env dm request frame h s) (hb : Block env dm request frame h s D L R)
    (hp : Prepared env request frame h s L zero w)
    (hroom : w.listed.length + (namesBelow env h s L).length ≤ maxNumParameters) : Walked env frame h s L R zero w := by
  induction hlen : L.length using Nat.strong_induction_on generalizing frame h s D L R zero w with
  | _ len ih =>
      cases L with
      | nil => exact walked_nil hp.shown
      | cons o L =>
          rw [List.length_cons] at hlen
          cases hasked : isAsked env request o with
          | false =>
              have hb' := hb.tail (hb.not_open_of_not_asked hs hasked)
              have hfilter : (o :: L).filter (isAsked env request) = L.filter (isAsked env request) :=
                List.filter_cons_of_neg (by simp [hasked])
              have hp' : Prepared env request frame h s L zero w :=
                ⟨by rw [← hfilter]; exact hp.zero, by rw [← hfilter]; exact hp.ready, hp.shown⟩
              rw [namesBelow_unasked hs hb hasked] at hroom
              exact walked_unasked hreg hs hb hasked (ih L.length (by omega) hs hb' hp' hroom rfl)
          | true =>
              have hin := hb.inside o List.mem_cons_self hasked
              have hfree : instanceText ∉ s.ahead.dropLast := by
                rcases hs.call with ⟨-, -, rfl⟩ | ⟨-, hnil, -⟩
                · exact hreg.openLast
                · simp [hnil]
              rcases asked_split hfree hin.asked with hopens | ⟨s', hends⟩
              · obtain ⟨z, s', hpath, hthrough, hopen, htext, hright⟩ := hb.head_open hdoc hreg hs hasked hopens
                have hrest : (L.dropWhile (below o)).length < len := by
                  have := (List.dropWhile_sublist (l := L) (below o)).length_le
                  omega
                have hbelow : (L.takeWhile (below o)).length < len := by
                  have := (List.takeWhile_sublist (l := L) (below o)).length_le
                  omega
                have ihRest : ∀ zero' w', Prepared env request frame h s (L.dropWhile (below o)) zero' w' →
                    w'.listed.length + (namesBelow env h s (L.dropWhile (below o))).length ≤ maxNumParameters →
                      Walked env frame h s (L.dropWhile (below o)) R zero' w' :=
                  fun zero' w' hp' hroom' => ih _ hrest hs (hb.rest hdoc hin.path) hp' hroom' rfl
                by_cases hzero : ownCount env s'.key = 0
                · exact walked_empty hdot hdoc hreg hs hb hp hasked hpath hthrough hopen htext hright hzero hroom ihRest
                · refine walked_table hdot hdoc hreg hs hb hp hasked hpath hthrough hopen htext hright hzero hroom ?_ ihRest
                  intro i hi w' hp' hroom'
                  obtain ⟨hplace, hahead⟩ := place_instance hs hpath hthrough hopen hi
                  exact ih _ hbelow (stands_instance hreg hs hpath hthrough hopen hi)
                    (hb.nested hdoc hin.path hreg hasked hplace hahead) hp' hroom' rfl
              · exact walked_certain hdot hreg hs hb hp hasked hends hroom fun w' hp' hroom' =>
                  ih _ (by omega) hs (hb.tail hends.not_open) hp' hroom' rfl

end

end Tr69HostIf.Waldb
