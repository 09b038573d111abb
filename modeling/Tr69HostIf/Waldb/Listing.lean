import Tr69HostIf.Waldb.Splice

/-!
# The complete parameter list

`get_complete_parameter_list_from_dml_xml` of `waldb.cpp`: every table and every parameter of the data model, in
document order. The text in front of a parameter's name is not the path of its object but the buffer `currentParam`,
which `appendNextObject` patches from one object to the next.

* `Listing.push`, `Listing.parameter`, `Listing.object` : the writes of one element;
* `listed` : the state behind a list of names, of which the first `MAX_NUM_PARAMETERS` are kept;
* `Spliceable` : in front of an object the buffer has no name where the object has `{i}`;
* `object_listed` : an object appends its own names;
* `complete_list` : the list of a whole data model.
-/

namespace Tr69HostIf.Waldb
open Store

/-- An `<object>` element as the list reads it: its path and the names of its parameters. -/
structure ListObject where
  path : List Segment
  names : List Text

/-- The attribute `base`. -/
def ListObject.base (o : ListObject) : Text := pathText o.path

/-- An object of a data model. -/
def DmObject.toList (o : DmObject) : ListObject := ⟨o.path, o.params.map fun p => p.base.chars⟩

/-- `currentParam`, the elements of `pOutParamNameList` and `params_count`. -/
structure Listing where
  currentParam : Text
  names : List Text
  count : Nat

/-- `snprintf` into an element of `MAX_PARAMETER_LENGTH` characters. -/
def element (name : Text) : Text := name.take (maxParameterLength - 1)

/-- The next element of the list, while there is one. -/
def Listing.push (s : Listing) (name : Text) : Listing :=
  if s.count < maxNumParameters then { s with names := s.names ++ [element name], count := s.count + 1 } else s

/-- A `<parameter>` element. -/
def Listing.parameter (s : Listing) (name : Text) : Listing :=
  if 0 < s.currentParam.length then s.push (s.currentParam ++ name) else s

/-- `top_node_name`. -/
def topNodeName : Text := ['D', 'e', 'v', 'i', 'c', 'e', '.']

/-- An `<object>` element with its parameters. -/
def Listing.object (s : Listing) (o : ListObject) : Except WalkFault Listing :=
  if (strstr o.base topNodeName).isSome then
    (appendNextObject s.currentParam o.base).map fun current =>
      let s : Listing := { s with currentParam := current }
      o.names.foldl Listing.parameter (if ('.' :: indicator).isSuffixOf o.base then s.push o.base else s)
  else .ok s

/-- `get_complete_parameter_list_from_dml_xml`. -/
def getCompleteParameterList (dm : List ListObject) : Except WalkFault Listing :=
  dm.foldlM Listing.object ⟨[], [], 0⟩

/-! ## The names of an object -/

/-- What the list is to have for an object. -/
def ListObject.entries (o : ListObject) : List Text :=
  (if ('.' :: indicator) <:+ o.base then [o.base] else []) ++ o.names.map (o.base ++ ·)

/-- The state behind a list of names. -/
def listed (current : Text) (l : List Text) : Listing :=
  ⟨current, (l.take maxNumParameters).map element, (l.take maxNumParameters).length⟩

section
variable {current : Text} {l : List Text}

theorem push_listed (name : Text) : (listed current l).push name = listed current (l ++ [name]) := by
  have hcount : (listed current l).count = min maxNumParameters l.length := List.length_take
  rw [Listing.push, hcount]
  by_cases h : l.length < maxNumParameters
  · have hlen : (l ++ [name]).length ≤ maxNumParameters := by
      rw [List.length_append, List.length_singleton]
      omega
    rw [if_pos (by omega), listed, listed, List.take_of_length_le (le_of_lt h), List.take_of_length_le hlen,
      List.map_append, List.length_append, Nat.min_eq_right (le_of_lt h)]
    rfl
  · have hzero : maxNumParameters - l.length = 0 := by omega
    rw [if_neg (by omega), listed, listed, List.take_append, hzero, List.take_zero, List.append_nil]

theorem parameters_listed (h : current ≠ []) (names : List Text) :
    names.foldl Listing.parameter (listed current l) = listed current (l ++ names.map (current ++ ·)) := by
  induction names generalizing l with
  | nil => rw [List.map_nil, List.append_nil]; rfl
  | cons name names ih =>
      have hone : (listed current l).parameter name = listed current (l ++ [current ++ name]) := by
        rw [← push_listed]
        exact if_pos (List.length_pos_of_ne_nil h)
      rw [List.foldl_cons, hone, ih, List.append_assoc]
      rfl

end

/-! ## The buffer between two objects -/

/-- Behind the path `c` the buffer has no name where the object has `{i}`. -/
def Spliceable (c : List Segment) (o : ListObject) : Prop := ∀ u, ¬Misspliced c o.path u

theorem spliceable_nil (o : ListObject) : Spliceable [] o := by
  rintro u ⟨n, c', a', h, -⟩
  simp at h

section
variable {c : List Segment} {o : ListObject} {l : List Text}

theorem base_of_device (h : o.path.head? = some device) : ∃ t, o.base = topNodeName ++ t := by
  obtain ⟨path, hpath⟩ := List.head?_eq_some_iff.mp h
  refine ⟨pathText path, ?_⟩
  rw [ListObject.base, hpath, pathText_cons]
  rfl

/-- The buffer is the path of the object, whichever object was in front. -/
theorem appendNextObject_spliceable (h : Spliceable c o) (hfits : o.base.length < maxParameterLength) :
    appendNextObject (pathText c) o.base = .ok o.base := by
  rw [appendNextObject, ListObject.base, appendLoop_pathText h]
  exact if_pos hfits

/-- **An object appends its own names.** -/
theorem object_listed (hdevice : o.path.head? = some device) (hfits : o.base.length < maxParameterLength)
    (h : Spliceable c o) : (listed (pathText c) l).object o = .ok (listed o.base (l ++ o.entries)) := by
  obtain ⟨t, ht⟩ := base_of_device hdevice
  have htop : (strstr o.base topNodeName).isSome = true := by
    rw [strstr_isSome, ht]
    exact (List.prefix_append _ _).isInfix
  have hne : o.base ≠ [] := by
    rw [ht]
    exact List.cons_ne_nil _ _
  have happ : appendNextObject (listed (pathText c) l).currentParam o.base = .ok o.base :=
    appendNextObject_spliceable h hfits
  have hrow : (if ('.' :: indicator).isSuffixOf o.base = true then (listed o.base l).push o.base else listed o.base l) =
      listed o.base (l ++ if ('.' :: indicator) <:+ o.base then [o.base] else []) := by
    by_cases hsuffix : ('.' :: indicator) <:+ o.base
    · rw [if_pos hsuffix, if_pos (List.isSuffixOf_iff_suffix.mpr hsuffix), push_listed]
    · rw [if_neg hsuffix, if_neg (fun h => hsuffix (List.isSuffixOf_iff_suffix.mp h)), List.append_nil]
  rw [Listing.object, if_pos htop, happ, ListObject.entries, ← List.append_assoc, ← parameters_listed hne, ← hrow]
  rfl

end

/-! ## The list of a data model -/

/-- No `{i}` of an object has a name beside it under the same parent. -/
def NoNamedSibling (dm : List ListObject) : Prop := ∀ o ∈ dm, ∀ o' ∈ dm, Spliceable o.path o'

/-- The objects behind a path append their names in document order. -/
theorem objects_listed {dm : List ListObject} (hdevice : ∀ o ∈ dm, o.path.head? = some device)
    (hfits : ∀ o ∈ dm, o.base.length < maxParameterLength) (hsibling : NoNamedSibling dm) {c : List Segment}
    (hc : ∀ o ∈ dm, Spliceable c o) (l : List Text) :
    ∃ current, dm.foldlM Listing.object (listed (pathText c) l) =
      .ok (listed current (l ++ dm.flatMap ListObject.entries)) := by
  induction dm generalizing c l with
  | nil => exact ⟨pathText c, by rw [List.flatMap_nil, List.append_nil]; rfl⟩
  | cons o dm ih =>
      rw [List.forall_mem_cons] at hdevice hfits hc
      have hrest : NoNamedSibling dm := fun o' ho' o'' ho'' =>
        hsibling o' (List.mem_cons_of_mem o ho') o'' (List.mem_cons_of_mem o ho'')
      have hnext : ∀ o' ∈ dm, Spliceable o.path o' := fun o' ho' =>
        hsibling o List.mem_cons_self o' (List.mem_cons_of_mem o ho')
      obtain ⟨current, hrun⟩ := ih hdevice.2 hfits.2 hrest hnext (l ++ o.entries)
      refine ⟨current, ?_⟩
      rw [List.foldlM_cons, object_listed hdevice.1 hfits.1 hc.1, List.flatMap_cons, ← List.append_assoc]
      exact hrun

theorem map_element {l : List Text} (h : ∀ t ∈ l, t.length < maxParameterLength) : l.map element = l := by
  have hid : ∀ t ∈ l, element t = t := fun t ht => List.take_of_length_le (by have := h t ht; omega)
  rw [List.map_congr_left hid, List.map_id']

/-- An entry fits when the paths of the object and of its parameters do. -/
theorem entries_fit {o : ListObject} (hfits : o.base.length < maxParameterLength)
    (hnames : ∀ name ∈ o.names, (o.base ++ name).length < maxParameterLength) :
    ∀ t ∈ o.entries, t.length < maxParameterLength := by
  intro t ht
  rw [ListObject.entries, List.mem_append] at ht
  rcases ht with ht | ht
  · split at ht
    · rw [List.mem_singleton.mp ht]
      exact hfits
    · cases ht
  · obtain ⟨name, hname, rfl⟩ := List.mem_map.mp ht
    exact hnames name hname

/-- **The complete parameter list is complete.** The list is made of the entries of the objects in document order, the
first `MAX_NUM_PARAMETERS` of them, each cut to its element; none is cut when the paths of the parameters fit too. -/
theorem complete_list (dm : List ListObject) (hdevice : ∀ o ∈ dm, o.path.head? = some device)
    (hfits : ∀ o ∈ dm, o.base.length < maxParameterLength) (hsibling : NoNamedSibling dm) :
    ∃ s, getCompleteParameterList dm = .ok s ∧ s.count = s.names.length ∧
      s.names = ((dm.flatMap ListObject.entries).take maxNumParameters).map element ∧
      ((∀ o ∈ dm, ∀ name ∈ o.names, (o.base ++ name).length < maxParameterLength) →
        s.names = (dm.flatMap ListObject.entries).take maxNumParameters) := by
  obtain ⟨current, hrun⟩ := objects_listed hdevice hfits hsibling (fun o _ => spliceable_nil o) []
  rw [List.nil_append] at hrun
  refine ⟨_, hrun, (List.length_map _).symm, rfl, fun hnames => ?_⟩
  have hall : ∀ t ∈ (dm.flatMap ListObject.entries).take maxNumParameters, t.length < maxParameterLength := by
    intro t ht
    obtain ⟨o, ho, ht⟩ := List.mem_flatMap.mp (List.mem_of_mem_take ht)
    exact entries_fit (hfits o ho) (hnames o ho) t ht
  exact map_element hall

/-! ## Any data model -/

/-- `params_count` counts the elements, and each name fits its element. -/
structure Listing.Kept (s : Listing) : Prop where
  count : s.count = s.names.length
  short : ∀ name ∈ s.names, name.length < maxParameterLength

theorem Listing.Kept.push {s : Listing} (h : s.Kept) (name : Text) : (s.push name).Kept := by
  rw [Listing.push]
  split
  · refine ⟨?_, fun t ht => ?_⟩
    · show s.count + 1 = (s.names ++ [element name]).length
      rw [List.length_append, List.length_singleton, h.count]
    · rcases List.mem_append.mp ht with ht | ht
      · exact h.short t ht
      · rw [List.mem_singleton.mp ht, element, List.length_take]
        exact Nat.lt_of_le_of_lt (Nat.min_le_left _ _) (by decide)
  · exact h

theorem Listing.Kept.parameters {s : Listing} (h : s.Kept) (names : List Text) : (names.foldl Listing.parameter s).Kept := by
  induction names generalizing s with
  | nil => exact h
  | cons name names ih =>
      apply ih
      rw [Listing.parameter]
      split
      · exact h.push _
      · exact h

theorem Listing.Kept.object {s s' : Listing} (h : s.Kept) {o : ListObject} (hs' : s.object o = .ok s') : s'.Kept := by
  rw [Listing.object] at hs'
  split at hs'
  · cases happ : appendNextObject s.currentParam o.base with
    | error e =>
        rw [happ] at hs'
        cases hs'
    | ok current =>
        rw [happ] at hs'
        obtain rfl := Except.ok.inj hs'
        have hcurrent : ({ s with currentParam := current } : Listing).Kept := ⟨h.count, h.short⟩
        apply Listing.Kept.parameters
        split
        · exact hcurrent.push _
        · exact hcurrent
  · obtain rfl := Except.ok.inj hs'
    exact h

/-- **Whatever the data model, the list is kept as a list of names that fit.** -/
theorem kept_of_list {dm : List ListObject} {s : Listing} (h : getCompleteParameterList dm = .ok s) : s.Kept := by
  have hrun : ∀ {s₀ : Listing}, s₀.Kept → dm.foldlM Listing.object s₀ = .ok s → s.Kept := by
    clear h
    intro s₀ h₀ h
    induction dm generalizing s₀ with
    | nil =>
        obtain rfl := Except.ok.inj h
        exact h₀
    | cons o dm ih =>
        rw [List.foldlM_cons] at h
        cases hone : s₀.object o with
        | error e =>
            rw [hone] at h
            cases h
        | ok s₁ =>
            rw [hone] at h
            exact ih (h₀.object hone) h
  exact hrun ⟨rfl, by simp⟩ h

/-! ## An example -/

/-- `Device.Services.STBService.{i}.` -/
def stbServicePath : List Segment := [device, .name (.ofLiteral "Services" rfl), .name (.ofLiteral "STBService" rfl), .inst]

/-- `Device.` without parameters, a table with `Enable`, and an object below it. -/
def stbServiceModel : List ListObject :=
  [⟨[device], []⟩, ⟨stbServicePath, ["Enable".toList]⟩,
    ⟨stbServicePath ++ [.name (.ofLiteral "Components" rfl)], ["VideoDecoderNumberOfEntries".toList]⟩]

theorem stbService_noNamedSibling : NoNamedSibling stbServiceModel := by
  rintro o ho o' ho' u ⟨n, c', a', hc, ha⟩
  have hname : o.path[u.length]? = some (.name n) := by rw [hc]; simp
  have hinst : o'.path[u.length]? = some .inst := by rw [ha]; simp
  have hlen : ∀ o ∈ stbServiceModel, o.path.length ≤ 5 := by decide
  have hlt : u.length < 5 := Nat.lt_of_lt_of_le (List.getElem?_eq_some_iff.mp hinst).1 (hlen o' ho')
  have hinsts : ∀ o ∈ stbServiceModel, ∀ o' ∈ stbServiceModel, ∀ i < 5, o'.path[i]? = some .inst →
      o.path[i]? = some .inst ∨ o.path[i]? = none := by decide
  rcases hinsts o ho o' ho' u.length hlt hinst with h | h
  · rw [h] at hname
    cases hname
  · rw [h] at hname
    cases hname

theorem complete_list_stbService : ∃ s, getCompleteParameterList stbServiceModel = .ok s ∧ s.count = 3 ∧
    s.names = ["Device.Services.STBService.{i}.".toList, "Device.Services.STBService.{i}.Enable".toList,
      "Device.Services.STBService.{i}.Components.VideoDecoderNumberOfEntries".toList] := by
  obtain ⟨s, hs, hcount, -, hnames⟩ := complete_list stbServiceModel (by decide) (by decide) stbService_noNamedSibling
  have heq := hnames (by decide)
  refine ⟨s, hs, ?_, ?_⟩
  · rw [hcount, heq]
    decide +kernel
  · rw [heq]
    decide +kernel

end Tr69HostIf.Waldb
