import Tr69HostIf.Transport.Set
import Tr69HostIf.Waldb.Listing

/-!
# Registration on the rbus

`init_rbus_dml_provider` of `hostIf_rbus_Dml_Provider.cpp`: one data element for each name of the complete parameter
list, without the names of `EXCLUDE_PARAMLIST`. The array has room for all names but as many as that list has.

* `registerLoop` : the loop over the names, with the faults that can stop it;
* `registerLoop_kept` : the excluded names change nothing; `registerLoop_iff` : when the others are all registered, and
  with what the lookups find (`Looked`);
* `Registers` : the claim of the function; `registers_iff` : it holds exactly when the array is long enough, the
  lookups stay in their buffers, and a name that is `readOnly` somewhere is so where it stands first.
-/

namespace Tr69HostIf.Transport
open Store Waldb

/-- `EXCLUDE_PARAMLIST`. -/
def excludeParamlist : List Text :=
  ["Device.X_RDKCENTRAL-COM_T2.ReportProfiles".toList, "Device.X_RDKCENTRAL-COM_T2.ReportProfilesMsgPack".toList]

/-- `isInExclusionList`: `strncmp` over `MAX_PARAMETER_LENGTH` characters. -/
def isInExclusionList (param : Text) : Bool :=
  excludeParamlist.any fun excluded => excluded.take maxParameterLength == param.take maxParameterLength

/-- `rbusElementType_t`. -/
inductive ElementType
  | table | property

/-- A `rbusDataElement_t`: its name and type, and which handlers its `cbTable` has. -/
structure DataElement where
  name : Text
  type : ElementType
  getHandler : Bool
  setHandler : Bool
  eventSubHandler : Bool

/-- What can stop the registration: a fault of the list or of a lookup, and a write behind `dataElements`. -/
inductive RegisterFault
  | listing (fault : WalkFault)
  | lookup (fault : Fault)
  | outsideArray

/-- `setAllowed`. -/
def setAllowed : Option DataModelParam → Bool
  | none => false
  | some dmParam => !readOnly dmParam

/-- The element of a name and of what the lookup found. -/
def dataElement (name : Text) (dmParam : Option DataModelParam) : DataElement :=
  if (strstr name ('.' :: indicator)).isSome then
    { name, type := .table, getHandler := true, setHandler := setAllowed dmParam, eventSubHandler := false }
  else { name, type := .property, getHandler := true, setHandler := setAllowed dmParam, eventSubHandler := true }

/-- The loop over `pParamNameList`; `rbus_param_counter` is the number of elements written so far. The bytes in front
of the strings may be others at each lookup. -/
def registerLoop (stray : Nat → Stray) (dm : DataModel) (allocated : Nat) :
    List DataElement → List Text → Except RegisterFault (List DataElement)
  | dataElements, [] => .ok dataElements
  | dataElements, name :: names =>
      if isInExclusionList name then registerLoop stray dm allocated dataElements names
      else if dataElements.length < allocated then
        match getParamInfoFromDataModel (stray dataElements.length) dm name with
        | .error fault => .error (.lookup fault)
        | .ok dmParam => registerLoop stray dm allocated (dataElements ++ [dataElement name dmParam]) names
      else .error .outsideArray

/-- `calloc(num_of_rbus_params, …)`: a negative `int` becomes a size that cannot be had. -/
def calloc (num : Int) : Option Nat := if num < 0 then none else some num.toNat

/-- `init_rbus_dml_provider`: the elements handed to `rbus_regDataElements`, none when there is no array. -/
def initRbusDmlProvider (stray : Nat → Stray) (dm : DataModel) : Except RegisterFault (List DataElement) :=
  match getCompleteParameterList (dm.map DmObject.toList) with
  | .error fault => .error (.listing fault)
  | .ok s =>
      match calloc ((s.count : Int) - excludeParamlist.length) with
      | none => .ok []
      | some allocated => registerLoop stray dm allocated [] (s.names.take s.count)

/-! ## The exclusion list -/

/-- The listed names that are to be registered. -/
def kept (names : List Text) : List Text := names.filter fun name => !excludeParamlist.contains name

/-- The listed names that are excluded. -/
def excluded (names : List Text) : List Text := names.filter fun name => excludeParamlist.contains name

theorem length_kept (names : List Text) : (kept names).length + (excluded names).length = names.length := by
  have h := List.length_eq_length_filter_add (l := names) fun name => excludeParamlist.contains name
  rw [kept, excluded]
  omega

theorem mem_kept {names : List Text} {name : Text} : name ∈ kept names ↔ name ∈ names ∧ name ∉ excludeParamlist := by
  rw [kept, List.mem_filter, Bool.not_eq_true', ← Bool.not_eq_true, List.contains_iff_mem]

theorem isInExclusionList_iff {param : Text} (h : param.length < maxParameterLength) :
    isInExclusionList param = true ↔ param ∈ excludeParamlist := by
  have htake : param.take maxParameterLength = param := List.take_of_length_le (le_of_lt h)
  have hlist : excludeParamlist.map (List.take maxParameterLength) = excludeParamlist := by decide +kernel
  rw [isInExclusionList, htake, List.any_eq_true]
  constructor
  · rintro ⟨e, he, heq⟩
    rw [← hlist, ← beq_iff_eq.mp heq]
    exact List.mem_map_of_mem he
  · intro hmem
    rw [← hlist] at hmem
    obtain ⟨e, he, heq⟩ := List.mem_map.mp hmem
    exact ⟨e, he, beq_iff_eq.mpr heq⟩

/-! ## The loop -/

/-- What the lookups of some names find, from the `k`-th lookup on. -/
inductive Looked (stray : Nat → Stray) (dm : DataModel) : Nat → List Text → List (Option DataModelParam) → Prop
  | nil {k : Nat} : Looked stray dm k [] []
  | cons {k : Nat} {name : Text} {dmParam : Option DataModelParam} {names : List Text} {found : List (Option DataModelParam)}
      (h : getParamInfoFromDataModel (stray k) dm name = .ok dmParam) (hs : Looked stray dm (k + 1) names found) :
      Looked stray dm k (name :: names) (dmParam :: found)

section
variable {stray : Nat → Stray} {dm : DataModel} {k allocated : Nat} {names : List Text} {acc elements : List DataElement}

theorem looked_of_all (h : ∀ i name, names[i]? = some name → ∃ dmParam, getParamInfoFromDataModel (stray (k + i)) dm name = .ok dmParam) :
    ∃ found, Looked stray dm k names found := by
  induction names generalizing k with
  | nil => exact ⟨[], .nil⟩
  | cons name names ih =>
      obtain ⟨dmParam, hone⟩ := h 0 name rfl
      have hrest : ∀ i name', names[i]? = some name' →
          ∃ dmParam, getParamInfoFromDataModel (stray (k + 1 + i)) dm name' = .ok dmParam := by
        intro i name' hi
        have := h (i + 1) name' hi
        rwa [show k + (i + 1) = k + 1 + i by omega] at this
      obtain ⟨found, hfound⟩ := ih hrest
      exact ⟨dmParam :: found, .cons hone hfound⟩

theorem looked_cons_iff {name : Text} {found : List (Option DataModelParam)} :
    Looked stray dm k (name :: names) found ↔ ∃ dmParam rest, found = dmParam :: rest ∧
      getParamInfoFromDataModel (stray k) dm name = .ok dmParam ∧ Looked stray dm (k + 1) names rest := by
  constructor
  · intro h
    cases h with
    | cons h hs => exact ⟨_, _, rfl, h, hs⟩
  · rintro ⟨dmParam, rest, rfl, h, hs⟩
    exact .cons h hs

/-- The element of a name has what its own lookup found. -/
theorem Looked.getElem? {found : List (Option DataModelParam)} (h : Looked stray dm k names found) {i : Nat} {name : Text}
    (hi : names[i]? = some name) :
    ∃ dmParam, getParamInfoFromDataModel (stray (k + i)) dm name = .ok dmParam ∧
      (List.zipWith dataElement names found)[i]? = some (dataElement name dmParam) := by
  induction h generalizing i with
  | nil => simp at hi
  | @cons k name' dmParam names found h hs ih =>
      cases i with
      | zero =>
          obtain rfl : name' = name := by simpa using hi
          exact ⟨dmParam, h, rfl⟩
      | succ i =>
          obtain ⟨dmParam', hone, helem⟩ := ih hi
          refine ⟨dmParam', ?_, helem⟩
          rwa [show k + (i + 1) = k + 1 + i by omega]

theorem name_dataElement (name : Text) (dmParam : Option DataModelParam) : (dataElement name dmParam).name = name := by
  unfold dataElement
  split <;> rfl

theorem setHandler_dataElement (name : Text) (dmParam : Option DataModelParam) :
    (dataElement name dmParam).setHandler = setAllowed dmParam := by
  unfold dataElement
  split <;> rfl

theorem Looked.names_eq {found : List (Option DataModelParam)} (h : Looked stray dm k names found) :
    (List.zipWith dataElement names found).map DataElement.name = names := by
  induction h with
  | nil => rfl
  | cons h hs ih => rw [List.zipWith_cons_cons, List.map_cons, name_dataElement, ih]

/-- The excluded names change nothing. -/
theorem registerLoop_kept (hshort : ∀ name ∈ names, name.length < maxParameterLength) :
    registerLoop stray dm allocated acc names = registerLoop stray dm allocated acc (kept names) := by
  induction names generalizing acc with
  | nil => rfl
  | cons name names ih =>
      rw [List.forall_mem_cons] at hshort
      rw [registerLoop]
      by_cases hex : name ∈ excludeParamlist
      · rw [if_pos ((isInExclusionList_iff hshort.1).mpr hex), ih hshort.2, kept, kept,
          List.filter_cons_of_neg (by simpa using hex)]
      · have hkept : kept (name :: names) = name :: kept names := List.filter_cons_of_pos (by simpa using hex)
        have hno : ¬isInExclusionList name = true := fun h => hex ((isInExclusionList_iff hshort.1).mp h)
        rw [hkept, registerLoop, if_neg hno, if_neg hno]
        simp only [ih hshort.2]

/-- **The loop registers its names exactly when the array has room for them and the lookups stay in their buffers.** -/
theorem registerLoop_iff (hkept : ∀ name ∈ names, isInExclusionList name = false) :
    registerLoop stray dm allocated acc names = .ok elements ↔
      (names = [] ∨ acc.length + names.length ≤ allocated) ∧
        ∃ found, Looked stray dm acc.length names found ∧ elements = acc ++ List.zipWith dataElement names found := by
  induction names generalizing acc with
  | nil =>
      rw [registerLoop, Except.ok.injEq]
      constructor
      · rintro rfl
        exact ⟨Or.inl rfl, [], .nil, (List.append_nil acc).symm⟩
      · rintro ⟨-, found, -, rfl⟩
        exact (List.append_nil acc).symm
  | cons name names ih =>
      rw [List.forall_mem_cons] at hkept
      rw [registerLoop, if_neg (by rw [hkept.1]; exact Bool.false_ne_true)]
      by_cases hroom : acc.length < allocated
      · rw [if_pos hroom]
        have hsplit : ∀ dmParam rest, acc ++ List.zipWith dataElement (name :: names) (dmParam :: rest) =
            acc ++ [dataElement name dmParam] ++ List.zipWith dataElement names rest := by
          intro dmParam rest
          rw [List.zipWith_cons_cons, List.append_assoc]
          rfl
        cases hlook : getParamInfoFromDataModel (stray acc.length) dm name with
        | error fault =>
            constructor
            · intro h
              cases h
            · rintro ⟨-, found, hfound, -⟩
              obtain ⟨dmParam, rest, -, h, -⟩ := looked_cons_iff.mp hfound
              rw [hlook] at h
              cases h
        | ok dmParam =>
            have hnext := @ih (acc ++ [dataElement name dmParam]) hkept.2
            rw [List.length_append, List.length_singleton] at hnext
            simp only [hnext]
            constructor
            · rintro ⟨hlen, found, hfound, rfl⟩
              refine ⟨Or.inr ?_, dmParam :: found, .cons hlook hfound, (hsplit dmParam found).symm⟩
              rw [List.length_cons]
              rcases hlen with rfl | hlen
              · rw [List.length_nil]
                omega
              · omega
            · rintro ⟨hlen, found, hfound, rfl⟩
              have hlen := hlen.resolve_left (List.cons_ne_nil name names)
              rw [List.length_cons] at hlen
              obtain ⟨dmParam', rest, rfl, h, hs⟩ := looked_cons_iff.mp hfound
              rw [hlook, Except.ok.injEq] at h
              subst h
              exact ⟨Or.inr (by omega), rest, hs, hsplit dmParam rest⟩
      · rw [if_neg hroom]
        constructor
        · intro h
          cases h
        · rintro ⟨hlen, -⟩
          have hlen := hlen.resolve_left (List.cons_ne_nil name names)
          rw [List.length_cons] at hlen
          omega

end

/-! ## Access -/

/-- The parameter's own `access` is `readOnly`. -/
def readOnlyParameter (p : DmParameter) : Bool :=
  match p.access with
  | none => false
  | some access => strcasecmp access "readOnly".toList

/-- Some parameter of the name is `readOnly`. -/
def ReadOnly (dm : DataModel) (name : Text) : Prop :=
  ∃ o ∈ dm, ∃ p ∈ o.params, pathText o.path ++ p.base.chars = name ∧ readOnlyParameter p = true

/-- The first parameter of the name is `readOnly`. -/
def FirstReadOnly (dm : DataModel) (name : Text) : Prop := ∃ p, firstNamed dm name = some p ∧ readOnlyParameter p = true

theorem access_paramInfo (name : Text) (p : DmParameter) : (paramInfo name p).access = p.access := by
  have hfold : ∀ (f : DataModelParam → SyntaxNode → DataModelParam), (∀ info node, (f info node).access = info.access) →
      ∀ (nodes : List SyntaxNode) (info : DataModelParam), (nodes.foldl f info).access = info.access := by
    intro f hf nodes
    induction nodes with
    | nil => intro info; rfl
    | cons node nodes ih => intro info; rw [List.foldl_cons, ih, hf]
  exact hfold _ (fun info node => by cases node <;> rfl) _ _

section
variable {stray : Stray} {dm : DataModel} {name : Text} {dmParam : Option DataModelParam}

/-- A name that is `readOnly` somewhere gets no set handler exactly when it is so where it stands first. -/
theorem setAllowed_of_readOnly (hshort : name.length < maxParameterLength) (h : ReadOnly dm name)
    (hlook : getParamInfoFromDataModel stray dm name = .ok dmParam) :
    setAllowed dmParam = false ↔ FirstReadOnly dm name := by
  obtain ⟨o, ho, p, hp, hname, -⟩ := h
  have hmem : name ∈ names dm := mem_names.mpr ⟨o, ho, p, hp, hname⟩
  obtain ⟨q, hq⟩ := Option.isSome_iff_exists.mp (firstNamed_isSome.mpr hmem)
  have hfirst := lookup_first stray hshort hmem
  rw [hlook, hq, Except.ok.injEq] at hfirst
  have hsame : readOnly (paramInfo name q) = readOnlyParameter q := by
    have haccess := access_paramInfo name q
    cases hacc : q.access with
    | none => simp only [readOnly, readOnlyParameter, haccess, hacc]
    | some access => simp only [readOnly, readOnlyParameter, haccess, hacc]
  have hiff : FirstReadOnly dm name ↔ readOnlyParameter q = true := by
    constructor
    · intro ⟨p, hp, hro⟩
      rw [hq, Option.some.injEq] at hp
      rwa [hp]
    · exact fun hro => ⟨q, hq, hro⟩
  rw [hfirst, hiff, Option.map_some, setAllowed, hsame, Bool.not_eq_false']

end

/-! ## The registration -/

/-- The listed names that are not excluded are registered, in order and inside the array, and what is `readOnly` in the
data model gets no set handler. -/
def Registers (stray : Nat → Stray) (dm : DataModel) (names : List Text) : Prop :=
  ∃ elements, initRbusDmlProvider stray dm = .ok elements ∧ elements.map DataElement.name = kept names ∧
    ∀ e ∈ elements, ReadOnly dm e.name → e.setHandler = false

/-- When the registration does as it should. -/
structure Registrable (stray : Nat → Stray) (dm : DataModel) (names : List Text) : Prop where
  room : kept names = [] ∨ excludeParamlist.length ≤ (excluded names).length
  lookups : ∀ i name, (kept names)[i]? = some name → ∃ dmParam, getParamInfoFromDataModel (stray i) dm name = .ok dmParam
  first : ∀ name ∈ kept names, ReadOnly dm name → FirstReadOnly dm name

section
variable {stray : Nat → Stray} {dm : DataModel} {s : Listing} {elements : List DataElement}

/-- The array that is asked for has room for the names that are registered exactly when enough names are excluded. -/
theorem init_iff (hlist : getCompleteParameterList (dm.map DmObject.toList) = .ok s) :
    initRbusDmlProvider stray dm = .ok elements ∧ elements.map DataElement.name = kept s.names ↔
      (kept s.names = [] ∨ excludeParamlist.length ≤ (excluded s.names).length) ∧
        ∃ found, Looked stray dm 0 (kept s.names) found ∧ elements = List.zipWith dataElement (kept s.names) found := by
  have hs := kept_of_list hlist
  have hlen := length_kept s.names
  have hinit : initRbusDmlProvider stray dm =
      match calloc ((s.names.length : Int) - excludeParamlist.length) with
      | none => .ok []
      | some allocated => registerLoop stray dm allocated [] (kept s.names) := by
    rw [initRbusDmlProvider, hlist]
    simp only [hs.count, List.take_length, registerLoop_kept hs.short]
  have hkept : ∀ name ∈ kept s.names, isInExclusionList name = false := by
    intro name hname
    rw [mem_kept] at hname
    rw [← Bool.not_eq_true, isInExclusionList_iff (hs.short name hname.1)]
    exact hname.2
  rw [hinit, calloc]
  by_cases hneg : (s.names.length : Int) - excludeParamlist.length < 0
  · rw [if_pos hneg]
    constructor
    · rintro ⟨h, hnames⟩
      obtain rfl := Except.ok.inj h
      have hnil : kept s.names = [] := hnames.symm
      rw [hnil]
      exact ⟨Or.inl rfl, [], .nil, rfl⟩
    · rintro ⟨hroom, found, hfound, rfl⟩
      have hnil : kept s.names = [] := by
        rcases hroom with h | h
        · exact h
        · omega
      rw [hnil]
      exact ⟨rfl, rfl⟩
  · rw [if_neg hneg]
    show registerLoop stray dm _ [] (kept s.names) = _ ∧ _ ↔ _
    rw [registerLoop_iff hkept, List.length_nil, Nat.zero_add]
    have hroom : (kept s.names).length ≤ ((s.names.length : Int) - excludeParamlist.length).toNat ↔
        excludeParamlist.length ≤ (excluded s.names).length := by omega
    rw [hroom]
    constructor
    · rintro ⟨⟨h, found, hfound, rfl⟩, -⟩
      exact ⟨h, found, hfound, rfl⟩
    · rintro ⟨h, found, hfound, rfl⟩
      exact ⟨⟨h, found, hfound, rfl⟩, hfound.names_eq⟩

/-- **The parameters are registered as listed exactly when** as many of the listed names are excluded as the exclusion
list has, or all are; the lookups stay in their buffers; and names that are `readOnly` somewhere are so where they stand
first. -/
theorem registers_iff (stray : Nat → Stray) (dm : DataModel) {s : Listing}
    (hlist : getCompleteParameterList (dm.map DmObject.toList) = .ok s) :
    Registers stray dm s.names ↔ Registrable stray dm s.names := by
  have hshort : ∀ name ∈ kept s.names, name.length < maxParameterLength := fun name hname =>
    (kept_of_list hlist).short name (List.mem_of_mem_filter hname)
  constructor
  · rintro ⟨elements, hinit, hnames, hreadOnly⟩
    obtain ⟨hroom, found, hfound, rfl⟩ := (init_iff hlist).mp ⟨hinit, hnames⟩
    refine ⟨hroom, fun i name hi => ?_, fun name hname h => ?_⟩
    · obtain ⟨dmParam, hlook, -⟩ := hfound.getElem? hi
      rw [Nat.zero_add] at hlook
      exact ⟨dmParam, hlook⟩
    · obtain ⟨i, hi⟩ := List.mem_iff_getElem?.mp hname
      obtain ⟨dmParam, hlook, helem⟩ := hfound.getElem? hi
      have hset := hreadOnly _ (List.mem_of_getElem? helem) (by rw [name_dataElement]; exact h)
      rw [setHandler_dataElement] at hset
      exact (setAllowed_of_readOnly (hshort name hname) h hlook).mp hset
  · rintro ⟨hroom, hlookups, hfirst⟩
    obtain ⟨found, hfound⟩ := looked_of_all (k := 0) (fun i name hi => by
      rw [Nat.zero_add]
      exact hlookups i name hi)
    obtain ⟨hinit, hnames⟩ := (init_iff hlist).mpr ⟨hroom, found, hfound, rfl⟩
    refine ⟨_, hinit, hnames, fun e he h => ?_⟩
    obtain ⟨i, hi⟩ := List.mem_iff_getElem?.mp he
    have hname : (kept s.names)[i]? = some e.name := by
      rw [← hnames, List.getElem?_map, hi]
      rfl
    obtain ⟨dmParam, hlook, helem⟩ := hfound.getElem? hname
    rw [hi, Option.some.injEq] at helem
    have hmem := List.mem_of_getElem? hname
    have hset := (setAllowed_of_readOnly (hshort _ hmem) h hlook).mpr (hfirst _ hmem h)
    rw [helem, setHandler_dataElement]
    exact hset

end

/-! ## Examples -/

/-- An object of one path segment below `Device.` -/
def objectOf (name : Name) (params : List DmParameter) (distinct : (params.map fun p => p.base.chars).Nodup)
    (fits : ∀ p ∈ params, (pathText [device, .name name] ++ p.base.chars).length < maxParameterLength) : DmObject where
  path := [device, .name name]
  path_ne_nil := List.cons_ne_nil _ _
  params := params
  distinct := distinct
  fits := fits

/-- A parameter with an access. -/
def parameterOf (base : Name) (access : String) : DmParameter := ⟨base, some access.toList, none, []⟩

/-- `Device.X_RDKCENTRAL-COM_T2.` as it is delivered, with a version that is `readOnly`. -/
def telemetryModel : DataModel :=
  [objectOf (.ofLiteral "X_RDKCENTRAL-COM_T2" rfl)
    [parameterOf (.ofLiteral "Version" rfl) "readOnly", parameterOf (.ofLiteral "ReportProfiles" rfl) "readWrite",
      parameterOf (.ofLiteral "ReportProfilesMsgPack" rfl) "readWrite"] (by decide) (by decide)]

/-- The byte in front of the strings is no dot. -/
def plainStray : Nat → Stray := fun _ => ⟨'\x00', '\x00'⟩

theorem registers_telemetry : ∃ s, getCompleteParameterList (telemetryModel.map DmObject.toList) = .ok s ∧
    Registers plainStray telemetryModel s.names := by
  refine ⟨⟨"Device.X_RDKCENTRAL-COM_T2.".toList, "Device.X_RDKCENTRAL-COM_T2.Version".toList :: excludeParamlist, 3⟩,
    by rfl, (registers_iff plainStray telemetryModel (by rfl)).mpr ?_⟩
  have hkept : kept ("Device.X_RDKCENTRAL-COM_T2.Version".toList :: excludeParamlist) =
      ["Device.X_RDKCENTRAL-COM_T2.Version".toList] := by decide +kernel
  have hfirst : FirstReadOnly telemetryModel "Device.X_RDKCENTRAL-COM_T2.Version".toList := ⟨_, by rfl, by decide +kernel⟩
  refine ⟨Or.inr (by decide +kernel), ?_, ?_⟩
  · rw [hkept]
    intro i name hi
    obtain rfl : "Device.X_RDKCENTRAL-COM_T2.Version".toList = name := by
      cases i with
      | zero => simpa using hi
      | succ i => simp at hi
    exact ⟨_, lookup_first _ (by decide +kernel) (by decide +kernel)⟩
  · rw [hkept]
    intro name hname h
    rw [List.mem_singleton.mp hname]
    exact hfirst

/-- `Device.DeviceInfo.` alone. -/
def deviceInfoModel : DataModel :=
  [objectOf (.ofLiteral "DeviceInfo" rfl)
    [parameterOf (.ofLiteral "PartnerId" rfl) "readWrite", parameterOf (.ofLiteral "X_RDK_FirmwareName" rfl) "readOnly",
      parameterOf (.ofLiteral "DownloadStatus" rfl) "readWrite"] (by decide) (by decide)]

/-- Without the excluded names the second element is written behind the array. -/
theorem deviceInfo_outside_array : ∃ s, getCompleteParameterList (deviceInfoModel.map DmObject.toList) = .ok s ∧
    initRbusDmlProvider plainStray deviceInfoModel = .error .outsideArray ∧
      ¬Registers plainStray deviceInfoModel s.names := by
  have hout : initRbusDmlProvider plainStray deviceInfoModel = .error .outsideArray := by rfl
  refine ⟨⟨"Device.DeviceInfo.".toList, ["Device.DeviceInfo.PartnerId".toList,
    "Device.DeviceInfo.X_RDK_FirmwareName".toList, "Device.DeviceInfo.DownloadStatus".toList], 3⟩, by rfl, hout, ?_⟩
  rintro ⟨elements, h, -⟩
  rw [hout] at h
  cases h

end Tr69HostIf.Transport
