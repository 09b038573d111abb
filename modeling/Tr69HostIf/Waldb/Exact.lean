import Tr69HostIf.Waldb.Walked

/-!
# Wildcards are expanded exactly

`expansion_exact` : where the walk meets none of its slips, or lists nothing when nothing is asked for, the names
returned are those under the request. `expansion_inexact_addresses` : a nested table, which is counted as the table
around it is.
-/

namespace Tr69HostIf.Waldb
open Store Clib

section
variable {env : Env} {dm : List XmlObject} {request : Text} {L : List XmlObject} {zero : Text} {w : Walk}

/-! ## Requests -/

/-- The objects of the data model are the block of the first call. -/
theorem block_start (hreg : Regular env dm request) : Block env dm request ⟨request, false⟩ [] (start request) [] dm [] where
  split := by simp
  inside o _ hasked := ⟨List.nil_prefix, o.path_ne_nil, hasked⟩
  all h := by cases h
  closed o ho hasked z hz s' hs' hopen := by
    obtain ⟨T, hT, hpath, -⟩ := hreg.tables o ho hasked z hz s' hs' hopen
    exact ⟨T, hT, hpath⟩
  after a ha := by cases ha
  ends _ := rfl

theorem stands_start : Stands env dm request ⟨request, false⟩ [] (start request) :=
  ⟨List.mem_singleton.mpr rfl, Or.inl ⟨rfl, rfl, rfl⟩⟩

theorem namesBelow_start : namesBelow env [] (start request) dm = expansion env dm request := rfl

/-- A request is answered by what the first call lists. -/
theorem exact_of_finishes (hwild : isWildCardParam (request.take (maxParameterLength - 1)) = true) {current : Text}
    {listed : List (Text × Text)}
    (hfin : Finishes env ⟨request.take (maxParameterLength - 1), false⟩ [] ⟨[], []⟩ (nodeOf dm) (⟨current, listed⟩, none))
    (hlisted : listed.map (fun x => (x.1, some x.2)) = expansion env dm request) : Exact env dm request := by
  obtain ⟨bound, hbound⟩ := hfin
  refine ⟨bound, fun fuel hfuel => ?_⟩
  refine ⟨if listed = [] then .errInvalidParameter else .success, listed, ?_, hlisted⟩
  simp only [getChildParamNamesFromDataModel, hwild, if_true, getList, ne_eq, not_true_eq_false, decide_false]
  rw [listLoop_mono hfuel hbound]
  rfl

theorem map_slots {l : List (Text × Option Text)} (h : ∀ x ∈ l, x.2.isSome = true) :
    (slots l).map (fun x => (x.1, some x.2)) = l := by
  rw [slots, List.map_map]
  conv_rhs => rw [← List.map_id l]
  apply List.map_congr_left
  intro x hx
  obtain ⟨t, ht⟩ := Option.isSome_iff_exists.mp (h x hx)
  apply Prod.ext
  · rfl
  · simp [ht]

/-- Where the walk meets none of its slips it is exact. -/
theorem exact_of_regular (hdot : request.getLast? = some '.') (hdoc : DocumentOrder dm) (hreg : Regular env dm request)
    (hmax : (expansion env dm request).length ≤ maxNumParameters) : Exact env dm request := by
  have hp : Prepared env request ⟨request, false⟩ [] (start request) dm [] ⟨[], []⟩ := by
    refine ⟨Or.inl rfl, fun a ha => ?_, List.prefix_refl _⟩
    obtain ⟨haL, hask⟩ := List.mem_filter.mp (List.mem_of_head? ha)
    exact ready_start hdot hreg ((block_start hreg).inside a haL hask) ha
  have hroom : ([] : List (Text × Text)).length + (namesBelow env [] (start request) dm).length ≤ maxNumParameters := by
    rw [namesBelow_start, List.length_nil]
    omega
  have hsome : ∀ x ∈ expansion env dm request, x.2.isSome = true := by
    intro x hx
    obtain ⟨o, ho, s, hs, hahead, p, hp, rfl⟩ := mem_expansion.mp hx
    obtain ⟨node, nodes, -, htype, -⟩ := ((hreg.objects o ho s hs hahead).params p hp).type
    simp [htype]
  obtain ⟨zero', current, -, hlead⟩ := walked_block hdot hdoc hreg stands_start (block_start hreg) hp hroom
  have hfin := hlead _ finishes_none
  rw [List.append_nil] at hfin
  have htake : request.take (maxParameterLength - 1) = request := List.take_of_length_le (Nat.le_sub_one_of_lt hreg.short)
  have hwild : isWildCardParam request = true := by simp [isWildCardParam, hdot]
  exact exact_of_finishes (by rw [htake]; exact hwild) (by rw [htake]; exact hfin) (map_slots hsome)

/-- Nothing is asked for. -/
theorem expansion_nil (h : ∀ o ∈ dm, isAsked env request o = false) : expansion env dm request = [] := by
  induction dm with
  | nil => exact expand_nil
  | cons o dm ih =>
      rw [List.forall_mem_cons] at h
      rw [← ih h.2]
      exact expand_dead (dead_of_not_asked (s := start request) h.1) o.params _

/-- Objects that do not match, or that a table without instances makes the walk skip. -/
theorem finishes_nothing {name : Text} (h : ∀ a ∈ L, matching a.base name = none ∨ zero ≠ [] ∧ zero <:+: a.base) :
    Finishes env ⟨name, false⟩ zero w (nodeOf L) (w, none) := by
  induction L with
  | nil => exact finishes_none
  | cons a L ih =>
      rw [List.forall_mem_cons] at h
      rcases hm : matching a.base name with _ | m
      · exact finishes_unmatched rfl hm (ih h.2)
      · obtain ⟨hne, hskip⟩ := h.1.resolve_left (by rw [hm]; exact fun h => by cases h)
        exact finishes_skipped hm hne hskip (ih h.2)

theorem finishes_pass {name : Text} {r : Walk × Option Node} (h : ∀ a ∈ L, matching a.base name = none)
    (hr : Finishes env ⟨name, false⟩ zero w (nodeOf R) r) : Finishes env ⟨name, false⟩ zero w (nodeOf (L ++ R)) r := by
  induction L with
  | nil => exact hr
  | cons a L ih =>
      rw [List.forall_mem_cons] at h
      exact finishes_unmatched rfl h.1 (ih h.2)

/-- Where nothing is asked for and nothing listed the walk is exact. -/
theorem exact_of_refused (href : Refused env dm request) : Exact env dm request := by
  have hnil := expansion_nil href.nothing
  cases hwild : isWildCardParam (request.take (maxParameterLength - 1)) with
  | false =>
      refine ⟨0, fun fuel _ => ⟨.errWildcardNotSupported, [], ?_, hnil.symm⟩⟩
      simp [getChildParamNamesFromDataModel, hwild]
  | true =>
      obtain hnone | ⟨pre, o, post, inst, n, rfl, hpre, hm, htable, hparams, hn, hinst, hle, hpost⟩ :=
        href.stops.resolve_left (by rw [hwild]; decide)
      · exact exact_of_finishes hwild (finishes_nothing fun a ha => Or.inl (hnone a ha)) hnil.symm
      · have hlast : (request.take (maxParameterLength - 1)).getLast? = some '.' := by simpa [isWildCardParam] using hwild
        obtain ⟨r, hr, hrnil⟩ := appendLoop_of_match (Or.inr hlast) (matching_check hm)
        have happ : appendNextObject (request.take (maxParameterLength - 1)) o.base =
            .ok (request.take (maxParameterLength - 1)) := by
          have hlen : (request.take (maxParameterLength - 1)).length < maxParameterLength := by
            rw [List.length_take]
            exact lt_of_le_of_lt (Nat.min_le_left _ _) (by decide)
          rw [appendNextObject, hr, hrnil hinst, List.append_nil]
          simp only [Except.bind, buffer]
          rw [if_pos hlen]
        have hrest : ∀ a ∈ post, matching a.base (request.take (maxParameterLength - 1)) = none ∨
            o.base ≠ [] ∧ o.base <:+: a.base := by
          intro a ha
          by_cases ham : matching a.base (request.take (maxParameterLength - 1)) = none
          · exact Or.inl ham
          · exact Or.inr ⟨base_ne_nil o, hpost a ha ham⟩
        have hwalk : Finishes env ⟨request.take (maxParameterLength - 1), false⟩ [] ⟨[], []⟩ (nodeOf (o :: post))
            (⟨request.take (maxParameterLength - 1), []⟩, none) :=
          finishes_empty hm (Or.inl rfl) happ htable hparams hn (Or.inr ⟨hinst, hle⟩) (finishes_nothing hrest)
        exact exact_of_finishes hwild (finishes_pass hpre hwalk) hnil.symm

/-- **The wildcard expansion is exact** where the walk meets none of its slips, or lists nothing for a request that
asks for nothing. -/
theorem expansion_exact (hdot : request.getLast? = some '.') (hdoc : DocumentOrder dm)
    (hmax : (expansion env dm request).length ≤ maxNumParameters)
    (h : Regular env dm request ∨ Refused env dm request) : Exact env dm request :=
  h.elim (fun hreg => exact_of_regular hdot hdoc hreg hmax) exact_of_refused

end

/-! ## Two data models -/

/-- `Device.Ethernet.Interface.{i}.` -/
def ethernetInterface : XmlObject where
  path := ethernetPath
  path_ne_nil := ethernetPath_ne_nil
  params := [⟨enable, some "readWrite".toList, none, [.dataType "boolean".toList]⟩]
  distinct := by decide
  fits := by decide
  maxEntries := some "unbounded".toList

/-- `Device.Ethernet.Interface.{i}.Stats.` -/
def ethernetStats : XmlObject where
  path := ethernetPath ++ [.name (.ofLiteral "Stats" rfl)]
  path_ne_nil := by simp
  params := [⟨.ofLiteral "BytesSent" rfl, some "readOnly".toList, none, [.dataType "unsignedLong".toList]⟩]
  distinct := by decide
  fits := by decide
  maxEntries := some "1".toList

/-- Two Ethernet interfaces. -/
def twoInterfaces : Env where
  entries name := if name = "Device.Ethernet.InterfaceNumberOfEntries".toList then 2 else 0
  modelName := "data-model".toList

theorem documentOrder_pair {o a : XmlObject} (h : ¬a.path <+: o.path) (h' : o.path <+: a.path) : DocumentOrder [o, a] := by
  have hbelow : below o a = true := below_iff.mpr h'
  refine ⟨by simpa using h, ?_, by simp, by simp, trivial⟩
  simp [hbelow]

theorem not_misspliced_of_below {c a u : List Segment} (h : c <+: a ∨ a <+: c) : ¬Misspliced c a u := by
  rintro ⟨n, c', a', rfl, rfl⟩
  rcases h with h | h
  · have := (List.prefix_append_right_inj u).mp h
    simp at this
  · have := (List.prefix_append_right_inj u).mp h
    simp at this

/-- The walk for `Device.Ethernet.` meets no slip. -/
theorem regular_ethernet : Regular twoInterfaces [ethernetInterface, ethernetStats] "Device.Ethernet.".toList := by
  have hspelled : ∀ a ∈ [ethernetInterface, ethernetStats], "Device.Ethernet.".toList <+: a.base := by decide +kernel
  have hlength : ∀ a ∈ [ethernetInterface, ethernetStats], a.path.length ≠ (segments "Device.Ethernet.".toList).length := by
    decide +kernel
  have htable : ∀ a ∈ [ethernetInterface, ethernetStats], ∀ z ∈ a.path.inits, z ++ [.inst] <+: a.path →
      z = ethernetInterface.path.take 3 := by
    decide +kernel
  have hfits : ∀ a ∈ [ethernetInterface, ethernetStats],
      ∀ s ∈ places (follow twoInterfaces) (start "Device.Ethernet.".toList) a.path,
        s.shown.length < maxParameterLength ∧ ∀ p ∈ a.params, (s.shown ++ p.base.chars).length < maxParameterLength := by
    decide +kernel
  have htypes : ∀ a ∈ [ethernetInterface, ethernetStats], ∀ p ∈ a.params, ∃ node ∈ p.syntaxNodes.head?,
      p.type = some node.value ∧ node.value.length < maxDatatypeLength := by
    decide +kernel
  have hnested : ∀ c ∈ [ethernetInterface, ethernetStats], ∀ a ∈ [ethernetInterface, ethernetStats],
      c.path.drop 2 <+: a.path.drop 2 ∨ a.path.drop 2 <+: c.path.drop 2 := by
    decide +kernel
  have hdrop : ∀ pre post, [ethernetInterface, ethernetStats] = pre ++ ethernetInterface :: post →
      post.dropWhile (below ethernetInterface) = [] := by
    have hall : ∀ a ∈ [ethernetInterface, ethernetStats], below ethernetInterface a = true := by decide +kernel
    intro pre post hsplit
    rw [List.dropWhile_eq_nil_iff]
    intro a ha
    apply hall
    rw [hsplit]
    simp [ha]
  refine ⟨by decide, by decide +kernel, fun h => absurd h (by decide +kernel), by decide +kernel, ?_, ?_, ?_, ?_, ?_⟩
  · intro o ho _
    exact hspelled o (List.mem_filter.mp (List.mem_of_head? ho)).1
  · intro o ho _ _ hlen
    exact absurd hlen (hlength o ho)
  · intro o ho _ z hz s hs _
    have hinit : z ∈ o.path.inits := (List.mem_inits z o.path).mpr ((List.prefix_append z _).trans hz)
    have hz' := htable o ho z hinit hz
    subst hz'
    have hs' : s = ⟨[], "Device.Ethernet.Interface.".toList, "Device.Ethernet.Interface.".toList⟩ := List.mem_singleton.mp hs
    subst hs'
    refine ⟨ethernetInterface, List.mem_cons_self, rfl, by decide +kernel, by simp [ethernetInterface], rfl, by decide, ?_, ?_⟩
    · intro _ pre post hsplit a ha
      rw [hdrop pre post hsplit] at ha
      cases ha
    · intro _ pre post hsplit a ha
      rw [hdrop pre post hsplit] at ha
      cases ha
  · intro o ho s hs _
    obtain ⟨hpath, hnames⟩ := hfits o ho s hs
    refine ⟨hpath, fun p hp => ⟨hnames p hp, ?_⟩⟩
    obtain ⟨node, hnode, htype⟩ := htypes o ho p hp
    obtain ⟨nodes, hnodes⟩ := List.head?_eq_some_iff.mp hnode
    exact ⟨node, nodes, hnodes, htype⟩
  · intro pre c a post hsplit u hu
    have hmem : ∀ b ∈ pre ++ c :: a :: post, b ∈ [ethernetInterface, ethernetStats] := by
      intro b hb
      rw [← hsplit] at hb
      exact (List.mem_filter.mp hb).1
    exact absurd hu (not_misspliced_of_below (hnested c (hmem c (by simp)) a (hmem a (by simp))))

theorem expansion_exact_ethernet : Exact twoInterfaces [ethernetInterface, ethernetStats] "Device.Ethernet.".toList :=
  expansion_exact (by decide) (documentOrder_pair (by decide +kernel) (by decide +kernel)) (by decide +kernel)
    (Or.inl regular_ethernet)

/-- `Device.IP.Interface.{i}.` -/
def ipInterface : XmlObject where
  path := [device, .name (.ofLiteral "IP" rfl), interface, .inst]
  path_ne_nil := by simp
  params := [⟨enable, some "readWrite".toList, none, [.dataType "boolean".toList]⟩]
  distinct := by decide
  fits := by decide
  maxEntries := some "unbounded".toList

/-- `Device.IP.Interface.{i}.IPv4Address.{i}.` -/
def ipv4Address : XmlObject where
  path := [device, .name (.ofLiteral "IP" rfl), interface, .inst,
    .name (.ofLiteral "IPv4Address" rfl), .inst]
  path_ne_nil := by simp
  params := [⟨.ofLiteral "Status" rfl, some "readOnly".toList, none, [.dataType "string".toList]⟩]
  distinct := by decide
  fits := by decide
  maxEntries := some "unbounded".toList

/-- One IP interface with two addresses. -/
def twoAddresses : Env where
  entries name :=
    if name = "Device.IP.InterfaceNumberOfEntries".toList then 1
    else if name = "Device.IP.Interface.1.IPv4AddressNumberOfEntries".toList then 2
    else 0
  modelName := "data-model".toList

/-- What the walk lists, whatever its bound. -/
theorem Exact.listed {env : Env} {dm : List XmlObject} {request : Text} (h : Exact env dm request)
    (hwild : isWildCardParam (request.take (maxParameterLength - 1)) = true) {fuel : Nat} {r : Walk × Option Node}
    (hr : getList env fuel (request.take (maxParameterLength - 1)) ⟨[], []⟩ (nodeOf dm) = .ok r) :
    r.1.listed.map (fun x => (x.1, some x.2)) = expansion env dm request := by
  obtain ⟨bound, hbound⟩ := h
  obtain ⟨status, listed, hcode, hlisted⟩ := hbound (max bound fuel) (Nat.le_max_left bound fuel)
  have hlarge : getList env (max bound fuel) (request.take (maxParameterLength - 1)) ⟨[], []⟩ (nodeOf dm) = .ok r :=
    listLoop_mono (Nat.le_max_right bound fuel) hr
  simp only [getChildParamNamesFromDataModel, hwild, if_true, hlarge, Except.map, Except.ok.injEq, Prod.mk.injEq] at hcode
  rw [← hlisted, hcode.2]

/-- `getNumberofInstances` cuts the name at its first `{i}`: the addresses of an interface are counted as the
interfaces are, and the second one is not listed. -/
theorem expansion_inexact_addresses :
    "Device.IP.".toList.getLast? = some '.' ∧ DocumentOrder [ipInterface, ipv4Address] ∧
      (expansion twoAddresses [ipInterface, ipv4Address] "Device.IP.".toList).length ≤ maxNumParameters ∧
        ¬Exact twoAddresses [ipInterface, ipv4Address] "Device.IP.".toList := by
  refine ⟨by decide, documentOrder_pair (by decide +kernel) (by decide +kernel), by decide +kernel, fun h => ?_⟩
  have hcode : getList twoAddresses 20 "Device.IP.".toList ⟨[], []⟩ (nodeOf [ipInterface, ipv4Address]) =
      .ok (⟨"Device.IP.Interface.{i}.".toList,
        [("Device.IP.Interface.1.Enable".toList, "boolean".toList),
          ("Device.IP.Interface.1.IPv4Address.1.Status".toList, "string".toList)]⟩, none) := rfl
  have hspec : expansion twoAddresses [ipInterface, ipv4Address] "Device.IP.".toList =
      [("Device.IP.Interface.1.Enable".toList, some "boolean".toList),
        ("Device.IP.Interface.1.IPv4Address.1.Status".toList, some "string".toList),
        ("Device.IP.Interface.1.IPv4Address.2.Status".toList, some "string".toList)] := by
    decide +kernel
  have hlength := congrArg List.length (h.listed (by decide) hcode)
  rw [hspec] at hlength
  exact absurd hlength (by decide)

end Tr69HostIf.Waldb
