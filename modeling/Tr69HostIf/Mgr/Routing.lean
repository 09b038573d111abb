import Tr69HostIf.Mgr.Config
import Mathlib.Data.List.Perm.Basic

/-!
# Routing a request to its manager

`HostIf_GetMgr` of `hostIf_msgHandler.cpp`: the first key, in whatever order the table lists its keys, that
the requested name starts with.

* `getInstance` : the handler of a manager, none for a manager the build leaves out;
* `Longest` : an entry whose prefix is a longest one of the name;
* `Routed` : the handler is the same for every order, the longest prefix's, and none without a prefix;
* `routed_iff` : a name is routed so exactly when all registered prefixes of it have one handler.
-/

namespace Tr69HostIf.Mgr
open Store HashTable

/-- The classes of request handlers. -/
inductive Handler
  | dsClient | xreClient | deviceClient | mocaClient | ethernetClient | timeClient | ipClient | dhcpv4Client
  | interfaceStackClient | storageSrvc | xRdkCentralT2 | xRdk
  deriving DecidableEq

/-- The `switch` of `HostIf_GetMgr`; `none` is `NULL`. -/
def getInstance (b : Build) : ParamMgr → Option Handler
  | .dsMgr => some .dsClient
  | .xreMgr => some .xreClient
  | .deviceMgr => some .deviceClient
  | .mocaMgr => if b.moca then some .mocaClient else none
  | .ethernetMgr => some .ethernetClient
  | .timeMgr => some .timeClient
  | .ipMgr => some .ipClient
  | .dhcpv4 => if b.dhcpv4 then some .dhcpv4Client else none
  | .interfaceStack => if b.intfStack then some .interfaceStackClient else none
  | .storageSrvcMgr => if b.storageService then some .storageSrvc else none
  | .telemetryMgr => some .xRdkCentralT2
  | .rdkProfileMgr => some .xRdk

section
variable (b : Build) {stray : Text → Text} (t : ParamMgrHash stray)

/-- `HostIf_GetMgr` when `g_hash_table_get_keys` returns `keys`. -/
def hostIf_GetMgr (keys : List Text) (paramName : CString) : Option Handler :=
  match keys.find? fun data => data.isPrefixOf paramName.chars with
  | none => none
  | some data => (t.lookup data).bind (getInstance b)

/-- A registered prefix of the name that none of them is longer than. -/
def Longest (name : Text) (e : Text × ParamMgr) : Prop :=
  e ∈ t.entries ∧ e.1 <+: name ∧ ∀ f ∈ t.entries, f.1 <+: name → f.1.length ≤ e.1.length

/-- Routing by the longest prefix, whatever the order of the keys. -/
structure Routed (paramName : CString) : Prop where
  same : ∀ ks ks', ks.Perm t.keys → ks'.Perm t.keys →
    hostIf_GetMgr b t ks paramName = hostIf_GetMgr b t ks' paramName
  longest : ∀ ks, ks.Perm t.keys → ∀ e, Longest t paramName.chars e →
    hostIf_GetMgr b t ks paramName = getInstance b e.2
  none : ∀ ks, ks.Perm t.keys → (∀ e ∈ t.entries, ¬e.1 <+: paramName.chars) →
    hostIf_GetMgr b t ks paramName = Option.none

variable {b t} {paramName : CString} {ks : List Text}

/-- The handler is that of some registered prefix. -/
theorem getMgr_of_match (hks : ks.Perm t.keys) (h : ∃ e ∈ t.entries, e.1 <+: paramName.chars) :
    ∃ e ∈ t.entries, e.1 <+: paramName.chars ∧ hostIf_GetMgr b t ks paramName = getInstance b e.2 := by
  unfold hostIf_GetMgr
  cases hf : ks.find? fun data => data.isPrefixOf paramName.chars with
  | none =>
      obtain ⟨e, he, hp⟩ := h
      have hmem : e.1 ∈ ks := hks.mem_iff.mpr (List.mem_map_of_mem he)
      have := List.find?_eq_none.mp hf e.1 hmem
      exact absurd (List.isPrefixOf_iff_prefix.mpr hp) this
  | some data =>
      obtain ⟨e, he, rfl⟩ := List.mem_map.mp (hks.mem_iff.mp (List.mem_of_find?_eq_some hf))
      have hp := List.find?_some (p := fun data => List.isPrefixOf data paramName.chars) hf
      refine ⟨e, he, List.isPrefixOf_iff_prefix.mp hp, ?_⟩
      simp only [lookup_of_mem (confused_equivalence stray) he, Option.bind_some]

theorem getMgr_of_no_match (hks : ks.Perm t.keys) (h : ∀ e ∈ t.entries, ¬e.1 <+: paramName.chars) :
    hostIf_GetMgr b t ks paramName = none := by
  have hf : ks.find? (fun data => data.isPrefixOf paramName.chars) = none := by
    rw [List.find?_eq_none]
    intro data hd hp
    obtain ⟨e, he, rfl⟩ := List.mem_map.mp (hks.mem_iff.mp hd)
    exact h e he (List.isPrefixOf_iff_prefix.mp hp)
  rw [hostIf_GetMgr, hf]

/-- Every registered prefix of the name comes first in some order of the keys. -/
theorem exists_order {e : Text × ParamMgr} (he : e ∈ t.entries) (hp : e.1 <+: paramName.chars) :
    ∃ ks, ks.Perm t.keys ∧ hostIf_GetMgr b t ks paramName = getInstance b e.2 := by
  refine ⟨e.1 :: t.keys.erase e.1, (List.perm_cons_erase (List.mem_map_of_mem he)).symm, ?_⟩
  have hf := List.find?_cons_of_pos (p := fun data => List.isPrefixOf data paramName.chars) (l := t.keys.erase e.1)
    (List.isPrefixOf_iff_prefix.mpr hp)
  rw [hostIf_GetMgr, hf]
  simp only [lookup_of_mem (confused_equivalence stray) he, Option.bind_some]

/-- **A name is routed by its longest prefix exactly when all its prefixes have one handler.** -/
theorem routed_iff : Routed b t paramName ↔
    ∀ e ∈ t.entries, ∀ f ∈ t.entries, e.1 <+: paramName.chars → f.1 <+: paramName.chars →
      getInstance b e.2 = getInstance b f.2 := by
  constructor
  · intro h e he f hf hep hfp
    obtain ⟨ks, hks, hke⟩ := exists_order (b := b) he hep
    obtain ⟨ks', hks', hkf⟩ := exists_order (b := b) hf hfp
    rw [← hke, ← hkf, h.same ks ks' hks hks']
  · intro h
    have hall : ∀ ks, ks.Perm t.keys → ∀ e ∈ t.entries, e.1 <+: paramName.chars →
        hostIf_GetMgr b t ks paramName = getInstance b e.2 := by
      intro ks hks e he hp
      obtain ⟨f, hf, hfp, hkf⟩ := getMgr_of_match (b := b) hks ⟨e, he, hp⟩
      rw [hkf, h f hf e he hfp hp]
    refine ⟨?_, fun ks hks e he => hall ks hks e he.1 he.2.1, fun ks hks => getMgr_of_no_match hks⟩
    intro ks ks' hks hks'
    by_cases hm : ∃ e ∈ t.entries, e.1 <+: paramName.chars
    · obtain ⟨e, he, hp⟩ := hm
      rw [hall ks hks e he hp, hall ks' hks' e he hp]
    · push Not at hm
      rw [getMgr_of_no_match hks hm, getMgr_of_no_match hks' hm]

end

/-- Two prefixes of the shipped file, one a prefix of the other, and the managers a build without interface
stack gives them. -/
def webConfigTable : ParamMgrHash id :=
  ⟨[("Device.X_RDK_WebConfig".toList, .dhcpv4), ("Device.X_RDK_".toList, .rdkProfileMgr)], by decide +kernel⟩

theorem webConfigTable_not_routed :
    ¬Routed ⟨true, true, false, false⟩ webConfigTable (.ofLiteral "Device.X_RDK_WebConfig.URL") := by
  intro h
  have := h.same _ (webConfigTable.keys.reverse) (List.Perm.refl _) (List.reverse_perm _)
  revert this
  decide +kernel

end Tr69HostIf.Mgr
