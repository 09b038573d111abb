import Tr69HostIf.InterfaceStack.Table

/-!
# The map of one bridge

`addMembers_eq` : after the loop over the members `ms` the map is what it was before, `settled`, every interface with
the port of its last listing as its higher layer, followed by the links of the bridge's own ports, `kids`.

* `lastPort` : the port of an interface's last listing, `lastPort_of_mem`;
* `Ports`, `ports_kids`, `port_mem_kids` : which links there are;
* `higher_kids`, `kids_clobbered` : the first link leads up to the wrong port when an unknown interface of the links'
  name is listed after a known one.
-/

namespace Tr69HostIf.InterfaceStack
open Store

/-- A port of the bridge. -/
def port (p : Nat) : Layer := .bridgePort 1 p

theorem port_injective {p q : Nat} (h : port p = port q) : p = q := by
  injection h

/-! ## Interfaces -/

/-- The higher layer of `x` after the members `ms`, the first of them at the port `p`. -/
def lastPort (x : Text) : Nat → List Text → Layer → Layer
  | _, [], h => h
  | p, m :: ms, h => lastPort x (p + 1) ms (if m = x then port p else h)

theorem lastPort_of_notMem {x : Text} {p : Nat} {ms : List Text} {h : Layer} (hx : x ∉ ms) : lastPort x p ms h = h := by
  induction ms generalizing p h with
  | nil => rfl
  | cons m ms ih =>
      rw [List.mem_cons, not_or] at hx
      rw [lastPort, ih hx.2, if_neg fun he => hx.1 he.symm]

/-- The last listing counts. -/
theorem lastPort_of_mem {x : Text} {p : Nat} {ms : List Text} {h : Layer} (hx : x ∈ ms) :
    ∃ j, ms[j]? = some x ∧ lastPort x p ms h = port (p + j) ∧ ∀ i, ms[i]? = some x → i ≤ j := by
  induction ms generalizing p h with
  | nil => cases hx
  | cons m ms ih =>
      by_cases hms : x ∈ ms
      · obtain ⟨j, hj, hl, hlast⟩ := ih (p := p + 1) (h := if m = x then port p else h) hms
        refine ⟨j + 1, hj, ?_, fun i hi => ?_⟩
        · rw [lastPort, hl]
          congr 1
          omega
        · cases i with
          | zero => omega
          | succ i =>
              have := hlast i hi
              omega
      · have hm : x = m := (List.mem_cons.mp hx).resolve_right hms
        refine ⟨0, by rw [hm]; rfl, ?_, fun i hi => ?_⟩
        · rw [lastPort, lastPort_of_notMem hms, if_pos hm.symm]
          rfl
        · cases i with
          | zero => omega
          | succ i =>
              have hi' : ms[i]? = some x := hi
              exact absurd (List.mem_of_getElem? hi') hms

/-- The interfaces after the members. -/
def settled (p : Nat) (ms : List Text) (base : InterfaceStackMap) : InterfaceStackMap :=
  base.map fun e => (e.1, { e.2 with higherLayer := lastPort e.1 p ms e.2.higherLayer })

theorem settled_cons_of_mem {p : Nat} {m : Text} {ms : List Text} {base : InterfaceStackMap} (hb : (keys base).Nodup) :
    settled (p + 1) ms (modifyAt m (fun i => { i with higherLayer := port p }) base) = settled p (m :: ms) base := by
  rw [modifyAt_eq_map hb, settled, settled, List.map_map]
  refine List.map_congr_left fun e _ => ?_
  by_cases he : e.1 = m
  · simp [lastPort, he]
  · have he' : ¬ m = e.1 := fun h => he h.symm
    simp [lastPort, he, he']

theorem settled_cons_of_notMem {p : Nat} {m : Text} {ms : List Text} {base : InterfaceStackMap} (hm : m ∉ keys base) :
    settled p (m :: ms) base = settled (p + 1) ms base := by
  refine List.map_congr_left fun e he => ?_
  rw [lastPort, if_neg fun h : m = e.1 => hm (by rw [h]; exact mem_keys_of_mem he)]

/-! ## Links of the bridge's own ports -/

/-- The links after the members, from the links `ks` on. A member without an entry of its own is taken for the first
link when it has the name of the links. -/
def kids (known : List Text) (child : Text) : Nat → List Text → List LayerInfo → List LayerInfo
  | _, [], ks => ks
  | p, m :: ms, ks =>
      if known.contains m then kids known child (p + 1) ms (ks ++ [⟨port 1, port p⟩])
      else if m = child ∧ ks ≠ [] then
        kids known child (p + 1) ms (ks.modifyHead (fun k => { k with higherLayer := port p }) ++ [⟨port 1, port p⟩])
      else kids known child (p + 1) ms ks

/-- What the links are: each a port of its own before `p`, under a port. -/
structure Ports (p : Nat) (ks : List LayerInfo) : Prop where
  nodup : (ks.map LayerInfo.lowerLayer).Nodup
  lower : ∀ k ∈ ks, ∃ q, 2 ≤ q ∧ q < p ∧ k.lowerLayer = port q
  higher : ∀ k ∈ ks, ∃ r, k.higherLayer = port r

section
variable {known : List Text} {child : Text} {p : Nat} {ms : List Text} {ks : List LayerInfo}

theorem Ports.succ (h : Ports p ks) : Ports (p + 1) ks where
  nodup := h.nodup
  lower k hk := by
    obtain ⟨q, hq, hqp, hk⟩ := h.lower k hk
    exact ⟨q, hq, by omega, hk⟩
  higher := h.higher

theorem Ports.append (h : Ports p ks) (hp : 2 ≤ p) : Ports (p + 1) (ks ++ [⟨port 1, port p⟩]) where
  nodup := by
    rw [List.map_append, List.map_singleton, ← List.concat_eq_append, List.nodup_concat]
    refine ⟨fun hmem => ?_, h.nodup⟩
    obtain ⟨k, hk, he⟩ := List.mem_map.mp hmem
    obtain ⟨q, -, hq, hl⟩ := h.lower k hk
    have := port_injective (hl.symm.trans he)
    omega
  lower k hk := by
    rcases List.mem_append.mp hk with hk | hk
    · exact h.succ.lower k hk
    · rw [List.mem_singleton.mp hk]
      exact ⟨p, hp, by omega, rfl⟩
  higher k hk := by
    rcases List.mem_append.mp hk with hk | hk
    · exact h.higher k hk
    · rw [List.mem_singleton.mp hk]
      exact ⟨1, rfl⟩

theorem Ports.modifyHead (h : Ports p ks) (r : Nat) :
    Ports p (ks.modifyHead fun k => { k with higherLayer := port r }) := by
  match ks, h with
  | [], h => exact h
  | k :: ks, h =>
      refine ⟨h.nodup, fun k' hk' => ?_, fun k' hk' => ?_⟩
      · rcases List.mem_cons.mp hk' with rfl | hk'
        · exact h.lower k List.mem_cons_self
        · exact h.lower k' (List.mem_cons_of_mem _ hk')
      · rcases List.mem_cons.mp hk' with rfl | hk'
        · exact ⟨r, rfl⟩
        · exact h.higher k' (List.mem_cons_of_mem _ hk')

theorem kids_cons (m : Text) :
    kids known child p (m :: ms) ks =
      if m ∈ known then kids known child (p + 1) ms (ks ++ [⟨port 1, port p⟩])
      else if m = child ∧ ks ≠ [] then
        kids known child (p + 1) ms (ks.modifyHead (fun k => { k with higherLayer := port p }) ++ [⟨port 1, port p⟩])
      else kids known child (p + 1) ms ks := by
  rw [kids]
  simp only [List.contains_iff_mem]

theorem ports_kids (h : Ports p ks) (hp : 2 ≤ p) : Ports (p + ms.length) (kids known child p ms ks) := by
  induction ms generalizing p ks with
  | nil => exact h
  | cons m ms ih =>
      rw [kids_cons, List.length_cons, Nat.add_comm ms.length 1, ← Nat.add_assoc]
      split
      · exact ih (h.append hp) (by omega)
      · split
        · exact ih ((h.modifyHead p).append hp) (by omega)
        · exact ih h.succ (by omega)

/-- The lower layers stay. -/
theorem lower_mem_kids {l : Layer} (h : l ∈ ks.map LayerInfo.lowerLayer) :
    l ∈ (kids known child p ms ks).map LayerInfo.lowerLayer := by
  induction ms generalizing p ks with
  | nil => exact h
  | cons m ms ih =>
      rw [kids_cons]
      split
      · apply ih
        rw [List.map_append]
        exact List.mem_append_left _ h
      · split
        · apply ih
          rw [List.map_append]
          apply List.mem_append_left
          cases ks with
          | nil => exact h
          | cons k ks => exact h
        · exact ih h

/-- A known member has a link of its own port. -/
theorem port_mem_kids {j : Nat} {x : Text} (hj : ms[j]? = some x) (hx : x ∈ known) :
    port (p + j) ∈ (kids known child p ms ks).map LayerInfo.lowerLayer := by
  induction ms generalizing p ks j with
  | nil => simp at hj
  | cons m ms ih =>
      rw [kids_cons]
      cases j with
      | zero =>
          obtain rfl : m = x := by simpa using hj
          rw [if_pos hx]
          apply lower_mem_kids
          simp
      | succ j =>
          have hj' : ms[j]? = some x := hj
          rw [← Nat.add_assoc, Nat.add_right_comm]
          repeat' split
          all_goals exact ih hj'

/-- The links lead up to the bridge's own port, as long as an unknown member does not take their name. -/
theorem higher_kids (hks : ∀ k ∈ ks, k.higherLayer = port 1)
    (hc : ∀ j : Nat, ms[j]? = some child → child ∉ known → ks = [] ∧ ∀ (i : Nat) (x : Text), ms[i]? = some x → x ∈ known → j < i) :
    ∀ k ∈ kids known child p ms ks, k.higherLayer = port 1 := by
  induction ms generalizing p ks with
  | nil => exact hks
  | cons m ms ih =>
      rw [kids_cons]
      split
      · next hm =>
        apply ih
        · intro k hk
          rcases List.mem_append.mp hk with hk | hk
          · exact hks k hk
          · rw [List.mem_singleton.mp hk]
        · intro j hj hchild
          exact absurd ((hc (j + 1) hj hchild).2 0 m rfl hm) (by omega)
      · next hm =>
        split
        · next hmc =>
          obtain ⟨rfl, hne⟩ := hmc
          exact absurd (hc 0 rfl hm).1 hne
        · apply ih hks
          intro j hj hchild
          obtain ⟨hnil, hlater⟩ := hc (j + 1) hj hchild
          refine ⟨hnil, fun i x hi hx => ?_⟩
          have := hlater (i + 1) x hi hx
          omega

/-- The first link follows the members of its name. -/
theorem head?_kids (hchild : child ∉ known) (k : LayerInfo) :
    (kids known child p ms (k :: ks)).head? = some { k with higherLayer := lastPort child p ms k.higherLayer } := by
  induction ms generalizing p k ks with
  | nil => rfl
  | cons m ms ih =>
      rw [kids_cons, lastPort]
      by_cases hm : m = child
      · rw [hm, if_neg hchild, if_pos ⟨rfl, List.cons_ne_nil _ _⟩, if_pos rfl]
        exact ih _
      · have hout : ¬ (m = child ∧ k :: ks ≠ []) := fun h => hm h.1
        rw [if_neg hm, if_neg hout]
        split
        · exact ih _
        · exact ih _

/-- An unknown member of the links' name after a known one: the first link leads up to the wrong port. -/
theorem kids_clobbered (hchild : child ∉ known) (hp : 1 ≤ p) {i j : Nat} {x : Text} (hi : ms[i]? = some x)
    (hx : x ∈ known) (hj : ms[j]? = some child) (hij : i < j) :
    ∃ i' x' r, ms[i']? = some x' ∧ x' ∈ known ∧ r ≠ 1 ∧ ⟨port r, port (p + i')⟩ ∈ kids known child p ms [] := by
  induction ms generalizing p i j with
  | nil => simp at hi
  | cons m ms ih =>
      obtain ⟨j, rfl⟩ : ∃ j', j = j' + 1 := ⟨j - 1, by omega⟩
      have hj' : ms[j]? = some child := hj
      rw [kids_cons]
      by_cases hm : m ∈ known
      · rw [if_pos hm]
        obtain ⟨r, -, hr, -⟩ := lastPort_of_mem (p := p + 1) (h := port 1) (List.mem_of_getElem? hj')
        refine ⟨0, m, p + 1 + r, rfl, hm, by omega, List.mem_of_mem_head? ?_⟩
        rw [List.nil_append, head?_kids hchild, hr]
        rfl
      · rw [if_neg hm, if_neg fun h => h.2 rfl]
        cases i with
        | zero =>
            obtain rfl : m = x := by simpa using hi
            exact absurd hx hm
        | succ i =>
            obtain ⟨i', x', r, hi', hx', hr, hmem⟩ := ih (p := p + 1) (by omega) hi hj' (by omega)
            refine ⟨i' + 1, x', r, hi', hx', hr, ?_⟩
            rwa [← Nat.add_assoc, Nat.add_right_comm]

end

/-- The entries of the links. -/
def named (child : Text) (ks : List LayerInfo) : InterfaceStackMap := ks.map fun k => (child, k)

theorem named_append (child : Text) (ks ks' : List LayerInfo) : named child (ks ++ ks') = named child ks ++ named child ks' :=
  List.map_append

theorem mem_keys_named {x child : Text} {ks : List LayerInfo} (h : x ∈ keys (named child ks)) : x = child ∧ ks ≠ [] := by
  obtain ⟨i, hi⟩ := exists_of_mem_keys h
  obtain ⟨k, hk, he⟩ := List.mem_map.mp hi
  exact ⟨(congrArg Prod.fst he).symm, List.ne_nil_of_mem hk⟩

/-- **The map after the members of a bridge.** -/
theorem addMembers_eq (bridge : Text) {base : InterfaceStackMap} (hb : (keys base).Nodup) (p : Nat) (ms : List Text)
    (ks : List LayerInfo) :
    addMembers 1 bridge p ms (base ++ named (childName bridge) ks) =
      settled p ms base ++ named (childName bridge) (kids (keys base) (childName bridge) p ms ks) := by
  induction ms generalizing p base ks with
  | nil =>
      rw [addMembers, settled, kids]
      simp [lastPort]
  | cons m ms ih =>
      rw [addMembers, addBridgeChildLayerInfo, keys_append, kids_cons]
      by_cases hm : m ∈ keys base
      · rw [if_pos (List.mem_append_left _ hm), if_pos hm, modifyAt_append_left hm]
        simp only [addBridgeUnmanagedLayerInfo]
        rw [List.append_assoc]
        have hkeys : keys (modifyAt m (fun i : LayerInfo => { i with higherLayer := port p }) base) = keys base :=
          keys_modifyAt
        have hstep := ih (hkeys ▸ hb) (p + 1) (ks ++ [⟨port 1, port p⟩])
        rw [hkeys, named_append, settled_cons_of_mem hb] at hstep
        exact hstep
      · rw [if_neg hm, settled_cons_of_notMem hm]
        by_cases hc : m = childName bridge ∧ ks ≠ []
        · rw [if_pos hc]
          obtain ⟨rfl, hks⟩ := hc
          obtain ⟨k, ks, rfl⟩ := List.exists_cons_of_ne_nil hks
          rw [if_pos (by simp [named]), modifyAt_append_right hm]
          simp only [addBridgeUnmanagedLayerInfo]
          rw [List.append_assoc]
          -- the first link is the first entry with the name
          have hhead : modifyAt (childName bridge) (fun i : LayerInfo => { i with higherLayer := .bridgePort 1 p })
              (named (childName bridge) (k :: ks)) = named (childName bridge) ({ k with higherLayer := port p } :: ks) := by
            rw [named, List.map_cons, modifyAt, if_pos rfl]
            rfl
          have hstep := ih hb (p + 1) ({ k with higherLayer := port p } :: ks ++ [⟨port 1, port p⟩])
          rw [named_append] at hstep
          rw [hhead]
          exact hstep
        · have hout : m ∉ keys base ++ keys (named (childName bridge) ks) := fun h =>
            (List.mem_append.mp h).elim hm fun h => hc (mem_keys_named h)
          rw [if_neg hout, if_neg hc]
          exact ih hb (p + 1) ks

end Tr69HostIf.InterfaceStack
