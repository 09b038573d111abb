import Tr69HostIf.InterfaceStack.Links
import Tr69HostIf.InterfaceStack.OneBridge

/-!
# When the interface stack is faithful

The table is faithful exactly for networks with at most one bridge whose members do not get in each other's way and
whose IP interfaces happen to be listed at their own instance numbers: `faithful_iff`.

* `Grounded` : the interfaces before the members of the bridge are read, `grounded_ground`;
* `mem_layerInfo` : the entries of the map, an interface under `above` or a link of the bridge;
* `mem_rows`, `rows_nodup` : the rows, told apart by their lower layers;
* `Regular` : the networks the table is right for.
-/

namespace Tr69HostIf.InterfaceStack
open Store Clib

/-! ## Interfaces -/

/-- Interfaces, each with a lower layer of its own and no higher one, and none a member's port. -/
structure Grounded (base : InterfaceStackMap) : Prop where
  keys : (keys base).Nodup
  lowers : (base.map fun e => e.2.lowerLayer).Nodup
  higher : ∀ e ∈ base, e.2.higherLayer = .none
  lower : ∀ e ∈ base, ∀ q, 2 ≤ q → e.2.lowerLayer ≠ port q

section
variable {layer : Nat → Layer} {i : Nat} {names : List Text}

theorem keys_lowerEntries : keys (lowerEntries layer i names) = names.filter (fun n => n ≠ []) := by
  induction names generalizing i with
  | nil => rfl
  | cons n names ih =>
      rw [lowerEntries]
      split
      · next h => rw [ih, List.filter_cons_of_neg (by simpa using h)]
      · next h => rw [keys_cons, ih, List.filter_cons_of_pos (by simpa using h)]

theorem of_mem_lowerEntries {e : Text × LayerInfo} (h : e ∈ lowerEntries layer i names) :
    e.2.higherLayer = .none ∧ ∃ j, i ≤ j ∧ e.2.lowerLayer = layer j := by
  induction names generalizing i with
  | nil => cases h
  | cons n names ih =>
      have hrest : e ∈ lowerEntries layer (i + 1) names →
          e.2.higherLayer = .none ∧ ∃ j, i ≤ j ∧ e.2.lowerLayer = layer j := fun h => by
        obtain ⟨hh, j, hj, hl⟩ := ih h
        exact ⟨hh, j, by omega, hl⟩
      rw [lowerEntries] at h
      split at h
      · exact hrest h
      · rcases List.mem_cons.mp h with rfl | h
        · exact ⟨rfl, i, le_rfl, rfl⟩
        · exact hrest h

theorem lowers_lowerEntries (hlayer : ∀ a b, layer a = layer b → a = b) :
    ((lowerEntries layer i names).map fun e => e.2.lowerLayer).Nodup := by
  induction names generalizing i with
  | nil => exact List.nodup_nil
  | cons n names ih =>
      rw [lowerEntries]
      split
      · exact ih
      · rw [List.map_cons, List.nodup_cons]
        refine ⟨fun h => ?_, ih⟩
        obtain ⟨e, he, hl⟩ := List.mem_map.mp h
        obtain ⟨-, j, hj, hlj⟩ := of_mem_lowerEntries he
        have := hlayer _ _ (hlj.symm.trans hl)
        omega

end

namespace Network
variable (net : Network)

theorem physical_eq : net.physical = lowerEntries .ethernet 1 net.ethernet ++ lowerEntries .moca 1 net.moca := rfl

/-- No bridge is among the physical interfaces' layers. -/
theorem lower_physical {e : Text × LayerInfo} (h : e ∈ net.physical) (q : Nat) : e.2.lowerLayer ≠ port q := by
  rw [physical_eq] at h
  rcases List.mem_append.mp h with h | h
  · obtain ⟨-, j, -, hl⟩ := of_mem_lowerEntries h
    rw [hl]
    exact Layer.noConfusion
  · obtain ⟨-, j, -, hl⟩ := of_mem_lowerEntries h
    rw [hl]
    exact Layer.noConfusion

theorem grounded_physical : Grounded net.physical where
  keys := by
    rw [physical_eq, keys_append, keys_lowerEntries, keys_lowerEntries, ← List.filter_append]
    exact net.distinct.filter _
  lowers := by
    rw [physical_eq, List.map_append]
    refine List.nodup_append'.mpr ⟨lowers_lowerEntries fun a b h => Layer.ethernet.inj h,
      lowers_lowerEntries fun a b h => Layer.moca.inj h, fun l hl hl' => ?_⟩
    obtain ⟨e, he, rfl⟩ := List.mem_map.mp hl
    obtain ⟨e', he', hee⟩ := List.mem_map.mp hl'
    obtain ⟨-, j, -, hj⟩ := of_mem_lowerEntries he
    obtain ⟨-, j', -, hj'⟩ := of_mem_lowerEntries he'
    have hjj : Layer.moca j' = Layer.ethernet j := hj'.symm.trans (hee.trans hj)
    cases hjj
  higher e he := by
    rw [physical_eq] at he
    rcases List.mem_append.mp he with he | he
    · exact (of_mem_lowerEntries he).1
    · exact (of_mem_lowerEntries he).1
  lower e he q _ := net.lower_physical he q

end Network

/-- The bridge among the interfaces, in the place of one of its name. -/
theorem mem_addBridgeName {base : InterfaceStackMap} (h : Grounded base) {bridge m : Text} {lower : Layer} {i : LayerInfo} :
    (m, i) ∈ addBridgeNameLayerInfo base bridge lower ↔
      (m = bridge ∧ i = ⟨.none, lower⟩) ∨ (m ≠ bridge ∧ (m, i) ∈ base) := by
  unfold addBridgeNameLayerInfo
  split
  · next hk =>
    rw [modifyAt_eq_map h.keys, List.mem_map]
    constructor
    · rintro ⟨e, he, hm⟩
      split at hm
      · next heq =>
        obtain ⟨rfl, rfl⟩ := Prod.mk.inj hm
        refine Or.inl ⟨heq, ?_⟩
        rw [h.higher e he]
      · next heq =>
        rw [hm] at he heq
        exact Or.inr ⟨heq, he⟩
    · rintro (⟨rfl, rfl⟩ | ⟨hm, hi⟩)
      · obtain ⟨i, hi⟩ := exists_of_mem_keys hk
        have hh : i.higherLayer = .none := h.higher _ hi
        exact ⟨(m, i), hi, by rw [if_pos rfl, hh]⟩
      · exact ⟨(m, i), hi, if_neg hm⟩
  · next hk =>
    rw [List.mem_append, List.mem_singleton, Prod.mk.injEq, or_comm]
    refine or_congr Iff.rfl ⟨fun hi => ⟨?_, hi⟩, fun hi => hi.2⟩
    rintro rfl
    exact hk (mem_keys_of_mem hi)

theorem keys_addBridgeName {base : InterfaceStackMap} (h : (keys base).Nodup) (bridge : Text) (lower : Layer) :
    (keys (addBridgeNameLayerInfo base bridge lower)).Nodup := by
  unfold addBridgeNameLayerInfo
  split
  · rw [keys_modifyAt]
    exact h
  · next hk =>
    rw [keys_append, keys_cons, keys_nil, ← List.concat_eq_append, List.nodup_concat]
    exact ⟨hk, h⟩

theorem grounded_addBridgeName {base : InterfaceStackMap} (h : Grounded base)
    (hport : ∀ e ∈ base, e.2.lowerLayer ≠ port 1) (bridge : Text) :
    Grounded (addBridgeNameLayerInfo base bridge (port 1)) where
  keys := keys_addBridgeName h.keys bridge _
  lowers := by
    refine List.Nodup.map_on ?_ (List.Nodup.of_map _ (keys_addBridgeName h.keys bridge (port 1)))
    rintro ⟨m, i⟩ hi ⟨m', i'⟩ hi' hl
    have hl' : i.lowerLayer = i'.lowerLayer := hl
    rcases (mem_addBridgeName h).mp hi with ⟨rfl, rfl⟩ | ⟨-, hb⟩
    · rcases (mem_addBridgeName h).mp hi' with ⟨rfl, rfl⟩ | ⟨-, hb'⟩
      · rfl
      · exact (hport _ hb' hl'.symm).elim
    · rcases (mem_addBridgeName h).mp hi' with ⟨rfl, rfl⟩ | ⟨-, hb'⟩
      · exact (hport _ hb hl').elim
      · exact List.inj_on_of_nodup_map h.lowers hb hb' hl
  higher := by
    rintro ⟨m, i⟩ hi
    rcases (mem_addBridgeName h).mp hi with ⟨-, rfl⟩ | ⟨-, hi⟩
    · rfl
    · exact h.higher _ hi
  lower := by
    rintro ⟨m, i⟩ hi q hq
    rcases (mem_addBridgeName h).mp hi with ⟨-, rfl⟩ | ⟨-, hi⟩
    · intro he
      have := port_injective he
      omega
    · exact h.lower _ hi q hq

/-! ## Entries -/

namespace Network
variable (net : Network)

/-- The interfaces and the first bridge. -/
def ground : InterfaceStackMap :=
  match net.bridges with
  | [] => net.physical
  | b :: _ => addBridgeNameLayerInfo net.physical b.name (port 1)

/-- The name of the first bridge's links. -/
def child : Text :=
  match net.bridges with
  | [] => []
  | b :: _ => childName b.name

/-- The members of the first bridge. -/
def members : List Text :=
  match net.bridges with
  | [] => []
  | b :: _ => b.members

/-- The links of the first bridge. -/
def links : List LayerInfo := kids (keys net.ground) net.child 2 net.members []

/-- The layer above the interface `x`. -/
def above (x : Text) : Layer :=
  match lastPort x 2 net.members .none with
  | .none => (ipIndex net.ips x).elim .none .ip
  | layer => layer

theorem above_of_mem {x : Text} (hx : x ∈ net.members) : net.above x = lastPort x 2 net.members .none := by
  obtain ⟨j, -, hj, -⟩ := lastPort_of_mem (p := 2) (h := .none) hx
  rw [above, hj]
  rfl

theorem above_of_notMem {x : Text} (hx : x ∉ net.members) : net.above x = (ipIndex net.ips x).elim .none .ip := by
  rw [above, lastPort_of_notMem hx]

theorem grounded_ground : Grounded net.ground := by
  unfold ground
  split
  · exact net.grounded_physical
  · exact grounded_addBridgeName net.grounded_physical (fun e he => net.lower_physical he 1) _

theorem ports_links : Ports (2 + net.members.length) net.links :=
  ports_kids ⟨List.nodup_nil, fun _ h => absurd h List.not_mem_nil, fun _ h => absurd h List.not_mem_nil⟩ le_rfl

/-- The map of at most one bridge. -/
theorem layerInfo_eq (h : net.bridges.length ≤ 1) :
    net.layerInfo = fillHigherLayersWithIP net.ips (settled 2 net.members net.ground ++ named net.child net.links) := by
  rw [layerInfo]
  congr 1
  have hkeys := net.grounded_ground.keys
  unfold links
  unfold ground members child at *
  match net.bridges, h, hkeys with
  | [], _, _ => simp [buildBridgeTableLayerInfo, settled, lastPort, kids, named]
  | [b], _, hkeys =>
      exact (congrArg (addMembers 1 b.name 2 b.members) (List.append_nil _).symm).trans
        (addMembers_eq b.name hkeys 2 b.members [])

theorem fillHigher_lower (ips : List (Text × Nat)) (e : Text × LayerInfo) :
    (fillHigher ips e).2.lowerLayer = e.2.lowerLayer := by
  unfold fillHigher
  repeat' split
  all_goals rfl

/-- The lower layer tells the entries apart. -/
theorem nodup_lower (h : net.bridges.length ≤ 1) : (net.layerInfo.map fun e => e.2.lowerLayer).Nodup := by
  rw [net.layerInfo_eq h, fillHigherLayersWithIP, List.map_map]
  have hfill : (fun e : Text × LayerInfo => e.2.lowerLayer) ∘ fillHigher net.ips = fun e => e.2.lowerLayer := by
    ext1 e
    exact fillHigher_lower net.ips e
  rw [hfill, List.map_append, settled, named, List.map_map, List.map_map]
  refine List.nodup_append'.mpr ⟨net.grounded_ground.lowers, net.ports_links.nodup, fun l hl hl' => ?_⟩
  obtain ⟨e, he, rfl⟩ := List.mem_map.mp hl
  obtain ⟨k, hk, hke⟩ := List.mem_map.mp hl'
  obtain ⟨q, hq, -, hkq⟩ := net.ports_links.lower k hk
  exact net.grounded_ground.lower e he q hq (hke.symm.trans hkq)

/-- An interface with a higher layer is left. -/
theorem fillHigher_port (ips : List (Text × Nat)) (x : Text) (q : Nat) (l : Layer) :
    fillHigher ips (x, ⟨port q, l⟩) = (x, ⟨port q, l⟩) :=
  if_neg Layer.noConfusion

theorem fillHigher_above (x : Text) (l : Layer) :
    fillHigher net.ips (x, ⟨lastPort x 2 net.members .none, l⟩) = (x, ⟨net.above x, l⟩) := by
  by_cases hx : x ∈ net.members
  · obtain ⟨j, -, hj, -⟩ := lastPort_of_mem (p := 2) (h := .none) hx
    rw [net.above_of_mem hx, hj, fillHigher_port]
  · rw [net.above_of_notMem hx, lastPort_of_notMem hx, fillHigher, if_pos rfl]
    cases ipIndex net.ips x with
    | none => rfl
    | some k => rfl

/-- **The entries of the map**: an interface under its higher layer, or a link of the bridge. -/
theorem mem_layerInfo (h : net.bridges.length ≤ 1) {e : Text × LayerInfo} :
    e ∈ net.layerInfo ↔
      (∃ l, (e.1, ⟨.none, l⟩) ∈ net.ground ∧ e.2 = ⟨net.above e.1, l⟩) ∨ (e.1 = net.child ∧ e.2 ∈ net.links) := by
  rw [net.layerInfo_eq h, fillHigherLayersWithIP, List.map_append, List.mem_append, settled, named, List.map_map,
    List.map_map, List.mem_map, List.mem_map]
  refine or_congr ⟨?_, ?_⟩ ⟨?_, ?_⟩
  · rintro ⟨⟨x, i⟩, hi, rfl⟩
    have hnone : i.higherLayer = .none := net.grounded_ground.higher _ hi
    obtain ⟨hi', l⟩ := i
    obtain rfl : hi' = .none := hnone
    rw [Function.comp_apply, net.fillHigher_above]
    exact ⟨l, hi, rfl⟩
  · rintro ⟨l, hl, he⟩
    refine ⟨_, hl, ?_⟩
    rw [Function.comp_apply, net.fillHigher_above, ← he]
  · rintro ⟨⟨hi, l⟩, hk, rfl⟩
    obtain ⟨r, hr⟩ := net.ports_links.higher _ hk
    obtain rfl : hi = port r := hr
    rw [Function.comp_apply, fillHigher_port]
    exact ⟨rfl, hk⟩
  · obtain ⟨x, hi, l⟩ := e
    rintro ⟨rfl, hk⟩
    obtain ⟨r, hr⟩ := net.ports_links.higher _ hk
    obtain rfl : hi = port r := hr
    exact ⟨_, hk, fillHigher_port _ _ _ _⟩

theorem eq_of_lower (h : net.bridges.length ≤ 1) {e e' : Text × LayerInfo} (he : e ∈ net.layerInfo)
    (he' : e' ∈ net.layerInfo) (hl : e.2.lowerLayer = e'.2.lowerLayer) : e = e' :=
  List.inj_on_of_nodup_map (net.nodup_lower h) he he' hl

/-! ## Rows -/

theorem mem_rows {hi lo : Layer} : (hi.text, lo.text) ∈ net.rows ↔ ∃ x, (x, ⟨hi, lo⟩) ∈ net.layerInfo := by
  have hperm := perm_inOrder (fun a b => decide (keyLE a b)) net.layerInfo
  rw [rows, List.mem_map]
  constructor
  · rintro ⟨⟨x, hi', lo'⟩, he, heq⟩
    obtain ⟨hhi, hlo⟩ := Prod.mk.inj heq
    obtain rfl : hi' = hi := text_injective hhi
    obtain rfl : lo' = lo := text_injective hlo
    exact ⟨x, hperm.mem_iff.mp he⟩
  · rintro ⟨x, hx⟩
    exact ⟨_, hperm.mem_iff.mpr hx, rfl⟩

theorem rows_nodup (h : net.bridges.length ≤ 1) : net.rows.Nodup := by
  have hlower : (net.rows.map Prod.snd).Perm ((net.layerInfo.map fun e => e.2.lowerLayer).map Layer.text) := by
    rw [rows, List.map_map, List.map_map]
    exact (perm_inOrder _ net.layerInfo).map _
  have htext : Function.Injective Layer.text := fun _ _ h => text_injective h
  exact List.Nodup.of_map Prod.snd (hlower.nodup_iff.mpr ((net.nodup_lower h).map htext))

/-! ## Bridges and known interfaces -/

/-- A physical interface or a bridge. -/
def Known (name : Text) : Prop := name ∈ keys net.physical ∨ net.IsBridge name

theorem mem_ground (h : net.bridges.length ≤ 1) {m : Text} {i : LayerInfo} :
    (m, i) ∈ net.ground ↔
      (net.IsBridge m ∧ i = ⟨.none, port 1⟩) ∨ (¬ net.IsBridge m ∧ (m, i) ∈ net.physical) := by
  unfold ground IsBridge
  match net.bridges, h with
  | [], _ => simp
  | [b], _ =>
      rw [List.map_singleton, List.mem_singleton]
      exact mem_addBridgeName net.grounded_physical

theorem known_iff (h : net.bridges.length ≤ 1) {x : Text} : net.Known x ↔ x ∈ keys net.ground := by
  constructor
  · intro hx
    by_cases hb : net.IsBridge x
    · exact mem_keys_of_mem ((net.mem_ground h).mpr (Or.inl ⟨hb, rfl⟩))
    · obtain ⟨i, hi⟩ := exists_of_mem_keys (hx.resolve_right hb)
      exact mem_keys_of_mem ((net.mem_ground h).mpr (Or.inr ⟨hb, hi⟩))
  · intro hx
    obtain ⟨i, hi⟩ := exists_of_mem_keys hx
    rcases (net.mem_ground h).mp hi with ⟨hb, -⟩ | ⟨-, hi⟩
    · exact Or.inr hb
    · exact Or.inl (mem_keys_of_mem hi)

theorem exists_mem_ground (h : net.bridges.length ≤ 1) {x : Text} (hx : net.Known x) :
    ∃ l, (x, ⟨.none, l⟩) ∈ net.ground := by
  obtain ⟨⟨hi, l⟩, hg⟩ := exists_of_mem_keys ((net.known_iff h).mp hx)
  obtain rfl : hi = .none := net.grounded_ground.higher _ hg
  exact ⟨l, hg⟩

theorem child_ne {name : Text} (h : net.bridges.length ≤ 1) (hb : net.IsBridge name) : name ≠ net.child := by
  unfold IsBridge at hb
  unfold child
  match net.bridges, h, hb with
  | [b], _, hb =>
      rw [List.map_singleton, List.mem_singleton] at hb
      intro he
      have hlen := congrArg List.length (hb.symm.trans he)
      simp [childName] at hlen

theorem hasPath_iff {name : Text} (h : net.bridges.length ≤ 1) (hb : net.IsBridge name) {n : Nat} :
    net.HasPath name n ↔ n = 1 := by
  refine ⟨?_, fun hn => hn ▸ hasPath_of_isBridge hb⟩
  rintro ⟨e, he, rfl, hl⟩
  rcases (net.mem_layerInfo h).mp he with ⟨l, hg, heq⟩ | ⟨hc, -⟩
  · rcases (net.mem_ground h).mp hg with ⟨-, hi⟩ | ⟨hnb, -⟩
    · rw [heq] at hl
      have hport : Layer.bridgePort n 1 = port 1 := hl.symm.trans (congrArg LayerInfo.lowerLayer hi)
      exact (Layer.bridgePort.inj hport).1
    · exact absurd hb hnb
  · exact absurd hc (net.child_ne h hb)

theorem own_iff (h : net.bridges.length ≤ 1) {m : Text} {l : Layer} : net.Own m l ↔ (m, ⟨.none, l⟩) ∈ net.ground := by
  rw [net.mem_ground h, Own]
  refine or_congr ?_ Iff.rfl
  refine and_congr_right fun hb => ?_
  constructor
  · rintro ⟨n, hn, rfl⟩
    rw [(net.hasPath_iff h hb).mp hn]
    rfl
  · intro hl
    exact ⟨1, hasPath_of_isBridge hb, congrArg LayerInfo.lowerLayer hl⟩

theorem members_of_mem (h : net.bridges.length ≤ 1) {b : Bridge} (hb : b ∈ net.bridges) :
    b.members = net.members ∧ childName b.name = net.child := by
  unfold members child
  match net.bridges, h, hb with
  | [b'], _, hb =>
      rw [List.mem_singleton] at hb
      rw [hb]
      exact ⟨rfl, rfl⟩

theorem notMem_members_iff (h : net.bridges.length ≤ 1) {x : Text} :
    (∀ b ∈ net.bridges, x ∉ b.members) ↔ x ∉ net.members := by
  unfold members
  match net.bridges, h with
  | [], _ => simp
  | [b], _ => simp

/-- The row of an interface's own path. -/
theorem above_row (h : net.bridges.length ≤ 1) {m : Text} {hi l : Layer} (hm : (m, ⟨.none, l⟩) ∈ net.ground) :
    (hi.text, l.text) ∈ net.rows ↔ net.above m = hi := by
  have hmem : (m, ⟨net.above m, l⟩) ∈ net.layerInfo := (net.mem_layerInfo h).mpr (Or.inl ⟨l, hm, rfl⟩)
  rw [net.mem_rows]
  constructor
  · rintro ⟨x, hx⟩
    have he := net.eq_of_lower h hmem hx rfl
    exact congrArg (fun e => e.2.higherLayer) he
  · intro ha
    rw [ha] at hmem
    exact ⟨m, hmem⟩

/-- The row of a link. -/
theorem link_row (h : net.bridges.length ≤ 1) {hi : Layer} {k : LayerInfo} (hk : k ∈ net.links) :
    (hi.text, k.lowerLayer.text) ∈ net.rows ↔ k.higherLayer = hi := by
  have hmem : (net.child, k) ∈ net.layerInfo := (net.mem_layerInfo h).mpr (Or.inr ⟨rfl, hk⟩)
  rw [net.mem_rows]
  constructor
  · rintro ⟨x, hx⟩
    have he := net.eq_of_lower h hmem hx rfl
    exact congrArg (fun e => e.2.higherLayer) he
  · rintro rfl
    exact ⟨_, hmem⟩

/-! ## Regular networks -/

/-- The networks the table is right for. -/
structure Regular : Prop where
  /-- there is at most one bridge -/
  bridges : net.bridges.length ≤ 1
  /-- which does not list a known interface twice -/
  once : ∀ b ∈ net.bridges, ∀ (i j : Nat) (m : Text), b.members[i]? = some m → b.members[j]? = some m → net.Known m → i = j
  /-- and has no unknown member of the links' name after a known one -/
  child : ∀ b ∈ net.bridges, ∀ (i j : Nat) (m : Text), b.members[i]? = some m → net.Known m →
    b.members[j]? = some (childName b.name) → i < j → net.Known (childName b.name)
  /-- an IP interface that is a known one, outside the bridge, is listed at its instance number, counted from 0 -/
  ip : ∀ x, net.Known x → (∀ b ∈ net.bridges, x ∉ b.members) → ∀ k n, k < maxIfcs → net.ips[k]? = some (x, n) →
    (∀ i < k, ∀ n', net.ips[i]? ≠ some (x, n')) → (x, k) ∈ net.ips

end Network

/-- The position of the first IP interface with the name. -/
theorem ipIndex_eq_some {ips : List (Text × Nat)} {x : Text} {k : Nat} :
    ipIndex ips x = some k ↔
      k < maxIfcs ∧ (∃ n, ips[k]? = some (x, n)) ∧ ∀ i < k, ∀ n, ips[i]? ≠ some (x, n) := by
  rw [ipIndex, List.findIdx?_eq_some_iff_getElem]
  constructor
  · rintro ⟨hk, hx, hfirst⟩
    rw [List.length_take] at hk
    have hlt : k < maxIfcs := by omega
    rw [List.getElem_take, decide_eq_true_eq] at hx
    refine ⟨hlt, ⟨ips[k].2, ?_⟩, fun i hi n hn => ?_⟩
    · rw [List.getElem?_eq_getElem (by omega), ← hx]
    · have := hfirst i hi
      rw [List.getElem_take, (List.getElem?_eq_some_iff.mp hn).2] at this
      simp at this
  · rintro ⟨hlt, ⟨n, hn⟩, hfirst⟩
    obtain ⟨hk, hx⟩ := List.getElem?_eq_some_iff.mp hn
    refine ⟨by rw [List.length_take]; omega, by rw [List.getElem_take, hx]; simp, fun i hi => ?_⟩
    rw [List.getElem_take]
    intro he
    refine hfirst i hi ips[i].2 ?_
    rw [List.getElem?_eq_getElem (by omega), ← of_decide_eq_true he]

namespace Network
variable {net : Network}

theorem above_eq_ip {x : Text} {k : Nat} : net.above x = .ip k ↔ x ∉ net.members ∧ ipIndex net.ips x = some k := by
  by_cases hx : x ∈ net.members
  · obtain ⟨j, -, hj, -⟩ := lastPort_of_mem (p := 2) (h := .none) hx
    rw [net.above_of_mem hx, hj]
    exact ⟨fun h => Layer.noConfusion h, fun h => absurd hx h.1⟩
  · rw [net.above_of_notMem hx]
    cases ipIndex net.ips x with
    | none => simp
    | some i => simp [hx]

theorem Faithful.regular (h : net.Faithful) : net.Regular where
  bridges := h.length_bridges
  once b hb i j m hi hj hm := by
    have hlen := h.length_bridges
    obtain ⟨l, hg⟩ := net.exists_mem_ground hlen hm
    have hpath := hasPath_of_isBridge (List.mem_map_of_mem hb)
    have hrow := fun j hj => (net.above_row hlen hg).mp (h.members b hb 1 hpath j m hj l ((net.own_iff hlen).mpr hg)).1
    have := port_injective ((hrow i hi).symm.trans (hrow j hj))
    omega
  child b hb i j m hi hm hj hij := by
    have hlen := h.length_bridges
    by_contra hchild
    rw [net.known_iff hlen] at hm hchild
    obtain ⟨i', m', r, hi', hm', hr, hk⟩ := kids_clobbered hchild (by omega) (p := 2) hi hm hj hij
    obtain ⟨l, hg⟩ := net.exists_mem_ground hlen ((net.known_iff hlen).mpr hm')
    have hpath := hasPath_of_isBridge (List.mem_map_of_mem hb)
    have hrow := (h.members b hb 1 hpath i' m' hi' l ((net.own_iff hlen).mpr hg)).2
    obtain ⟨hms, hc⟩ := net.members_of_mem hlen hb
    rw [hms, hc] at hk
    rw [Nat.add_comm i' 2] at hrow
    exact hr (port_injective ((net.link_row hlen hk).mp hrow))
  ip x hx hout k n hk hkn hfirst := by
    have hlen := h.length_bridges
    obtain ⟨l, hg⟩ := net.exists_mem_ground hlen hx
    have habove : net.above x = .ip k :=
      above_eq_ip.mpr ⟨(net.notMem_members_iff hlen).mp hout, ipIndex_eq_some.mpr ⟨hk, ⟨n, hkn⟩, hfirst⟩⟩
    exact h.ip (x, ⟨net.above x, l⟩) ((net.mem_layerInfo hlen).mpr (Or.inl ⟨l, hg, rfl⟩)) k habove

section
variable (h : net.Regular) {b : Bridge} (hb : b ∈ net.bridges)
include h hb

/-- A known member is under the port of its listing. -/
theorem Regular.above_member {j : Nat} {m : Text} (hj : net.members[j]? = some m) (hm : net.Known m) :
    net.above m = port (2 + j) := by
  obtain ⟨hms, -⟩ := net.members_of_mem h.bridges hb
  have hmem := List.mem_of_getElem? hj
  obtain ⟨j', hj', hlast, -⟩ := lastPort_of_mem (p := 2) (h := .none) hmem
  rw [net.above_of_mem hmem, hlast]
  rw [← hms] at hj hj'
  rw [h.once b hb j j' m hj hj' hm]

/-- Every link leads up to the bridge's own port. -/
theorem Regular.higher_links {k : LayerInfo} (hk : k ∈ net.links) : k.higherLayer = port 1 := by
  obtain ⟨hms, hc⟩ := net.members_of_mem h.bridges hb
  refine higher_kids (fun _ h => absurd h List.not_mem_nil) (fun j hj hchild => ⟨rfl, fun i x hi hx => ?_⟩) k hk
  by_contra hij
  rw [← net.known_iff h.bridges] at hx hchild
  rcases Nat.lt_or_eq_of_le (Nat.le_of_not_lt hij) with hij | rfl
  · rw [← hms] at hi hj
    rw [← hc] at hj hchild
    exact hchild (h.child b hb i j x hi hx hj hij)
  · rw [hi] at hj
    rw [← Option.some.inj hj] at hchild
    exact hchild hx

end

theorem Regular.faithful (h : net.Regular) : net.Faithful where
  rows := net.rows_nodup h.bridges
  bridges b hb b' hb' hne := by
    have hone : b.name = b'.name := by
      match hn : net.bridges, h.bridges with
      | [], _ => simp [hn] at hb
      | [c], _ =>
          rw [hn, List.mem_singleton] at hb hb'
          rw [hb, hb']
    exact absurd hone hne
  members b hb n hpath j m hj l hl := by
    have hlen := h.bridges
    obtain ⟨hms, -⟩ := net.members_of_mem hlen hb
    obtain rfl := (net.hasPath_iff hlen (List.mem_map_of_mem hb)).mp hpath
    rw [net.own_iff hlen] at hl
    rw [hms] at hj
    have hknown : net.Known m := (net.known_iff hlen).mpr (mem_keys_of_mem hl)
    rw [Nat.add_comm j 2]
    constructor
    · exact (net.above_row hlen hl).mpr (h.above_member hb hj hknown)
    · have hport : port (2 + j) ∈ net.links.map LayerInfo.lowerLayer :=
        port_mem_kids hj ((net.known_iff hlen).mp hknown)
      obtain ⟨k, hk, hkl⟩ := List.mem_map.mp hport
      have hrow := (net.link_row hlen hk).mpr (h.higher_links hb hk)
      rw [hkl] at hrow
      exact hrow
  ip e he k hk := by
    have hlen := h.bridges
    rcases (net.mem_layerInfo hlen).mp he with ⟨l, hg, heq⟩ | ⟨-, hlink⟩
    · rw [heq] at hk
      obtain ⟨hout, hk⟩ := above_eq_ip.mp hk
      obtain ⟨hlt, ⟨n, hn⟩, hfirst⟩ := ipIndex_eq_some.mp hk
      have hknown : net.Known e.1 := (net.known_iff hlen).mpr (mem_keys_of_mem (p := (e.1, ⟨.none, l⟩)) hg)
      exact h.ip e.1 hknown ((net.notMem_members_iff hlen).mpr hout) k n hlt hn hfirst
    · obtain ⟨r, hr⟩ := net.ports_links.higher _ hlink
      exact absurd (hk.symm.trans hr) Layer.noConfusion

/-- **The table is faithful exactly for regular networks.** -/
theorem faithful_iff : net.Faithful ↔ net.Regular := ⟨Faithful.regular, Regular.faithful⟩

/-- Two bridges with an interface each, the IP interfaces in the order of their names. -/
def twoBridges : Network where
  ethernet := ["eth0".toList, "eth1".toList]
  moca := []
  bridges := [⟨"br0".toList, "eth0".toList⟩, ⟨"br1".toList, "eth1".toList⟩]
  ips := [("br0".toList, 4), ("br1".toList, 5), ("eth0".toList, 2), ("eth1".toList, 3), ("lo".toList, 1)]
  distinct := by decide
  bridgesDistinct := by decide

/-- The bridge `br0` is linked under the number 0, which no interface has. -/
theorem twoBridges_not_faithful : ¬ twoBridges.Faithful := by
  intro h
  have hmem : ("br0".toList, ⟨.ip 0, .bridgePort 1 1⟩) ∈ twoBridges.layerInfo := by decide +kernel
  have hip := h.ip _ hmem 0 rfl
  revert hip
  decide +kernel

end Network

end Tr69HostIf.InterfaceStack
