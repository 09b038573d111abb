import Tr69HostIf.InterfaceStack.Table
import Tr69HostIf.Store.Scan

/-!
# What the interface stack says

Two layers with the same path are the same: `text_injective`. Every bridge is at the number 1, whatever the order of the
bridges (`hasPath_of_isBridge`), so two of them share their paths: `Faithful.length_bridges`.
-/

namespace Tr69HostIf.InterfaceStack
open Store Clib

/-! ## Paths -/

theorem dot_not_mem_printNat (n : Nat) : '.' ∉ printNat n := (digits_printNat n).not_mem (by decide)

theorem portText_injective {m n p q : Nat}
    (h : printNat m ++ (".PORT.".toList ++ printNat p) = printNat n ++ (".PORT.".toList ++ printNat q)) :
    m = n ∧ p = q := by
  have hport : ".PORT.".toList = '.' :: "PORT.".toList := by decide
  rw [hport, List.cons_append, List.cons_append] at h
  obtain ⟨hm, hp⟩ := cut_unique (dot_not_mem_printNat m) (dot_not_mem_printNat n) h
  exact ⟨printNat_injective hm, printNat_injective (List.append_cancel_left hp)⟩

/-- The eighth character, which tells the kinds of path apart. -/
def Layer.initial : Layer → Option Char
  | .none => Option.none
  | .ethernet _ => 'E'
  | .moca _ => 'M'
  | .ip _ => 'I'
  | .bridgePort _ _ => 'B'

theorem getElem?_text (a : Layer) : a.text[7]? = a.initial := by
  have he : "Device.Ethernet.Interface.".toList[7]? = some 'E' := by decide
  have hm : "Device.MoCA.Interface.".toList[7]? = some 'M' := by decide
  have hi : "Device.IP.Interface.".toList[7]? = some 'I' := by decide
  have hb : "Device.Bridging.Bridge.".toList[7]? = some 'B' := by decide
  cases a with
  | none => rfl
  | ethernet n => exact (List.getElem?_append_left (by decide)).trans he
  | moca n => exact (List.getElem?_append_left (by decide)).trans hm
  | ip n => exact (List.getElem?_append_left (by decide)).trans hi
  | bridgePort m p => exact (List.getElem?_append_left (by decide)).trans hb

theorem text_injective {a b : Layer} (h : a.text = b.text) : a = b := by
  have hinit : a.initial = b.initial := by rw [← getElem?_text, ← getElem?_text, h]
  cases a <;> cases b <;> cases hinit
  case none.none => rfl
  case ethernet.ethernet m n => rw [printNat_injective (List.append_cancel_left h)]
  case moca.moca m n => rw [printNat_injective (List.append_cancel_left h)]
  case ip.ip m n => rw [printNat_injective (List.append_cancel_left h)]
  case bridgePort.bridgePort m p n q =>
    obtain ⟨hmn, hpq⟩ := portText_injective (List.append_cancel_left h)
    rw [hmn, hpq]

/-! ## Every bridge is at the number 1 -/

/-- The map has the bridge at the number 1. -/
def AtOne (info : InterfaceStackMap) (name : Text) : Prop :=
  ∃ e ∈ info, e.1 = name ∧ e.2.lowerLayer = .bridgePort 1 1

section
variable {info : InterfaceStackMap} {name : Text}

theorem AtOne.append (h : AtOne info name) (l : InterfaceStackMap) : AtOne (info ++ l) name := by
  obtain ⟨e, he, hn, hl⟩ := h
  exact ⟨e, List.mem_append_left _ he, hn, hl⟩

theorem AtOne.modifyAt (h : AtOne info name) {k : Text} {f : LayerInfo → LayerInfo}
    (hf : ∀ i, (f i).lowerLayer = i.lowerLayer ∨ (f i).lowerLayer = .bridgePort 1 1) :
    AtOne (modifyAt k f info) name := by
  obtain ⟨e, he, hn, hl⟩ := h
  obtain ⟨q, hq, hqn, hv⟩ := exists_mem_modifyAt (k := k) (f := f) he
  refine ⟨q, hq, hqn.trans hn, ?_⟩
  rcases hv with hv | hv
  · rw [hv, hl]
  · rw [hv]
    exact (hf e.2).elim (fun h => h.trans hl) id

theorem AtOne.addBridgeName (h : AtOne info name) (ifname : Text) :
    AtOne (addBridgeNameLayerInfo info ifname (.bridgePort 1 1)) name := by
  unfold addBridgeNameLayerInfo
  split
  · exact h.modifyAt fun i => Or.inr rfl
  · exact h.append _

theorem atOne_addBridgeName (info : InterfaceStackMap) (ifname : Text) :
    AtOne (addBridgeNameLayerInfo info ifname (.bridgePort 1 1)) ifname := by
  unfold addBridgeNameLayerInfo
  split
  · next h =>
    obtain ⟨i, hi⟩ := exists_modified (f := fun i : LayerInfo => { i with lowerLayer := .bridgePort 1 1 }) h
    exact ⟨_, hi, rfl, rfl⟩
  · exact ⟨_, List.mem_append_right _ List.mem_cons_self, rfl, rfl⟩

theorem AtOne.addMembers (bridge : Text) (ms : List Text) (portNum : Nat) (h : AtOne info name) :
    AtOne (addMembers 1 bridge portNum ms info) name := by
  induction ms generalizing portNum info with
  | nil => exact h
  | cons m ms ih =>
      rw [InterfaceStack.addMembers]
      apply ih
      unfold addBridgeChildLayerInfo
      by_cases hm : m ∈ keys info
      · have hmod : AtOne (Store.modifyAt m (fun i => { i with higherLayer := .bridgePort 1 portNum }) info) name :=
          h.modifyAt fun i => Or.inl rfl
        rw [if_pos hm]
        exact hmod.append _
      · rw [if_neg hm]
        exact h

theorem AtOne.fill (h : AtOne info name) (ips : List (Text × Nat)) :
    AtOne (fillHigherLayersWithIP ips info) name := by
  obtain ⟨e, he, hn, hl⟩ := h
  refine ⟨fillHigher ips e, List.mem_map_of_mem he, ?_, ?_⟩
  · rw [← hn]
    unfold fillHigher
    repeat' split
    all_goals rfl
  · rw [← hl]
    unfold fillHigher
    repeat' split
    all_goals rfl

/-- **Whatever the order, every bridge met is at the number 1.** -/
theorem atOne_bridges {bridges : List Bridge} (h : AtOne info name ∨ name ∈ bridges.map Bridge.name) :
    AtOne (buildBridgeTableLayerInfo bridges info) name := by
  induction bridges generalizing info with
  | nil => exact h.resolve_right List.not_mem_nil
  | cons b bridges ih =>
      apply ih
      rw [List.map_cons, List.mem_cons] at h
      rcases h with h | rfl | h
      · exact Or.inl ((h.addBridgeName b.name).addMembers b.name b.members 2)
      · exact Or.inl ((atOne_addBridgeName info b.name).addMembers b.name b.members 2)
      · exact Or.inr h

end

theorem hasPath_of_isBridge {net : Network} {name : Text} (h : net.IsBridge name) : net.HasPath name 1 :=
  (atOne_bridges (Or.inr h)).fill net.ips

/-- Two bridges share their path. -/
theorem Network.Faithful.length_bridges {net : Network} (h : net.Faithful) : net.bridges.length ≤ 1 := by
  match hb : net.bridges with
  | [] => simp
  | [_] => simp
  | b :: b' :: rest =>
      have hd := net.bridgesDistinct
      rw [hb, List.map_cons, List.map_cons] at hd
      have hne : b.name ≠ b'.name := fun he => (List.nodup_cons.mp hd).1 (by rw [he]; exact List.mem_cons_self)
      have hmem : ∀ c ∈ [b, b'], net.HasPath c.name 1 := fun c hc => hasPath_of_isBridge (List.mem_map_of_mem (by
        rw [hb]
        simp only [List.mem_cons, List.not_mem_nil, or_false] at hc ⊢
        tauto))
      exact absurd (hmem b' (by simp)) (h.bridges b (by simp [hb]) b' (by simp [hb]) hne 1 (hmem b (by simp)))

end Tr69HostIf.InterfaceStack
