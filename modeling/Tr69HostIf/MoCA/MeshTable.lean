import Mathlib.Algebra.Group.Nat.Defs
import Mathlib.Data.List.Nodup
import Mathlib.Data.List.ProdSigma
import Tr69HostIf.Store.Select

/-!
# The MoCA mesh table

`Device_MoCA_Interface_X_RDKCENTRAL_COM_MeshTable.cpp`: a row for every pair of different nodes of the network, with
the transmit rate from the one to the other. A row is found by counting pairs up to its instance number
(`InstanceToIndex`), in what the last query of the network gave; the number of rows is computed from the number of
nodes (`get_MoCA_Mesh_NumberOfEntries`). `maxNodes` is `RMH_MAX_MOCA_NODES` and the queries are those of the MoCA
library; one that fails leaves the earlier answer.

`meshTable_rows` : the rows are the ordered pairs of different nodes, each of them once.
-/

namespace Tr69HostIf.MoCA
open Store

/-- `RMH_NodeMesh_Uint32_t`. -/
structure NodeMesh where
  nodePresent : Nat → Bool
  nodeValue : Nat → Nat → UInt32

/-- The file's static variables. -/
structure MeshCache where
  gResponse : NodeMesh
  gResBondedConn : NodeMesh
  firstExTime : Int

/-- What the clock and the library answer to one call. -/
structure MeshQuery where
  currExTime : Int
  initialized : Bool
  rates : Option NodeMesh
  bonded : Option NodeMesh
  afterwards : Int

section
variable (maxNodes : Nat)

/-- The inner loop of `InstanceToIndex`: the pair with which the function returns, or `nodeInstance` behind it. -/
def rxLoop (response : NodeMesh) (instanceNumber i : Nat) : List Nat → Nat → Except (Nat × Nat) Nat
  | [], nodeInstance => .ok nodeInstance
  | j :: js, nodeInstance =>
      if i ≠ j ∧ response.nodePresent j = true then
        if instanceNumber = nodeInstance then .error (i, j)
        else rxLoop response instanceNumber i js (nodeInstance + 1)
      else rxLoop response instanceNumber i js nodeInstance

/-- The outer loop. -/
def txLoop (response : NodeMesh) (instanceNumber : Nat) : List Nat → Nat → Except (Nat × Nat) Nat
  | [], nodeInstance => .ok nodeInstance
  | i :: is, nodeInstance =>
      if response.nodePresent i then
        match rxLoop response instanceNumber i (List.range maxNodes) nodeInstance with
        | .ok n => txLoop response instanceNumber is n
        | .error p => .error p
      else txLoop response instanceNumber is nodeInstance

/-- The two loops. -/
def indexOf (response : NodeMesh) (instanceNumber : Nat) : Option (Nat × Nat) :=
  match txLoop maxNodes response instanceNumber (List.range maxNodes) 1 with
  | .error p => some p
  | .ok _ => none

/-- The query in front of the loops, made when the last one is more than `QUERY_INTERVAL` seconds ago. -/
def refresh (q : MeshQuery) (c : MeshCache) : MeshCache :=
  if 5 < q.currExTime - c.firstExTime ∧ q.initialized = true then
    { gResponse := q.rates.getD c.gResponse
      gResBondedConn := q.bonded.getD c.gResBondedConn
      firstExTime := if q.rates.isSome then q.afterwards else c.firstExTime }
  else c

/-- `InstanceToIndex`. -/
def instanceToIndex (q : MeshQuery) (instanceNumber : Nat) (c : MeshCache) : MeshCache × Option (Nat × Nat) :=
  (refresh q c, indexOf maxNodes (refresh q c).gResponse instanceNumber)

/-- The members of a row. -/
inductive MeshMember
  | meshTxNodeId | meshRxNodeId | meshPHYTxRate | bondedChannel
  deriving DecidableEq

/-- `get_MeshTxNodeId`, `get_MeshRxNodeId`, `get_MeshPHYTxRate` and `get_BondedChannel`, `none` for `NOK`. -/
def getMember (member : MeshMember) (q : MeshQuery) (instanceNumber : Nat) (c : MeshCache) : MeshCache × Option UInt32 :=
  let (c, index) := instanceToIndex maxNodes q instanceNumber c
  (c, index.map fun p =>
    match member with
    | .meshTxNodeId => UInt32.ofNat p.1
    | .meshRxNodeId => UInt32.ofNat p.2
    | .meshPHYTxRate => c.gResponse.nodeValue p.1 p.2
    | .bondedChannel => c.gResBondedConn.nodeValue p.1 p.2)

/-- The count of `get_MoCA_Mesh_NumberOfEntries`. -/
def nodeCount (nodePresent : Nat → Bool) : Nat :=
  (List.range maxNodes).foldl (fun n nodeId => if nodePresent nodeId then n + 1 else n) 0

/-- `get_MoCA_Mesh_NumberOfEntries`, `none` for `NOK`. -/
def getMoCAMeshNumberOfEntries (nodePresent : Nat → Bool) : Option Nat :=
  if nodeCount maxNodes nodePresent = 0 then none
  else some (nodeCount maxNodes nodePresent ^ 2 - nodeCount maxNodes nodePresent)

/-! ## The rows -/

/-- The nodes of the network. -/
def nodes (nodePresent : Nat → Bool) : List Nat := (List.range maxNodes).filter nodePresent

/-- The ordered pairs of different nodes. -/
def meshPairs (nodePresent : Nat → Bool) : List (Nat × Nat) :=
  (nodes maxNodes nodePresent ×ˢ nodes maxNodes nodePresent).filter fun p => p.1 ≠ p.2

variable {maxNodes}

theorem rxLoop_eq (response : NodeMesh) (instanceNumber i : Nat) (js : List Nat) (n : Nat) :
    rxLoop response instanceNumber i js n =
      countTo instanceNumber (((js.filter response.nodePresent).map (Prod.mk i)).filter fun p => p.1 ≠ p.2) n := by
  induction js generalizing n with
  | nil => rfl
  | cons j js ih =>
      rw [rxLoop, ih, ih, List.filter_cons]
      by_cases hj : response.nodePresent j = true
      · rw [if_pos hj, List.map_cons, List.filter_cons]
        by_cases hi : i = j
        · simp [hi]
        · simp [hi, hj, countTo]
      · simp [hj]

theorem txLoop_eq (response : NodeMesh) (instanceNumber : Nat) (is : List Nat) (n : Nat) :
    txLoop maxNodes response instanceNumber is n =
      countTo instanceNumber
        ((is.filter response.nodePresent ×ˢ nodes maxNodes response.nodePresent).filter fun p => p.1 ≠ p.2) n := by
  induction is generalizing n with
  | nil => rfl
  | cons i is ih =>
      rw [txLoop, List.filter_cons]
      by_cases hi : response.nodePresent i = true
      · have hrow : rxLoop response instanceNumber i (List.range maxNodes) n =
            countTo instanceNumber
              (((nodes maxNodes response.nodePresent).map fun j => (i, j)).filter fun p => p.1 ≠ p.2) n :=
          rxLoop_eq response instanceNumber i (List.range maxNodes) n
        rw [if_pos hi, if_pos hi, List.product_cons, List.filter_append, countTo_append, hrow]
        generalize countTo instanceNumber _ n = found
        cases found with
        | ok n => exact ih n
        | error p => rfl
      · rw [if_neg hi, if_neg hi, ih]

theorem nodeCount_eq (nodePresent : Nat → Bool) : nodeCount maxNodes nodePresent = (nodes maxNodes nodePresent).length := by
  have hfold : ∀ (l : List Nat) (n : Nat),
      l.foldl (fun n nodeId => if nodePresent nodeId then n + 1 else n) n = n + (l.filter nodePresent).length := by
    intro l
    induction l with
    | nil => exact fun n => rfl
    | cons x l ih =>
        intro n
        rw [List.foldl_cons, ih, List.filter_cons]
        by_cases hx : nodePresent x = true
        · rw [if_pos hx, if_pos hx, List.length_cons]
          omega
        · rw [if_neg hx, if_neg hx]
  exact (hfold _ 0).trans (Nat.zero_add _)

theorem nodes_nodup (nodePresent : Nat → Bool) : (nodes maxNodes nodePresent).Nodup := List.nodup_range.filter _

/-- There are `n ^ 2 - n` pairs. -/
theorem length_meshPairs (nodePresent : Nat → Bool) :
    (meshPairs maxNodes nodePresent).length =
      (nodes maxNodes nodePresent).length ^ 2 - (nodes maxNodes nodePresent).length := by
  have hnodup : (nodes maxNodes nodePresent).Nodup := nodes_nodup nodePresent
  have hrows : ∀ l : List Nat, (∀ i ∈ l, i ∈ nodes maxNodes nodePresent) →
      ((l ×ˢ nodes maxNodes nodePresent).filter fun p => p.1 ≠ p.2).length =
        l.length * ((nodes maxNodes nodePresent).length - 1) := by
    intro l
    induction l with
    | nil => intro _; simp
    | cons i l ih =>
        intro hl
        obtain ⟨hi, hl⟩ := List.forall_mem_cons.mp hl
        have hrow : (((nodes maxNodes nodePresent).map fun j => (i, j)).filter fun p => p.1 ≠ p.2).length =
            (nodes maxNodes nodePresent).length - 1 := by
          rw [List.filter_map, List.length_map, ← List.length_erase_of_mem hi, hnodup.erase_eq_filter]
          congr 1
          apply List.filter_congr
          intro j _
          by_cases hj : i = j
          · simp [hj]
          · simp [hj, Ne.symm hj]
        rw [List.product_cons, List.filter_append, List.length_append, hrow, ih hl, List.length_cons,
          Nat.add_mul, Nat.one_mul, Nat.add_comm]
  rw [meshPairs, hrows _ fun i hi => hi, Nat.pow_two, Nat.mul_sub, Nat.mul_one]

/-- **The rows up to the number of entries are the ordered pairs of different nodes**, each of them once, and there are
no others; where the network is not known to have a node there is no row. -/
theorem meshTable_rows (response : NodeMesh) :
    let n := (getMoCAMeshNumberOfEntries maxNodes response.nodePresent).getD 0
    (List.range' 1 n).map (indexOf maxNodes response) = (meshPairs maxNodes response.nodePresent).map some ∧
      (∀ k, k < 1 ∨ n < k → indexOf maxNodes response k = none) ∧
      (meshPairs maxNodes response.nodePresent).Nodup ∧
      ∀ i j, (i, j) ∈ meshPairs maxNodes response.nodePresent ↔
        i ≠ j ∧ (i < maxNodes ∧ response.nodePresent i = true) ∧ j < maxNodes ∧ response.nodePresent j = true := by
  have hindex : ∀ k, indexOf maxNodes response k =
      if 1 ≤ k then (meshPairs maxNodes response.nodePresent)[k - 1]? else none := by
    intro k
    have hloop : txLoop maxNodes response k (List.range maxNodes) 1 = countTo k (meshPairs maxNodes response.nodePresent) 1 :=
      txLoop_eq response k (List.range maxNodes) 1
    rw [indexOf, hloop, countTo_eq]
    generalize (if 1 ≤ k then (meshPairs maxNodes response.nodePresent)[k - 1]? else none) = found
    cases found <;> rfl
  have hcount : (getMoCAMeshNumberOfEntries maxNodes response.nodePresent).getD 0 =
      (meshPairs maxNodes response.nodePresent).length := by
    rw [length_meshPairs, getMoCAMeshNumberOfEntries, nodeCount_eq]
    split
    · next h => rw [h]; rfl
    · rfl
  rw [hcount]
  refine ⟨?_, ?_, ?_, ?_⟩
  · have hrows := map_getElem_range' (Nat.le_refl (meshPairs maxNodes response.nodePresent).length)
    rw [List.take_length] at hrows
    rw [← hrows]
    apply List.map_congr_left
    intro k hk
    rw [List.mem_range'_1] at hk
    rw [hindex, if_pos hk.1]
  · intro k hk
    rw [hindex]
    split
    · exact List.getElem?_eq_none (by omega)
    · rfl
  · exact (List.Nodup.product (nodes_nodup response.nodePresent) (nodes_nodup response.nodePresent)).filter _
  · intro i j
    simp only [meshPairs, nodes, List.mem_filter, List.mem_product, List.mem_range, decide_eq_true_eq, ne_eq]
    tauto

/-- Three nodes, the second row. -/
example : indexOf 16 ⟨fun i => i == 0 || i == 4 || i == 9, fun _ _ => 0⟩ 2 = some (0, 9) := by decide

end

end Tr69HostIf.MoCA
