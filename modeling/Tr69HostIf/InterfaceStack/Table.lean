import Tr69HostIf.Clib.Decimal
import Tr69HostIf.Store.KeyValue
import Tr69HostIf.Store.Multimap

/-!
# The interface stack

`get_Device_InterfaceStackNumberOfEntries` of `Device_InterfaceStack.cpp`: the rows of `Device.InterfaceStack` are
the entries of a map from interface names to a higher and a lower layer, filled by four passes.

* `Layer` : the paths the table holds, `Layer.text`;
* `buildLowerLayerInfo`, `buildBridgeTableLayerInfo`, `fillHigherLayersWithIP` : the passes;
* `layerInfo`, `rows` : what they come to;
* `Faithful` : what the table should say.
-/

namespace Tr69HostIf.InterfaceStack
open Store Clib

/-- What a layer field holds. -/
inductive Layer
  | none
  | ethernet (n : Nat)
  | moca (n : Nat)
  | ip (n : Nat)
  | bridgePort (bridge port : Nat)
  deriving DecidableEq

/-- `DEVICE_ETHERNET_INTERFACE`, `DEVICE_MOCA_INTERFACE`, `DEVICE_IP_INTERFACE` and `DEVICE_BRIDGING_BRIDGE`. -/
def Layer.text : Layer → Text
  | .none => []
  | .ethernet n => "Device.Ethernet.Interface.".toList ++ printNat n
  | .moca n => "Device.MoCA.Interface.".toList ++ printNat n
  | .ip n => "Device.IP.Interface.".toList ++ printNat n
  | .bridgePort bridge port =>
      "Device.Bridging.Bridge.".toList ++ (printNat bridge ++ (".PORT.".toList ++ printNat port))

/-- `LayerInfo_t`. -/
structure LayerInfo where
  higherLayer : Layer
  lowerLayer : Layer
  deriving DecidableEq

/-- `InterfaceStackMap_t`. -/
abbrev InterfaceStackMap := List (Text × LayerInfo)

/-- A row of the bridge table: the name and the interfaces, separated by commas. -/
structure Bridge where
  name : Text
  interfaces : Text

/-- `getBridgeElements`, by `strtok_r`. -/
def getBridgeElements (t : Text) : List Text := (t.splitOn ',').filter fun c => c ≠ []

def Bridge.members (b : Bridge) : List Text := getBridgeElements b.interfaces

/-- What the passes find: the names of the Ethernet and MoCA interfaces, the bridges in the order the hash table gives
them, and the IP interfaces with their instance numbers. -/
structure Network where
  ethernet : List Text
  moca : List Text
  bridges : List Bridge
  ips : List (Text × Nat)
  distinct : (ethernet ++ moca).Nodup
  bridgesDistinct : (bridges.map Bridge.name).Nodup

/-! ## Lower layers -/

/-- The loop of `buildLowerLayerInfo`, an interface without a name left out. -/
def lowerEntries (layer : Nat → Layer) : Nat → List Text → InterfaceStackMap
  | _, [] => []
  | i, name :: names =>
      if name = [] then lowerEntries layer (i + 1) names
      else (name, ⟨.none, layer i⟩) :: lowerEntries layer (i + 1) names

/-- `buildLowerLayerInfo`. -/
def buildLowerLayerInfo (layer : Nat → Layer) (names : List Text) (info : InterfaceStackMap) : InterfaceStackMap :=
  info ++ lowerEntries layer 1 names

/-! ## Bridges -/

/-- `addBridgeNameLayerInfo`. -/
def addBridgeNameLayerInfo (info : InterfaceStackMap) (ifname : Text) (lower : Layer) : InterfaceStackMap :=
  if ifname ∈ keys info then modifyAt ifname (fun i => { i with lowerLayer := lower }) info
  else info ++ [(ifname, ⟨.none, lower⟩)]

/-- `addBridgeChildLayerInfo`. The bridge table compares its keys as pointers, and the name asked for is a string of its
own, so that the lookup there never succeeds. -/
def addBridgeChildLayerInfo (info : InterfaceStackMap) (ifname : Text) (higher : Layer) : Option InterfaceStackMap :=
  if ifname ∈ keys info then some (modifyAt ifname (fun i => { i with higherLayer := higher }) info) else none

/-- `addBridgeUnmanagedLayerInfo`. -/
def addBridgeUnmanagedLayerInfo (info : InterfaceStackMap) (ifname : Text) (higher lower : Layer) : InterfaceStackMap :=
  info ++ [(ifname, ⟨higher, lower⟩)]

/-- `bridgeName + "-child"`. -/
def childName (bridge : Text) : Text := bridge ++ "-child".toList

/-- The loop over the interfaces of a bridge. -/
def addMembers (bridgeNum : Nat) (bridge : Text) : Nat → List Text → InterfaceStackMap → InterfaceStackMap
  | _, [], info => info
  | portNum, m :: ms, info =>
      let info := match addBridgeChildLayerInfo info m (.bridgePort bridgeNum portNum) with
        | some info => addBridgeUnmanagedLayerInfo info (childName bridge) (.bridgePort bridgeNum 1)
            (.bridgePort bridgeNum portNum)
        | none => info
      addMembers bridgeNum bridge (portNum + 1) ms info

/-- One turn of the loop over the bridges. -/
def addBridge (bridgeNum : Nat) (info : InterfaceStackMap) (b : Bridge) : InterfaceStackMap :=
  addMembers bridgeNum b.name 2 b.members (addBridgeNameLayerInfo info b.name (.bridgePort bridgeNum 1))

/-- `buildBridgeTableLayerInfo`: `bridgeNum` is 1 in every turn. -/
def buildBridgeTableLayerInfo (bridges : List Bridge) (info : InterfaceStackMap) : InterfaceStackMap :=
  bridges.foldl (addBridge 1) info

/-! ## IP interfaces -/

/-- `MAX_IFCS`. -/
def maxIfcs : Nat := 256

/-- `getIPInterfaces`: the map gives the position in the list, from 0 on, the first one of a name. -/
def ipIndex (ips : List (Text × Nat)) (name : Text) : Option Nat :=
  (ips.take maxIfcs).findIdx? fun p => p.1 = name

/-- The entry as `fillHigherLayersWithIP` leaves it. -/
def fillHigher (ips : List (Text × Nat)) (e : Text × LayerInfo) : Text × LayerInfo :=
  if e.2.higherLayer = .none then
    match ipIndex ips e.1 with
    | some k => (e.1, { e.2 with higherLayer := .ip k })
    | none => e
  else e

/-- `fillHigherLayersWithIP`. -/
def fillHigherLayersWithIP (ips : List (Text × Nat)) (info : InterfaceStackMap) : InterfaceStackMap :=
  info.map (fillHigher ips)

/-! ## The table -/

namespace Network
variable (net : Network)

/-- The map after the lower layers are built. -/
def physical : InterfaceStackMap :=
  buildLowerLayerInfo .moca net.moca (buildLowerLayerInfo .ethernet net.ethernet [])

/-- The map at the end of the passes. -/
def layerInfo : InterfaceStackMap :=
  fillHigherLayersWithIP net.ips (buildBridgeTableLayerInfo net.bridges net.physical)

/-- The rows of the table, in the order of their instance numbers. -/
def rows : List (Text × Text) :=
  (inOrder (fun a b => decide (keyLE a b)) net.layerInfo).map fun e => (e.2.higherLayer.text, e.2.lowerLayer.text)

/-- The name is one of the bridges'. -/
def IsBridge (name : Text) : Prop := name ∈ net.bridges.map Bridge.name

/-- The table has the bridge at the number `n`. -/
def HasPath (name : Text) (n : Nat) : Prop :=
  ∃ e ∈ net.layerInfo, e.1 = name ∧ e.2.lowerLayer = .bridgePort n 1

/-- The interface's own lower-layer path. -/
def Own (name : Text) (l : Layer) : Prop :=
  (net.IsBridge name ∧ ∃ n, net.HasPath name n ∧ l = .bridgePort n 1) ∨
    (¬ net.IsBridge name ∧ (name, ⟨.none, l⟩) ∈ net.physical)

/-- The table is a faithful link table. -/
structure Faithful : Prop where
  /-- no two rows link the same layers -/
  rows : net.rows.Nodup
  /-- two bridges do not share a path -/
  bridges : ∀ b ∈ net.bridges, ∀ b' ∈ net.bridges, b.name ≠ b'.name → ∀ n, net.HasPath b.name n → ¬ net.HasPath b'.name n
  /-- a known member of a bridge has its two rows -/
  members : ∀ b ∈ net.bridges, ∀ n, net.HasPath b.name n → ∀ (j : Nat) (m : Text), b.members[j]? = some m →
    ∀ l, net.Own m l →
      ((Layer.bridgePort n (j + 2)).text, l.text) ∈ net.rows ∧
        ((Layer.bridgePort n 1).text, (Layer.bridgePort n (j + 2)).text) ∈ net.rows
  /-- an IP interface is linked under its own instance number -/
  ip : ∀ e ∈ net.layerInfo, ∀ k, e.2.higherLayer = .ip k → (e.1, k) ∈ net.ips

end Network

end Tr69HostIf.InterfaceStack
