import Tr69HostIf.Clib.Decimal
import Tr69HostIf.Waldb.DataModel
import Mathlib.Data.List.Infix

/-!
# Wildcards

`getChildParamNamesFromDataModel` of `waldb.cpp`: the walk of `getList` over the nodes of the data model.

* `Node` : where the pointer `pChild` can stand; `XmlObject` has the attribute that marks a table;
* `checkMatchingParameter`, `appendNextObject`, `replaceWithInstanceNumber`, `getNumberofInstances` : the helpers on
  the flat strings;
* `objectStep`, `parameterStep` : one round of the loop of `getList`; its recursive call is an argument;
* `getList` : the loop with a bound on the rounds, and `WalkFault` for what can stop it: a write behind a buffer, a
  pointer without a node, or the bound.

The values that `getValues` returns for the parameters that count instances are the argument `entries`. An `int`
wraps around.
-/

namespace Tr69HostIf.Waldb
open Store Clib

/-- `MAX_NUM_PARAMETERS`. -/
def maxNumParameters : Nat := 2048

/-- `MAX_DATATYPE_LENGTH`. -/
def maxDatatypeLength : Nat := 48

/-- `INSTANCE_NUMBER_INDICATOR`. -/
def indicator : Text := ['{', 'i', '}', '.']

/-! ## Nodes -/

/-- An `<object>` element with its attribute `maxEntries`. -/
structure XmlObject extends DmObject where
  maxEntries : Option Text

/-- The attribute `base`. -/
def XmlObject.base (o : XmlObject) : Text := pathText o.path

/-- What the walk reads of its surroundings: the values of the counting parameters, and the first attribute of the
element around the objects. -/
structure Env where
  entries : Text → Nat
  modelName : Text

/-- A node, with the siblings behind it. -/
inductive Node
  | object (o : XmlObject) (rest : List XmlObject)
  | parameter (o : XmlObject) (rest : List XmlObject) (p : DmParameter) (ps : List DmParameter)
  | model

/-- The first of a list of objects. -/
def nodeOf : List XmlObject → Option Node
  | [] => none
  | o :: rest => some (.object o rest)

/-- `FirstChild()` of an object. -/
def firstChild (o : XmlObject) (rest : List XmlObject) : Option Node :=
  match o.params with
  | [] => none
  | p :: ps => some (.parameter o rest p ps)

/-- `Parent()`. -/
def Node.parent : Node → Node
  | .object _ _ => .model
  | .parameter o rest _ _ => .object o rest
  | .model => .model

/-- `Parent()->ToElement()->FirstAttribute()->Value()`. -/
def Node.parentAttribute (env : Env) : Node → Text
  | .parameter o _ _ _ => o.base
  | _ => env.modelName

/-- What can stop the walk. -/
inductive WalkFault
  | overflow | nullPointer | unfinished

/-- What a buffer of `MAX_PARAMETER_LENGTH` characters can hold. -/
def buffer (t : Text) : Except WalkFault Text :=
  if t.length < maxParameterLength then .ok t else .error .overflow

/-- `strcpy_s` into a buffer of `MAX_PARAMETER_LENGTH` characters, which it empties when the text does not fit. -/
def strcpyS (t : Text) : Text := if t.length < maxParameterLength then t else []

/-! ## Flat strings -/

/-- `strstr(t, s)`: where `s` first stands in `t`. -/
def strstr (t s : Text) : Option Nat := t.tails.findIdx? fun u => s.isPrefixOf u

/-- Arithmetic of an `int`. -/
def toInt (z : Int) : Int := Int.bmod z (2 ^ 32)

/-- The loop of `checkMatchingParameter`. Inside a number (`skip`) the attribute stands at its `{`. -/
def checkMatchingLoop (attrValue : Text) : Text → Bool → Text → Int → Bool × Int
  | [], _, attr, inst => (true, if attr = [] ∧ attrValue[attrValue.length - 2]? = some '}' then inst else 0)
  | c :: param, true, attr, inst =>
      if c = '.' then checkMatchingLoop attrValue param false (attr.drop 4) inst
      else checkMatchingLoop attrValue param true attr (toInt (inst * 10 + ((c.toNat : Int) - 48)))
  | c :: param, false, attr, inst =>
      match attr with
      | [] => (false, 0)
      | a :: attr' =>
          if a = c then checkMatchingLoop attrValue param false attr' inst
          else if a = '{' ∧ 48 ≤ c.toNat ∧ c.toNat ≤ 56 then
            checkMatchingLoop attrValue param true attr ((c.toNat : Int) - 48)
          else (false, 0)

/-- `checkMatchingParameter`: the status, and the number written to `ret`. -/
def checkMatchingParameter (attrValue paramName : Text) : Bool × Int :=
  checkMatchingLoop attrValue paramName false attrValue 0

/-- `strstr(attr, paramName) || (status = checkMatchingParameter(attr, paramName, &inst))`: `status` and `inst`. -/
def matching (attr paramName : Text) : Option (Bool × Int) :=
  if (strstr attr paramName).isSome then some (false, 0)
  else
    let r := checkMatchingParameter attr paramName
    if r.1 then some (true, r.2) else none

/-- The loop of `appendNextObject`. While `skip`, `currentParam` runs to its next dot. -/
def appendLoop : Text → Bool → Text → Except WalkFault Text
  | [], false, attr => .ok attr
  | [], true, _ => .error .nullPointer
  | c :: current, true, attr =>
      if c = '.' then (appendLoop current false (attr.drop 4)).map (c :: ·)
      else (appendLoop current true attr).map (c :: ·)
  | c :: current, false, attr =>
      match attr with
      | [] => .ok []
      | a :: attr' =>
          if c = a then (appendLoop current false attr').map (c :: ·)
          else if a = '{' then
            if c = '.' then (appendLoop current false (attr.drop 4)).map (c :: ·)
            else (appendLoop current true attr).map (c :: ·)
          else .ok attr

/-- `appendNextObject`. -/
def appendNextObject (currentParam pAttparam : Text) : Except WalkFault Text :=
  (appendLoop currentParam false pAttparam).bind buffer

/-- `replaceWithInstanceNumber`; the number is cut to nine characters. -/
def replaceWithInstanceNumber (paramName : Text) (instanceNumber : Int) : Text :=
  if (strstr paramName indicator).isSome then
    paramName.take (paramName.length - 4) ++ (printInt instanceNumber ++ ['.']).take 9
  else paramName

/-- `strcpy(currentParam+len, INSTANCE_NUMBER_INDICATOR)`. -/
def putIndicator (currentParam : Text) (len : Nat) : Text :=
  if len ≤ currentParam.length then currentParam.take len ++ indicator else currentParam

/-- `isParamEndsWithInstance`, with its result negated. -/
def isParamEndsWithInstance (paramName : Text) : Bool := indicator.isSuffixOf paramName

/-- `maxEntries && (!strcmp(maxEntries, "unbounded") || strtol(maxEntries) > 1)`, and the name ends with `{i}.`. -/
def isTable (o : XmlObject) : Bool :=
  match o.maxEntries with
  | none => false
  | some entries => (entries = "unbounded".toList || decide (1 < (strtol entries).1)) && isParamEndsWithInstance o.base

/-! ## Counting instances -/

/-- The tables of `initNumEntityParamList`. -/
def instanceNumParamHash (table : Text) : Option Text :=
  if table = "Device.DeviceInfo.X_RDKCENTRAL-COM_xBlueTooth.DiscoveredDevice".toList then
    some "Device.DeviceInfo.X_RDKCENTRAL-COM_xBlueTooth.DiscoveredDeviceCnt".toList
  else if table = "Device.DeviceInfo.X_RDKCENTRAL-COM_xBlueTooth.PairedDevice".toList then
    some "Device.DeviceInfo.X_RDKCENTRAL-COM_xBlueTooth.PairedDeviceCnt".toList
  else if table = "Device.DeviceInfo.X_RDKCENTRAL-COM_xBlueTooth.ConnectedDevice".toList then
    some "Device.DeviceInfo.X_RDKCENTRAL-COM_xBlueTooth.ConnectedDeviceCnt".toList
  else none

/-- `getNumberofInstances`. The parameter asked for is that of the first `{i}` of the name. -/
def getNumberofInstances (env : Env) (paramName : Text) : Except WalkFault Nat :=
  let numberOfEntitiesParam := paramName.take (maxParameterLength - 1)
  match strstr numberOfEntitiesParam indicator with
  | none => .ok 0
  | some position =>
      if position = 0 then .error .overflow
      else
        match instanceNumParamHash (numberOfEntitiesParam.take (numberOfEntitiesParam.length - 5)) with
        | some paramValue => .ok (env.entries paramValue)
        | none =>
            let name := numberOfEntitiesParam.take (position - 1)
            .ok (env.entries
              (if position + 16 ≤ maxParameterLength then name ++ "NumberOfEntries".toList else name))

/-! ## The walk -/

/-- The arguments of a call of `getList` that do not change. -/
structure Frame where
  paramName : Text
  isRecursiveCall : Bool

/-- What all calls share: `currentParam`, and the two lists. -/
structure Walk where
  currentParam : Text
  listed : List (Text × Text)

/-- The end of a round: the next one, with `zeroInstance` and `pChild`, or `return`. -/
inductive RoundEnd
  | loop (zeroInstance : Text) (w : Walk) (pChild : Option Node)
  | done (w : Walk) (pChild : Option Node)

/-- `Value()` of a node below `<syntax>`. -/
def SyntaxNode.value : SyntaxNode → Text
  | .default _ => "default".toList
  | .dataType value => value

/-- The loop over the parameters of an object. -/
def listParameters (currentParam : Text) :
    List DmParameter → List (Text × Text) → Except WalkFault (List (Text × Text))
  | [], listed => .ok listed
  | p :: ps, listed =>
      if listed.length < maxNumParameters ∧ 0 < currentParam.length then
        match p.syntaxNodes with
        | [] => .error .nullPointer
        | node :: _ =>
            listParameters currentParam ps
              (listed ++ [((currentParam ++ p.base.chars).take (maxParameterLength - 1),
                node.value.take (maxDatatypeLength - 1))])
      else listParameters currentParam ps listed

/-- The round at a parameter. -/
def parameterStep (zeroInstance : Text) (w : Walk) (rest : List XmlObject) (ps : List DmParameter) :
    Except WalkFault RoundEnd :=
  (listParameters w.currentParam ps w.listed).map fun listed =>
    .loop zeroInstance { w with listed := listed } (nodeOf rest)

/-- `while(i<=instanceNumber && inst==0)`, over the numbers `i`. `len` is the length without `{i}.`. -/
def instanceLoop (env : Env) (list : Text → Walk → Node → Except WalkFault (Walk × Option Node)) (pChild : Option Node) :
    List Nat → Walk → Option Node → Except WalkFault (Walk × Option Node)
  | [], w, sChild => .ok (w, sChild)
  | i :: is, w, _ =>
      match pChild with
      | none => .error .nullPointer
      | some child =>
          if w.currentParam.length < 4 then .error .overflow
          else
            (buffer (replaceWithInstanceNumber w.currentParam i)).bind fun current =>
              (list (strcpyS (child.parentAttribute env)) { w with currentParam := current } child).bind fun r =>
                instanceLoop env list pChild is
                  { r.1 with currentParam := putIndicator r.1.currentParam (w.currentParam.length - 4) } r.2

/-- The part of a round for a table. -/
def tableStep (env : Env) (list : Text → Walk → Node → Except WalkFault (Walk × Option Node)) (attr : Text) (inst : Int)
    (w : Walk) (pChild : Option Node) : Except WalkFault RoundEnd :=
  (getNumberofInstances env attr).bind fun actualInstance =>
    let instanceNumber : Int :=
      if inst = 0 then actualInstance else if inst ≤ actualInstance then inst else 0
    (if inst = 0 then instanceLoop env list pChild (List.range' 1 actualInstance) w pChild else .ok (w, pChild)).bind fun r =>
      if instanceNumber = 0 then
        match r.2 with
        | none => .error .nullPointer
        | some child => .ok (.loop (strcpyS attr) r.1 (some child.parent))
      else .ok (.loop [] r.1 r.2)

/-- The round at an object. -/
def objectStep (env : Env) (list : Text → Walk → Node → Except WalkFault (Walk × Option Node)) (frame : Frame)
    (zeroInstance : Text) (w : Walk) (o : XmlObject) (rest : List XmlObject) : Except WalkFault RoundEnd :=
  match matching o.base frame.paramName with
  | none =>
      if frame.isRecursiveCall then .ok (.done w (some (.object o rest)))
      else .ok (.loop zeroInstance w (nodeOf rest))
  | some (status, inst) =>
      if zeroInstance ≠ [] ∧ (strstr o.base zeroInstance).isSome then .ok (.loop zeroInstance w (nodeOf rest))
      else
        let current := if status && !frame.isRecursiveCall then frame.paramName else w.currentParam
        (appendNextObject current o.base).bind fun current =>
          let w := { w with currentParam := current }
          let pChild := (firstChild o rest).or (nodeOf rest)
          if isTable o then tableStep env list o.base inst w pChild
          else .ok (.loop [] w pChild)

/-- One round of the loop. On the element around the objects it changes nothing. -/
def round (env : Env) (list : Text → Walk → Node → Except WalkFault (Walk × Option Node)) (frame : Frame)
    (zeroInstance : Text) (w : Walk) : Node → Except WalkFault RoundEnd
  | .object o rest => objectStep env list frame zeroInstance w o rest
  | .parameter _ rest p ps => parameterStep zeroInstance w rest (p :: ps)
  | .model => .ok (.loop zeroInstance w (some .model))

/-- The loop of `getList`, with a bound on the rounds and on the depth of its calls. -/
def listLoop (env : Env) : Nat → Frame → Text → Walk → Option Node → Except WalkFault (Walk × Option Node)
  | _, _, _, w, none => .ok (w, none)
  | 0, _, _, _, some _ => .error .unfinished
  | fuel + 1, frame, zeroInstance, w, some node =>
      (round env (fun name w node => listLoop env fuel ⟨name, decide (w.currentParam ≠ [])⟩ [] w (some node))
          frame zeroInstance w node).bind fun
        | .loop zeroInstance w pChild => listLoop env fuel frame zeroInstance w pChild
        | .done w pChild => .ok (w, pChild)

/-- `getList`. -/
def getList (env : Env) (fuel : Nat) (paramName : Text) (w : Walk) (pChild : Option Node) :
    Except WalkFault (Walk × Option Node) :=
  listLoop env fuel ⟨paramName, decide (w.currentParam ≠ [])⟩ [] w pChild

/-- The values of `DB_STATUS` that a wildcard is answered with. -/
inductive DbStatus
  | success | failure | errInvalidParameter | errWildcardNotSupported
  deriving DecidableEq

/-- `getChildParamNamesFromDataModel`: the status, and the names with their types. -/
def getChildParamNamesFromDataModel (env : Env) (fuel : Nat) (dbhandle : Option (List XmlObject)) (paramName : Text) :
    Except WalkFault (DbStatus × List (Text × Text)) :=
  let parameterName := paramName.take (maxParameterLength - 1)
  match dbhandle with
  | none => .ok (.failure, [])
  | some doc =>
      if isWildCardParam parameterName then
        (getList env fuel parameterName ⟨[], []⟩ (nodeOf doc)).map fun r : Walk × Option Node =>
          (if r.1.listed = [] then .errInvalidParameter else .success, r.1.listed)
      else .ok (.errWildcardNotSupported, [])

end Tr69HostIf.Waldb
