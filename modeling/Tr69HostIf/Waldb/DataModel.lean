import Tr69HostIf.Store.Lines
import Tr69HostIf.Store.Scan
import Mathlib.Data.List.DropRight

/-!
# The data model and its lookup

`getParamInfoFromDataModel` of `waldb.cpp`. A data model is what the lookup reads of `/tmp/data-model.xml`:
the objects in document order, each with its path and its parameters; a path is a list of segments, names or
the placeholder `{i}`. The lookup works on flat strings in buffers of `MAX_PARAMETER_LENGTH` characters: a
text stands for a buffer up to its NUL, a write behind the end of a buffer is the fault `overflow`, and the
two bytes that are read in front of a string (`paramName[-1]`, `splitParam[-1]`) are the arguments `Stray`.
-/

namespace Tr69HostIf.Waldb
open Store

/-- `MAX_PARAMETER_LENGTH`. -/
def maxParameterLength : Nat := 512

/-! ## Data models -/

/-- Letters, digits, `_` and `-`. -/
def nameChar (c : Char) : Bool := c.isAlphanum || decide (c = '_') || decide (c = '-')

/-- A name of an object or a parameter. -/
structure Name where
  chars : Text
  ne_nil : chars ≠ []
  ok : ∀ c ∈ chars, nameChar c = true
  deriving DecidableEq

/-- A literal name. -/
def Name.ofLiteral (s : String) (h : (!s.toList.isEmpty && s.toList.all nameChar) = true) : Name where
  chars := s.toList
  ne_nil := by
    rw [Bool.and_eq_true] at h
    simpa using h.1
  ok := by
    rw [Bool.and_eq_true, List.all_eq_true] at h
    exact h.2

/-- A segment of a path. -/
inductive Segment
  | name (n : Name)
  | inst
  deriving DecidableEq

/-- `{i}`. -/
def instanceText : Text := ['{', 'i', '}']

/-- A segment as the data model spells it. -/
def Segment.text : Segment → Text
  | .name n => n.chars
  | .inst => instanceText

/-- A path as the data model spells it: every segment ends with a dot. -/
def pathText (path : List Segment) : Text := path.flatMap fun s => s.text ++ ['.']

/-- `Device`. -/
def device : Segment := .name (.ofLiteral "Device" rfl)

/-- `Interface`. -/
def interface : Segment := .name (.ofLiteral "Interface" rfl)

/-- `Device.Ethernet.Interface.{i}.` -/
def ethernetPath : List Segment := [device, .name (.ofLiteral "Ethernet" rfl), interface, .inst]

theorem ethernetPath_ne_nil : ethernetPath ≠ [] := List.cons_ne_nil _ _

/-- `Enable`. -/
def enable : Name := .ofLiteral "Enable" rfl

/-- An element below `<syntax>`. -/
inductive SyntaxNode
  | default (value : Text)
  | dataType (value : Text)

/-- A `<parameter>` element. -/
structure DmParameter where
  base : Name
  access : Option Text
  bsUpdate : Option Text
  syntaxNodes : List SyntaxNode

/-- An `<object>` element. -/
structure DmObject where
  path : List Segment
  path_ne_nil : path ≠ []
  params : List DmParameter
  distinct : (params.map fun p => p.base.chars).Nodup
  fits : ∀ p ∈ params, (pathText path ++ p.base.chars).length < maxParameterLength

/-- The objects of a data model. -/
abbrev DataModel := List DmObject

/-- The members of `DataModelParam`. -/
structure DataModelParam where
  objectName : Text
  paramName : Text
  access : Option Text
  bsUpdate : Option Text
  dataType : Option Text
  defaultValue : Option Text

/-! ## Buffers -/

/-- What a lookup can run into. -/
inductive Fault
  | overflow

/-- `strncat(dst, src, MAX_PARAMETER_LENGTH-1)` into a buffer of `MAX_PARAMETER_LENGTH` characters. The NUL
that the code then writes to the last place changes nothing when the text fits. -/
def strncat (dst src : Text) : Except Fault Text :=
  let t := dst ++ src.take (maxParameterLength - 1)
  if t.length < maxParameterLength then .ok t else .error .overflow

/-- `find_first_of("0123456789")`. -/
def findDigit (t : Text) : Option Nat := t.findIdx? Char.isDigit

/-- `getNumberOfDigitsInInstanceNumber`. -/
def getNumberOfDigitsInInstanceNumber (paramName : Text) (position : Nat) : Nat :=
  ((paramName.drop position).takeWhile Char.isDigit).length

/-- The bytes in front of the two strings. -/
structure Stray where
  paramName : Char
  splitParam : Char

/-- `t[found+numOfDigits] == '.' && t[found-1] == '.'`. -/
def ownSegment (stray : Char) (t : Text) (found numOfDigits : Nat) : Prop :=
  t[found + numOfDigits]? = some '.' ∧ (if found = 0 then some stray else t[found - 1]?) = some '.'

instance (stray : Char) (t : Text) (found numOfDigits : Nat) : Decidable (ownSegment stray t found numOfDigits) :=
  inferInstanceAs (Decidable (_ ∧ _))

/-- `isWildCardParam`. -/
def isWildCardParam (paramName : Text) : Bool := paramName.getLast? = some '.'

/-! ## The search for one name -/

/-- The attributes taken from a matching parameter; the last type under `<syntax>` counts. -/
def paramInfo (paramName : Text) (p : DmParameter) : DataModelParam :=
  p.syntaxNodes.foldl
    (fun info node => match node with
      | .default value => { info with defaultValue := some value }
      | .dataType value => { info with dataType := some value })
    { objectName := paramName, paramName := p.base.chars, access := p.access, bsUpdate := p.bsUpdate
      dataType := none, defaultValue := none }

/-- `checkforParameterNameMatch` on the parameters of an object, up to the first match. -/
def checkforParameterNameMatch (objectName paramName : Text) :
    List DmParameter → Except Fault (Option DataModelParam)
  | [] => .ok none
  | p :: params =>
      (strncat (objectName.take (maxParameterLength - 1)) p.base.chars).bind fun name =>
        if name = paramName then .ok (some (paramInfo paramName p))
        else checkforParameterNameMatch objectName paramName params

/-- The loop of `checkforParameterMatch` over the objects. -/
def checkObjects (paramObject paramName : Text) : DataModel → Except Fault (Option DataModelParam)
  | [] => .ok none
  | o :: dm =>
      if pathText o.path = paramObject then
        (checkforParameterNameMatch paramObject paramName o.params).bind fun
          | some info => .ok (some info)
          | none => checkObjects paramObject paramName dm
      else checkObjects paramObject paramName dm

/-- The object part of a name: up to its last dot, all of it when there is none. -/
def paramObject (paramName : Text) : Except Fault Text :=
  if '.' ∈ paramName then
    let t := paramName.rdropWhile fun c => c ≠ '.'
    if t.length < maxParameterLength then .ok t else .error .overflow
  else .ok (paramName.take (maxParameterLength - 1))

/-- `checkforParameterMatch`. -/
def checkforParameterMatch (dm : DataModel) (paramName : Text) : Except Fault (Option DataModelParam) :=
  (paramObject paramName).bind fun o => checkObjects o paramName dm

/-! ## The lookup -/

/-- `checkforParameterMatch`, then `if (Match) goto freeResources`. -/
def tryName (dm : DataModel) (paramName : Text) (rest : Except Fault (Option DataModelParam)) :
    Except Fault (Option DataModelParam) :=
  (checkforParameterMatch dm paramName).bind fun
    | some info => .ok (some info)
    | none => rest

/-- The end of the lookup: what stands before the first digit, then `splitParam`. -/
def tryLast (dm : DataModel) (first : Nat) (newparamName splitParam : Text) : Except Fault (Option DataModelParam) :=
  (strncat (newparamName.take (first - 1)) splitParam).bind fun name => checkforParameterMatch dm name

/-- The lookup from `// Check if splitParam has a digit` on. -/
def trySplit (stray : Stray) (dm : DataModel) (paramName : Text) (first : Nat) (newparamName splitParam : Text) :
    Except Fault (Option DataModelParam) :=
  match findDigit splitParam with
  | none => tryLast dm first newparamName splitParam
  | some found =>
      let newparamName := paramName.take first
      let numOfDigits := getNumberOfDigitsInInstanceNumber splitParam found
      if ownSegment stray.splitParam splitParam found numOfDigits then
        (strncat (splitParam.take found) instanceText).bind fun split =>
          (strncat split (splitParam.drop (found + numOfDigits))).bind fun split =>
            (strncat newparamName (split.drop 3)).bind fun name =>
              tryName dm name (tryLast dm first name split)
      else
        let str := splitParam.drop (found + 1)
        match findDigit str with
        | none => tryLast dm first newparamName splitParam
        | some found₂ =>
            (strncat (splitParam.take (found₂ + found)) ('.' :: instanceText)).bind fun split =>
              (strncat split (str.drop (found₂ + 1))).bind fun split =>
                (strncat newparamName (split.drop 3)).bind fun name =>
                  tryName dm name (tryLast dm first name split)

/-- `getParamInfoFromDataModel`. -/
def getParamInfoFromDataModel (stray : Stray) (dm : DataModel) (paramName : Text) :
    Except Fault (Option DataModelParam) :=
  match findDigit paramName with
  | none => checkforParameterMatch dm paramName
  | some found =>
      tryName dm paramName <|
        let numOfDigits := getNumberOfDigitsInInstanceNumber paramName found
        if ownSegment stray.paramName paramName found numOfDigits then
          (strncat instanceText (paramName.drop (found + numOfDigits))).bind fun splitParam =>
            (strncat (paramName.take found) splitParam).bind fun name =>
              tryName dm name (trySplit stray dm paramName (found + 1) name splitParam)
        else
          trySplit stray dm paramName (found + 1) (paramName.take (found + 1))
            ((paramName.drop (found + 1)).take (maxParameterLength - 1))

/-! ## Names of a data model -/

/-- A parameter of a data model. -/
structure Param where
  path : List Segment
  path_ne_nil : path ≠ []
  leaf : Name
  fits : (pathText path ++ leaf.chars).length < maxParameterLength

/-- A parameter's name as the data model spells it. -/
def Param.text (P : Param) : Text := pathText P.path ++ P.leaf.chars

/-- The parameter stands in the data model. -/
def Param.In (P : Param) (dm : DataModel) : Prop :=
  ∃ o ∈ dm, o.path = P.path ∧ ∃ p ∈ o.params, p.base.chars = P.leaf.chars

/-- A non-empty string of decimal digits. -/
structure Number where
  digits : Text
  ne_nil : digits ≠ []
  ok : ∀ c ∈ digits, c.isDigit = true

/-- The number of placeholders. -/
def placeholders : List Segment → Nat
  | [] => 0
  | .name _ :: path => placeholders path
  | .inst :: path => placeholders path + 1

/-- A path with numbers in place of its placeholders, in order. -/
def fillPath : List Segment → List Number → Text
  | [], _ => []
  | .name n :: path, numbers => n.chars ++ '.' :: fillPath path numbers
  | .inst :: path, [] => instanceText ++ '.' :: fillPath path []
  | .inst :: path, number :: numbers => number.digits ++ '.' :: fillPath path numbers

/-- The concrete name a client sends. -/
def Param.fill (P : Param) (numbers : List Number) : Text := fillPath P.path numbers ++ P.leaf.chars

end Tr69HostIf.Waldb
