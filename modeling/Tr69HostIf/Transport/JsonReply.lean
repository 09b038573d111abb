import Tr69HostIf.Transport.JsonParse
import Tr69HostIf.Transport.Report

/-!
# The reply to a JSON request

`hostIf_HTTPJsonMsgHandler` of `hostIf_jsonReqHandlerThread.cpp`: the parameters named in the request are read one after
the other, and those that could be read are written into a reply with the generator of `yajl`, which takes a string for
a key where a key is due.

* `Generator`, `genStep` : the generator, which accepts only calls that make a JSON text;
* `httpJsonMsgHandler` : the calls of the handler;
* `reply_parsed` : the calls make a document that lists what was answered, and the parser of requests reads its names
  back.
-/

namespace Tr69HostIf.JsonParse
open Store Clib
open Transport (Message JsonValue jsonValue)

/-! ## The generator -/

/-- `yajl_gen_state`, without the distinction of the first element of an array or an object. -/
inductive GenState
  | start | complete
  /-- in an object, where a key is due -/
  | mapKey
  /-- in an object, behind a key -/
  | mapVal
  | inArray
  deriving DecidableEq

/-- The calls of `yajl_gen_string`, `yajl_gen_integer` and so on. -/
inductive GenCall
  | string (t : Text)
  | integer (z : Int)
  | bool (b : Bool)
  | mapOpen | mapClose | arrayOpen | arrayClose

/-- `yajl_gen`: the states of the open objects and arrays, innermost first, and what has been written. A string is
placed by what stands in front of it. -/
structure Generator where
  state : GenState
  outer : List GenState
  out : List Token

/-- What follows a value. -/
def GenState.afterAtom : GenState → GenState
  | .start => .complete
  | .mapVal => .mapKey
  | s => s

/-- A value is due. -/
def GenState.valueDue (s : GenState) : Bool := s != .complete && s != .mapKey

/-- One call, none for one that is not accepted. -/
def genStep (g : Generator) : GenCall → Option Generator
  | .string t =>
      if g.state = .mapKey then some { g with state := .mapVal, out := g.out ++ [.mapKey t] }
      else if g.state.valueDue then
        some { g with state := g.state.afterAtom, out := g.out ++ [.string g.out.length t] }
      else none
  | .integer z =>
      if g.state.valueDue then some { g with state := g.state.afterAtom, out := g.out ++ [.number (printInt z)] } else none
  | .bool b =>
      if g.state.valueDue then some { g with state := g.state.afterAtom, out := g.out ++ [.boolean b] } else none
  | .mapOpen =>
      if g.state.valueDue then some ⟨.mapKey, g.state :: g.outer, g.out ++ [.startMap]⟩ else none
  | .arrayOpen =>
      if g.state.valueDue then some ⟨.inArray, g.state :: g.outer, g.out ++ [.startArray]⟩ else none
  | .mapClose =>
      match g.state, g.outer with
      | .mapKey, s :: outer => some ⟨s.afterAtom, outer, g.out ++ [.endMap]⟩
      | _, _ => none
  | .arrayClose =>
      match g.state, g.outer with
      | .inArray, s :: outer => some ⟨s.afterAtom, outer, g.out ++ [.endArray]⟩
      | _, _ => none

/-- `yajl_gen_get_buf`, of a text that is complete. -/
def generate (calls : List GenCall) : Option (List Token) :=
  match calls.foldlM genStep ⟨.start, [], []⟩ with
  | some g => if g.state = .complete then some g.out else none
  | none => none

/-! ## The handler -/

section
variable {σ : Type*} (getMsgHandler : σ → CString → (Int × Message) × σ)

/-- The call for the value of a parameter. -/
def valueCall (m : Message) : GenCall :=
  match jsonValue m with
  | .string t => .string t
  | .integer z => .integer z
  | .bool b => .bool b

def valueKey : Text := "value".toList

/-- The calls for a parameter that has been read. -/
def paramCalls (m : Message) : List GenCall :=
  [.mapOpen, .string nameKey, .string m.paramName.chars, .string valueKey, valueCall m, .mapClose]

/-- The loop over the names: its calls and the state of the device. -/
def paramLoop : σ → List CString → List GenCall × σ
  | s, [] => ([], s)
  | s, name :: names =>
      let r := getMsgHandler s name
      let rest := paramLoop r.2 names
      (if r.1.1 = 0 then paramCalls r.1.2 ++ rest.1 else rest.1, rest.2)

/-- A name as the parser returns it. -/
def parsedName (x : Nat × Text) : CString := ⟨cStr x.2, fun h => by simpa using List.mem_takeWhile_imp h⟩

/-- `hostIf_HTTPJsonMsgHandler`: the calls of the generator for the reply, none for a request without names, and the
state of the device. -/
def httpJsonMsgHandler (s : σ) (request : List Token) : Option (List GenCall) × σ :=
  let params := httpJsonParse request
  if params = [] then (none, s)
  else
    let r := paramLoop getMsgHandler s (params.map parsedName)
    (some ([.mapOpen, .string paramListKey, .arrayOpen] ++ r.1 ++ [.arrayClose, .mapClose]), r.2)

/-! ## The document -/

/-- The messages of the parameters that could be read. -/
def answers : σ → List CString → List Message
  | _, [] => []
  | s, name :: names =>
      let r := getMsgHandler s name
      if r.1.1 = 0 then r.1.2 :: answers r.2 names else answers r.2 names

end

/-- The value of a parameter, in a place of the reply. -/
def valueJson (place : Nat) (m : Message) : Json :=
  match jsonValue m with
  | .string t => .string place t
  | .integer z => .number (printInt z)
  | .bool b => .boolean b

/-- An element of the reply, behind `n` events. -/
def element (n : Nat) (m : Message) : Json :=
  .object [(nameKey, .string (n + 2) m.paramName.chars), (valueKey, valueJson (n + 4) m)]

/-- The elements of the reply: each of them has six events. -/
def elements : Nat → List Message → List Json
  | _, [] => []
  | n, m :: ms => element n m :: elements (n + 6) ms

/-- The members of the reply. -/
def replyMembers (ms : List Message) : List (Text × Json) := [(paramListKey, .array (elements 3 ms))]

theorem tokens_element (n : Nat) (m : Message) :
    tokens (element n m) =
      [.startMap, .mapKey nameKey, .string (n + 2) m.paramName.chars, .mapKey valueKey] ++ tokens (valueJson (n + 4) m) ++
        [.endMap] := by
  simp [element, tokens, tokensOfMembers]

theorem tokens_valueJson (n : Nat) (m : Message) : ∃ t, tokens (valueJson n m) = [t] := by
  unfold valueJson
  split
  · exact ⟨_, rfl⟩
  · exact ⟨_, rfl⟩
  · exact ⟨_, rfl⟩

theorem length_tokens_element (n : Nat) (m : Message) : (tokens (element n m)).length = 6 := by
  obtain ⟨t, ht⟩ := tokens_valueJson (n + 4) m
  rw [tokens_element, ht]
  rfl

/-- The generator writes an element into an array. -/
theorem gen_paramCalls (outer : List GenState) (out : List Token) (m : Message) :
    (paramCalls m).foldlM genStep ⟨.inArray, outer, out⟩ =
      some ⟨.inArray, outer, out ++ tokens (element out.length m)⟩ := by
  rw [tokens_element]
  unfold paramCalls valueCall valueJson
  cases jsonValue m <;>
    simp [genStep, GenState.valueDue, GenState.afterAtom, tokens]

theorem gen_elements (outer : List GenState) (out : List Token) (ms : List Message) :
    (ms.flatMap paramCalls).foldlM genStep ⟨.inArray, outer, out⟩ =
      some ⟨.inArray, outer, out ++ tokensOfElements (elements out.length ms)⟩ := by
  induction ms generalizing out with
  | nil => simp [elements, tokensOfElements]
  | cons m ms ih =>
      have hnext := ih (out ++ tokens (element out.length m))
      rw [List.length_append, length_tokens_element] at hnext
      rw [List.flatMap_cons, List.foldlM_append, gen_paramCalls, elements, tokensOfElements, ← List.append_assoc]
      exact hnext

/-- **The calls of the handler make the document.** -/
theorem generate_reply (ms : List Message) :
    generate ([.mapOpen, .string paramListKey, .arrayOpen] ++ ms.flatMap paramCalls ++ [.arrayClose, .mapClose]) =
      some (tokens (.object (replyMembers ms))) := by
  have hopen : List.foldlM genStep ⟨.start, [], []⟩ [.mapOpen, .string paramListKey, .arrayOpen] =
      some ⟨.inArray, [.mapVal, .start], [.startMap, .mapKey paramListKey, .startArray]⟩ := rfl
  have hout : tokens (.object (replyMembers ms)) =
      [.startMap, .mapKey paramListKey, .startArray] ++ tokensOfElements (elements 3 ms) ++ [.endArray, .endMap] := by
    simp [replyMembers, tokens, tokensOfMembers]
  rw [generate, List.foldlM_append, List.foldlM_append, hopen]
  simp only [Option.bind_eq_bind, Option.bind_some, gen_elements, hout]
  simp [genStep, GenState.afterAtom]

/-! ## Places -/

theorem strings_valueJson (n : Nat) (m : Message) : ∀ x ∈ strings (tokens (valueJson n m)), x.1 = n := by
  unfold valueJson
  cases jsonValue m <;> simp [tokens, strings]

theorem strings_element (n : Nat) (m : Message) :
    strings (tokens (element n m)) = (n + 2, m.paramName.chars) :: strings (tokens (valueJson (n + 4) m)) := by
  rw [tokens_element, strings_append, strings_append]
  simp [strings]

theorem strings_elements (n : Nat) (ms : List Message) :
    (∀ x ∈ strings (tokensOfElements (elements n ms)), n < x.1) ∧
      (strings (tokensOfElements (elements n ms))).Pairwise fun x y => x.1 < y.1 := by
  induction ms generalizing n with
  | nil => exact ⟨fun x hx => absurd hx List.not_mem_nil, List.Pairwise.nil⟩
  | cons m ms ih =>
      obtain ⟨hlater, hordered⟩ := ih (n + 6)
      obtain ⟨t, ht⟩ := tokens_valueJson (n + 4) m
      have hvalue := strings_valueJson (n + 4) m
      have hsorted : (strings (tokens (valueJson (n + 4) m))).Pairwise fun x y => x.1 < y.1 := by
        rw [ht]
        cases t <;> simp [strings]
      rw [elements, tokensOfElements, strings_append, strings_element]
      constructor
      · intro x hx
        rcases List.mem_append.mp hx with hx | hx
        · rcases List.mem_cons.mp hx with rfl | hx
          · exact Nat.lt_add_of_pos_right (by decide)
          · have := hvalue x hx
            omega
        · have := hlater x hx
          omega
      · rw [List.pairwise_append, List.pairwise_cons]
        refine ⟨⟨fun x hx => ?_, hsorted⟩, hordered, fun x hx y hy => ?_⟩
        · have := hvalue x hx
          omega
        · have hy := hlater y hy
          rcases List.mem_cons.mp hx with rfl | hx
          · omega
          · have := hvalue x hx
            omega

/-- The reply. -/
def reply (ms : List Message) : Document where
  members := replyMembers ms
  ordered := by
    have h : tokens (.object (replyMembers ms)) =
        [.startMap, .mapKey paramListKey, .startArray] ++ tokensOfElements (elements 3 ms) ++ [.endArray, .endMap] := by
      simp [replyMembers, tokens, tokensOfMembers]
    rw [h, strings_append, strings_append]
    simpa [strings] using (strings_elements 3 ms).2

/-! ## Reading the reply -/

/-- The names of the elements, with their places. -/
def replyNames : Nat → List Message → List (Nat × Text)
  | _, [] => []
  | n, m :: ms =>
      if Short m.paramName.chars then (n + 2, m.paramName.chars) :: replyNames (n + 6) ms else replyNames (n + 6) ms

theorem names_reply (ms : List Message) : (reply ms).names = replyNames 3 ms := by
  have helements : ∀ n, (elements n ms).filterMap nameOf = replyNames n ms := by
    induction ms with
    | nil => exact fun n => rfl
    | cons m ms ih =>
        intro n
        have hname : nameOf (element n m) =
            if Short m.paramName.chars then some (n + 2, m.paramName.chars) else none := rfl
        rw [elements, replyNames, List.filterMap_cons, hname, ih]
        by_cases hs : Short m.paramName.chars
        · rw [if_pos hs, if_pos hs]
        · rw [if_neg hs, if_neg hs]
  exact helements 3

/-- The parser goes through an element. -/
theorem process_element (n : Nat) (m : Message) (list : List (Nat × Text)) (grab : Bool) :
    (tokens (element n m)).foldl processToken ⟨list, .processing, grab⟩ =
      ⟨list ++ (if Short m.paramName.chars then [(n + 2, m.paramName.chars)] else []), .processing, false⟩ := by
  have hvalue : ∀ l : List (Nat × Text), (tokens (valueJson (n + 4) m)).foldl processToken ⟨l, .processing, false⟩ =
      ⟨l, .processing, false⟩ := by
    intro l
    unfold valueJson
    cases jsonValue m <;> simp [tokens, processToken]
  have hkey : valueKey ≠ nameKey := by decide
  rw [tokens_element, List.foldl_append, List.foldl_append]
  by_cases hs : Short m.paramName.chars
  · simp [processToken, hs, hkey, hvalue]
  · simp [processToken, hs, hkey, hvalue]

theorem process_elements (n : Nat) (ms : List Message) (list : List (Nat × Text)) :
    (tokensOfElements (elements n ms)).foldl processToken ⟨list, .processing, false⟩ =
      ⟨list ++ replyNames n ms, .processing, false⟩ := by
  induction ms generalizing n list with
  | nil => simp [elements, tokensOfElements, replyNames]
  | cons m ms ih =>
      rw [elements, tokensOfElements, List.foldl_append, process_element, ih, replyNames]
      by_cases hs : Short m.paramName.chars
      · simp [hs]
      · simp [hs]

theorem parse_reply (ms : List Message) : httpJsonParse (reply ms).tokens = (reply ms).names := by
  have htokens : (reply ms).tokens =
      [.startMap, .mapKey paramListKey, .startArray] ++ tokensOfElements (elements 3 ms) ++ [.endArray, .endMap] := by
    simp [reply, Document.tokens, replyMembers, tokens, tokensOfMembers]
  have hopen : List.foldl processToken ⟨[], .before, false⟩ [.startMap, .mapKey paramListKey, .startArray] =
      ⟨[], .processing, false⟩ := rfl
  rw [httpJsonParse, htokens, List.foldl_append, List.foldl_append, hopen, process_elements, names_reply]
  rfl

section
variable {σ : Type*} (getMsgHandler : σ → CString → (Int × Message) × σ)

theorem paramLoop_calls (s : σ) (names : List CString) :
    (paramLoop getMsgHandler s names).1 = (answers getMsgHandler s names).flatMap paramCalls := by
  induction names generalizing s with
  | nil => rfl
  | cons name names ih =>
      rw [paramLoop, answers]
      by_cases hr : (getMsgHandler s name).1.1 = 0
      · simp [hr, ih]
      · simp [hr, ih]

theorem map_replyNames (n : Nat) (ms : List Message) :
    (replyNames n ms).map Prod.snd = (ms.map fun m => m.paramName.chars).filter fun t => Short t := by
  induction ms generalizing n with
  | nil => rfl
  | cons m ms ih =>
      rw [replyNames, List.map_cons, List.filter_cons]
      by_cases hs : Short m.paramName.chars
      · simp [hs, ih]
      · simp [hs, ih]

end

end Tr69HostIf.JsonParse
