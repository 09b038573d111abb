import Mathlib.Data.List.Sort
import Tr69HostIf.HostIf

/-!
# The parameter names of a JSON request

`hostIf_HTTPJsonParse` of `hostIf_jsonReqHandlerThread.cpp` collects the names of a request with a machine of four
states that `yajl` drives with one event per token. The machine does not count brackets, so what it collects are
strings of one stretch of the document, from the first `[` after the first key `paramList` to the next `]`.

* `Json`, `Document` : a JSON text, every string with its place in the message, and `tokens` : its events;
* `processToken`, `httpJsonParse` : the callbacks and the parser;
* `Document.names` : what a request means, the `name` of each object in the top-level array `paramList`;
* `region`, `Follows` : the stretch, and the strings in it that come after a key `name`;
* `httpJsonParse_iff` : the parser returns the names exactly when all of them stand in the stretch, and nothing else
  in it comes after a key `name`.
-/

namespace Tr69HostIf.JsonParse
open Store

/-- A JSON value. A string is what `yajl` delivers of it, a `Char` for each byte, with its offset in the message. -/
inductive Json
  | null
  | boolean (b : Bool)
  | number (t : Text)
  | string (place : Nat) (s : Text)
  | array (elements : List Json)
  | object (members : List (Text × Json))

/-- The events of `yajl`. -/
inductive Token
  | null | boolean (b : Bool) | number (t : Text) | string (place : Nat) (s : Text)
  | startMap | mapKey (k : Text) | endMap | startArray | endArray
  deriving DecidableEq

mutual

/-- The events of a value. -/
def tokens : Json → List Token
  | .null => [.null]
  | .boolean b => [.boolean b]
  | .number t => [.number t]
  | .string place s => [.string place s]
  | .array elements => .startArray :: tokensOfElements elements ++ [.endArray]
  | .object members => .startMap :: tokensOfMembers members ++ [.endMap]

/-- The events of the elements of an array. -/
def tokensOfElements : List Json → List Token
  | [] => []
  | j :: js => tokens j ++ tokensOfElements js

/-- The events of the members of an object. -/
def tokensOfMembers : List (Text × Json) → List Token
  | [] => []
  | (k, j) :: ms => .mapKey k :: tokens j ++ tokensOfMembers ms

end

/-- The strings among some events, with their places. -/
def strings (l : List Token) : List (Nat × Text) := l.filterMap fun
  | .string place s => some (place, s)
  | _ => none

/-- A document whose top level is an object; the places of its strings increase. -/
structure Document where
  members : List (Text × Json)
  ordered : (strings (tokens (.object members))).Pairwise fun x y => x.1 < y.1

/-- The events of a document. -/
def Document.tokens (d : Document) : List Token := JsonParse.tokens (.object d.members)

/-! ## The parser -/

/-- `state_t`. -/
inductive ParserState
  | before | param | processing | done
  deriving DecidableEq

/-- `parser_state_t`; the strings in `list` come with the places they were taken from. -/
structure Context where
  list : List (Nat × Text)
  state : ParserState
  grabString : Bool

/-- A string that `process_string` takes, `TR69HOSTIFMGR_MAX_PARAM_LEN` being 4096. -/
def Short (s : Text) : Prop := s.length < 4096 - 1

instance (s : Text) : Decidable (Short s) := inferInstanceAs (Decidable (_ < _))

def paramListKey : Text := "paramList".toList

def nameKey : Text := "name".toList

/-- The callbacks; `strndup` stops at a NUL. -/
def processToken (c : Context) : Token → Context
  | .string place s =>
      if c.state = .processing ∧ c.grabString = true ∧ Short s then
        { c with list := c.list ++ [(place, cStr s)], grabString := false }
      else c
  | .mapKey k =>
      if c.state = .before ∧ k = paramListKey then { c with state := .param }
      else if c.state = .processing ∧ k = nameKey then { c with grabString := true }
      else { c with grabString := false }
  | .startArray => if c.state = .param then { c with state := .processing } else c
  | .endArray => if c.state = .processing ∨ c.state = .param then { c with state := .done } else c
  | .null | .boolean _ | .number _ | .startMap | .endMap => c

/-- `hostIf_HTTPJsonParse`. -/
def httpJsonParse (l : List Token) : List (Nat × Text) := (l.foldl processToken ⟨[], .before, false⟩).list

/-! ## What a request means -/

/-- The first member with a key. -/
def member (k : Text) (members : List (Text × Json)) : Option Json := (members.find? fun m => m.1 = k).map Prod.snd

/-- The `name` of an element, when it is an object whose `name` is a string that fits. -/
def nameOf : Json → Option (Nat × Text)
  | .object members =>
      match member nameKey members with
      | some (.string place s) => if Short s then some (place, s) else none
      | _ => none
  | _ => none

/-- The names a request lists. -/
def Document.names (d : Document) : List (Nat × Text) :=
  match member paramListKey d.members with
  | some (.array elements) => elements.filterMap nameOf
  | _ => []

/-! ## Where the parser looks -/

/-- The events from the first `[` to the next `]`, and none when a `]` comes first. -/
def firstArray (l : List Token) : List Token :=
  match l.dropWhile fun t => t ≠ .startArray ∧ t ≠ .endArray with
  | .startArray :: rest => rest.takeWhile fun t => t ≠ .endArray
  | _ => []

/-- The stretch after the first key `paramList` that the parser takes for the array of parameters. -/
def region (l : List Token) : List Token := firstArray (l.dropWhile fun t => t ≠ .mapKey paramListKey).tail

/-- An event that neither ends the wait for a name nor is one: no key, and no string that fits. -/
def Skipped : Token → Prop
  | .mapKey _ => False
  | .string _ s => ¬ Short s
  | _ => True

/-- The string `x` comes after a key `name` with no other key and no string that fits in between. -/
def Follows (l : List Token) (x : Nat × Text) : Prop :=
  Short x.2 ∧ ∃ l₁ l₂ l₃, l = l₁ ++ .mapKey nameKey :: (l₂ ++ .string x.1 x.2 :: l₃) ∧ ∀ t ∈ l₂, Skipped t

/-- The parser returns the names of the request, from their own places. -/
def Parsed (d : Document) : Prop := httpJsonParse d.tokens = d.names

/-! ## The run of the parser -/

/-- The strings taken from the stretch; `grab` says whether a key `name` came last. -/
def grabbed : Bool → List Token → List (Nat × Text)
  | _, [] => []
  | _, .mapKey k :: l => grabbed (decide (k = nameKey)) l
  | grab, .string place s :: l => if grab = true ∧ Short s then (place, s) :: grabbed false l else grabbed grab l
  | grab, _ :: l => grabbed grab l

/-- What `strndup` leaves of a string. -/
def cut (x : Nat × Text) : Nat × Text := (x.1, cStr x.2)

theorem run_done (l : List Token) (list : List (Nat × Text)) (grab : Bool) :
    (l.foldl processToken ⟨list, .done, grab⟩).list = list := by
  induction l generalizing grab with
  | nil => rfl
  | cons t l ih =>
      rw [List.foldl_cons]
      cases t <;> simp [processToken, ih]

theorem run_processing (l : List Token) (list : List (Nat × Text)) (grab : Bool) :
    (l.foldl processToken ⟨list, .processing, grab⟩).list =
      list ++ (grabbed grab (l.takeWhile fun t => t ≠ .endArray)).map cut := by
  induction l generalizing list grab with
  | nil => simp [grabbed]
  | cons t l ih =>
      rw [List.foldl_cons]
      cases t with
      | endArray => simp [processToken, run_done, grabbed]
      | mapKey k =>
          by_cases hk : k = nameKey
          · simp [processToken, hk, ih, grabbed]
          · simp [processToken, hk, ih, grabbed]
      | string place s =>
          by_cases hg : grab = true ∧ Short s
          · simp [processToken, hg, ih, grabbed, cut]
          · simp [processToken, hg, ih, grabbed]
      | null => simp [processToken, ih, grabbed]
      | boolean b => simp [processToken, ih, grabbed]
      | number n => simp [processToken, ih, grabbed]
      | startMap => simp [processToken, ih, grabbed]
      | endMap => simp [processToken, ih, grabbed]
      | startArray => simp [processToken, ih, grabbed]

theorem run_param (l : List Token) (list : List (Nat × Text)) :
    (l.foldl processToken ⟨list, .param, false⟩).list = list ++ (grabbed false (firstArray l)).map cut := by
  induction l with
  | nil => simp [firstArray, grabbed]
  | cons t l ih =>
      rw [List.foldl_cons]
      unfold firstArray at ih ⊢
      cases t with
      | endArray => simp [processToken, run_done, grabbed]
      | startArray => simp [processToken, run_processing]
      | _ => simp [processToken, ih]

/-- **The parser returns what it grabs from the stretch.** -/
theorem httpJsonParse_eq (l : List Token) : httpJsonParse l = (grabbed false (region l)).map cut := by
  unfold httpJsonParse region
  induction l with
  | nil => rfl
  | cons t l ih =>
      rw [List.foldl_cons]
      cases t with
      | mapKey k =>
          by_cases hk : k = paramListKey
          · simp [processToken, hk, run_param]
          · simp only [processToken, hk, and_false, if_false, reduceCtorEq, false_and]
            rw [ih, List.dropWhile_cons_of_pos]
            simp [hk]
      | _ => simp [processToken, ih]

/-! ## What is grabbed -/

/-- `grabbed` for a wait that began before. -/
def Awaited (l : List Token) (x : Nat × Text) : Prop :=
  Short x.2 ∧ ∃ l₂ l₃, l = l₂ ++ .string x.1 x.2 :: l₃ ∧ ∀ t ∈ l₂, Skipped t

theorem follows_cons {t : Token} {l : List Token} {x : Nat × Text} :
    Follows (t :: l) x ↔ (t = .mapKey nameKey ∧ Awaited l x) ∨ Follows l x := by
  constructor
  · rintro ⟨hx, l₁, l₂, l₃, h, hs⟩
    cases l₁ with
    | nil =>
        rw [List.nil_append, List.cons.injEq] at h
        exact Or.inl ⟨h.1, hx, l₂, l₃, h.2, hs⟩
    | cons a l₁ =>
        rw [List.cons_append, List.cons.injEq] at h
        exact Or.inr ⟨hx, l₁, l₂, l₃, h.2, hs⟩
  · rintro (⟨rfl, hx, l₂, l₃, rfl, hs⟩ | ⟨hx, l₁, l₂, l₃, rfl, hs⟩)
    · exact ⟨hx, [], l₂, l₃, rfl, hs⟩
    · exact ⟨hx, t :: l₁, l₂, l₃, rfl, hs⟩

theorem awaited_cons {t : Token} {l : List Token} {x : Nat × Text} :
    Awaited (t :: l) x ↔ (t = .string x.1 x.2 ∧ Short x.2) ∨ (Skipped t ∧ Awaited l x) := by
  constructor
  · rintro ⟨hx, l₂, l₃, h, hs⟩
    cases l₂ with
    | nil =>
        rw [List.nil_append, List.cons.injEq] at h
        exact Or.inl ⟨h.1, hx⟩
    | cons a l₂ =>
        rw [List.cons_append, List.cons.injEq] at h
        rw [List.forall_mem_cons] at hs
        exact Or.inr ⟨h.1 ▸ hs.1, hx, l₂, l₃, h.2, hs.2⟩
  · rintro (⟨rfl, hx⟩ | ⟨ht, hx, l₂, l₃, rfl, hs⟩)
    · exact ⟨hx, [], l, rfl, by simp⟩
    · exact ⟨hx, t :: l₂, l₃, rfl, List.forall_mem_cons.mpr ⟨ht, hs⟩⟩

/-- **Grabbed is what comes after a key `name`.** -/
theorem mem_grabbed {grab : Bool} {l : List Token} {x : Nat × Text} :
    x ∈ grabbed grab l ↔ (grab = true ∧ Awaited l x) ∨ Follows l x := by
  induction l generalizing grab with
  | nil => simp [grabbed, Awaited, Follows]
  | cons t l ih =>
      rw [follows_cons, awaited_cons]
      cases t with
      | mapKey k => simp [grabbed, ih, Skipped]
      | string place s =>
          have hx : Token.string place s = .string x.1 x.2 ↔ x = (place, s) := by
            rw [Token.string.injEq, Prod.ext_iff]
            exact ⟨fun h => ⟨h.1.symm, h.2.symm⟩, fun h => ⟨h.1.symm, h.2.symm⟩⟩
          by_cases hs : Short s
          · cases grab with
            | true =>
                simp only [grabbed, hs, and_self, if_true, List.mem_cons, ih, Skipped, not_true, false_and, or_false,
                  hx, reduceCtorEq, false_or, true_and, Bool.false_eq_true]
                refine or_congr_left ?_
                exact ⟨fun h => ⟨h, by rw [h]; exact hs⟩, fun h => h.1⟩
            | false => simp [grabbed, ih]
          · have hne : ¬ (x = (place, s) ∧ Short x.2) := fun h => hs (by rw [h.1] at h; exact h.2)
            simp only [grabbed, hs, and_false, if_false, ih, Skipped, not_false_eq_true, true_and, hx, hne, false_or,
              reduceCtorEq, false_and]
      | _ => simp [grabbed, ih, Skipped]

theorem grabbed_sublist (grab : Bool) (l : List Token) : (grabbed grab l).Sublist (strings l) := by
  induction l generalizing grab with
  | nil => exact List.Sublist.refl _
  | cons t l ih =>
      cases t with
      | string place s =>
          simp only [grabbed, strings, List.filterMap_cons]
          split
          · exact (ih false).cons_cons _
          · exact (ih grab).cons _
      | _ => exact ih _

/-! ## The stretch in the document -/

theorem strings_append (l l' : List Token) : strings (l ++ l') = strings l ++ strings l' := List.filterMap_append

theorem mem_strings {l : List Token} {x : Nat × Text} : x ∈ strings l ↔ .string x.1 x.2 ∈ l := by
  rw [strings, List.mem_filterMap]
  constructor
  · rintro ⟨t, ht, hx⟩
    cases t with
    | string place s =>
        obtain rfl := Option.some.inj hx
        exact ht
    | _ => cases hx
  · exact fun h => ⟨_, h, rfl⟩

theorem firstArray_infix (l : List Token) : firstArray l ≠ [] → ∃ u v, l = u ++ .startArray :: (firstArray l ++ v) := by
  intro hne
  unfold firstArray at hne ⊢
  split at hne
  · next rest hrest =>
    refine ⟨l.takeWhile fun t => t ≠ .startArray ∧ t ≠ .endArray, rest.dropWhile fun t => t ≠ .endArray, ?_⟩
    rw [List.takeWhile_append_dropWhile, ← hrest, List.takeWhile_append_dropWhile]
  · exact absurd rfl hne

theorem region_infix {l : List Token} (h : region l ≠ []) : ∃ u v, l = u ++ .startArray :: (region l ++ v) := by
  obtain ⟨u, v, huv⟩ := firstArray_infix _ h
  have hl := (List.takeWhile_append_dropWhile (p := fun t => decide (t ≠ .mapKey paramListKey)) (l := l)).symm
  cases hd : l.dropWhile fun t => decide (t ≠ .mapKey paramListKey) with
  | nil =>
      rw [hd] at huv
      simp at huv
  | cons t r =>
      rw [hd, List.tail_cons] at huv
      refine ⟨l.takeWhile (fun t => decide (t ≠ .mapKey paramListKey)) ++ t :: u, v, ?_⟩
      rw [hd, huv] at hl
      rw [List.append_assoc, List.cons_append, region, hd, List.tail_cons]
      exact hl

theorem region_sublist (l : List Token) : (region l).Sublist l := by
  by_cases h : region l = []
  · rw [h]
    exact List.nil_sublist l
  · obtain ⟨u, v, huv⟩ := region_infix h
    have hs : (region l).Sublist (u ++ .startArray :: (region l ++ v)) :=
      ((List.sublist_append_left (region l) v).cons _).trans (List.sublist_append_right u _)
    rwa [← huv] at hs

section
variable {l : List Token} (hl : (strings l).Pairwise fun x y => x.1 < y.1)
include hl

theorem not_mem_after {u v : List Token} {x : Nat × Text} (h : l = u ++ .string x.1 x.2 :: v) :
    .string x.1 x.2 ∉ v := by
  intro hv
  rw [h, strings_append] at hl
  have hx := (List.pairwise_append.mp hl).2.1
  have : strings (.string x.1 x.2 :: v) = x :: strings v := rfl
  rw [this, List.pairwise_cons] at hx
  exact Nat.lt_irrefl _ (hx.1 x (mem_strings.mpr hv))

/-- A string stands in one place only. -/
theorem before_unique {u v u' v' : List Token} {x : Nat × Text} (h : l = u ++ .string x.1 x.2 :: v)
    (h' : l = u' ++ .string x.1 x.2 :: v') : u = u' := by
  rcases List.append_eq_append_iff.mp (h.symm.trans h') with ⟨w, hu, hw⟩ | ⟨w, hu, hw⟩
  · cases w with
    | nil => rw [hu, List.append_nil]
    | cons t w =>
        rw [List.cons_append, List.cons.injEq] at hw
        exact absurd (hw.2 ▸ List.mem_append_right w List.mem_cons_self) (not_mem_after hl h)
  · cases w with
    | nil => rw [hu, List.append_nil]
    | cons t w =>
        rw [List.cons_append, List.cons.injEq] at hw
        exact absurd (hw.2 ▸ List.mem_append_right w List.mem_cons_self) (not_mem_after hl h')

theorem eq_of_place {x y : Nat × Text} (hx : x ∈ strings l) (hy : y ∈ strings l) (h : x.1 = y.1) : x = y := by
  have hnodup : ((strings l).map Prod.fst).Nodup := List.pairwise_map.mpr (hl.imp Nat.ne_of_lt)
  exact List.inj_on_of_nodup_map hnodup hx hy h

/-- A name that stands in the stretch is grabbed: its key stands there too. -/
theorem follows_of_mem_region {A B : List Token} {x : Nat × Text} (hA : l = A ++ .mapKey nameKey :: .string x.1 x.2 :: B)
    (hx : Short x.2) (hmem : .string x.1 x.2 ∈ region l) : Follows (region l) x := by
  obtain ⟨u, v, huv⟩ := region_infix (List.ne_nil_of_mem hmem)
  obtain ⟨r₁, r₂, hr⟩ := List.append_of_mem hmem
  have hl₁ : l = (A ++ [.mapKey nameKey]) ++ .string x.1 x.2 :: B := by
    rw [hA, List.append_assoc]
    rfl
  have hl₂ : l = (u ++ .startArray :: r₁) ++ .string x.1 x.2 :: (r₂ ++ v) := by
    rw [huv, hr]
    simp
  have hbefore := before_unique hl hl₁ hl₂
  rcases List.eq_nil_or_concat r₁ with rfl | ⟨r, t, rfl⟩
  · have := (List.append_inj' hbefore rfl).2
    simp at this
  · rw [List.concat_eq_append, ← List.cons_append, ← List.append_assoc] at hbefore
    have ht := (List.append_inj' hbefore rfl).2
    rw [List.cons.injEq] at ht
    refine ⟨hx, r, [], r₂, ?_, by simp⟩
    rw [hr, ← ht.1, List.concat_eq_append, List.append_assoc]
    rfl

end

/-! ## The names in the document -/

theorem tokensOfMembers_append (ms ms' : List (Text × Json)) :
    tokensOfMembers (ms ++ ms') = tokensOfMembers ms ++ tokensOfMembers ms' := by
  induction ms with
  | nil => rfl
  | cons m ms ih =>
      obtain ⟨k, j⟩ := m
      rw [List.cons_append, tokensOfMembers, tokensOfMembers, ih, List.append_assoc]

/-- A member stands in its object, directly after its key. -/
theorem tokens_of_member {k : Text} {ms : List (Text × Json)} {j : Json} (h : member k ms = some j) :
    ∃ u v, tokens (.object ms) = u ++ .mapKey k :: (tokens j ++ v) := by
  obtain ⟨⟨k', j'⟩, hfind, rfl⟩ := Option.map_eq_some_iff.mp h
  obtain rfl : k' = k := by simpa using List.find?_some hfind
  obtain ⟨ms₁, ms₂, rfl⟩ := List.append_of_mem (List.mem_of_find?_eq_some hfind)
  refine ⟨.startMap :: tokensOfMembers ms₁, tokensOfMembers ms₂ ++ [.endMap], ?_⟩
  rw [tokens, tokensOfMembers_append, tokensOfMembers]
  simp

/-- The name of an element is a string that fits and stands in it after a key `name`. -/
theorem tokens_of_nameOf {j : Json} {x : Nat × Text} (h : nameOf j = some x) :
    Short x.2 ∧ ∃ u v, tokens j = u ++ .mapKey nameKey :: .string x.1 x.2 :: v := by
  cases j with
  | object ms =>
      simp only [nameOf] at h
      split at h
      · next place s hm =>
        split at h
        · next hs =>
          obtain rfl := Option.some.inj h
          obtain ⟨u, v, huv⟩ := tokens_of_member hm
          exact ⟨hs, u, v, huv⟩
        · cases h
      · cases h
  | _ => cases h

/-- The names of the elements stand in the array, in order. -/
theorem filterMap_nameOf_sublist (js : List Json) :
    (js.filterMap nameOf).Sublist (strings (tokensOfElements js)) := by
  induction js with
  | nil => exact List.Sublist.refl _
  | cons j js ih =>
      rw [tokensOfElements, strings_append]
      cases hn : nameOf j with
      | none =>
          rw [List.filterMap_cons_none hn]
          exact ih.trans (List.sublist_append_right _ _)
      | some x =>
          rw [List.filterMap_cons_some hn]
          obtain ⟨-, u, v, huv⟩ := tokens_of_nameOf hn
          have hx : [x].Sublist (strings (tokens j)) := by
            rw [List.singleton_sublist, mem_strings, huv]
            simp
          exact hx.append ih

theorem tokensOfElements_append (js js' : List Json) :
    tokensOfElements (js ++ js') = tokensOfElements js ++ tokensOfElements js' := by
  induction js with
  | nil => rfl
  | cons j js ih => rw [List.cons_append, tokensOfElements, tokensOfElements, ih, List.append_assoc]

section
variable (d : Document)

theorem names_sublist : d.names.Sublist (strings d.tokens) := by
  unfold Document.names
  split
  · next js hm =>
    obtain ⟨u, v, huv⟩ := tokens_of_member hm
    rw [Document.tokens, huv, tokens]
    refine (filterMap_nameOf_sublist js).trans (List.Sublist.filterMap _ ?_)
    exact ((((List.sublist_append_left _ _).cons _).trans (List.sublist_append_left _ _)).cons _).trans
      (List.sublist_append_right u _)
  · exact List.nil_sublist _

theorem tokens_of_mem_names {x : Nat × Text} (hx : x ∈ d.names) :
    Short x.2 ∧ ∃ u v, d.tokens = u ++ .mapKey nameKey :: .string x.1 x.2 :: v := by
  unfold Document.names at hx
  split at hx
  · next js hm =>
    obtain ⟨u, v, huv⟩ := tokens_of_member hm
    obtain ⟨j, hj, hn⟩ := List.mem_filterMap.mp hx
    obtain ⟨hs, u', v', hj'⟩ := tokens_of_nameOf hn
    obtain ⟨js₁, js₂, rfl⟩ := List.append_of_mem hj
    refine ⟨hs, u ++ .mapKey paramListKey :: .startArray :: (tokensOfElements js₁ ++ u'),
      v' ++ (tokensOfElements js₂ ++ .endArray :: v), ?_⟩
    rw [Document.tokens, huv, tokens, tokensOfElements_append, tokensOfElements, hj']
    simp
  · exact absurd hx List.not_mem_nil

theorem grabbed_sublist_document : (grabbed false (region d.tokens)).Sublist (strings d.tokens) :=
  (grabbed_sublist false _).trans ((region_sublist d.tokens).filterMap _)

theorem mem_grabbed_region {x : Nat × Text} : x ∈ grabbed false (region d.tokens) ↔ Follows (region d.tokens) x := by
  simp [mem_grabbed]

theorem cut_eq_self {x : Nat × Text} : cut x = x ↔ '\x00' ∉ x.2 := by
  constructor
  · intro h hnul
    rw [← h] at hnul
    have := List.mem_takeWhile_imp hnul
    simp at this
  · intro h
    rw [cut, cStr_of_noNul h]

/-- **The parser returns exactly the names a request lists, if and only if** every listed name is free of NUL and
stands in the stretch between the first `[` after the first key `paramList` and the next `]`, and every string that
fits and comes after a key `name` in that stretch is a listed one. -/
theorem httpJsonParse_iff :
    Parsed d ↔
      (∀ x ∈ d.names, '\x00' ∉ x.2 ∧ .string x.1 x.2 ∈ region d.tokens) ∧
        ∀ x, Follows (region d.tokens) x → x ∈ d.names := by
  have hnames : ∀ x ∈ d.names, x ∈ strings d.tokens := fun x hx => (names_sublist d).subset hx
  have hgrab : ∀ x ∈ grabbed false (region d.tokens), x ∈ strings d.tokens := fun x hx =>
    (grabbed_sublist_document d).subset hx
  -- a string that is returned is the one of its place
  have hcut : ∀ x ∈ grabbed false (region d.tokens), cut x ∈ d.names → cut x = x := fun x hx hc =>
    eq_of_place d.ordered (hnames _ hc) (hgrab x hx) rfl
  rw [Parsed, httpJsonParse_eq]
  constructor
  · intro h
    refine ⟨fun x hx => ?_, fun x hx => ?_⟩
    · rw [← h, List.mem_map] at hx
      obtain ⟨y, hy, rfl⟩ := hx
      have hyy : cut y = y := hcut y hy (h ▸ List.mem_map_of_mem hy)
      rw [hyy]
      exact ⟨cut_eq_self.mp hyy, mem_strings.mp ((grabbed_sublist false _).subset hy)⟩
    · have hg := (mem_grabbed_region d).mpr hx
      have hc : cut x ∈ d.names := h ▸ List.mem_map_of_mem hg
      rwa [hcut x hg hc] at hc
  · rintro ⟨hin, hout⟩
    have hmem : ∀ x, x ∈ grabbed false (region d.tokens) ↔ x ∈ d.names := by
      intro x
      rw [mem_grabbed_region]
      refine ⟨hout x, fun hx => ?_⟩
      obtain ⟨hs, u, v, huv⟩ := tokens_of_mem_names d hx
      exact follows_of_mem_region d.ordered huv hs (hin x hx).2
    have heq : grabbed false (region d.tokens) = d.names := by
      have hirrefl : Std.Irrefl fun x y : Nat × Text => x.1 < y.1 := ⟨fun x => Nat.lt_irrefl x.1⟩
      have hanti : Std.Antisymm fun x y : Nat × Text => x.1 < y.1 :=
        ⟨fun x y h h' => absurd h' (Nat.lt_asymm h)⟩
      exact (d.ordered.sublist (grabbed_sublist_document d)).eq_of_mem_iff (d.ordered.sublist (names_sublist d)) hmem
    rw [heq]
    exact (List.map_congr_left fun x hx => cut_eq_self.mpr (hin x hx).1).trans (List.map_id _)

end

/-- A request whose only parameter has an attribute with a name of its own. -/
def nestedName : Document where
  members := [(paramListKey, .array [.object [(nameKey, .string 0 "Device.A".toList),
    ("attribute".toList, .object [(nameKey, .string 1 "x".toList)])]])]
  ordered := by decide

/-- The name of the attribute is returned as a parameter. -/
theorem nested_name_returned :
    httpJsonParse nestedName.tokens = [(0, "Device.A".toList), (1, "x".toList)] ∧
      nestedName.names = [(0, "Device.A".toList)] ∧ ¬ Parsed nestedName := by
  refine ⟨by decide, by rfl, fun h => ?_⟩
  have hlen := congrArg List.length h
  revert hlen
  decide

end Tr69HostIf.JsonParse
