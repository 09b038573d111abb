import Tr69HostIf.Mgr.Routing
import Tr69HostIf.Store.Fault

/-!
# The attributes of parameters

`handleSetAttributesMsg`, `handleGetAttributesMsg` and the value-change part of `checkForUpdates` of the request
handlers, with `getParamAttributes` and `setParamAttributes` of `webpa_attribute.cpp` and the IARM calls in front of
them. A handler keeps the parameters whose changes are to be notified in a `GHashTable`, which stores pointers to the
keys and the values. Four of the handlers free both as soon as they are stored, so whatever compares or lists the
keys afterwards reads freed memory. `route` is `HostIf_GetMgr`, `g_notifyParamList` the configured parameters; the
build has `HAVE_VALUE_CHANGE_EVENT`.

* `lookup`, `insert` : `g_hash_table_lookup` and `g_hash_table_insert`, which compare the keys of one hash;
* `Safe` : a request that may come after those before it;
* `attributes_safe_iff` : which sequences of requests are without a fault.
-/

namespace Tr69HostIf.Notify.Attributes
open Store Mgr

/-- What a read through one of the table's pointers runs into. -/
inductive AttrFault
  | freedKey | freedValue | nullValue
  deriving DecidableEq

/-- A node of the table, with whether the memory of its key and of its value is still allocated. -/
structure Node where
  key : CString
  keyAlive : Bool
  valueAlive : Bool
  deriving DecidableEq

/-- The hash of a node: 0 and 1 stand for nodes that are not in use. -/
def nodeHash (name : CString) : Nat := if strHash name.chars < 2 then 2 else strHash name.chars

/-- `g_hash_table_lookup`: a key is compared when the hash is the same. -/
def lookup (name : CString) : List Node → Except AttrFault (Option Node)
  | [] => .ok none
  | n :: table =>
      if nodeHash n.key = nodeHash name then
        if !n.keyAlive then .error .freedKey
        else if n.key = name then .ok (some n)
        else lookup name table
      else lookup name table

/-- `g_hash_table_insert` of a new key and a new value, and the two calls of `free` behind it where the handler
`frees` them. A key that is there already stays, with the new value. -/
def insert (frees : Bool) (name : CString) (table : List Node) : Except AttrFault (List Node) :=
  (lookup name table).map fun
    | none => table ++ [⟨name, !frees, !frees⟩]
    | some _ => table.map fun n => if n.key = name then { n with valueAlive := !frees } else n

/-- What a handler answers. -/
inductive Answer
  | ok (value : Option Int) | nok | notHandled
  deriving DecidableEq

/-- `handleSetAttributesMsg` of the handlers that have a table. -/
def storeAttribute (frees : Bool) (name : CString) (table : List Node) : Except AttrFault (Answer × List Node) :=
  (insert frees name table).map fun t => (.ok none, t)

/-- `handleGetAttributesMsg` of the same: the value is the 1 that was stored. -/
def readAttribute (name : CString) (table : List Node) : Except AttrFault (Answer × List Node) :=
  match lookup name table with
  | .error e => .error e
  | .ok none => .error .nullValue
  | .ok (some n) => if n.valueAlive then .ok (.ok (some 1), table) else .error .freedValue

/-- `handleSetAttributesMsg`. There is no instance 0 of `hostif_InterfaceStack`. -/
def handleSetAttributesMsg : Handler → CString → List Node → Except AttrFault (Answer × List Node)
  | .deviceClient | .ipClient | .ethernetClient | .timeClient => storeAttribute true
  | .dhcpv4Client | .mocaClient => storeAttribute false
  | .interfaceStackClient => fun _ table => .ok (.nok, table)
  | .dsClient | .xreClient | .storageSrvc | .xRdkCentralT2 | .xRdk => fun _ table => .ok (.notHandled, table)

/-- `handleGetAttributesMsg`. That of `TimeClientReqHandler` is the same as its `handleSetAttributesMsg`. -/
def handleGetAttributesMsg : Handler → CString → List Node → Except AttrFault (Answer × List Node)
  | .deviceClient | .ipClient | .ethernetClient => readAttribute
  | .timeClient => storeAttribute true
  | .dhcpv4Client | .mocaClient => readAttribute
  | .interfaceStackClient => fun _ table => .ok (.nok, table)
  | .dsClient | .xreClient | .storageSrvc | .xRdkCentralT2 | .xRdk => fun _ table => .ok (.notHandled, table)

/-- The loop of `checkForUpdates` over the table, which reads every key. -/
def listKeys (table : List Node) : Except AttrFault (List CString) :=
  if ∀ n ∈ table, n.keyAlive = true then .ok (table.map Node.key) else .error .freedKey

/-- `checkForUpdates`: the parameters it looks at. -/
def checkForUpdates : Handler → List Node → Except AttrFault (List CString)
  | .deviceClient | .ipClient | .ethernetClient | .timeClient | .dhcpv4Client | .mocaClient => listKeys
  | _ => fun _ => .ok []

/-- The tables, one for each handler. -/
abbrev Tables := Handler → List Node

inductive Request
  /-- `_SetAttributestr69HostIfMgr` and `_GetAttributestr69HostIfMgr`, which calls the same handler -/
  | iarm (name : CString)
  /-- `setParamAttributes`, which `setInitialNotify` calls for every configured parameter -/
  | set (name : CString)
  /-- `getParamAttributes` -/
  | get (name : CString)
  /-- one handler's part of `updateHandler::Run` -/
  | poll (handler : Handler)
  deriving DecidableEq

section
variable (route : CString → Option Handler) (g_notifyParamList : List CString)

/-- `hostIf_SetAttributesMsgHandler`, `hostIf_GetAttributesMsgHandler`: one of the two handlers of the manager. -/
def attributesMsgHandler (handle : Handler → CString → List Node → Except AttrFault (Answer × List Node))
    (name : CString) (s : Tables) : Except AttrFault (Answer × Tables) :=
  match route name with
  | none => .ok (.nok, s)
  | some h => (handle h name (s h)).map fun r => (r.1, Function.update s h r.2)

/-- `setParamAttributes`: a success for the parameters that are not configured. -/
def setParamAttributes (name : CString) (s : Tables) : Except AttrFault (Answer × Tables) :=
  if name ∈ g_notifyParamList then attributesMsgHandler route handleSetAttributesMsg name s else .ok (.ok none, s)

/-- `getParamAttributes`: the text it makes of the value, none for a parameter that is not configured. The integer in
the buffer is read as a string. -/
def getParamAttributes (name : CString) (s : Tables) : Except AttrFault (Option Text × Tables) :=
  if name ∈ g_notifyParamList then
    (attributesMsgHandler route handleGetAttributesMsg name s).map fun r =>
      (some (if r.1 = .ok (some 1) then ['\x01'] else []), r.2)
  else .ok (none, s)

/-- `setInitialNotify`. -/
def setInitialNotify : List Request := g_notifyParamList.map .set

/-- One request. -/
def step (s : Tables) : Request → Except AttrFault Tables
  | .iarm name => (attributesMsgHandler route handleSetAttributesMsg name s).map Prod.snd
  | .set name => (setParamAttributes route g_notifyParamList name s).map Prod.snd
  | .get name => (getParamAttributes route g_notifyParamList name s).map Prod.snd
  | .poll h => (checkForUpdates h (s h)).map fun _ => s

end

/-! ## What a request does to the tables -/

/-- The handlers that free what they store. -/
def frees : Handler → Bool
  | .deviceClient | .ipClient | .ethernetClient | .timeClient => true
  | _ => false

/-- The handlers that have a table. -/
def hasTable (h : Handler) : Bool := frees h || h == .dhcpv4Client || h == .mocaClient

inductive Effect
  | store (h : Handler) (name : CString)
  | read (h : Handler) (name : CString)
  | list (h : Handler)
  | nothing
  deriving DecidableEq

section
variable (route : CString → Option Handler) (g_notifyParamList : List CString)

/-- The handler that stores the name. -/
def setEffect (name : CString) : Effect :=
  match (route name).filter hasTable with
  | some h => .store h name
  | none => .nothing

/-- The handler that reads the value of the name, or stores it in its place. -/
def getEffect (name : CString) : Effect :=
  match (route name).filter hasTable with
  | some h => if h = .timeClient then .store h name else .read h name
  | none => .nothing

def effect : Request → Effect
  | .iarm name => setEffect route name
  | .set name => if name ∈ g_notifyParamList then setEffect route name else .nothing
  | .get name => if name ∈ g_notifyParamList then getEffect route name else .nothing
  | .poll h => if hasTable h then .list h else .nothing

/-- The names stored with a handler so far. -/
def stored (before : List Request) (h : Handler) : List CString :=
  before.filterMap fun r =>
    match effect route g_notifyParamList r with
    | .store h' name => if h' = h then some name else none
    | _ => none

/-- An effect that touches no freed memory and finds what it reads: a handler that frees what it stores stores no two
names of one hash, reads nothing and has stored nothing when its table is listed. -/
def Effect.Safe (before : List Request) : Effect → Prop
  | .store h name => frees h = true → ∀ n ∈ stored route g_notifyParamList before h, nodeHash n ≠ nodeHash name
  | .read h name => frees h = false ∧ name ∈ stored route g_notifyParamList before h
  | .list h => frees h = true → stored route g_notifyParamList before h = []
  | .nothing => True

/-- A request that may come after those before it. -/
def Safe (before : List Request) (r : Request) : Prop :=
  (effect route g_notifyParamList r).Safe route g_notifyParamList before

instance (before : List Request) (r : Request) : Decidable (Safe route g_notifyParamList before r) := by
  unfold Safe
  cases effect route g_notifyParamList r with
  | store h name => exact inferInstanceAs (Decidable (_ → _))
  | read h name => exact inferInstanceAs (Decidable (_ ∧ _))
  | list h => exact inferInstanceAs (Decidable (_ → _))
  | nothing => exact inferInstanceAs (Decidable True)

end

/-- The effect on the tables. -/
def Effect.apply (s : Tables) : Effect → Except AttrFault Tables
  | .store h name => (insert (frees h) name (s h)).map (Function.update s h)
  | .read h name => (readAttribute name (s h)).map fun _ => s
  | .list h => (listKeys (s h)).map fun _ => s
  | .nothing => .ok s

section
variable {route : CString → Option Handler} {g_notifyParamList : List CString} {s : Tables}

theorem attributesMsgHandler_set (name : CString) :
    (attributesMsgHandler route handleSetAttributesMsg name s).map Prod.snd = (setEffect route name).apply s := by
  unfold attributesMsgHandler setEffect
  cases hr : route name with
  | none => rfl
  | some h =>
      have hstore : ∀ b : Bool, ((storeAttribute b name (s h)).map fun r => (r.1, Function.update s h r.2)).map Prod.snd =
          (insert b name (s h)).map (Function.update s h) := by
        intro b
        unfold storeAttribute
        cases insert b name (s h) <;> rfl
      cases h <;> first | exact hstore _ | exact congrArg Except.ok (Function.update_eq_self _ s)

theorem readAttribute_table {name : CString} {table t : List Node} {a : Answer}
    (h : readAttribute name table = .ok (a, t)) : t = table := by
  unfold readAttribute at h
  split at h
  · cases h
  · cases h
  · split at h
    · cases h
      rfl
    · cases h

theorem attributesMsgHandler_get (name : CString) :
    (attributesMsgHandler route handleGetAttributesMsg name s).map Prod.snd = (getEffect route name).apply s := by
  unfold attributesMsgHandler getEffect
  cases hr : route name with
  | none => rfl
  | some h =>
      have hread : ((readAttribute name (s h)).map fun r => (r.1, Function.update s h r.2)).map Prod.snd =
          (readAttribute name (s h)).map fun _ => s := by
        cases hr : readAttribute name (s h) with
        | error e => rfl
        | ok r =>
            obtain ⟨a, t⟩ := r
            obtain rfl := readAttribute_table hr
            exact congrArg Except.ok (Function.update_eq_self _ s)
      have hstore : ((storeAttribute true name (s h)).map fun r => (r.1, Function.update s h r.2)).map Prod.snd =
          (insert true name (s h)).map (Function.update s h) := by
        unfold storeAttribute
        cases insert true name (s h) <;> rfl
      cases h <;>
        first
        | exact hread
        | exact hstore
        | exact congrArg Except.ok (Function.update_eq_self _ s)

theorem step_eq (r : Request) : step route g_notifyParamList s r = (effect route g_notifyParamList r).apply s := by
  cases r with
  | iarm name => exact attributesMsgHandler_set name
  | set name =>
      simp only [step, setParamAttributes, effect]
      split
      · exact attributesMsgHandler_set name
      · rfl
  | get name =>
      simp only [step, getParamAttributes, effect]
      split
      · rw [← attributesMsgHandler_get]
        cases attributesMsgHandler route handleGetAttributesMsg name s <;> rfl
      · rfl
  | poll h => cases h <;> rfl

end

/-! ## Tables whose keys are all freed, or all alive -/

section
variable {table : List Node} {name : CString}

theorem lookup_freed (h : ∀ n ∈ table, n.keyAlive = false) :
    lookup name table = if ∃ n ∈ table, nodeHash n.key = nodeHash name then .error .freedKey else .ok none := by
  induction table with
  | nil => simp [lookup]
  | cons n table ih =>
      obtain ⟨hn, htable⟩ := List.forall_mem_cons.mp h
      rw [lookup, ih htable]
      by_cases hh : nodeHash n.key = nodeHash name
      · rw [if_pos hh, hn]
        exact (if_pos ⟨n, List.mem_cons_self, hh⟩).symm
      · simp [hh]

theorem lookup_alive (h : ∀ n ∈ table, n.keyAlive = true) :
    lookup name table = .ok (table.find? fun n => n.key = name) := by
  induction table with
  | nil => rfl
  | cons n table ih =>
      obtain ⟨hn, htable⟩ := List.forall_mem_cons.mp h
      rw [lookup, ih htable, hn]
      by_cases hk : n.key = name
      · simp [hk]
      · simp [hk]

/-- A handler that frees stores a name whose hash is new, and the name is freed. -/
theorem insert_freed (h : ∀ n ∈ table, n.keyAlive = false) :
    insert true name table =
      if ∃ n ∈ table, nodeHash n.key = nodeHash name then .error .freedKey
      else .ok (table ++ [⟨name, false, false⟩]) := by
  rw [insert, lookup_freed h]
  split <;> rfl

/-- A handler that keeps what it stores has the name in its table afterwards. -/
theorem insert_alive (h : ∀ n ∈ table, n.keyAlive = true ∧ n.valueAlive = true) :
    ∃ t, insert false name table = .ok t ∧ (∀ n ∈ t, n.keyAlive = true ∧ n.valueAlive = true) ∧
      ∀ k, k ∈ t.map Node.key ↔ k ∈ table.map Node.key ∨ k = name := by
  rw [insert, lookup_alive fun n hn => (h n hn).1]
  cases hf : table.find? fun n => n.key = name with
  | none =>
      refine ⟨table ++ [⟨name, true, true⟩], rfl, ?_, fun k => by simp⟩
      intro n hn
      rcases List.mem_append.mp hn with hn | hn
      · exact h n hn
      · rw [List.mem_singleton.mp hn]
        exact ⟨rfl, rfl⟩
  | some n =>
      have hkey : ∀ m : Node, (if m.key = name then { m with valueAlive := !false } else m).key = m.key := by
        intro m
        split <;> rfl
      refine ⟨_, rfl, ?_, ?_⟩
      · intro m hm
        obtain ⟨m', hm', rfl⟩ := List.mem_map.mp hm
        split
        · exact ⟨(h m' hm').1, rfl⟩
        · exact h m' hm'
      · intro k
        have hmap : (table.map fun m => if m.key = name then { m with valueAlive := !false } else m).map Node.key =
            table.map Node.key := by
          rw [List.map_map]
          exact List.map_congr_left fun m _ => hkey m
        rw [hmap]
        refine ⟨Or.inl, ?_⟩
        rintro (hk | rfl)
        · exact hk
        · exact List.mem_map.mpr ⟨n, List.mem_of_find?_eq_some hf, by simpa using List.find?_some hf⟩

/-- The value is found when the name is there, in a table that is kept. -/
theorem readAttribute_alive (h : ∀ n ∈ table, n.keyAlive = true ∧ n.valueAlive = true) :
    readAttribute name table =
      if name ∈ table.map Node.key then .ok (.ok (some 1), table) else .error .nullValue := by
  rw [readAttribute, lookup_alive fun n hn => (h n hn).1]
  cases hf : table.find? fun n => n.key = name with
  | none =>
      have hno : name ∉ table.map Node.key := by
        intro hmem
        obtain ⟨n, hn, hk⟩ := List.mem_map.mp hmem
        simpa [hk] using List.find?_eq_none.mp hf n hn
      rw [if_neg hno]
  | some n =>
      have hn := List.mem_of_find?_eq_some hf
      have hk : n.key = name := by simpa using List.find?_some hf
      rw [if_pos (List.mem_map.mpr ⟨n, hn, hk⟩)]
      simp only [(h n hn).2, if_true]

/-- A handler that frees what it stores finds no value. -/
theorem readAttribute_freed (h : ∀ n ∈ table, n.keyAlive = false) : ∃ e, readAttribute name table = .error e := by
  rw [readAttribute, lookup_freed h]
  split
  · next hl =>
    split at hl
    · exact ⟨_, rfl⟩
    · cases hl
  · exact ⟨_, rfl⟩
  · next hl => split at hl <;> cases hl

end

/-! ## Sequences of requests -/

section
variable (route : CString → Option Handler) (g_notifyParamList : List CString) in
/-- What the requests so far have made of the tables. -/
structure Holds (before : List Request) (s : Tables) : Prop where
  keys : ∀ h k, k ∈ (s h).map Node.key ↔ k ∈ stored route g_notifyParamList before h
  freed : ∀ h, frees h = true → ∀ n ∈ s h, n.keyAlive = false
  alive : ∀ h, frees h = false → ∀ n ∈ s h, n.keyAlive = true ∧ n.valueAlive = true

variable {route : CString → Option Handler} {g_notifyParamList : List CString}

theorem stored_append (before : List Request) (r : Request) (h : Handler) (k : CString) :
    k ∈ stored route g_notifyParamList (before ++ [r]) h ↔
      k ∈ stored route g_notifyParamList before h ∨ effect route g_notifyParamList r = .store h k := by
  unfold stored
  rw [List.filterMap_append, List.mem_append]
  apply or_congr_right
  rw [List.mem_filterMap]
  cases he : effect route g_notifyParamList r with
  | store h' n =>
      by_cases hh : h' = h
      · simp [he, hh, eq_comm]
      · simp [he, hh]
  | read h' n => simp [he]
  | list h' => simp [he]
  | nothing => simp [he]

theorem Holds.same {before : List Request} {s : Tables} {r : Request}
    (hI : Holds route g_notifyParamList before s)
    (hr : ∀ h k, effect route g_notifyParamList r ≠ .store h k) :
    Holds route g_notifyParamList (before ++ [r]) s := by
  refine ⟨fun h k => ?_, hI.freed, hI.alive⟩
  rw [stored_append, hI.keys]
  exact (or_iff_left (hr h k)).symm

/-- The table of the handler has taken the name. -/
theorem Holds.store {before : List Request} {s : Tables} {r : Request} {h : Handler} {name : CString} {t : List Node}
    (hI : Holds route g_notifyParamList before s)
    (hr : effect route g_notifyParamList r = .store h name)
    (hkeys : ∀ k, k ∈ t.map Node.key ↔ k ∈ (s h).map Node.key ∨ k = name)
    (hfreed : frees h = true → ∀ n ∈ t, n.keyAlive = false)
    (halive : frees h = false → ∀ n ∈ t, n.keyAlive = true ∧ n.valueAlive = true) :
    Holds route g_notifyParamList (before ++ [r]) (Function.update s h t) := by
  constructor
  · intro h' k
    rw [stored_append, hr]
    by_cases hh : h' = h
    · subst hh
      rw [Function.update_self, hkeys, hI.keys, Effect.store.injEq, eq_comm (a := name)]
      simp
    · rw [Function.update_of_ne hh, hI.keys, Effect.store.injEq]
      simp [Ne.symm hh]
  · intro h' hf
    by_cases hh : h' = h
    · subst hh
      rw [Function.update_self]
      exact hfreed hf
    · rw [Function.update_of_ne hh]
      exact hI.freed h' hf
  · intro h' hf
    by_cases hh : h' = h
    · subst hh
      rw [Function.update_self]
      exact halive hf
    · rw [Function.update_of_ne hh]
      exact hI.alive h' hf

/-- The table of a handler that frees is safe to list exactly when nothing has been stored. -/
theorem Holds.listKeys_ok {before : List Request} {s : Tables}
    (hI : Holds route g_notifyParamList before s) (h : Handler) :
    (∀ n ∈ s h, n.keyAlive = true) ↔ (Effect.list h).Safe route g_notifyParamList before := by
  have hempty : stored route g_notifyParamList before h = [] ↔ s h = [] := by
    rw [← List.map_eq_nil_iff (f := Node.key), List.eq_nil_iff_forall_not_mem, List.eq_nil_iff_forall_not_mem]
    exact forall_congr' fun k => not_congr (hI.keys h k).symm
  rw [Effect.Safe, hempty]
  cases hf : frees h with
  | false => exact iff_of_true (fun n hn => (hI.alive h hf n hn).1) nofun
  | true =>
      constructor
      · intro hall _
        rw [List.eq_nil_iff_forall_not_mem]
        intro n hn
        have := hall n hn
        rw [hI.freed h hf n hn] at this
        cases this
      · intro hnil n hn
        rw [hnil rfl] at hn
        cases hn

/-- No stored name has the hash when no node has. -/
theorem Holds.store_ok {before : List Request} {s : Tables}
    (hI : Holds route g_notifyParamList before s) (h : Handler) (name : CString) :
    (∀ n ∈ stored route g_notifyParamList before h, nodeHash n ≠ nodeHash name) ↔
      ¬∃ n ∈ s h, nodeHash n.key = nodeHash name := by
  push Not
  constructor
  · intro hall n hn
    exact hall n.key ((hI.keys h n.key).mp (List.mem_map_of_mem hn))
  · intro hall k hk
    obtain ⟨n, hn, rfl⟩ := List.mem_map.mp ((hI.keys h k).mpr hk)
    exact hall n hn

/-- **A request faults exactly when it is not safe**, and the tables go on holding what has been stored. -/
theorem Holds.step {before : List Request} {s : Tables} (r : Request)
    (hI : Holds route g_notifyParamList before s) :
    (Safe route g_notifyParamList before r ∧ ∃ t, step route g_notifyParamList s r = .ok t ∧
        Holds route g_notifyParamList (before ++ [r]) t) ∨
      (¬Safe route g_notifyParamList before r ∧ ∃ e, step route g_notifyParamList s r = .error e) := by
  rw [step_eq, Safe]
  cases he : effect route g_notifyParamList r with
  | nothing =>
      have hs := hI.same (r := r) fun h k hk => by rw [he] at hk; cases hk
      exact Or.inl ⟨trivial, s, rfl, hs⟩
  | list h =>
      have hs := hI.same (r := r) fun h k hk => by rw [he] at hk; cases hk
      rw [← hI.listKeys_ok, Effect.apply, listKeys]
      by_cases hall : ∀ n ∈ s h, n.keyAlive = true
      · rw [if_pos hall]
        exact Or.inl ⟨hall, s, rfl, hs⟩
      · rw [if_neg hall]
        exact Or.inr ⟨hall, _, rfl⟩
  | read h name =>
      have hs := hI.same (r := r) fun h k hk => by rw [he] at hk; cases hk
      rw [Effect.Safe, Effect.apply]
      cases hf : frees h with
      | true =>
          obtain ⟨e, hr⟩ : ∃ e, readAttribute name (s h) = .error e := readAttribute_freed (hI.freed h hf)
          rw [hr]
          exact Or.inr ⟨fun h => Bool.false_ne_true h.1.symm, e, rfl⟩
      | false =>
          rw [readAttribute_alive (hI.alive h hf), ← hI.keys]
          by_cases hk : name ∈ (s h).map Node.key
          · rw [if_pos hk]
            exact Or.inl ⟨⟨rfl, hk⟩, s, rfl, hs⟩
          · rw [if_neg hk]
            exact Or.inr ⟨fun h => hk h.2, _, rfl⟩
  | store h name =>
      rw [Effect.Safe, Effect.apply]
      cases hf : frees h with
      | true =>
          rw [hI.store_ok, insert_freed (hI.freed h hf)]
          by_cases hex : ∃ n ∈ s h, nodeHash n.key = nodeHash name
          · rw [if_pos hex]
            exact Or.inr ⟨fun hs => hs rfl hex, _, rfl⟩
          · rw [if_neg hex]
            refine Or.inl ⟨fun _ => hex, _, rfl, hI.store he (fun k => by simp) (fun _ n hn => ?_) fun hff => ?_⟩
            · rcases List.mem_append.mp hn with hn | hn
              · exact hI.freed h hf n hn
              · rw [List.mem_singleton.mp hn]
            · rw [hf] at hff
              cases hff
      | false =>
          obtain ⟨t, ht, halive, hkeys⟩ := @insert_alive (s h) name (hI.alive h hf)
          rw [ht]
          refine Or.inl ⟨nofun, _, rfl, hI.store he hkeys (fun hff => ?_) fun _ => halive⟩
          rw [hf] at hff
          cases hff

/-- **A sequence of requests is without a fault exactly when every request is safe after those before it.** -/
theorem attributes_safe_iff (route : CString → Option Handler) (g_notifyParamList : List CString) (l : List Request) :
    (tryRun (step route g_notifyParamList) (fun _ => []) l).isOk = true ↔
      AfterHistory (Safe route g_notifyParamList) [] l := by
  have hstart : Holds route g_notifyParamList [] fun _ => [] :=
    ⟨fun h k => by simp [stored], fun h _ n hn => absurd hn List.not_mem_nil, fun h _ n hn => absurd hn List.not_mem_nil⟩
  refine tryRun_isOk_iff (fun before s r hI hs => ?_) (fun before s r hI hs => ?_) hstart l
  · rcases hI.step r with ⟨-, h⟩ | ⟨hn, -⟩
    · exact h
    · exact absurd hs hn
  · rcases hI.step r with ⟨h, -⟩ | ⟨-, h⟩
    · exact absurd h hs
    · exact h

/-- A configured parameter of `DeviceInfo` is freed memory when the handler is polled for the first time. -/
example :
    let name := CString.ofLiteral "Device.DeviceInfo.UpTime"
    tryRun (step (fun _ => some .deviceClient) [name]) (fun _ => []) (setInitialNotify [name] ++ [.poll .deviceClient]) =
      .error .freedKey :=
  rfl

end

end Tr69HostIf.Notify.Attributes
