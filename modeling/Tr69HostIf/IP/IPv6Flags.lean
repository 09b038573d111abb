import Tr69HostIf.Store.Watch
import Tr69HostIf.Transport.Message

/-!
# When an IPv6 address or prefix says that it has changed

The `Enable` and `Status` getters of `hostIf_IPv6Address`. An object has one flag for `Enable` and one for `Status`,
which addresses and prefixes share, and one backup for each getter, which all sub-instances share.

* `IPv6Address`, `IPv6Address.read` : the object and its getters;
* `ipv6Tells_iff` : along which reads they tell exactly the changes.
-/

namespace Tr69HostIf.IP
open Store Transport

/-- `Enabled` or `Disabled`. -/
def statusText (found : Bool) : CString := .ofLiteral (if found then "Enabled" else "Disabled")

/-- `hostIf_IPv6Address` as its constructor makes it. -/
structure IPv6Address where
  bCalledEnable : Bool := false
  bCalledStatus : Bool := false
  backupIPv6AddressEnable : Bool := false
  backupIPv6AddressStatus : CString := statusText false
  backupIPv6PrefixEnable : Bool := false
  backupIPv6PrefixStatus : CString := statusText false

/-- The four getters. -/
inductive IPv6Getter
  | addressEnable | addressStatus | prefixEnable | prefixStatus
  deriving DecidableEq

/-- The two flags. -/
inductive IPv6Flag
  | enable | status
  deriving DecidableEq

/-- The flag of a getter. -/
def IPv6Getter.flag : IPv6Getter → IPv6Flag
  | .addressEnable | .prefixEnable => .enable
  | .addressStatus | .prefixStatus => .status

/-- What a getter puts into the message. -/
def IPv6Getter.value (g : IPv6Getter) (found : Bool) : Value :=
  match g.flag with
  | .enable => .boolean found
  | .status => .string (statusText found)

/-- A call of a getter: `found` is whether `getIPv6AddressAndMask` or `getIPv6Prefix` returns `OK`. -/
structure IPv6Read where
  getter : IPv6Getter
  subInstanceNo : Int
  found : Bool

/-- The parameter that is read. -/
def IPv6Read.param (i : IPv6Read) : IPv6Getter × Int := (i.getter, i.subInstanceNo)

/-- What the getter puts into the message. -/
def IPv6Read.value (i : IPv6Read) : Value := i.getter.value i.found

namespace IPv6Address
variable (s : IPv6Address)

/-- `get_IPv6Address_Enable`: `*pChanged`, and the object. -/
def getIPv6AddressEnable (enable : Bool) : Bool × IPv6Address :=
  (s.bCalledEnable && decide (s.backupIPv6AddressEnable ≠ enable),
    { s with bCalledEnable := true, backupIPv6AddressEnable := enable })

/-- `get_IPv6Address_Status`. -/
def getIPv6AddressStatus (found : Bool) : Bool × IPv6Address :=
  (s.bCalledStatus && decide (s.backupIPv6AddressStatus ≠ statusText found),
    { s with bCalledStatus := true, backupIPv6AddressStatus := statusText found })

/-- `get_IPv6Prefix_Enable`. -/
def getIPv6PrefixEnable (enable : Bool) : Bool × IPv6Address :=
  (s.bCalledEnable && decide (s.backupIPv6PrefixEnable ≠ enable),
    { s with bCalledEnable := true, backupIPv6PrefixEnable := enable })

/-- `get_IPv6Prefix_Status`. -/
def getIPv6PrefixStatus (found : Bool) : Bool × IPv6Address :=
  (s.bCalledStatus && decide (s.backupIPv6PrefixStatus ≠ statusText found),
    { s with bCalledStatus := true, backupIPv6PrefixStatus := statusText found })

/-- One call; the sub-instance only says which address or prefix is looked for. -/
def read (i : IPv6Read) : Bool × IPv6Address :=
  match i.getter with
  | .addressEnable => s.getIPv6AddressEnable i.found
  | .addressStatus => s.getIPv6AddressStatus i.found
  | .prefixEnable => s.getIPv6PrefixEnable i.found
  | .prefixStatus => s.getIPv6PrefixStatus i.found

/-- A flag. -/
def called : IPv6Flag → Bool
  | .enable => s.bCalledEnable
  | .status => s.bCalledStatus

/-- The backup of a getter. -/
def backup : IPv6Getter → Value
  | .addressEnable => .boolean s.backupIPv6AddressEnable
  | .addressStatus => .string s.backupIPv6AddressStatus
  | .prefixEnable => .boolean s.backupIPv6PrefixEnable
  | .prefixStatus => .string s.backupIPv6PrefixStatus

theorem called_read (i : IPv6Read) : (s.read i).2.called = Function.update s.called i.getter.flag true := by
  obtain ⟨g, n, found⟩ := i
  funext f
  cases g <;> cases f <;> rfl

theorem backup_read (i : IPv6Read) : (s.read i).2.backup = Function.update s.backup i.getter i.value := by
  obtain ⟨g, n, found⟩ := i
  funext g'
  cases g <;> cases g' <;> rfl

theorem read_eq (i : IPv6Read) :
    (s.read i).1 = (s.called i.getter.flag && decide (s.backup i.getter ≠ i.value)) := by
  obtain ⟨g, n, found⟩ := i
  have hboolean : ∀ a b : Bool, (Value.boolean a ≠ Value.boolean b) = (a ≠ b) := fun a b => by rw [Ne, Value.boolean.injEq]
  have hstring : ∀ a b : CString, (Value.string a ≠ Value.string b) = (a ≠ b) := fun a b => by rw [Ne, Value.string.injEq]
  cases g <;> simp only [backup, IPv6Read.value, IPv6Getter.value, IPv6Getter.flag, hboolean, hstring] <;> rfl

end IPv6Address

theorem value_injective (g : IPv6Getter) {a b : Bool} : g.value a = g.value b ↔ a = b := by
  constructor
  · revert a b
    cases g <;> decide
  · exact congrArg g.value

section
variable {h : List IPv6Read} {i : IPv6Read} {u : Value}

/-- The last value of a parameter. -/
def lastParam (h : List IPv6Read) (p : IPv6Getter × Int) : Option Value := lastOf (h.map fun i => (i.param, i.value)) p

/-- The last value of a getter, whatever the sub-instance. -/
def lastGetter (h : List IPv6Read) (g : IPv6Getter) : Option Value := lastOf (h.map fun i => (i.getter, i.value)) g

/-- What the backup of a getter is given first: that nothing is found. -/
def IPv6Getter.given (g : IPv6Getter) : Value := g.value false

/-- If the parameter was read before, the last read of its getter returned what the last read of the parameter did; if
not, neither getter of its flag was called before, or its own would return again what is in the backup. -/
structure Undisturbed (h : List IPv6Read) (i : IPv6Read) : Prop where
  again : ∀ u, lastParam h i.param = some u → lastGetter h i.getter = some u
  first : lastParam h i.param = none →
    (∀ r ∈ h, r.getter.flag ≠ i.getter.flag) ∨ (lastGetter h i.getter).getD i.getter.given = i.value

theorem lastGetter_value (hu : lastGetter h i.getter = some u) : ∃ b, u = i.getter.value b := by
  obtain ⟨r, -, heq⟩ := List.mem_map.mp (mem_of_lastOf hu)
  obtain ⟨hgetter, hvalue⟩ := Prod.mk.inj heq
  exact ⟨r.found, by rw [← hvalue, ← hgetter]; rfl⟩

theorem lastParam_value (hu : lastParam h i.param = some u) : ∃ b, u = i.getter.value b := by
  obtain ⟨r, -, heq⟩ := List.mem_map.mp (mem_of_lastOf hu)
  obtain ⟨hparam, hvalue⟩ := Prod.mk.inj heq
  have hgetter : r.getter = i.getter := congrArg Prod.fst hparam
  exact ⟨r.found, by rw [← hvalue, ← hgetter]; rfl⟩

/-- A parameter that was read has been read through its getter. -/
theorem lastGetter_of_lastParam (hu : lastParam h i.param = some u) : ∃ w, lastGetter h i.getter = some w := by
  obtain ⟨r, hr, heq⟩ := List.mem_map.mp (mem_of_lastOf hu)
  have hgetter : r.getter = i.getter := congrArg (fun x => x.1.1) heq
  apply Option.isSome_iff_exists.mp
  rw [lastGetter, lastOf_isSome, List.map_map]
  exact List.mem_map.mpr ⟨r, hr, hgetter⟩

theorem called_of_lastGetter (hu : lastGetter h i.getter = some u) : i.getter.flag ∈ h.map fun r => r.getter.flag := by
  obtain ⟨r, hr, heq⟩ := List.mem_map.mp (mem_of_lastOf hu)
  have hgetter : r.getter = i.getter := congrArg Prod.fst heq
  exact List.mem_map.mpr ⟨r, hr, congrArg IPv6Getter.flag hgetter⟩

theorem undisturbed_of_read {w : Value} (hp : lastParam h i.param = some u) (hw : lastGetter h i.getter = some w) :
    Undisturbed h i ↔ w = u := by
  constructor
  · intro hund
    have hsame := hund.again u hp
    rw [hw, Option.some.injEq] at hsame
    exact hsame
  · rintro rfl
    constructor
    · intro u hu
      rw [hw, ← hp, hu]
    · intro hnone
      rw [hp] at hnone
      cases hnone

theorem undisturbed_of_unread (hp : lastParam h i.param = none) :
    Undisturbed h i ↔ i.getter.flag ∉ (h.map fun r => r.getter.flag) ∨
      (lastGetter h i.getter).getD i.getter.given = i.value := by
  have hmem : i.getter.flag ∉ (h.map fun r => r.getter.flag) ↔ ∀ r ∈ h, r.getter.flag ≠ i.getter.flag := by
    rw [List.mem_map, not_exists]
    exact ⟨fun hno r hr heq => hno r ⟨hr, heq⟩, fun hne r hr => hne r hr.1 hr.2⟩
  rw [hmem]
  constructor
  · exact fun hund => hund.first hp
  · intro hor
    constructor
    · intro u hu
      rw [hp] at hu
      cases hu
    · exact fun _ => hor

/-- A comparison of two values that a getter can return. -/
theorem agree_iff_eq {a b : Bool} (c : Bool) :
    ((i.getter.value a ≠ i.getter.value c) ↔ i.getter.value b ≠ i.getter.value c) ↔ i.getter.value a = i.getter.value b := by
  rw [Ne, Ne, value_injective, value_injective, value_injective]
  cases a <;> cases b <;> cases c <;> decide

/-- Before the first read nothing has been called, and the copies are those of the constructor. -/
theorem remembers_fresh : Remembers (fun i => i.getter.flag) IPv6Read.getter IPv6Read.value IPv6Getter.given
    (IPv6Address.called {}) (IPv6Address.backup {}) [] := by
  have hcalled : IPv6Address.called {} = fun _ => false := by
    funext f
    cases f <;> rfl
  have hgiven : IPv6Address.backup {} = IPv6Getter.given := by
    funext g
    cases g <;> rfl
  rw [hcalled, hgiven]
  exact remembers_nil

end

/-- **Along which reads the getters tell exactly the changes.** -/
theorem ipv6Tells_iff (l : List IPv6Read) :
    TellsChanges IPv6Address.read IPv6Read.param IPv6Read.value {} l ↔ AtEach l Undisturbed := by
  let I : List IPv6Read → IPv6Address → Prop := fun h s =>
    Remembers (fun i => i.getter.flag) IPv6Read.getter IPv6Read.value IPv6Getter.given s.called s.backup h
  apply tellsChanges_iff (I := I)
  · exact remembers_fresh
  · intro h s i hI
    show Remembers _ _ _ _ (s.read i).2.called (s.read i).2.backup (h ++ [i])
    rw [s.called_read, s.backup_read]
    exact Remembers.read hI i
  · intro h s i hI
    have htells : (s.read i).1 = true ↔ i.getter.flag ∈ (h.map fun r => r.getter.flag) ∧
        (lastGetter h i.getter).getD i.getter.given ≠ i.value := by
      rw [s.read_eq, Bool.and_eq_true, decide_eq_true_eq, hI.called_iff, hI.backup_eq]
      rfl
    have hchanged : Changed (h.map fun i => (i.param, i.value)) i.param i.value ↔
        ∃ u, lastParam h i.param = some u ∧ u ≠ i.value := Iff.rfl
    rw [htells, hchanged]
    cases hp : lastParam h i.param with
    | some u =>
        obtain ⟨w, hw⟩ := lastGetter_of_lastParam hp
        obtain ⟨a, rfl⟩ := lastGetter_value hw
        obtain ⟨b, rfl⟩ := lastParam_value hp
        have hcalled := called_of_lastGetter hw
        rw [undisturbed_of_read hp hw, ← agree_iff_eq i.found, hw]
        simp [hcalled, IPv6Read.value]
    | none =>
        have hno : ¬∃ u, (none : Option Value) = some u ∧ u ≠ i.value := by
          rintro ⟨u, hu, -⟩
          cases hu
        rw [undisturbed_of_unread hp, iff_false_right hno, not_and_or, not_not]

end Tr69HostIf.IP
