import Tr69HostIf.HostIf
import Tr69HostIf.Clib.Stream
import Tr69HostIf.Clib.Decimal

/-!
# The lifetimes and the status of an IPv6 address

`get_ipv6address_lifetime` reads a line of `ip -6 -o addr` and finds the keyword in it; the buffer `strLifetime` that it
then reads the number from has not been written.

* `getIPv6AddressLifetime`, `getIPv6AddressIPAddressStatus` : the code, `strLifetime` holding anything;
* `lifetimeOf`, `statusOf` : the lifetime that a line gives, and the status that two lifetimes give;
* `lifetime_right_iff`, `status_right_iff` : the lines for which the code is right whatever the buffer holds.
-/

namespace Tr69HostIf.IP
open Store Clib

/-- The two lifetimes of an address. -/
inductive LifetimeKey
  | valid | preferred
  deriving DecidableEq

/-- `search_string`. -/
def LifetimeKey.searchString : LifetimeKey → Text
  | .valid => "valid_lft".toList
  | .preferred => "preferred_lft".toList

/-- `BUFF_LENGTH_128`. -/
def resultBuffLength : Nat := 128

/-- Arithmetic of a `long`. -/
def toLong (z : Int) : Int := Int.bmod z (2 ^ 64)

/-- What the call of a getter finds: the buffer `strLifetime`, and the time. -/
structure Surroundings where
  strLifetime : CString
  time : Int

/-- Whether `time_units` starts with the letter, in any case. -/
def isUnit (letter : Char) (timeUnits : Text) : Bool := timeUnits.head?.any fun c => c.toLower = letter

/-- The time remaining that `strLifetime` gives: `-1` without a unit. -/
def secondsRemaining (strLifetime : Text) : Int :=
  let r := strtol strLifetime
  if isUnit 's' r.2 then r.1 else if isUnit 'm' r.2 then toLong (r.1 * 60) else -1

/-- `get_ipv6address_lifetime`; `none` is `false`. The text behind `search_string` is not copied into `strLifetime`. -/
def getIPv6AddressLifetime (key : LifetimeKey) (output : Text) (e : Surroundings) : Option Int :=
  if output = [] then none
  else match textBehind key.searchString (fgets resultBuffLength output).1 with
    | none => some (-1)
    | some _ =>
        if e.strLifetime.chars = "forever".toList then some (-2)
        else if secondsRemaining e.strLifetime.chars = -1 then some (-1)
        else some (toLong (e.time + secondsRemaining e.strLifetime.chars))

/-- The values of `IPAddressStatus`. -/
inductive IPAddressStatus
  | invalid | inaccessible | deprecated | preferred
  deriving DecidableEq

/-- Their texts. -/
def IPAddressStatus.text : IPAddressStatus → Text
  | .invalid => "Invalid".toList
  | .inaccessible => "Inaccessible".toList
  | .deprecated => "Deprecated".toList
  | .preferred => "Preferred".toList

/-- `STATE_UP` and `STATE_DOWN`. -/
def operationalState (up : Bool) : Text := if up then "Up".toList else "Down".toList

/-- The status by what has run out. -/
def statusOf (invalid down deprecated : Bool) : IPAddressStatus :=
  if invalid then .invalid else if down then .inaccessible else if deprecated then .deprecated else .preferred

/-- `get_IPv6Address_IPAddressStatus`, with the outputs of the two commands and `up` the interface's `IFF_UP`; `none` is
`NOK`. -/
def getIPv6AddressIPAddressStatus (validOutput preferredOutput : Text) (up : Bool) (e e' : Surroundings) : Option Text :=
  match getIPv6AddressLifetime .valid validOutput e, getIPv6AddressLifetime .preferred preferredOutput e' with
  | some validLft, some preferredLft =>
      some (statusOf (validLft = 0) (strcasecmp (operationalState up) "Down".toList) (preferredLft = 0)).text
  | _, _ => none

/-! ## What a line says -/

/-- A lifetime as a line gives it. -/
inductive Lifetime
  | unknown | forever | remaining (n : Nat)
  deriving DecidableEq

/-- `lifetime`, at a time. -/
def Lifetime.value (now : Int) : Lifetime → Int
  | .unknown => -1
  | .forever => -2
  | .remaining n => now + n

/-- The lifetime a word stands for: `forever`, or a number with its unit. -/
def lifetimeOfWord (word : Text) : Lifetime :=
  let digits := word.takeWhile Char.isDigit
  let units := word.drop digits.length
  if word = "forever".toList then .forever
  else if digits = [] then .unknown
  else if "sec".toList.isPrefixOf units then .remaining (natOf digits)
  else if "min".toList.isPrefixOf units then .remaining (60 * natOf digits)
  else .unknown

/-- The lifetime that a line gives behind the keyword. -/
def lifetimeOf (key : LifetimeKey) (line : Text) : Lifetime :=
  match textBehind key.searchString line with
  | none => .unknown
  | some t => lifetimeOfWord ((t.dropWhile isspace).takeWhile fun c => !isspace c)

/-- A line of output. -/
structure OutputLine where
  text : CString
  plain : '\n' ∉ text.chars

/-- The output that the line is. -/
def OutputLine.output (line : OutputLine) : Text := line.text.chars ++ ['\n']

section
variable {key : LifetimeKey} {line : OutputLine} {e : Surroundings}

/-- The keyword is in the part of the line that the buffer takes. -/
def Heard (key : LifetimeKey) (line : OutputLine) : Prop :=
  key.searchString <:+: line.text.chars.take (resultBuffLength - 1)

theorem searchString_plain (key : LifetimeKey) : '\n' ∉ key.searchString := by
  cases key <;> decide

theorem behind_output (key : LifetimeKey) (line : OutputLine) :
    (textBehind key.searchString (fgets resultBuffLength line.output).1).isSome = true ↔ Heard key line := by
  rw [textBehind_isSome, OutputLine.output, fgets_line line.plain, infix_take_line (searchString_plain key), Heard]

theorem output_ne_nil (line : OutputLine) : line.output ≠ [] := List.append_ne_nil_of_right_ne_nil _ (List.cons_ne_nil _ _)

theorem lifetime_of_unheard (h : ¬Heard key line) : getIPv6AddressLifetime key line.output e = some (-1) := by
  have hnone : textBehind key.searchString (fgets resultBuffLength line.output).1 = none := by
    rw [← Option.not_isSome_iff_eq_none, behind_output]
    exact h
  rw [getIPv6AddressLifetime, if_neg (output_ne_nil line), hnone]

/-- Once the keyword is heard, the line says nothing more. -/
theorem lifetime_of_heard (h : Heard key line) :
    getIPv6AddressLifetime key line.output e =
      if e.strLifetime.chars = "forever".toList then some (-2)
      else if secondsRemaining e.strLifetime.chars = -1 then some (-1)
      else some (toLong (e.time + secondsRemaining e.strLifetime.chars)) := by
  obtain ⟨t, ht⟩ := Option.isSome_iff_exists.mp ((behind_output key line).mpr h)
  rw [getIPv6AddressLifetime, if_neg (output_ne_nil line), ht]

/-- The time of the examples. -/
def someTime : Int := 1700000000

/-- The buffer holds `forever`. -/
def saysForever : Surroundings := ⟨⟨"forever".toList, by decide⟩, someTime⟩

/-- The buffer holds nothing. -/
def saysNothing : Surroundings := ⟨.ofLiteral "", someTime⟩

/-- The buffer holds the time that brings the lifetime to zero. -/
def saysOver : Surroundings := ⟨⟨"-1700000000sec".toList, by decide⟩, someTime⟩

theorem lifetime_forever (h : Heard key line) : getIPv6AddressLifetime key line.output saysForever = some (-2) := by
  rw [lifetime_of_heard h]
  rfl

theorem lifetime_nothing (h : Heard key line) : getIPv6AddressLifetime key line.output saysNothing = some (-1) := by
  rw [lifetime_of_heard h]
  rfl

theorem lifetime_over (h : Heard key line) : getIPv6AddressLifetime key line.output saysOver = some 0 := by
  rw [lifetime_of_heard h]
  decide +kernel

/-- The lifetime is that of the line, whatever the buffer holds, exactly when there is none to read. -/
theorem lifetime_right_iff (key : LifetimeKey) (line : OutputLine) :
    (∀ e, getIPv6AddressLifetime key line.output e = some ((lifetimeOf key line.text.chars).value e.time)) ↔
      ¬Heard key line ∧ lifetimeOf key line.text.chars = .unknown := by
  constructor
  · intro h
    have hunheard : ¬Heard key line := fun hheard => by
      have hsame : some (-2 : Int) = some (-1) := by
        rw [← lifetime_forever hheard, ← lifetime_nothing hheard, h, h]
        rfl
      exact absurd hsame (by decide)
    refine ⟨hunheard, ?_⟩
    have hvalue := h saysNothing
    rw [lifetime_of_unheard hunheard, Option.some.injEq] at hvalue
    cases hl : lifetimeOf key line.text.chars with
    | unknown => rfl
    | forever =>
        rw [hl] at hvalue
        exact absurd hvalue (by decide)
    | remaining n =>
        rw [hl] at hvalue
        have hn : (-1 : Int) = 1700000000 + (n : Int) := hvalue
        omega
  · rintro ⟨hunheard, hunknown⟩ e
    rw [lifetime_of_unheard hunheard, hunknown]
    rfl

end

/-! ## The status -/

section
variable {valid preferred : OutputLine} {up : Bool} {e e' : Surroundings} {v p : Int}

theorem text_injective {a b : IPAddressStatus} (h : a.text = b.text) : a = b := by
  revert h
  cases a <;> cases b <;> decide

theorem down_iff (up : Bool) : strcasecmp (operationalState up) "Down".toList = !up := by
  revert up
  decide

theorem status_eq (hv : getIPv6AddressLifetime .valid valid.output e = some v)
    (hp : getIPv6AddressLifetime .preferred preferred.output e' = some p) :
    getIPv6AddressIPAddressStatus valid.output preferred.output up e e' = some (statusOf (v = 0) (!up) (p = 0)).text := by
  rw [getIPv6AddressIPAddressStatus, hv, hp]
  exact congrArg (fun d => some (statusOf (v = 0) d (p = 0)).text) (down_iff up)

theorem statusOf_eq_iff (a a' d b b' : Bool) :
    statusOf a d b = statusOf a' d b' ↔ a = a' ∧ (a' = false → d = false → b = b') := by
  revert a a' d b b'
  decide

theorem exists_lifetime (key : LifetimeKey) (line : OutputLine) (e : Surroundings) :
    ∃ v, getIPv6AddressLifetime key line.output e = some v := by
  by_cases h : Heard key line
  · rw [lifetime_of_heard h]
    split
    · exact ⟨_, rfl⟩
    · split
      · exact ⟨_, rfl⟩
      · exact ⟨_, rfl⟩
  · exact ⟨_, lifetime_of_unheard h⟩

/-- The status the two lines stand for. -/
def IPAddressStatus.ofLines (valid preferred : OutputLine) (up : Bool) : IPAddressStatus :=
  statusOf (lifetimeOf .valid valid.text.chars = .remaining 0) (!up) (lifetimeOf .preferred preferred.text.chars = .remaining 0)

/-- A lifetime that is not heard is never zero; one that is heard can be zero as well as another number. -/
theorem zero_iff_of_all {b : Bool} :
    (∀ e v, getIPv6AddressLifetime key line.output e = some v → decide (v = 0) = b) ↔ ¬Heard key line ∧ b = false := by
  constructor
  · intro h
    have hunheard : ¬Heard key line := fun hheard => by
      have hover := h saysOver 0 (lifetime_over hheard)
      rw [← h saysNothing (-1) (lifetime_nothing hheard)] at hover
      exact absurd hover (by decide)
    exact ⟨hunheard, (h saysNothing (-1) (lifetime_of_unheard hunheard)).symm⟩
  · rintro ⟨hunheard, rfl⟩ e v hv
    rw [lifetime_of_unheard hunheard, Option.some.injEq] at hv
    rw [← hv]
    decide

theorem status_right_iff_zero :
    (∀ e e', getIPv6AddressIPAddressStatus valid.output preferred.output up e e' =
        some (IPAddressStatus.ofLines valid preferred up).text) ↔
      ∀ e v e' p, getIPv6AddressLifetime .valid valid.output e = some v →
        getIPv6AddressLifetime .preferred preferred.output e' = some p →
        statusOf (v = 0) (!up) (p = 0) = IPAddressStatus.ofLines valid preferred up := by
  constructor
  · intro h e v e' p hv hp
    have hsame := h e e'
    rw [status_eq hv hp, Option.some.injEq] at hsame
    exact text_injective hsame
  · intro h e e'
    obtain ⟨v, hv⟩ := exists_lifetime .valid valid e
    obtain ⟨p, hp⟩ := exists_lifetime .preferred preferred e'
    rw [status_eq hv hp, h e v e' p hv hp]

/-- The status is that of the lines, whatever the buffer holds, exactly when the code cannot take a lifetime that counts
for zero, and it is not. -/
theorem status_right_iff (valid preferred : OutputLine) (up : Bool) :
    (∀ e e', getIPv6AddressIPAddressStatus valid.output preferred.output up e e' =
        some (IPAddressStatus.ofLines valid preferred up).text) ↔
      (¬Heard .valid valid ∧ lifetimeOf .valid valid.text.chars ≠ .remaining 0) ∧
        (up = true → ¬Heard .preferred preferred ∧ lifetimeOf .preferred preferred.text.chars ≠ .remaining 0) := by
  have hbool : ∀ l : Lifetime, l ≠ .remaining 0 ↔ decide (l = .remaining 0) = false := fun l =>
    decide_eq_false_iff_not.symm
  rw [status_right_iff_zero, hbool, hbool, ← zero_iff_of_all, ← zero_iff_of_all]
  simp only [IPAddressStatus.ofLines, statusOf_eq_iff, Bool.not_eq_false']
  constructor
  · intro h
    have hvalid : ∀ e v, getIPv6AddressLifetime .valid valid.output e = some v →
        decide (v = 0) = decide (lifetimeOf .valid valid.text.chars = .remaining 0) := by
      intro e v hv
      obtain ⟨p, hp⟩ := exists_lifetime .preferred preferred saysNothing
      exact (h e v saysNothing p hv hp).1
    obtain ⟨hunheard, hne⟩ := zero_iff_of_all.mp hvalid
    exact ⟨hvalid, fun hup e p hp => (h saysNothing (-1) e p (lifetime_of_unheard hunheard) hp).2 hne hup⟩
  · rintro ⟨hvalid, hpreferred⟩ e v e' p hv hp
    exact ⟨hvalid e v hv, fun _ hup => hpreferred hup e' p hp⟩

/-- **The lifetimes and the status are those of the lines, whatever the buffer holds, exactly when** there is nothing for
the code to read. -/
theorem lifetimes_right_iff (key : LifetimeKey) (line valid preferred : OutputLine) (up : Bool) :
    ((∀ e, getIPv6AddressLifetime key line.output e = some ((lifetimeOf key line.text.chars).value e.time)) ↔
      ¬Heard key line ∧ lifetimeOf key line.text.chars = .unknown) ∧
    ((∀ e e', getIPv6AddressIPAddressStatus valid.output preferred.output up e e' =
        some (IPAddressStatus.ofLines valid preferred up).text) ↔
      (¬Heard .valid valid ∧ lifetimeOf .valid valid.text.chars ≠ .remaining 0) ∧
        (up = true → ¬Heard .preferred preferred ∧ lifetimeOf .preferred preferred.text.chars ≠ .remaining 0)) :=
  ⟨lifetime_right_iff key line, status_right_iff valid preferred up⟩

end

/-- An address whose time has run out. -/
def overLine : OutputLine where
  text := .ofLiteral "2: eth0 inet6 2001:db8::10/64 scope global dynamic valid_lft 0sec preferred_lft 0sec"
  plain := by decide +kernel

/-- With nothing in the buffer the lifetime of the address is not known, and the address is `Preferred`. -/
theorem over_not_read :
    getIPv6AddressLifetime .valid overLine.output saysNothing ≠
        some ((lifetimeOf .valid overLine.text.chars).value saysNothing.time) ∧
      getIPv6AddressIPAddressStatus overLine.output overLine.output true saysNothing saysNothing ≠
        some (IPAddressStatus.ofLines overLine overLine true).text := by
  decide +kernel

end Tr69HostIf.IP
