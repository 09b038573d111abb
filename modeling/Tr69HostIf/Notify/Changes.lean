import Tr69HostIf.DeviceInfo.ProcessStatus
import Tr69HostIf.IP.IPv6Flags

/-!
# Value changes

The getters of a process entry and those of an IPv6 address object tell changes on the flags and backups of their own
object. `tellsChanges_iff_undisturbed` : the reads along which they tell what has changed and nothing else.
-/

namespace Tr69HostIf.Notify
open Store DeviceInfo IP

/-- **The changes told are the changes exactly when** no command or state is read twice with the same value, and no read
of an address or a prefix is disturbed by one of another. -/
theorem tellsChanges_iff_undisturbed (process : List ProcessRead) (address : List IPv6Read) :
    (TellsChanges DeviceProcess.read ProcessRead.member ProcessRead.value {} process ↔ AtEach process NewIfCopied) ∧
      (TellsChanges IPv6Address.read IPv6Read.param IPv6Read.value {} address ↔ AtEach address Undisturbed) :=
  ⟨processTells_iff process, ipv6Tells_iff address⟩

/-- The command of a process. -/
def initCommand : Field commandLength := ⟨.ofLiteral "init", by decide⟩

/-- A command that is the same again is told as changed; so is the first read of an address after one of a prefix. That
of an address that has changed is not told after one of another sub-instance. -/
theorem changes_invented_and_missed :
    ¬TellsChanges DeviceProcess.read ProcessRead.member ProcessRead.value {} [.command initCommand, .command initCommand] ∧
      ¬TellsChanges IPv6Address.read IPv6Read.param IPv6Read.value {}
        [⟨.prefixEnable, 1, true⟩, ⟨.addressEnable, 1, true⟩] ∧
      ¬TellsChanges IPv6Address.read IPv6Read.param IPv6Read.value {}
        [⟨.addressEnable, 1, false⟩, ⟨.addressEnable, 2, true⟩, ⟨.addressEnable, 1, true⟩] := by
  refine ⟨fun h => ?_, fun h => ?_, fun h => ?_⟩
  · obtain ⟨u, hu, hne⟩ := (h [.command initCommand] (.command initCommand) [] rfl).mp rfl
    exact hne (Option.some.inj hu).symm
  · obtain ⟨u, hu, -⟩ := (h [⟨.prefixEnable, 1, true⟩] ⟨.addressEnable, 1, true⟩ [] rfl).mp rfl
    cases hu
  · have htold := (h [⟨.addressEnable, 1, false⟩, ⟨.addressEnable, 2, true⟩] ⟨.addressEnable, 1, true⟩ [] rfl).mpr
      ⟨.boolean false, rfl, by decide⟩
    cases htold

end Tr69HostIf.Notify
