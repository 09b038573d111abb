import Tr69HostIf.Store.Watch
import Tr69HostIf.Transport.Message

/-!
# When a process entry says that it has changed

The getters of `hostIf_DeviceProcess`, which keep a flag and a backup for each member of the entry. `Command` and
`State` copy the value into the backup before they look at it, and then take the result of the copy for that of a
comparison.

* `DeviceProcess`, `DeviceProcess.read` : the object and its getters;
* `processTells_iff` : along which reads they tell exactly the changes.
-/

namespace Tr69HostIf.DeviceInfo
open Store Transport

/-- `_COMMAND_LENGTH`. -/
def commandLength : Nat := 256

/-- `_STATE_LENGTH`. -/
def stateLength : Nat := 16

/-- What a member of `processStatus` of so many bytes holds. -/
structure Field (size : Nat) where
  text : CString
  fits : text.chars.length < size

/-- The empty string. -/
def emptyText : CString := .ofLiteral ""

/-- `strcpy_s`: whether it returns `EOK`, and what the buffer then holds. -/
def strcpyInto (size : Nat) (src : CString) : Bool × CString :=
  if src.chars.length < size then (true, src) else (false, emptyText)

theorem strcpyInto_field {size : Nat} (v : Field size) : strcpyInto size v.text = (true, v.text) := if_pos v.fits

/-- `hostIf_DeviceProcess` as its constructor makes it. -/
structure DeviceProcess where
  bCalledProcessPid : Bool := false
  bCalledProcessCommand : Bool := false
  bCalledProcessSize : Bool := false
  bCalledProcessPriority : Bool := false
  bCalledProcessCpuTime : Bool := false
  bCalledProcessState : Bool := false
  backupProcessPid : UInt32 := 0
  backupProcessCommand : CString := emptyText
  backupProcessSize : UInt32 := 0
  backupProcessPriority : UInt32 := 0
  backupProcessCpuTime : UInt32 := 0
  backupProcessState : CString := emptyText

/-- `EProcessMembers`. -/
inductive ProcessMember
  | pid | command | size | priority | cpuTime | state
  deriving DecidableEq

/-- A successful call of a getter, with what `readProcessFields` has put into `processStatus`. -/
inductive ProcessRead
  | pid (uiPid : UInt32)
  | command (cCommand : Field commandLength)
  | size (uiSize : UInt32)
  | priority (uiPriority : UInt32)
  | cpuTime (uiCpuTime : UInt32)
  | state (cState : Field stateLength)

/-- The member that is read. -/
def ProcessRead.member : ProcessRead → ProcessMember
  | .pid _ => .pid
  | .command _ => .command
  | .size _ => .size
  | .priority _ => .priority
  | .cpuTime _ => .cpuTime
  | .state _ => .state

/-- What the getter puts into the message. -/
def ProcessRead.value : ProcessRead → Value
  | .pid n | .size n | .priority n | .cpuTime n => .unsignedInt n
  | .command t => .string t.text
  | .state t => .string t.text

namespace DeviceProcess
variable (s : DeviceProcess)

/-- `get_Device_DeviceInfo_ProcessStatus_Process_PID`: `*pChanged`, and the object. -/
def getPID (uiPid : UInt32) : Bool × DeviceProcess :=
  (s.bCalledProcessPid && decide (s.backupProcessPid ≠ uiPid),
    { s with bCalledProcessPid := true, backupProcessPid := uiPid })

/-- `get_Device_DeviceInfo_ProcessStatus_Process_Command`. -/
def getCommand (cCommand : Field commandLength) : Bool × DeviceProcess :=
  let rc := strcpyInto commandLength cCommand.text
  let again := strcpyInto commandLength cCommand.text
  (s.bCalledProcessCommand && rc.1, { s with bCalledProcessCommand := true, backupProcessCommand := again.2 })

/-- `get_Device_DeviceInfo_ProcessStatus_Process_Size`. -/
def getSize (uiSize : UInt32) : Bool × DeviceProcess :=
  (s.bCalledProcessSize && decide (s.backupProcessSize ≠ uiSize),
    { s with bCalledProcessSize := true, backupProcessSize := uiSize })

/-- `get_Device_DeviceInfo_ProcessStatus_Process_Priority`. -/
def getPriority (uiPriority : UInt32) : Bool × DeviceProcess :=
  (s.bCalledProcessPriority && decide (s.backupProcessPriority ≠ uiPriority),
    { s with bCalledProcessPriority := true, backupProcessPriority := uiPriority })

/-- `get_Device_DeviceInfo_ProcessStatus_Process_CPUTime`. -/
def getCPUTime (uiCpuTime : UInt32) : Bool × DeviceProcess :=
  (s.bCalledProcessCpuTime && decide (s.backupProcessCpuTime ≠ uiCpuTime),
    { s with bCalledProcessCpuTime := true, backupProcessCpuTime := uiCpuTime })

/-- `get_Device_DeviceInfo_ProcessStatus_Process_State`. -/
def getState (cState : Field stateLength) : Bool × DeviceProcess :=
  let rc := strcpyInto stateLength cState.text
  let again := strcpyInto stateLength cState.text
  (s.bCalledProcessState && rc.1, { s with bCalledProcessState := true, backupProcessState := again.2 })

theorem getCommand_eq (v : Field commandLength) : s.getCommand v =
    (s.bCalledProcessCommand, { s with bCalledProcessCommand := true, backupProcessCommand := v.text }) := by
  simp only [getCommand, strcpyInto_field, Bool.and_true]

theorem getState_eq (v : Field stateLength) : s.getState v =
    (s.bCalledProcessState, { s with bCalledProcessState := true, backupProcessState := v.text }) := by
  simp only [getState, strcpyInto_field, Bool.and_true]

/-- One call. -/
def read : ProcessRead → Bool × DeviceProcess
  | .pid v => s.getPID v
  | .command v => s.getCommand v
  | .size v => s.getSize v
  | .priority v => s.getPriority v
  | .cpuTime v => s.getCPUTime v
  | .state v => s.getState v

/-- The flag of a member. -/
def called : ProcessMember → Bool
  | .pid => s.bCalledProcessPid
  | .command => s.bCalledProcessCommand
  | .size => s.bCalledProcessSize
  | .priority => s.bCalledProcessPriority
  | .cpuTime => s.bCalledProcessCpuTime
  | .state => s.bCalledProcessState

/-- The backup of a member. -/
def backup : ProcessMember → Value
  | .pid => .unsignedInt s.backupProcessPid
  | .command => .string s.backupProcessCommand
  | .size => .unsignedInt s.backupProcessSize
  | .priority => .unsignedInt s.backupProcessPriority
  | .cpuTime => .unsignedInt s.backupProcessCpuTime
  | .state => .string s.backupProcessState

theorem called_read (i : ProcessRead) : (s.read i).2.called = Function.update s.called i.member true := by
  funext m
  cases i <;> cases m <;> rfl

theorem backup_read (i : ProcessRead) : (s.read i).2.backup = Function.update s.backup i.member i.value := by
  funext m
  cases i with
  | command v =>
      rw [read, getCommand_eq]
      cases m <;> rfl
  | state v =>
      rw [read, getState_eq]
      cases m <;> rfl
  | _ => cases m <;> rfl

end DeviceProcess

/-- The members whose getter compares nothing. -/
def ProcessMember.Copied (m : ProcessMember) : Prop := m = .command ∨ m = .state

instance : DecidablePred ProcessMember.Copied := fun m => inferInstanceAs (Decidable (m = _ ∨ m = _))

/-- The other getters compare the backup. -/
theorem tells_of_not_copied (s : DeviceProcess) {i : ProcessRead} (h : ¬i.member.Copied) :
    (s.read i).1 = (s.called i.member && decide (s.backup i.member ≠ i.value)) := by
  cases i with
  | command v => exact absurd (Or.inl rfl) h
  | state v => exact absurd (Or.inr rfl) h
  | _ =>
      have hvalue : ∀ m n : UInt32, (Value.unsignedInt m ≠ Value.unsignedInt n) = (m ≠ n) := fun m n => by
        rw [Ne, Value.unsignedInt.injEq]
      simp only [DeviceProcess.backup, ProcessRead.member, ProcessRead.value, hvalue]
      rfl

/-- `Command` and `State` say that they have changed whenever they have been read before. -/
theorem tells_of_copied (s : DeviceProcess) {i : ProcessRead} (h : i.member.Copied) :
    (s.read i).1 = s.called i.member := by
  cases i with
  | command v => rw [DeviceProcess.read, DeviceProcess.getCommand_eq]; rfl
  | state v => rw [DeviceProcess.read, DeviceProcess.getState_eq]; rfl
  | _ => rcases h with h | h <;> cases h

/-- The value is a new one, if its getter does not compare. -/
def NewIfCopied (h : List ProcessRead) (i : ProcessRead) : Prop :=
  i.member.Copied → ∀ u, lastOf (h.map fun i => (i.member, i.value)) i.member = some u → u ≠ i.value

/-- **Along which reads the getters tell exactly the changes.** -/
theorem processTells_iff (l : List ProcessRead) :
    TellsChanges DeviceProcess.read ProcessRead.member ProcessRead.value {} l ↔ AtEach l NewIfCopied := by
  let given : ProcessMember → Value := DeviceProcess.backup {}
  let I : List ProcessRead → DeviceProcess → Prop := fun h s =>
    Remembers ProcessRead.member ProcessRead.member ProcessRead.value given s.called s.backup h
  apply tellsChanges_iff (I := I)
  · have hcalled : DeviceProcess.called {} = fun _ => false := by
      funext m
      cases m <;> rfl
    show Remembers _ _ _ given (DeviceProcess.called {}) given []
    rw [hcalled]
    exact remembers_nil
  · intro h s i hI
    show Remembers _ _ _ given (s.read i).2.called (s.read i).2.backup (h ++ [i])
    rw [s.called_read, s.backup_read]
    exact Remembers.read hI i
  · intro h s i hI
    by_cases hc : i.member.Copied
    · rw [tells_of_copied s hc, Remembers.called_changed_iff hI i, NewIfCopied]
      exact ⟨fun hnew _ => hnew, fun hnew => hnew hc⟩
    · rw [tells_of_not_copied s hc]
      exact iff_of_true (Remembers.changed_iff hI i) fun hcopied => absurd hcopied hc

end Tr69HostIf.DeviceInfo
