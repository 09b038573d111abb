import Tr69HostIf.Store.Lines
import Mathlib.Data.List.TakeWhile

/-!
# Requests of the host interface

The data types of `hostIf_tr69ReqHandler.h` that the stores read: the source of a request, the fault
codes and the request itself. `CString` is what a `char` buffer holds up to its terminating NUL, so a
request's name and value never contain one; `cStr` is `c_str()` read by a C function, which stops at the
first NUL of a `std::string`.
-/

namespace Tr69HostIf
open Store

/-- `HostIf_Source_Type_t`. -/
inductive SourceType
  | none | all | webpa | rfc | iarm | default
  deriving DecidableEq

/-- `faultCode_t`. -/
inductive FaultCode
  | noFault | methodNotSupported | requestDenied | internalError | invalidArguments | resourcesExceeded
  | invalidParameterName | invalidParameterType | invalidParameterValue | attemptToSetaNonWritableParameter
  deriving DecidableEq

/-- The characters of a buffer before its terminating NUL. -/
@[ext] structure CString where
  chars : Text
  noNul : '\x00' ∉ chars
  deriving DecidableEq

/-- The fields of `HOSTIF_MsgData_t` that the stores read; `value` is the text `getStringValue` renders. -/
structure MsgData where
  paramName : CString
  value : CString
  requestor : SourceType
  deriving DecidableEq

/-- The part of a string that `strlen` and `strcmp` see. -/
def cStr (t : Text) : Text := t.takeWhile fun c => c ≠ '\x00'

theorem cStr_of_noNul {t : Text} (h : '\x00' ∉ t) : cStr t = t := by
  unfold cStr
  rw [List.takeWhile_eq_self_iff]
  intro c hc
  rw [decide_eq_true_eq]
  rintro rfl
  exact h hc

@[simp] theorem CString.cStr_chars (s : CString) : cStr s.chars = s.chars := cStr_of_noNul s.noNul

/-- `strcasecmp` on two strings, equal up to case. -/
def strcasecmp (a b : Text) : Bool := a.map Char.toLower == b.map Char.toLower

/-- What a buffer holds after a string literal has been copied into it. -/
def CString.ofLiteral (s : String) : CString where
  chars := cStr s.toList
  noNul h := by
    have := List.mem_takeWhile_imp h
    simp at this

end Tr69HostIf
