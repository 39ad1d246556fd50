/-
  NasCommon.Types — the error codes, exception and C strings the other modules share
  (`nas_types.h`, `nas_base_utils.h`).
-/

namespace NasCommon

inductive Subsystem where
  | halcom
  | interface
  | com
  deriving DecidableEq, Repr

inductive ErrKind where
  | fail
  | param
  | nomem
  deriving DecidableEq, Repr

/-- The private part of a code: a number, or one of the `e_std_err_code_*` names. -/
inductive ErrPriv where
  | num (n : Nat)
  | eParam
  | eNotSupported
  deriving DecidableEq, Repr

/-- `STD_ERR_OK`, and `STD_ERR (sub, kind, priv)`. -/
inductive StdError where
  | ok
  | err (sub : Subsystem) (kind : ErrKind) (priv : ErrPriv)
  deriving DecidableEq, Repr

def nasBaseEFull : StdError := .err .halcom .fail (.num 2)
def nasBaseEParam : StdError := .err .halcom .param (.num 2)

/-- `nas::base_exception`. -/
structure BaseException where
  errCode : StdError
  errMsg : String
  deriving DecidableEq, Repr

/-- The characters of a C string before its terminator. -/
abbrev CString := List Char

/-- `safestrncpy (d, s, n)`: at most `n - 1` characters, then the terminator. -/
def safestrncpy (d s : CString) (n : Nat) : CString := if n = 0 then d else s.take (n - 1)

theorem safestrncpy_fits {d s : CString} {n : Nat} (h : s.length < n) : safestrncpy d s n = s := by
  unfold safestrncpy
  rw [if_neg (by omega), List.take_of_length_le (by omega)]

theorem length_safestrncpy {d s : CString} {n : Nat} (h : 0 < n) : (safestrncpy d s n).length ≤ n - 1 := by
  unfold safestrncpy
  rw [if_neg (by omega)]
  exact List.length_take_le _ _

end NasCommon
