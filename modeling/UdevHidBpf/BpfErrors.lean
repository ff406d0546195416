import Mathlib.Data.Nat.Notation

/-! # Error numbers and `BpfError` -/
namespace BpfErrors

def ENODEV : ℕ := 19
def EINVAL : ℕ := 22
def ENOTSUP : ℕ := 95

/-- The kinds of libbpf errors the loader tells apart or makes itself. -/
inductive ErrorKind where
  | notFound
  | invalidInput
  | other
  deriving DecidableEq, Repr

inductive BpfError where
  | libBPFError (kind : ErrorKind)
  | osError (errno : ℕ)
  | unsupported
  deriving DecidableEq, Repr

end BpfErrors
