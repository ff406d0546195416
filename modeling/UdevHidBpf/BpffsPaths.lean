import Mathlib.Data.String.Basic

/-! # Where a device's programs are pinned -/
namespace BpffsPaths

def bpffsRoot : String := "/sys/fs/bpf/hid"

/-- `s.replace([':', '.'], "_")` -/
def replaceSeparators (s : String) : String :=
  String.ofList (s.toList.map fun c => if c = ':' ∨ c = '.' then '_' else c)

def sysnameToBpffs (sysname : String) : String := replaceSeparators sysname

def getBpffsPath (sysname object : String) : String :=
  bpffsRoot ++ "/" ++ sysnameToBpffs sysname ++ "/" ++ replaceSeparators object

/-- `Path::file_stem`: the name up to its last dot, all of it when that is the first
character or missing. -/
def fileStem (fileName : String) : String :=
  match fileName.toList.reverse.dropWhile (· ≠ '.') with
  | [] => fileName
  | _ :: before => if before.isEmpty then fileName else String.ofList before.reverse

example : getBpffsPath "0018:06CB:CD7A.006F" (fileStem "0010-one.bpf.o") =
    "/sys/fs/bpf/hid/0018_06CB_CD7A_006F/0010-one_bpf" := by decide

end BpffsPaths
