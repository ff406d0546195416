import Mathlib.Data.List.Basic

/-! # Layouts of nested types

Sizes, alignments and member offsets as the C ABI gives them, for structs that are packed
or not, unions and arrays. -/
namespace TypeLayout

mutual
/-- A type; a scalar is aligned to its size, and an array spells its length. -/
inductive Ty where
  | scalar (name : String) (size : ℕ)
  | array (elem : Ty) (len : ℕ) (lenName : String)
  | struct (name : String) (packed : Bool) (members : Members)
  | union (name : String) (members : Members)

inductive Members where
  | nil
  | cons (name : String) (ty : Ty) (rest : Members)
end

def alignUp (n align : ℕ) : ℕ := (n + align - 1) / align * align

mutual
def Ty.align : Ty → ℕ
  | .scalar _ size => size
  | .array elem _ _ => elem.align
  | .struct _ packed members => if packed then 1 else members.align
  | .union _ members => members.align

def Members.align : Members → ℕ
  | .nil => 1
  | .cons _ ty rest => max ty.align rest.align
end

/-- Where a member starts when the members before it end at `cur`. -/
def startOf (packed : Bool) (cur : ℕ) (ty : Ty) : ℕ := if packed then cur else alignUp cur ty.align

mutual
def Ty.size : Ty → ℕ
  | .scalar _ size => size
  | .array elem len _ => elem.size * len
  | .struct _ packed members =>
    alignUp (members.structEnd packed 0) (if packed then 1 else members.align)
  | .union _ members => alignUp members.unionEnd members.align

def Members.structEnd (packed : Bool) (cur : ℕ) : Members → ℕ
  | .nil => cur
  | .cons _ ty rest => rest.structEnd packed (startOf packed cur ty + ty.size)

def Members.unionEnd : Members → ℕ
  | .nil => 0
  | .cons _ ty rest => max ty.size rest.unionEnd
end

structure Placed where
  name : String
  offset : ℕ
  ty : Ty

def Members.placed (packed : Bool) (cur : ℕ) : Members → List Placed
  | .nil => []
  | .cons name ty rest =>
    ⟨name, startOf packed cur ty, ty⟩ :: rest.placed packed (startOf packed cur ty + ty.size)

def Members.overlaid : Members → List Placed
  | .nil => []
  | .cons name ty rest => ⟨name, 0, ty⟩ :: rest.overlaid

def Ty.fields : Ty → List Placed
  | .scalar _ _ => []
  | .array _ _ _ => []
  | .struct _ packed members => members.placed packed 0
  | .union _ members => members.overlaid

/-- `offsetof`; the name of an anonymous member is empty. -/
def Ty.offsetOf (ty : Ty) (name : String) : ℕ :=
  ((ty.fields.find? fun p => p.name = name).map Placed.offset).getD 0

def Ty.spelling : Ty → String
  | .scalar name _ => name
  | .array elem _ lenName => "[" ++ elem.spelling ++ "; " ++ lenName ++ "]"
  | .struct name _ _ => name
  | .union name _ => name

example :
    (Ty.struct "s" false (.cons "a" (.scalar "u8" 1) (.cons "b" (.scalar "u32" 4)
      (.cons "c" (.scalar "u8" 1) .nil)))).size = 12 ∧
    (Ty.struct "s" true (.cons "a" (.scalar "u8" 1) (.cons "b" (.scalar "u32" 4)
      (.cons "c" (.scalar "u8" 1) .nil)))).offsetOf "c" = 5 := by decide

end TypeLayout
