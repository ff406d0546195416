import UdevHidBpf.BpfErrors
import Mathlib.Algebra.Group.Nat.Defs
import Mathlib.Data.List.Basic

/-! # BTF type graphs

The types of a BTF section, by their ids, and the two walks over them: through references
to a type, and through arrays to a size. -/
namespace BtfGraph

open BpfErrors

abbrev TypeId := ℕ

inductive RefKind where
  | ptr
  | typedef
  | volatile
  | const
  | restrict
  | func
  | var
  | declTag
  | typeTag
  deriving DecidableEq, Repr

/-- Offsets and widths are in bits. -/
inductive MemberAttr where
  | normal (offset : UInt32)
  | bitField (size : UInt8) (offset : UInt32)
  deriving DecidableEq, Repr

def MemberAttr.offset : MemberAttr → ℕ
  | .normal offset => offset.toNat
  | .bitField _ offset => offset.toNat

def MemberAttr.width : MemberAttr → Option ℕ
  | .normal _ => none
  | .bitField size _ => some size.toNat

/-- A name in the string section; `bytes` is one that is not UTF-8. -/
inductive OsStr where
  | text (s : String)
  | bytes (raw : List UInt8)
  deriving DecidableEq, Repr

def OsStr.toStr : OsStr → Option String
  | .text s => some s
  | .bytes _ => none

structure Member where
  name : Option OsStr
  ty : TypeId
  attr : MemberAttr
  deriving DecidableEq, Repr

/-- `other` has neither a size nor a next type. -/
inductive BtfType where
  | reference (kind : RefKind) (ty : TypeId)
  | int (size : UInt32)
  | array (ty : TypeId) (capacity : UInt32)
  | struct (size : UInt32) (members : List Member)
  | union (size : UInt32) (members : List Member)
  | enum (size : UInt32)
  | other
  deriving DecidableEq, Repr

structure Btf where
  types : List BtfType

def Btf.typeById (btf : Btf) (id : TypeId) : Option BtfType := btf.types[id]?

def Btf.nextType (btf : Btf) : BtfType → Option BtfType
  | .reference _ ty => btf.typeById ty
  | _ => none

/-- `running` is a call that has not returned within the given fuel. -/
inductive Call (α : Type) where
  | running
  | failed (e : BpfError)
  | ok (a : α)
  deriving DecidableEq, Repr

def Call.bind {α β : Type} (x : Call α) (f : α → Call β) : Call β :=
  match x with
  | .running => .running
  | .failed e => .failed e
  | .ok a => f a

instance : Monad Call where
  pure := .ok
  bind := Call.bind

/-- The one error of the validation, libbpf's `EINVAL`. -/
def invalid : BpfError := .libBPFError .invalidInput

def orEinval {α : Type} : Option α → Call α
  | some a => .ok a
  | none => .failed invalid

theorem bind_eq_ok {α β : Type} {x : Call α} {f : α → Call β} {b : β} :
    (x >>= f) = .ok b ↔ ∃ a, x = .ok a ∧ f a = .ok b := by
  cases x <;> simp [bind, Call.bind]

@[simp] theorem ok_bind {α β : Type} (a : α) (f : α → Call β) : (Call.ok a >>= f) = f a := rfl

theorem orEinval_eq_ok {α : Type} {x : Option α} {a : α} : orEinval x = .ok a ↔ x = some a := by
  cases x <;> simp [orEinval]

section walks

variable (btf : Btf)

/-- `while let Some(next) = btf_type.next_type()` -/
def resolveBtfType : ℕ → BtfType → Call BtfType
  | 0, _ => .running
  | fuel + 1, t =>
    match btf.nextType t with
    | some next => resolveBtfType fuel next
    | none => .ok t

/-- The element size times the capacity is computed in `usize`. -/
def getBtfTypeSize : ℕ → BtfType → Call ℕ
  | 0, _ => .running
  | fuel + 1, t =>
    match t with
    | .int size => .ok size.toNat
    | .struct size _ => .ok size.toNat
    | .union size _ => .ok size.toNat
    | .enum size => .ok size.toNat
    | .array ty capacity => do
      let elem ← orEinval (btf.typeById ty)
      let resolved ← resolveBtfType btf fuel elem
      let size ← getBtfTypeSize fuel resolved
      .ok (size * capacity.toNat % 2 ^ 64)
    | _ => .failed invalid

end walks

/-- How a walk treats references and array lengths. -/
structure Reading where
  follows : RefKind → Prop
  times : ℕ → ℕ → ℕ

/-- The reading of the loader: every reference counts, products wrap. -/
def loaderReading : Reading := ⟨fun _ => True, fun size n => size * n % 2 ^ 64⟩

/-- References that do not change what is stored. -/
def Transparent : RefKind → Prop
  | .typedef | .volatile | .const | .restrict | .var | .typeTag => True
  | .ptr | .func | .declTag => False

def exactReading : Reading := ⟨Transparent, fun size n => size * n⟩

def BtfType.isReference : BtfType → Prop
  | .reference _ _ => True
  | _ => False

inductive Resolves (r : Reading) (btf : Btf) : BtfType → BtfType → Prop where
  | here {t} (h : ¬ t.isReference) : Resolves r btf t t
  | next {kind ty t u} (hk : r.follows kind) (ht : btf.typeById ty = some t)
    (h : Resolves r btf t u) : Resolves r btf (.reference kind ty) u

inductive SizeOf (r : Reading) (btf : Btf) : BtfType → ℕ → Prop where
  | int (size) : SizeOf r btf (.int size) size.toNat
  | struct (size members) : SizeOf r btf (.struct size members) size.toNat
  | union (size members) : SizeOf r btf (.union size members) size.toNat
  | enum (size) : SizeOf r btf (.enum size) size.toNat
  | array {ty capacity t u n} (ht : btf.typeById ty = some t) (hu : Resolves r btf t u)
    (hn : SizeOf r btf u n) : SizeOf r btf (.array ty capacity) (r.times n capacity.toNat)

theorem resolveBtfType_sound {btf : Btf} {fuel : ℕ} {t u : BtfType}
    (h : resolveBtfType btf fuel t = .ok u) (hu : ¬ u.isReference) :
    Resolves loaderReading btf t u := by
  induction fuel generalizing t with
  | zero => cases h
  | succ fuel ih =>
    unfold resolveBtfType at h
    split at h
    · rename_i next hnext
      cases t <;> simp only [Btf.nextType, reduceCtorEq] at hnext
      exact .next trivial hnext (ih h)
    · cases h
      exact .here hu

theorem SizeOf.not_isReference {r : Reading} {btf : Btf} {t : BtfType} {n : ℕ}
    (h : SizeOf r btf t n) : ¬ t.isReference := by
  cases h <;> exact id

theorem getBtfTypeSize_sound {btf : Btf} {fuel : ℕ} {t : BtfType} {n : ℕ}
    (h : getBtfTypeSize btf fuel t = .ok n) : SizeOf loaderReading btf t n := by
  induction fuel generalizing t n with
  | zero => cases h
  | succ fuel ih =>
    unfold getBtfTypeSize at h
    split at h
    · cases h; exact .int _
    · cases h; exact .struct _ _
    · cases h; exact .union _ _
    · cases h; exact .enum _
    · obtain ⟨t, ht, h⟩ := bind_eq_ok.mp h
      obtain ⟨u, hu, h⟩ := bind_eq_ok.mp h
      obtain ⟨m, hm, h⟩ := bind_eq_ok.mp h
      cases h
      have hsize := ih hm
      exact .array (orEinval_eq_ok.mp ht) (resolveBtfType_sound hu hsize.not_isReference) hsize
    · cases h

theorem Resolves.unique {r r' : Reading} {btf : Btf} {t u u' : BtfType}
    (h : Resolves r btf t u) (h' : Resolves r' btf t u') : u = u' := by
  induction h with
  | here hn =>
    cases h' with
    | here => rfl
    | next => exact absurd trivial hn
  | next _ ht _ ih =>
    cases h' with
    | here hn => exact absurd trivial hn
    | next _ ht' h' =>
      obtain rfl := Option.some.inj (ht.symm.trans ht')
      exact ih h'

theorem SizeOf.unique {r : Reading} {btf : Btf} {t : BtfType} {n n' : ℕ} (h : SizeOf r btf t n)
    (h' : SizeOf r btf t n') : n = n' := by
  induction h generalizing n' with
  | int | struct | union | enum =>
    cases h'
    rfl
  | array ht hu _ ih =>
    cases h' with
    | array ht' hu' hn' =>
      obtain rfl := Option.some.inj (ht.symm.trans ht')
      obtain rfl := hu.unique hu'
      rw [ih hn']

theorem SizeOf.inhabited {r : Reading} {btf : Btf} {t : BtfType} {n : ℕ} (h : SizeOf r btf t n) :
    ∀ ty capacity, t = .array ty capacity → ∃ elem, btf.typeById ty = some elem := by
  rintro ty capacity rfl
  cases h with
  | array ht => exact ⟨_, ht⟩

/-- The loader computes the size modulo the range of `usize`. -/
theorem SizeOf.loader_eq_mod {btf : Btf} {t : BtfType} {n n' : ℕ}
    (h : SizeOf exactReading btf t n) (h' : SizeOf loaderReading btf t n') : n' = n % 2 ^ 64 := by
  have small (size : UInt32) : size.toNat = size.toNat % 2 ^ 64 := by
    have := size.toNat_lt
    omega
  induction h generalizing n' with
  | int size | struct size | union size | enum size => cases h'; exact small size
  | array ht hu _ ih =>
    cases h' with
    | array ht' hu' hn' =>
      obtain rfl := Option.some.inj (ht.symm.trans ht')
      obtain rfl := hu.unique hu'
      rw [ih hn']
      exact Nat.mod_mul_mod ..

theorem Resolves.not_isReference {r : Reading} {btf : Btf} {t u : BtfType}
    (h : Resolves r btf t u) : ¬ u.isReference := by
  induction h with
  | here hn => exact hn
  | next _ _ _ ih => exact ih

end BtfGraph
