import UdevHidBpf.BtfGraph
import UdevHidBpf.RdescLayout

/-! # BTF layout validation

The check of `btf_validation.rs` that a BTF type lays out a Rust struct, with its cache of
type names and its registry of validators, and what an accepted type looks like. -/
namespace BtfValidation

open BpfErrors BtfGraph RdescLayout TypeLayout

def ANONYMOUS_FIELD_PREFIX : String := "anon_"

structure ValidationField where
  name : String
  offset : ℕ
  size : ℕ
  typeName : String
  deriving DecidableEq, Repr

def ValidationField.isAnonymous (field : ValidationField) : Bool :=
  ANONYMOUS_FIELD_PREFIX.toList.isPrefixOf field.name.toList

/-- `get_validation_fields` of the declaring macros. -/
def Placed.validationField (p : Placed) : ValidationField :=
  ⟨p.name, p.offset, p.ty.size, p.ty.spelling⟩

def getValidationFields (ty : Ty) : List ValidationField :=
  ty.fields.map Placed.validationField

def BTF_VALIDATORS : List Ty :=
  [rustCollection, rustUsageRange, rustUsageIdUnion, rustField, rustReport, rustDescriptor]

def primitiveTypes : List String :=
  ["u8", "u16", "u32", "u64", "i8", "i16", "i32", "i64", "usize", "isize", "bool", "char", "f32",
    "f64"]

/-- `"[Foo; 32]"` without the array syntax. -/
def baseType (typeName : String) : String :=
  let stripped := (typeName.toList.dropWhile (· = '[')).takeWhile (· ≠ ';')
  String.ofList ((stripped.dropWhile Char.isWhitespace).reverse.dropWhile Char.isWhitespace).reverse

inductive Kind where
  | struct
  | union
  deriving DecidableEq, Repr

def memberName (m : Member) : Option String := m.name.bind OsStr.toStr

def memberOffset : Kind → Member → ℕ
  | .struct, m => m.attr.offset / 8
  | .union, _ => 0

/-- The members a field may be compared with; the first one is. -/
def selects (kind : Kind) (field : ValidationField) (m : Member) : Bool :=
  if field.isAnonymous then
    memberName m = none ∧ (kind = .struct → memberOffset kind m = field.offset)
  else memberName m = some field.name

abbrev Cache := List String

section validators

variable (btf : Btf)

/-- The loop over the expected fields; `complex` is the recursive validation. -/
def validateFields (fuel : ℕ) (complex : BtfType → String → Cache → Call Cache) (kind : Kind)
    (members : List Member) : List ValidationField → Cache → Call Cache
  | [], cache => .ok cache
  | field :: fields, cache => do
    let member ← orEinval (members.find? (selects kind field))
    if kind = .struct ∧ memberOffset kind member ≠ field.offset then .failed invalid
    else do
      let memberType ← orEinval (btf.typeById member.ty)
      let resolved ← resolveBtfType btf fuel memberType
      let size ← getBtfTypeSize btf fuel resolved
      if size ≠ field.size then .failed invalid
      else do
        let cache ← complex resolved field.typeName cache
        validateFields fuel complex kind members fields cache

def validate (fuel : ℕ) (complex : BtfType → String → Cache → Call Cache) (kind : Kind)
    (size : ℕ) (members : List Member) (ty : Ty) (cache : Cache) : Call Cache :=
  if size ≠ ty.size then .failed invalid
  else validateFields btf fuel complex kind members (getValidationFields ty) cache

def validationType : BtfType → Call BtfType
  | .array ty _ => orEinval (btf.typeById ty)
  | resolved => .ok resolved

/-- `layout` stands for the validators of the registry; an unknown type is skipped. -/
def validateBaseType (layout : Ty → BtfType → Cache → Call Cache) (base : String) (t : BtfType)
    (cache : Cache) : Call Cache :=
  if base ∈ primitiveTypes then .ok cache
  else
    match BTF_VALIDATORS.find? fun ty => ty.spelling = base with
    | some validator => layout validator t cache
    | none => .ok cache

def validateComplexTypeByName (fuel : ℕ) (layout : Ty → BtfType → Cache → Call Cache)
    (t : BtfType) (typeName : String) (cache : Cache) : Call Cache :=
  if typeName ∈ cache then .ok cache
  else do
    let resolved ← resolveBtfType btf fuel t
    let target ← validationType btf resolved
    let cache ← validateBaseType layout (baseType typeName) target cache
    .ok (typeName :: cache)

def validateBtfLayoutFromType : ℕ → Ty → BtfType → Cache → Call Cache
  | 0, _, _, _ => .running
  | fuel + 1, ty, t, cache => do
    let resolved ← resolveBtfType btf fuel t
    let complex := validateComplexTypeByName btf fuel (validateBtfLayoutFromType fuel)
    match ty, resolved with
    | .struct _ _ _, .struct size members =>
      validate btf fuel complex .struct size.toNat members ty cache
    | .union _ _, .union size members =>
      validate btf fuel complex .union size.toNat members ty cache
    | _, _ => .failed invalid

end validators

mutual
def bodyCache (cache : Cache) : Ty → Cache
  | .scalar _ _ => cache
  | .array elem _ _ => bodyCache cache elem
  | .struct _ _ members => membersCache cache members
  | .union _ members => membersCache cache members

def membersCache (cache : Cache) : Members → Cache
  | .nil => cache
  | .cons _ ty rest =>
    membersCache (if ty.spelling ∈ cache then cache else ty.spelling :: bodyCache cache ty) rest
end

def fieldCache (cache : Cache) (ty : Ty) : Cache :=
  if ty.spelling ∈ cache then cache else ty.spelling :: bodyCache cache ty

def memberStart (kind : Kind) (packed : Bool) (cur : ℕ) (ty : Ty) : ℕ :=
  match kind with
  | .struct => startOf packed cur ty
  | .union => 0

def fieldAt (kind : Kind) (packed : Bool) (cur : ℕ) (name : String) (ty : Ty) : ValidationField :=
  ⟨name, memberStart kind packed cur ty, ty.size, ty.spelling⟩

def ElementType (btf : Btf) (t elem : BtfType) : Prop :=
  match t with
  | .array ty _ => btf.typeById ty = some elem
  | _ => elem = t

theorem exists_elementType {r : Reading} {btf : Btf} {t : BtfType} {n : ℕ}
    (h : SizeOf r btf t n) : ∃ elem, ElementType btf t elem := by
  cases t with
  | array ty capacity => exact h.inhabited ty capacity rfl
  | reference | int | struct | union | enum | other => exact ⟨_, rfl⟩

theorem ElementType.unique {btf : Btf} {t e e' : BtfType} (h : ElementType btf t e)
    (h' : ElementType btf t e') : e = e' := by
  cases t with
  | array ty capacity => exact Option.some.inj (Eq.trans (Eq.symm h) h')
  | reference | int | struct | union | enum | other => exact Eq.trans h (Eq.symm h')

mutual
/-- What the validators check of a type, for an array of the type of its elements. -/
def Accepted (btf : Btf) (cache : Cache) : Ty → BtfType → Prop
  | .scalar _ _, _ => True
  | .array elem _ _, t => Accepted btf cache elem t
  | .struct name packed members, t => ∃ size btfMembers,
      Resolves loaderReading btf t (.struct size btfMembers) ∧
      size.toNat = (Ty.struct name packed members).size ∧
      MembersAccepted btf cache .struct packed 0 members btfMembers
  | .union name members, t => ∃ size btfMembers,
      Resolves loaderReading btf t (.union size btfMembers) ∧
      size.toNat = (Ty.union name members).size ∧
      MembersAccepted btf cache .union false 0 members btfMembers

/-- Each field is compared with the first member it selects, and in size only when the name
of its type is in the cache. -/
def MembersAccepted (btf : Btf) (cache : Cache) (kind : Kind) (packed : Bool) (cur : ℕ) :
    Members → List Member → Prop
  | .nil, _ => True
  | .cons name ty rest, btfMembers =>
    (∃ m u v, btfMembers.find? (selects kind (fieldAt kind packed cur name ty)) = some m ∧
      (kind = .struct → memberOffset kind m = memberStart kind packed cur ty) ∧
      btf.typeById m.ty = some u ∧ Resolves loaderReading btf u v ∧
      SizeOf loaderReading btf v ty.size ∧
      (ty.spelling ∉ cache → ∃ w, ElementType btf v w ∧ Accepted btf cache ty w)) ∧
    MembersAccepted btf (fieldCache cache ty) kind packed
      (memberStart kind packed cur ty + ty.size) rest btfMembers
end

def IsComposite : Ty → Prop
  | .struct _ _ _ | .union _ _ => True
  | .scalar _ _ | .array _ _ _ => False

mutual
/-- Names and validators agree throughout a type: primitives are known, composites are
registered, and arrays are of composites. -/
def WellRegistered : Ty → Prop
  | .scalar name _ => baseType name ∈ primitiveTypes
  | .array elem len lenName =>
    baseType (Ty.array elem len lenName).spelling = baseType elem.spelling ∧ IsComposite elem ∧
      WellRegistered elem
  | .struct name packed members => baseType name ∉ primitiveTypes ∧
      BTF_VALIDATORS.find? (fun ty => ty.spelling = baseType name) =
        some (.struct name packed members) ∧ MembersWellRegistered members
  | .union name members => baseType name ∉ primitiveTypes ∧
      BTF_VALIDATORS.find? (fun ty => ty.spelling = baseType name) = some (.union name members) ∧
      MembersWellRegistered members

def MembersWellRegistered : Members → Prop
  | .nil => True
  | .cons _ ty rest => WellRegistered ty ∧ ty.size < 2 ^ 64 ∧ MembersWellRegistered rest
end

def fieldsOf (kind : Kind) (packed : Bool) (cur : ℕ) (members : Members) : List ValidationField :=
  match kind with
  | .struct => (members.placed packed cur).map Placed.validationField
  | .union => members.overlaid.map Placed.validationField

theorem fieldsOf_cons (kind : Kind) (packed : Bool) (cur : ℕ) (name : String) (ty : Ty)
    (rest : Members) : fieldsOf kind packed cur (.cons name ty rest) =
      fieldAt kind packed cur name ty ::
        fieldsOf kind packed (memberStart kind packed cur ty + ty.size) rest := by
  cases kind <;> rfl

section soundness

variable {btf : Btf} {fuel : ℕ}

theorem validateFields_cons {complex : BtfType → String → Cache → Call Cache}
    {kind : Kind} {members : List Member} {field : ValidationField}
    {fields : List ValidationField} {cache cache' : Cache}
    (h : validateFields btf fuel complex kind members (field :: fields) cache = .ok cache') :
    ∃ m u v mid, members.find? (selects kind field) = some m ∧
      (kind = .struct → memberOffset kind m = field.offset) ∧ btf.typeById m.ty = some u ∧
      Resolves loaderReading btf u v ∧ SizeOf loaderReading btf v field.size ∧
      complex v field.typeName cache = .ok mid ∧
      validateFields btf fuel complex kind members fields mid = .ok cache' := by
  unfold validateFields at h
  obtain ⟨m, hm, h⟩ := bind_eq_ok.mp h
  split at h
  · cases h
  rename_i hoffset
  obtain ⟨u, hu, h⟩ := bind_eq_ok.mp h
  obtain ⟨v, hv, h⟩ := bind_eq_ok.mp h
  obtain ⟨size, hsize, h⟩ := bind_eq_ok.mp h
  split at h
  · cases h
  rename_i hfield
  obtain ⟨mid, hmid, h⟩ := bind_eq_ok.mp h
  have hsize := getBtfTypeSize_sound hsize
  have hfield : size = field.size := by simpa using hfield
  subst hfield
  refine ⟨m, u, v, mid, orEinval_eq_ok.mp hm, fun hk => ?_, orEinval_eq_ok.mp hu,
    resolveBtfType_sound hv hsize.not_isReference, hsize, hmid, h⟩
  by_contra hne
  exact hoffset ⟨hk, hne⟩

theorem validationType_sound {t elem : BtfType} (h : validationType btf t = .ok elem) :
    ElementType btf t elem := by
  cases t with
  | array ty capacity => exact orEinval_eq_ok.mp h
  | reference | int | struct | union | enum | other => cases h; rfl

theorem resolveBtfType_of_not_isReference {t u : BtfType} (ht : ¬ t.isReference)
    (h : resolveBtfType btf fuel t = .ok u) : u = t := by
  cases fuel with
  | zero => cases h
  | succ fuel =>
    unfold resolveBtfType at h
    cases t with
    | reference => exact absurd trivial ht
    | int | array | struct | union | enum | other => cases h; rfl

theorem validateComplexTypeByName_cached {layout : Ty → BtfType → Cache → Call Cache}
    {t : BtfType} {name : String} {cache : Cache} (hc : name ∈ cache) :
    validateComplexTypeByName btf fuel layout t name cache = .ok cache := by
  rw [validateComplexTypeByName, if_pos hc]

theorem validateComplexTypeByName_uncached {layout : Ty → BtfType → Cache → Call Cache}
    {t : BtfType} {name : String} {cache cache' : Cache} (hc : name ∉ cache)
    (ht : ¬ t.isReference)
    (h : validateComplexTypeByName btf fuel layout t name cache = .ok cache') :
    ∃ elem mid, ElementType btf t elem ∧
      validateBaseType layout (baseType name) elem cache = .ok mid ∧ cache' = name :: mid := by
  unfold validateComplexTypeByName at h
  rw [if_neg hc] at h
  obtain ⟨u, hu, h⟩ := bind_eq_ok.mp h
  obtain ⟨elem, helem, h⟩ := bind_eq_ok.mp h
  obtain ⟨mid, hmid, h⟩ := bind_eq_ok.mp h
  cases h
  obtain rfl := resolveBtfType_of_not_isReference ht hu
  exact ⟨elem, mid, validationType_sound helem, hmid, rfl⟩

theorem validate_sound {complex : BtfType → String → Cache → Call Cache} {kind : Kind}
    {size : ℕ} {members : List Member} {ty : Ty} {cache cache' : Cache}
    (h : validate btf fuel complex kind size members ty cache = .ok cache') :
    size = ty.size ∧
      validateFields btf fuel complex kind members (getValidationFields ty) cache = .ok cache' := by
  unfold validate at h
  split at h
  · cases h
  · rename_i hsize
    exact ⟨by simpa using hsize, h⟩

theorem validateBtfLayoutFromType_struct {name : String} {packed : Bool} {members : Members}
    {t : BtfType} {cache cache' : Cache}
    (h : validateBtfLayoutFromType btf fuel (.struct name packed members) t cache = .ok cache') :
    ∃ fuel size btfMembers, Resolves loaderReading btf t (.struct size btfMembers) ∧
      size.toNat = (Ty.struct name packed members).size ∧
      validateFields btf fuel (validateComplexTypeByName btf fuel (validateBtfLayoutFromType btf fuel))
        .struct btfMembers (fieldsOf .struct packed 0 members) cache = .ok cache' := by
  cases fuel with
  | zero => cases h
  | succ fuel =>
    unfold validateBtfLayoutFromType at h
    obtain ⟨u, hu, h⟩ := bind_eq_ok.mp h
    cases u with
    | struct size btfMembers =>
      obtain ⟨hsize, h⟩ := validate_sound h
      exact ⟨fuel, size, btfMembers, resolveBtfType_sound hu id, hsize, h⟩
    | reference | int | array | union | enum | other => cases h

theorem validateBtfLayoutFromType_union {name : String} {members : Members} {t : BtfType}
    {cache cache' : Cache}
    (h : validateBtfLayoutFromType btf fuel (.union name members) t cache = .ok cache') :
    ∃ fuel size btfMembers, Resolves loaderReading btf t (.union size btfMembers) ∧
      size.toNat = (Ty.union name members).size ∧
      validateFields btf fuel (validateComplexTypeByName btf fuel (validateBtfLayoutFromType btf fuel))
        .union btfMembers (fieldsOf .union false 0 members) cache = .ok cache' := by
  cases fuel with
  | zero => cases h
  | succ fuel =>
    unfold validateBtfLayoutFromType at h
    obtain ⟨u, hu, h⟩ := bind_eq_ok.mp h
    cases u with
    | union size btfMembers =>
      obtain ⟨hsize, h⟩ := validate_sound h
      exact ⟨fuel, size, btfMembers, resolveBtfType_sound hu id, hsize, h⟩
    | reference | int | array | struct | enum | other => cases h

theorem validateBaseType_registered {layout : Ty → BtfType → Cache → Call Cache} {base : String}
    {ty : Ty} {t : BtfType} {cache : Cache} (hp : base ∉ primitiveTypes)
    (hv : BTF_VALIDATORS.find? (fun ty => ty.spelling = base) = some ty) :
    validateBaseType layout base t cache = layout ty t cache := by
  rw [validateBaseType, if_neg hp, hv]

mutual
/-- By induction on the Rust type; the cache that comes back does not depend on the graph. -/
theorem validateBaseType_accepted {btf : Btf} : (ty : Ty) → WellRegistered ty →
    ∀ {fuel : ℕ} {t : BtfType} {cache cache' : Cache},
    validateBaseType (validateBtfLayoutFromType btf fuel) (baseType ty.spelling) t cache =
      .ok cache' → Accepted btf cache ty t ∧ cache' = bodyCache cache ty
  | .scalar name size => by
    intro hw fuel t cache cache' h
    rw [WellRegistered] at hw
    rw [Ty.spelling, validateBaseType, if_pos hw] at h
    cases h
    rw [Accepted, bodyCache]
    exact ⟨trivial, rfl⟩
  | .array elem len lenName => by
    intro hw fuel t cache cache' h
    obtain ⟨hbase, -, hw⟩ := hw
    rw [hbase] at h
    rw [Accepted, bodyCache]
    exact validateBaseType_accepted elem hw h
  | .struct name packed members => by
    intro hw fuel t cache cache' h
    obtain ⟨hp, hv, hw⟩ := hw
    rw [show (Ty.struct name packed members).spelling = name from rfl,
      validateBaseType_registered hp hv] at h
    obtain ⟨fuel, size, btfMembers, hres, hsize, h⟩ := validateBtfLayoutFromType_struct h
    obtain ⟨hacc, hcache⟩ := validateFields_accepted members hw h
    exact ⟨⟨size, btfMembers, hres, hsize, hacc⟩, hcache⟩
  | .union name members => by
    intro hw fuel t cache cache' h
    obtain ⟨hp, hv, hw⟩ := hw
    rw [show (Ty.union name members).spelling = name from rfl,
      validateBaseType_registered hp hv] at h
    obtain ⟨fuel, size, btfMembers, hres, hsize, h⟩ := validateBtfLayoutFromType_union h
    obtain ⟨hacc, hcache⟩ := validateFields_accepted members hw h
    exact ⟨⟨size, btfMembers, hres, hsize, hacc⟩, hcache⟩

theorem validateFields_accepted {btf : Btf} : (members : Members) →
    MembersWellRegistered members →
    ∀ {fuel : ℕ} {kind : Kind} {packed : Bool} {cur : ℕ} {btfMembers : List Member}
      {cache cache' : Cache},
    validateFields btf fuel (validateComplexTypeByName btf fuel (validateBtfLayoutFromType btf fuel))
        kind btfMembers (fieldsOf kind packed cur members) cache = .ok cache' →
      MembersAccepted btf cache kind packed cur members btfMembers ∧
        cache' = membersCache cache members
  | .nil => by
    intro _ fuel kind packed cur btfMembers cache cache' h
    cases kind <;> (cases h; exact ⟨trivial, rfl⟩)
  | .cons name ty rest => by
    intro hw fuel kind packed cur btfMembers cache cache' h
    obtain ⟨hw, -, hrest⟩ := hw
    rw [fieldsOf_cons] at h
    obtain ⟨m, u, v, mid, hm, hoffset, hu, hv, hsize, hmid, h⟩ := validateFields_cons h
    by_cases hc : ty.spelling ∈ cache
    · rw [show (fieldAt kind packed cur name ty).typeName = ty.spelling from rfl,
        validateComplexTypeByName_cached hc] at hmid
      cases hmid
      obtain ⟨hacc, hcache⟩ := validateFields_accepted rest hrest h
      have hfield : fieldCache cache ty = cache := if_pos hc
      refine ⟨⟨⟨m, u, v, hm, hoffset, hu, hv, hsize, (absurd hc ·)⟩, ?_⟩, ?_⟩
      · rwa [hfield]
      · rw [hcache, membersCache, if_pos hc]
    · obtain ⟨elem, body, helem, hbody, rfl⟩ :=
        validateComplexTypeByName_uncached hc hv.not_isReference hmid
      obtain ⟨hty, rfl⟩ := validateBaseType_accepted ty hw hbody
      obtain ⟨hacc, hcache⟩ := validateFields_accepted rest hrest h
      have hfield : fieldCache cache ty = ty.spelling :: bodyCache cache ty := if_neg hc
      refine ⟨⟨⟨m, u, v, hm, hoffset, hu, hv, hsize, fun _ => ⟨elem, helem, hty⟩⟩, ?_⟩, ?_⟩
      · rwa [hfield]
      · rw [hcache, membersCache, if_neg hc]
end

end soundness

theorem WellRegistered.u8 : WellRegistered u8 := by
  change baseType "u8" ∈ primitiveTypes
  decide

theorem WellRegistered.u16 : WellRegistered u16 := by
  change baseType "u16" ∈ primitiveTypes
  decide

theorem WellRegistered.i32 : WellRegistered i32 := by
  change baseType "i32" ∈ primitiveTypes
  decide

theorem WellRegistered.rustCollection : WellRegistered rustCollection :=
  ⟨by decide, rfl, .u16, by decide, .u16, by decide, .u8, by decide, trivial⟩

theorem WellRegistered.rustUsageRange : WellRegistered rustUsageRange :=
  ⟨by decide, rfl, .u16, by decide, .u16, by decide, trivial⟩

theorem WellRegistered.rustUsageIdUnion : WellRegistered rustUsageIdUnion :=
  ⟨by decide, rfl, .u16, by decide, .rustUsageRange, by decide, trivial⟩

theorem WellRegistered.rustField : WellRegistered rustField :=
  ⟨by decide, rfl, .u8, by decide, .u8, by decide, .u16, by decide, .u16, by decide, .u16,
    by decide, .rustUsageIdUnion, by decide, .i32, by decide, .i32, by decide, .u8, by decide,
    ⟨by decide, trivial, .rustCollection⟩, by decide, trivial⟩

theorem WellRegistered.rustReport : WellRegistered rustReport :=
  ⟨by decide, rfl, .u8, by decide, .u16, by decide, .u8, by decide,
    ⟨by decide, trivial, .rustField⟩, by decide, trivial⟩

theorem WellRegistered.rustReports : WellRegistered rustReports :=
  ⟨by decide, trivial, .rustReport⟩

theorem WellRegistered.rustDescriptor : WellRegistered rustDescriptor :=
  ⟨by decide, rfl, .u8, by decide, .u8, by decide, .u8, by decide, .rustReports, by decide,
    .rustReports, by decide, .rustReports, by decide, trivial⟩

/-- Whatever graph the descriptor is compared with, an accepted one passed every check that
the cache did not skip. -/
theorem rustDescriptor_accepted {btf : Btf} {fuel : ℕ} {t : BtfType} {cache : Cache}
    (h : validateBtfLayoutFromType btf fuel rustDescriptor t [] = .ok cache) :
    Accepted btf [] rustDescriptor t := by
  obtain ⟨hp, hv, -⟩ := WellRegistered.rustDescriptor
  exact (validateBaseType_accepted rustDescriptor .rustDescriptor
    ((validateBaseType_registered hp hv).trans h)).1

end BtfValidation
