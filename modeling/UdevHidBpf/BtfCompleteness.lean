import UdevHidBpf.BtfLayout

/-! # A laid out type is accepted

The walks end on whatever they can be derived to end on, and from some fuel on the
validators accept a type that lays out the Rust struct once. -/
namespace BtfCompleteness

open BtfGraph BtfValidation BtfLayout RdescLayout TypeLayout

section walks

variable {btf : Btf}

theorem resolveBtfType_complete {r : Reading} {t u : BtfType} (h : Resolves r btf t u) :
    ∃ N, ∀ fuel ≥ N, resolveBtfType btf fuel t = .ok u := by
  induction h with
  | here hn =>
    refine ⟨1, fun fuel hf => ?_⟩
    obtain ⟨k, rfl⟩ := Nat.exists_eq_add_of_le' hf
    cases ‹BtfType› with
    | reference => exact absurd trivial hn
    | int | array | struct | union | enum | other => rfl
  | next _ ht _ ih =>
    obtain ⟨N, hN⟩ := ih
    refine ⟨N + 1, fun fuel hf => ?_⟩
    obtain ⟨k, rfl⟩ := Nat.exists_eq_add_of_le' (Nat.le_of_add_left_le hf)
    rw [resolveBtfType, Btf.nextType, ht]
    exact hN k (by omega)

theorem getBtfTypeSize_complete {t : BtfType} {n : ℕ} (h : SizeOf exactReading btf t n) :
    ∃ N, ∀ fuel ≥ N, getBtfTypeSize btf fuel t = .ok (n % 2 ^ 64) := by
  have small (size : UInt32) : size.toNat = size.toNat % 2 ^ 64 := by
    have := size.toNat_lt
    omega
  induction h with
  | int size | struct size | union size | enum size =>
    refine ⟨1, fun fuel hf => ?_⟩
    obtain ⟨k, rfl⟩ := Nat.exists_eq_add_of_le' hf
    rw [getBtfTypeSize, ← small]
  | @array ty capacity t u n ht hu hn ih =>
    obtain ⟨N, hN⟩ := ih
    obtain ⟨M, hM⟩ := resolveBtfType_complete hu
    refine ⟨max N M + 1, fun fuel hf => ?_⟩
    obtain ⟨k, rfl⟩ := Nat.exists_eq_add_of_le' (Nat.le_of_add_left_le hf)
    simp only [getBtfTypeSize, ht, orEinval, ok_bind, hM k (by omega), hN k (by omega)]
    rw [Nat.mod_mul_mod]
    rfl

end walks

section validators

variable {btf : Btf}

/-- The member that holds a field is the one it selects, where no other shares its name. -/
theorem find?_selects {kind : Kind} {field : ValidationField} {members : List Member}
    {m : Member} (hm : m ∈ members) (hholds : Holds field m)
    (hone : ∀ m' ∈ members, memberName m' = memberName m → m' = m) :
    members.find? (selects kind field) = some m := by
  have hsel : selects kind field m := hholds.selects
  cases hfind : members.find? (selects kind field) with
  | none => exact absurd hsel (List.find?_eq_none.mp hfind m hm)
  | some m' =>
    rw [hone m' (List.mem_of_find?_eq_some hfind)
      ((selects_memberName (List.find?_some hfind)).trans (selects_memberName hsel).symm)]

theorem validationType_complete {t elem : BtfType} (h : ElementType btf t elem) :
    validationType btf t = .ok elem := by
  cases t with
  | array ty capacity => exact orEinval_eq_ok.mpr h
  | reference | int | struct | union | enum | other => cases h; rfl

theorem resolveBtfType_self {fuel : ℕ} {t : BtfType} (ht : ¬ t.isReference) :
    resolveBtfType btf (fuel + 1) t = .ok t := by
  cases t with
  | reference => exact absurd trivial ht
  | int | array | struct | union | enum | other => rfl

theorem validateComplexTypeByName_complete {fuel : ℕ} {layout : Ty → BtfType → Cache → Call Cache}
    {t elem : BtfType} {name : String} {cache cache' : Cache} (ht : ¬ t.isReference)
    (helem : ElementType btf t elem)
    (h : validateBaseType layout (baseType name) elem cache = .ok cache') :
    ∃ out, validateComplexTypeByName btf (fuel + 1) layout t name cache = .ok out := by
  by_cases hc : name ∈ cache
  · exact ⟨cache, validateComplexTypeByName_cached hc⟩
  · refine ⟨name :: cache', ?_⟩
    rw [validateComplexTypeByName, if_neg hc, resolveBtfType_self ht, ok_bind,
      validationType_complete helem, ok_bind, h, ok_bind]

theorem validateFields_step {fuel : ℕ} {complex : BtfType → String → Cache → Call Cache}
    {kind : Kind} {members : List Member} {field : ValidationField}
    {fields : List ValidationField} {m : Member} {u v : BtfType} {cache mid : Cache}
    (hm : members.find? (selects kind field) = some m)
    (hoffset : kind = .struct → memberOffset kind m = field.offset)
    (hu : btf.typeById m.ty = some u) (hv : resolveBtfType btf fuel u = .ok v)
    (hsize : getBtfTypeSize btf fuel v = .ok field.size)
    (hmid : complex v field.typeName cache = .ok mid) :
    validateFields btf fuel complex kind members (field :: fields) cache =
      validateFields btf fuel complex kind members fields mid := by
  have hguard : ¬ (kind = .struct ∧ memberOffset kind m ≠ field.offset) :=
    fun h => h.2 (hoffset h.1)
  rw [validateFields, hm, orEinval, ok_bind, if_neg hguard, hu, orEinval, ok_bind, hv, ok_bind,
    hsize, ok_bind, if_neg (not_not_intro rfl), hmid, ok_bind]

theorem validator_complete {ty : Ty} {t u : BtfType} {fields : ℕ → Cache → Call Cache}
    (hp : baseType ty.spelling ∉ primitiveTypes)
    (hv : BTF_VALIDATORS.find? (fun v => v.spelling = baseType ty.spelling) = some ty)
    (hres : Resolves exactReading btf t u)
    (hstep : ∀ fuel cache, resolveBtfType btf fuel t = .ok u →
      validateBtfLayoutFromType btf (fuel + 1) ty t cache = fields fuel cache)
    (hfields : ∃ N, ∀ fuel ≥ N, ∀ cache, ∃ cache', fields fuel cache = .ok cache') :
    ∃ N, ∀ fuel ≥ N, ∀ cache, ∃ cache',
      validateBaseType (validateBtfLayoutFromType btf fuel) (baseType ty.spelling) t cache =
        .ok cache' := by
  obtain ⟨N, hN⟩ := resolveBtfType_complete hres
  obtain ⟨M, hM⟩ := hfields
  refine ⟨max N M + 1, fun fuel hf cache => ?_⟩
  obtain ⟨k, rfl⟩ := Nat.exists_eq_add_of_le' (Nat.le_of_add_left_le hf)
  obtain ⟨cache', hcache⟩ := hM k (by omega) cache
  refine ⟨cache', ?_⟩
  rw [validateBaseType_registered hp hv, hstep k cache (hN k (by omega)), hcache]

end validators

mutual
/-- By induction on the Rust type; the fuel does not depend on the cache. -/
theorem validateBaseType_complete {btf : Btf} : (ty : Ty) → WellRegistered ty →
    ∀ ⦃t : BtfType⦄, LaysOutOnce btf ty t → ∃ N, ∀ fuel ≥ N, ∀ cache, ∃ cache',
      validateBaseType (validateBtfLayoutFromType btf fuel) (baseType ty.spelling) t cache =
        .ok cache'
  | .scalar name size => by
    intro hw t _
    rw [WellRegistered] at hw
    refine ⟨0, fun fuel _ cache => ⟨cache, ?_⟩⟩
    rw [Ty.spelling, validateBaseType, if_pos hw]
  | .array elem len lenName => by
    intro hw t h
    obtain ⟨hbase, -, hw⟩ := hw
    rw [hbase]
    exact validateBaseType_complete elem hw h
  | .struct name packed members => by
    intro hw t h
    obtain ⟨hp, hv, hw⟩ := hw
    obtain ⟨size, btfMembers, hres, hsize, hmembers⟩ := h
    refine validator_complete hp hv hres (fun fuel cache hu => ?_)
      (validateFields_complete members hw hmembers)
    rw [validateBtfLayoutFromType, hu, ok_bind]
    simp only
    rw [validate, if_neg (not_not_intro hsize)]
    rfl
  | .union name members => by
    intro hw t h
    obtain ⟨hp, hv, hw⟩ := hw
    obtain ⟨size, btfMembers, hres, hsize, hmembers⟩ := h
    refine validator_complete hp hv hres (fun fuel cache hu => ?_)
      (validateFields_complete members hw hmembers)
    rw [validateBtfLayoutFromType, hu, ok_bind]
    simp only
    rw [validate, if_neg (not_not_intro hsize)]
    rfl

theorem validateFields_complete {btf : Btf} : (members : Members) →
    MembersWellRegistered members →
    ∀ ⦃kind : Kind⦄ ⦃packed : Bool⦄ ⦃cur : ℕ⦄ ⦃btfMembers : List Member⦄,
    MembersLaidOutOnce btf kind packed cur members btfMembers →
    ∃ N, ∀ fuel ≥ N, ∀ cache, ∃ cache', validateFields btf fuel
      (validateComplexTypeByName btf fuel (validateBtfLayoutFromType btf fuel)) kind btfMembers
      (fieldsOf kind packed cur members) cache = .ok cache'
  | .nil => by
    intro _ kind packed cur btfMembers _
    refine ⟨0, fun fuel _ cache => ⟨cache, ?_⟩⟩
    cases kind <;> rfl
  | .cons name ty rest => by
    intro hw kind packed cur btfMembers h
    obtain ⟨hw, hsmall, hrest⟩ := hw
    obtain ⟨⟨m, hm, hstores, hone⟩, h⟩ := h
    obtain ⟨hholds, u, v, elem, hu, hv, hsize, helem, hlays⟩ := hstores
    obtain ⟨N, hN⟩ := resolveBtfType_complete hv
    obtain ⟨M, hM⟩ := getBtfTypeSize_complete hsize
    obtain ⟨K, hK⟩ := validateBaseType_complete ty hw hlays
    obtain ⟨L, hL⟩ := validateFields_complete rest hrest h
    rw [fieldsOf_cons]
    refine ⟨max (max N M) (max K L) + 1, fun fuel hf cache => ?_⟩
    obtain ⟨k, rfl⟩ := Nat.exists_eq_add_of_le' (Nat.le_of_add_left_le hf)
    obtain ⟨body, hbody⟩ := hK (k + 1) (by omega) cache
    obtain ⟨mid, hmid⟩ := validateComplexTypeByName_complete hv.not_isReference helem hbody
    obtain ⟨cache', hcache⟩ := hL (k + 1) (by omega) mid
    have hfit : getBtfTypeSize btf (k + 1) v =
        .ok (fieldAt kind packed cur name ty).size := by
      rw [hM (k + 1) (by omega)]
      exact congrArg Call.ok (Nat.mod_eq_of_lt hsmall)
    have hoffset : kind = .struct →
        memberOffset kind m = (fieldAt kind packed cur name ty).offset := by
      rintro rfl
      have := hholds.offset
      change m.attr.offset / 8 = _
      omega
    exact ⟨cache', (validateFields_step (find?_selects hm hholds hone) hoffset hu
      (hN (k + 1) (by omega)) hfit hmid).trans hcache⟩
end

/-- Whatever lays out the descriptor once is accepted, with all fuel from some on. -/
theorem laysOutOnce_accepted {btf : Btf} {t : BtfType} (h : LaysOutOnce btf rustDescriptor t) :
    ∃ N, ∀ fuel ≥ N, ∃ cache,
      validateBtfLayoutFromType btf fuel rustDescriptor t [] = .ok cache := by
  obtain ⟨hp, hv, -⟩ := WellRegistered.rustDescriptor
  obtain ⟨N, hN⟩ := validateBaseType_complete rustDescriptor .rustDescriptor h
  refine ⟨N, fun fuel hf => ?_⟩
  obtain ⟨cache, hcache⟩ := hN fuel hf []
  exact ⟨cache, (validateBaseType_registered hp hv).symm.trans hcache⟩

theorem laysOutOnce_accepted_header : ∃ N, ∀ fuel ≥ N, ∃ cache,
    validateBtfLayoutFromType (hidGraph 11) fuel rustDescriptor hidVariable [] = .ok cache :=
  laysOutOnce_accepted hidGraph_laysOutOnce

def Extends {α : Type} (x y : Call α) : Prop := x ≠ .running → y = x

theorem Extends.refl {α : Type} (x : Call α) : Extends x x := fun _ => rfl

theorem Extends.bind {α β : Type} {x y : Call α} {f g : α → Call β} (h : Extends x y)
    (hf : ∀ a, Extends (f a) (g a)) : Extends (x >>= f) (y >>= g) := by
  intro hne
  have hx : x ≠ .running := by
    rintro rfl
    exact hne rfl
  rw [h hx]
  cases x with
  | running => exact absurd rfl hx
  | failed e => rfl
  | ok a => exact hf a hne

section fuel

variable {btf : Btf} {fuel fuel' : ℕ}

theorem resolveBtfType_extends (h : fuel ≤ fuel') (t : BtfType) :
    Extends (resolveBtfType btf fuel t) (resolveBtfType btf fuel' t) := by
  induction fuel generalizing fuel' t with
  | zero => exact fun hne => absurd rfl hne
  | succ fuel ih =>
    obtain ⟨k, rfl⟩ := Nat.exists_eq_add_of_le' (Nat.le_of_add_left_le h)
    rw [resolveBtfType, resolveBtfType]
    cases btf.nextType t with
    | none => exact Extends.refl _
    | some next => exact ih (by omega) next

theorem getBtfTypeSize_extends (h : fuel ≤ fuel') (t : BtfType) :
    Extends (getBtfTypeSize btf fuel t) (getBtfTypeSize btf fuel' t) := by
  induction fuel generalizing fuel' t with
  | zero => exact fun hne => absurd rfl hne
  | succ fuel ih =>
    obtain ⟨k, rfl⟩ := Nat.exists_eq_add_of_le' (Nat.le_of_add_left_le h)
    cases t with
    | array ty capacity =>
      rw [getBtfTypeSize, getBtfTypeSize]
      apply Extends.bind (Extends.refl _)
      intro elem
      apply Extends.bind (resolveBtfType_extends (by omega) elem)
      intro resolved
      exact Extends.bind (ih (by omega) resolved) fun size => Extends.refl _
    | reference | int | struct | union | enum | other => exact Extends.refl _

theorem validateFields_extends (h : fuel ≤ fuel')
    {complex complex' : BtfType → String → Cache → Call Cache}
    (hcomplex : ∀ t name cache, Extends (complex t name cache) (complex' t name cache))
    (kind : Kind) (members : List Member) (fields : List ValidationField) (cache : Cache) :
    Extends (validateFields btf fuel complex kind members fields cache)
      (validateFields btf fuel' complex' kind members fields cache) := by
  induction fields generalizing cache with
  | nil => exact Extends.refl _
  | cons field fields ih =>
    rw [validateFields, validateFields]
    apply Extends.bind (Extends.refl _)
    intro member
    split
    · exact Extends.refl _
    apply Extends.bind (Extends.refl _)
    intro memberType
    apply Extends.bind (resolveBtfType_extends h memberType)
    intro resolved
    apply Extends.bind (getBtfTypeSize_extends h resolved)
    intro size
    split
    · exact Extends.refl _
    · exact Extends.bind (hcomplex resolved field.typeName cache) ih

theorem validateComplexTypeByName_extends (h : fuel ≤ fuel')
    {layout layout' : Ty → BtfType → Cache → Call Cache}
    (hlayout : ∀ ty t cache, Extends (layout ty t cache) (layout' ty t cache))
    (t : BtfType) (name : String) (cache : Cache) :
    Extends (validateComplexTypeByName btf fuel layout t name cache)
      (validateComplexTypeByName btf fuel' layout' t name cache) := by
  rw [validateComplexTypeByName, validateComplexTypeByName]
  split
  · exact Extends.refl _
  apply Extends.bind (resolveBtfType_extends h t)
  intro resolved
  apply Extends.bind (Extends.refl _)
  intro target
  apply Extends.bind _ fun cache => Extends.refl _
  rw [validateBaseType, validateBaseType]
  split
  · exact Extends.refl _
  cases BTF_VALIDATORS.find? fun ty => ty.spelling = baseType name with
  | none => exact Extends.refl _
  | some validator => exact hlayout validator target cache

theorem validateBtfLayoutFromType_extends (h : fuel ≤ fuel') (ty : Ty) (t : BtfType)
    (cache : Cache) :
    Extends (validateBtfLayoutFromType btf fuel ty t cache)
      (validateBtfLayoutFromType btf fuel' ty t cache) := by
  induction fuel generalizing fuel' ty t cache with
  | zero => exact fun hne => absurd rfl hne
  | succ fuel ih =>
    obtain ⟨k, rfl⟩ := Nat.exists_eq_add_of_le' (Nat.le_of_add_left_le h)
    have hk : fuel ≤ k := by omega
    rw [validateBtfLayoutFromType, validateBtfLayoutFromType]
    apply Extends.bind (resolveBtfType_extends hk t)
    intro resolved
    have hfields (kind : Kind) (size : ℕ) (members : List Member) :
        Extends (validate btf fuel (validateComplexTypeByName btf fuel
            (validateBtfLayoutFromType btf fuel)) kind size members ty cache)
          (validate btf k (validateComplexTypeByName btf k
            (validateBtfLayoutFromType btf k)) kind size members ty cache) := by
      rw [validate, validate]
      split
      · exact Extends.refl _
      · apply validateFields_extends hk
        exact validateComplexTypeByName_extends hk fun ty t cache => ih hk ty t cache
    split
    · exact hfields _ _ _
    · exact hfields _ _ _
    · exact Extends.refl _

end fuel

end BtfCompleteness
