import UdevHidBpf.BtfCompleteness
import UdevHidBpf.LabelledGraphs
import Mathlib.Tactic.IntervalCases

/-! # The validation ends

The walks over the graph end because it has no cycle but through members, which they do not
follow. The validators call each other down the nesting of the Rust types, whatever the
graph and the cache. -/
namespace BtfTermination

open BtfCompleteness BtfGraph BtfValidation LabelledGraphs TypeLayout

/-- From some fuel on, the call has returned, with one result. -/
def Terminates {α : Type} (call : ℕ → Call α) : Prop :=
  ∃ N r, r ≠ .running ∧ ∀ fuel ≥ N, call fuel = r

section calls

variable {α β : Type}

theorem terminates_of_eq {call : ℕ → Call α} {r : Call α} (hr : r ≠ .running)
    (h : ∀ fuel, call fuel = r) : Terminates call := ⟨0, r, hr, fun fuel _ => h fuel⟩

theorem Terminates.succ {call : ℕ → Call α} (h : Terminates fun fuel => call (fuel + 1)) :
    Terminates call := by
  obtain ⟨N, r, hr, hN⟩ := h
  refine ⟨N + 1, r, hr, fun fuel hf => ?_⟩
  obtain ⟨k, rfl⟩ := Nat.exists_eq_add_of_le' (Nat.le_of_add_left_le hf)
  exact hN k (by omega)

theorem Terminates.bind {x : ℕ → Call α} {f : ℕ → α → Call β} (hx : Terminates x)
    (hf : ∀ a, (∃ fuel, x fuel = .ok a) → Terminates fun fuel => f fuel a) :
    Terminates fun fuel => x fuel >>= f fuel := by
  obtain ⟨N, r, hr, hN⟩ := hx
  cases r with
  | running => exact absurd rfl hr
  | failed e =>
    refine ⟨N, .failed e, by simp, fun fuel hfuel => ?_⟩
    change x fuel >>= f fuel = .failed e
    rw [hN fuel hfuel]
    rfl
  | ok a =>
    obtain ⟨M, r', hr', hM⟩ := hf a ⟨N, hN N (Nat.le_refl N)⟩
    refine ⟨max N M, r', hr', fun fuel hfuel => ?_⟩
    change x fuel >>= f fuel = r'
    rw [hN fuel (by omega), ok_bind]
    exact hM fuel (by omega)

theorem terminates_ok (a : α) : Terminates fun _ => .ok a :=
  terminates_of_eq (by simp) fun _ => rfl

theorem terminates_failed (e : BpfErrors.BpfError) : Terminates (α := α) fun _ => .failed e :=
  terminates_of_eq (by simp) fun _ => rfl

theorem Terminates.unless {c : Prop} [Decidable c] {x : ℕ → Call α} (h : Terminates x) :
    Terminates fun fuel => if c then .failed invalid else x fuel := by
  by_cases hc : c
  · simp only [if_pos hc]
    exact terminates_failed invalid
  · simp only [if_neg hc]
    exact h

theorem terminates_orEinval (x : Option α) : Terminates fun _ => orEinval x := by
  cases x with
  | none => exact terminates_failed invalid
  | some a => exact terminates_ok a

end calls

inductive EdgeKind where
  | reference
  | element
  | member
  deriving DecidableEq, Repr

inductive Refers (btf : Btf) : EdgeKind → TypeId → TypeId → Prop where
  | reference {i j kind} (h : btf.typeById i = some (.reference kind j)) :
      Refers btf .reference i j
  | element {i j capacity} (h : btf.typeById i = some (.array j capacity)) :
      Refers btf .element i j
  | structMember {i size members m} (h : btf.typeById i = some (.struct size members))
      (hm : m ∈ members) : Refers btf .member i m.ty
  | unionMember {i size members m} (h : btf.typeById i = some (.union size members))
      (hm : m ∈ members) : Refers btf .member i m.ty

def CyclesByMembers (btf : Btf) : Prop := EveryCycle (Refers btf) (· = .member)

variable {btf : Btf}

abbrev Leads (btf : Btf) : TypeId → TypeId → Prop := Avoiding (Refers btf) (· = .member)

theorem leads_reference {i j : TypeId} {kind : RefKind}
    (h : btf.typeById i = some (.reference kind j)) : Leads btf i j :=
  ⟨.reference, by simp, .reference h⟩

theorem leads_element {i j : TypeId} {capacity : UInt32}
    (h : btf.typeById i = some (.array j capacity)) : Leads btf i j :=
  ⟨.element, by simp, .element h⟩

theorem refers_lt {kind : EdgeKind} {i j : TypeId} (h : Refers btf kind i j) :
    i < btf.types.length := by
  have hlt : ∀ {t}, btf.typeById i = some t → i < btf.types.length := fun h =>
    (List.getElem?_eq_some_iff.1 h).1
  cases h with
  | reference h => exact hlt h
  | element h => exact hlt h
  | structMember h => exact hlt h
  | unionMember h => exact hlt h

theorem leads_wellFounded (h : CyclesByMembers btf) : WellFounded (flip (Leads btf)) := by
  apply h.wellFounded
  apply (Set.finite_lt_nat btf.types.length).subset
  rintro i ⟨j, kind, -, hrefers⟩
  exact refers_lt hrefers

theorem resolve_step {t : BtfType}
    (h : ∀ next, btf.nextType t = some next → Terminates (resolveBtfType btf · next)) :
    Terminates (resolveBtfType btf · t) := by
  apply Terminates.succ
  cases hnext : btf.nextType t with
  | none =>
    apply terminates_of_eq (r := .ok t) (by simp)
    intro fuel
    simp [resolveBtfType, hnext]
  | some next =>
    have hsame : (fun fuel => resolveBtfType btf (fuel + 1) t) = (resolveBtfType btf · next) := by
      funext fuel
      rw [resolveBtfType, hnext]
    rw [hsame]
    exact h next hnext

theorem nextType_eq_some {t next : BtfType} (h : btf.nextType t = some next) :
    ∃ kind j, t = .reference kind j ∧ btf.typeById j = some next := by
  cases t with
  | reference kind j => exact ⟨kind, j, rfl, h⟩
  | int | array | struct | union | enum | other => cases h

theorem resolve_terminates (h : CyclesByMembers btf) (t : BtfType) :
    Terminates (resolveBtfType btf · t) := by
  have hids : ∀ i t, btf.typeById i = some t → Terminates (resolveBtfType btf · t) := by
    intro i
    induction i using (leads_wellFounded h).induction with
    | _ i ih =>
      intro t ht
      apply resolve_step
      intro next hnext
      obtain ⟨kind, j, rfl, hj⟩ := nextType_eq_some hnext
      exact ih j (leads_reference ht) next hj
  apply resolve_step
  intro next hnext
  obtain ⟨kind, j, -, hj⟩ := nextType_eq_some hnext
  exact hids j next hj

theorem size_step {t : BtfType} (hresolve : ∀ t, Terminates (resolveBtfType btf · t))
    (h : ∀ j capacity elem, t = .array j capacity → btf.typeById j = some elem →
      ∀ fuel u, resolveBtfType btf fuel elem = .ok u → Terminates (getBtfTypeSize btf · u)) :
    Terminates (getBtfTypeSize btf · t) := by
  apply Terminates.succ
  cases t with
  | array j capacity =>
    apply (terminates_orEinval (btf.typeById j)).bind
    rintro elem ⟨-, helem⟩
    apply (hresolve elem).bind
    rintro u ⟨fuel, hu⟩
    apply (h j capacity elem rfl (orEinval_eq_ok.1 helem) fuel u hu).bind
    intro size _
    exact terminates_ok _
  | int size | struct size | union size | enum size => exact terminates_ok size.toNat
  | reference | other => exact terminates_failed invalid

theorem resolve_cases {fuel : ℕ} {t u : BtfType} (h : resolveBtfType btf fuel t = .ok u) :
    u = t ∨ ∃ next k, btf.nextType t = some next ∧ resolveBtfType btf k next = .ok u := by
  cases fuel with
  | zero => cases h
  | succ k =>
    rw [resolveBtfType] at h
    cases hnext : btf.nextType t with
    | none =>
      rw [hnext] at h
      cases h
      exact .inl rfl
    | some next =>
      rw [hnext] at h
      exact .inr ⟨next, k, rfl, h⟩

theorem size_terminates_resolved (h : CyclesByMembers btf) (i : TypeId) :
    ∀ t, btf.typeById i = some t → ∀ fuel u, resolveBtfType btf fuel t = .ok u →
      Terminates (getBtfTypeSize btf · u) := by
  induction i using (leads_wellFounded h).induction with
  | _ i ih =>
    intro t ht fuel u hu
    rcases resolve_cases hu with rfl | ⟨next, k, hnext, hnextu⟩
    · apply size_step (resolve_terminates h)
      rintro j capacity elem rfl helem
      exact ih j (leads_element ht) elem helem
    · obtain ⟨kind, j, rfl, hj⟩ := nextType_eq_some hnext
      exact ih j (leads_reference ht) next hj k u hnextu

theorem size_terminates (h : CyclesByMembers btf) (t : BtfType) :
    Terminates (getBtfTypeSize btf · t) := by
  apply size_step (resolve_terminates h)
  intro j capacity elem _ helem
  exact size_terminates_resolved h j elem helem

theorem validateFields_terminates (h : CyclesByMembers btf)
    {complex : ℕ → BtfType → String → Cache → Call Cache} (kind : Kind) (members : List Member)
    (fields : List ValidationField)
    (hcomplex : ∀ field ∈ fields, ∀ t cache,
      Terminates fun fuel => complex fuel t field.typeName cache) (cache : Cache) :
    Terminates fun fuel => validateFields btf fuel (complex fuel) kind members fields cache := by
  induction fields generalizing cache with
  | nil => exact terminates_ok cache
  | cons field fields ih =>
    obtain ⟨hfield, hfields⟩ := List.forall_mem_cons.1 hcomplex
    apply (terminates_orEinval (members.find? (selects kind field))).bind
    intro member _
    apply Terminates.unless
    apply (terminates_orEinval (btf.typeById member.ty)).bind
    intro memberType _
    apply (resolve_terminates h memberType).bind
    intro resolved _
    apply (size_terminates h resolved).bind
    intro size _
    apply Terminates.unless
    apply (hfield resolved cache).bind
    intro cache' _
    exact ih hfields cache'

theorem validateComplexTypeByName_terminates (h : CyclesByMembers btf)
    {layout : ℕ → Ty → BtfType → Cache → Call Cache} (typeName : String)
    (hbase : ∀ t cache,
      Terminates fun fuel => validateBaseType (layout fuel) (baseType typeName) t cache)
    (t : BtfType) (cache : Cache) :
    Terminates fun fuel => validateComplexTypeByName btf fuel (layout fuel) t typeName cache := by
  by_cases hcached : typeName ∈ cache
  · simp only [validateComplexTypeByName, if_pos hcached]
    exact terminates_ok cache
  simp only [validateComplexTypeByName, if_neg hcached]
  apply (resolve_terminates h t).bind
  intro resolved _
  have htarget : Terminates fun _ => validationType btf resolved := by
    cases resolved with
    | array ty capacity => exact terminates_orEinval (btf.typeById ty)
    | reference | int | struct | union | enum | other => exact terminates_ok _
  apply htarget.bind
  intro target _
  apply (hbase target cache).bind
  intro cache' _
  exact terminates_ok _

def BaseTerminates (btf : Btf) (base : String) : Prop := ∀ t cache,
  Terminates fun fuel => validateBaseType (validateBtfLayoutFromType btf fuel) base t cache

theorem validate_terminates (h : CyclesByMembers btf) {ty : Ty}
    (hfields : ∀ field ∈ getValidationFields ty, BaseTerminates btf (baseType field.typeName))
    (kind : Kind) (size : ℕ) (members : List Member) (cache : Cache) :
    Terminates fun fuel => validate btf fuel
      (validateComplexTypeByName btf fuel (validateBtfLayoutFromType btf fuel)) kind size members
      ty cache := by
  apply Terminates.unless
  apply validateFields_terminates h
  intro field hfield
  exact validateComplexTypeByName_terminates h field.typeName (hfields field hfield)

/-- One level of the nesting of the Rust types. -/
theorem layout_terminates_of_fields (h : CyclesByMembers btf) {ty : Ty}
    (hfields : ∀ field ∈ getValidationFields ty, BaseTerminates btf (baseType field.typeName))
    (t : BtfType) (cache : Cache) :
    Terminates fun fuel => validateBtfLayoutFromType btf fuel ty t cache := by
  apply Terminates.succ
  apply (resolve_terminates h t).bind
  intro resolved _
  cases ty with
  | scalar | array => exact terminates_failed invalid
  | struct name packed members =>
    cases resolved with
    | struct size btfMembers => exact validate_terminates h hfields _ _ _ _
    | reference | int | array | union | enum | other => exact terminates_failed invalid
  | union name members =>
    cases resolved with
    | union size btfMembers => exact validate_terminates h hfields _ _ _ _
    | reference | int | array | struct | enum | other => exact terminates_failed invalid

/-! By induction on the Rust type. -/
mutual
theorem base_terminates (h : CyclesByMembers btf) : (ty : Ty) → WellRegistered ty →
    BaseTerminates btf (baseType ty.spelling)
  | .scalar name size => by
    intro hw t cache
    rw [WellRegistered] at hw
    change Terminates fun fuel =>
      validateBaseType (validateBtfLayoutFromType btf fuel) (baseType name) t cache
    simp only [validateBaseType, if_pos hw]
    exact terminates_ok cache
  | .array elem len lenName => by
    intro hw
    obtain ⟨hbase, -, hw⟩ := hw
    rw [hbase]
    exact base_terminates h elem hw
  | .struct name packed members => by
    intro hw t cache
    obtain ⟨hp, hv, hw⟩ := hw
    simp only [Ty.spelling, validateBaseType_registered hp hv]
    apply layout_terminates_of_fields h
    exact fields_terminate h members hw .struct packed 0
  | .union name members => by
    intro hw t cache
    obtain ⟨hp, hv, hw⟩ := hw
    simp only [Ty.spelling, validateBaseType_registered hp hv]
    apply layout_terminates_of_fields h
    exact fields_terminate h members hw .union false 0

theorem fields_terminate (h : CyclesByMembers btf) : (members : Members) →
    MembersWellRegistered members → ∀ (kind : Kind) (packed : Bool) (cur : ℕ),
      ∀ field ∈ fieldsOf kind packed cur members, BaseTerminates btf (baseType field.typeName)
  | .nil => by
    intro _ kind packed cur field hfield
    cases kind <;> cases hfield
  | .cons name ty rest => by
    intro hw kind packed cur
    obtain ⟨hw, -, hrest⟩ := hw
    rw [fieldsOf_cons, List.forall_mem_cons]
    exact ⟨base_terminates h ty hw, fields_terminate h rest hrest kind packed _⟩
end

theorem wellRegistered_of_mem {ty : Ty} (h : ty ∈ BTF_VALIDATORS) : WellRegistered ty := by
  simp only [BTF_VALIDATORS, List.mem_cons, List.not_mem_nil, or_false] at h
  rcases h with rfl | rfl | rfl | rfl | rfl | rfl
  · exact .rustCollection
  · exact .rustUsageRange
  · exact .rustUsageIdUnion
  · exact .rustField
  · exact .rustReport
  · exact .rustDescriptor

theorem every_base_terminates (h : CyclesByMembers btf) (base : String) :
    BaseTerminates btf base := by
  intro t cache
  by_cases hprimitive : base ∈ primitiveTypes
  · simp only [validateBaseType, if_pos hprimitive]
    exact terminates_ok cache
  cases hvalidator : BTF_VALIDATORS.find? fun ty => ty.spelling = base with
  | none =>
    simp only [validateBaseType, if_neg hprimitive, hvalidator]
    exact terminates_ok cache
  | some ty =>
    have hmem := List.mem_of_find?_eq_some hvalidator
    have hspelling : ty.spelling = base := by simpa using List.find?_some hvalidator
    have hplain : ∀ ty ∈ BTF_VALIDATORS, baseType ty.spelling = ty.spelling := by decide
    have hends := base_terminates h ty (wellRegistered_of_mem hmem) t cache
    rwa [hplain ty hmem, hspelling] at hends

/-- What the loader calls on a type of the graph, with any cache. -/
structure ValidationTerminates (btf : Btf) : Prop where
  resolve (t : BtfType) : Terminates fun fuel => resolveBtfType btf fuel t
  size (t : BtfType) : Terminates fun fuel => getBtfTypeSize btf fuel t
  validate (kind : Kind) (size : ℕ) (members : List Member) (ty : Ty) (cache : Cache) :
    Terminates fun fuel => validate btf fuel
      (validateComplexTypeByName btf fuel (validateBtfLayoutFromType btf fuel)) kind size members
      ty cache
  complex (t : BtfType) (typeName : String) (cache : Cache) : Terminates fun fuel =>
    validateComplexTypeByName btf fuel (validateBtfLayoutFromType btf fuel) t typeName cache
  layout (ty : Ty) (t : BtfType) (cache : Cache) : Terminates fun fuel =>
    validateBtfLayoutFromType btf fuel ty t cache

theorem validation_terminates (h : CyclesByMembers btf) : ValidationTerminates btf where
  resolve := resolve_terminates h
  size := size_terminates h
  validate kind size members _ cache :=
    validate_terminates h (fun _ _ => every_base_terminates h _) kind size members cache
  complex t typeName cache :=
    validateComplexTypeByName_terminates h typeName (every_base_terminates h _) t cache
  layout _ t cache :=
    layout_terminates_of_fields h (fun _ _ => every_base_terminates h _) t cache

/-- `struct node { struct node *next; struct node *others[4]; }` -/
def nodeGraph : Btf :=
  ⟨[.other,
    .struct 40 [⟨some (.text "next"), 2, .normal 0⟩, ⟨some (.text "others"), 3, .normal 64⟩],
    .reference .ptr 1, .array 2 4]⟩

theorem nodeGraph_cyclesByMembers : CyclesByMembers nodeGraph := by
  apply everyCycle_of_rank id
  intro kind i j hkind hrefers
  have hi := refers_lt hrefers
  change i < 4 at hi
  cases hrefers with
  | reference h =>
    interval_cases i <;> cases h
    decide
  | element h =>
    interval_cases i <;> cases h
    decide
  | structMember | unionMember => exact absurd rfl hkind

theorem nodeGraph_validation_terminates : ValidationTerminates nodeGraph :=
  validation_terminates nodeGraph_cyclesByMembers

end BtfTermination
