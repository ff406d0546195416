import UdevHidBpf.BtfGraph
import UdevHidBpf.Modaliases
import UdevHidBpf.OptionLists

/-! # The declared devices of an object

`HID_BPF_CONFIG` is a variable that is never read: the devices are in its type, a union of
structs whose members are pointers to arrays, and a number is the length of an array.
`none` is a panic, or a chain of modifiers longer than the fuel. -/
namespace ConfigMetadata

open BtfGraph Modaliases OptionLists

/-- A BTF section with its data sections: a name and the types of the variables. -/
structure ConfigBtf extends Btf where
  dataSecs : List (String × List TypeId)

def ConfigBtf.dataSecByName (btf : ConfigBtf) (name : String) : Option (List TypeId) :=
  (btf.dataSecs.find? fun sec => sec.1 = name).map Prod.snd

def isModOrTypedef : RefKind → Bool
  | .typedef | .volatile | .const | .restrict | .typeTag => true
  | .ptr | .func | .var | .declTag => false

def skipModsAndTypedefs (btf : Btf) : ℕ → BtfType → Option BtfType
  | 0, _ => none
  | fuel + 1, t =>
    match t with
    | .reference kind ty =>
      if isModOrTypedef kind then (btf.typeById ty).bind (skipModsAndTypedefs btf fuel)
      else some t
    | t => some t

def findUnion (btf : Btf) (fuel : ℕ) : List TypeId → Option (Option (List Member))
  | [] => some none
  | id :: ids =>
    match btf.typeById id with
    | some (.reference .var ty) => do
      let referenced ← btf.typeById ty
      match ← skipModsAndTypedefs btf fuel referenced with
      | .union _ members => some (some members)
      | _ => findUnion btf fuel ids
    | _ => some none

/-- `Metadata::from_btf` -/
def metadataFromBtf (btf : ConfigBtf) (fuel : ℕ) : Option (Option (List Member)) :=
  match btf.dataSecByName ".hid_bpf_config" with
  | none => some none
  | some vars => findUnion btf.toBtf fuel vars

/-- The `match member_name.as_str()` -/
def setField (name : String) (capacity : UInt32) (modalias : Modalias) : Option Modalias :=
  if name = "bus" then
    (Bus.tryFrom capacity.toNat).toOption.map fun bus => { modalias with bus := bus }
  else if name = "group" then
    (Group.tryFrom capacity.toNat).toOption.map fun group => { modalias with group := group }
  else if name = "vid" then some { modalias with vid := capacity }
  else if name = "pid" then some { modalias with pid := capacity }
  else some modalias

def readMember (btf : Btf) (modalias : Modalias) (member : Member) : Option Modalias := do
  let memberName ← member.name.bind OsStr.toStr
  match btf.typeById member.ty with
  | some (.reference .ptr ty) =>
    match ← btf.typeById ty with
    | .array _ capacity => setField memberName capacity modalias
    | _ => some modalias
  | _ => some modalias

/-- `Modalias::from_btf_type_id` -/
def fromBtfTypeId (btf : Btf) (unionMember : Member) : Option (Option Modalias) :=
  match btf.typeById unionMember.ty with
  | some (.struct _ members) => (members.foldlM (readMember btf) Modalias.new).map some
  | _ => some none

/-- The members of the union, the skipped ones left out. -/
def modaliases (btf : Btf) (members : List Member) : Option (List Modalias) :=
  (members.mapM (fromBtfTypeId btf)).map fun entries => entries.filterMap id

/-- A chain of modifiers and typedefs. -/
inductive Wraps (btf : Btf) : BtfType → BtfType → Prop where
  | done (t : BtfType) (h : ∀ kind ty, t = .reference kind ty → ¬ isModOrTypedef kind) :
      Wraps btf t t
  | step (kind : RefKind) (ty : TypeId) (next t : BtfType) (hkind : isModOrTypedef kind)
      (hnext : btf.typeById ty = some next) (h : Wraps btf next t) :
      Wraps btf (.reference kind ty) t

/-- `__uint(name, n)` -/
structure EncodesField (btf : Btf) (name : String) (n : ℕ) (member : Member) : Prop where
  name : member.name = some (.text name)
  array : ∃ ty elem capacity, btf.typeById member.ty = some (.reference .ptr ty) ∧
    btf.typeById ty = some (.array elem capacity) ∧ capacity.toNat = n

/-- The five fields of `HID_DEVICE`, in the order of the macro. -/
def fieldsOf (m : Modalias) : List (String × ℕ) :=
  [("name", 0), ("bus", m.bus.toNat), ("group", m.group.toNat), ("vid", m.vid.toNat),
    ("pid", m.pid.toNat)]

def EncodesDevice (btf : Btf) (m : Modalias) (member : Member) : Prop :=
  ∃ size members fields, btf.typeById member.ty = some (.struct size members) ∧
    fields.Perm (fieldsOf m) ∧
    List.Forall₂ (fun field member => EncodesField btf field.1 field.2 member) fields members

def VarOf (btf : Btf) (id : TypeId) (t : BtfType) : Prop :=
  ∃ ty wrapped, btf.typeById id = some (.reference .var ty) ∧ btf.typeById ty = some wrapped ∧
    Wraps btf wrapped t

/-- The section of `HID_BPF_CONFIG`: variables of other types, then the union of the entries. -/
structure EncodesConfig (btf : ConfigBtf) (entries : List Modalias) (members : List Member) :
    Prop where
  devices : List.Forall₂ (EncodesDevice btf.toBtf) entries members
  section_ : ∃ before var after size,
    btf.dataSecByName ".hid_bpf_config" = some (before ++ var :: after) ∧
    (∀ id ∈ before, ∃ t, VarOf btf.toBtf id t ∧ ∀ size members, t ≠ .union size members) ∧
    VarOf btf.toBtf var (.union size members)

variable {btf : Btf}

theorem skipModsAndTypedefs_wraps {t u : BtfType} (h : Wraps btf t u) :
    ∃ n, ∀ fuel ≥ n, skipModsAndTypedefs btf fuel t = some u := by
  induction h with
  | done t ht =>
    refine ⟨1, fun fuel hfuel => ?_⟩
    obtain ⟨fuel, rfl⟩ := Nat.exists_eq_add_of_le' hfuel
    cases t with
    | reference kind ty => simp [skipModsAndTypedefs, ht kind ty rfl]
    | _ => rfl
  | step kind ty next t hkind hnext _ ih =>
    obtain ⟨n, hn⟩ := ih
    refine ⟨n + 1, fun fuel hfuel => ?_⟩
    obtain ⟨fuel, rfl⟩ := Nat.exists_eq_add_of_le' (Nat.le_of_add_left_le hfuel)
    simp only [skipModsAndTypedefs, hkind, if_true, hnext, Option.bind_some]
    exact hn fuel (by omega)

theorem findUnion_encoded {before : List TypeId} (after : List TypeId) {var : TypeId}
    {size : UInt32} {members : List Member}
    (hbefore : ∀ id ∈ before, ∃ t, VarOf btf id t ∧ ∀ size members, t ≠ .union size members)
    (hvar : VarOf btf var (.union size members)) :
    ∃ n, ∀ fuel ≥ n, findUnion btf fuel (before ++ var :: after) = some (some members) := by
  induction before with
  | nil =>
    obtain ⟨ty, wrapped, hty, hwrapped, hwraps⟩ := hvar
    obtain ⟨n, hn⟩ := skipModsAndTypedefs_wraps hwraps
    refine ⟨n, fun fuel hfuel => ?_⟩
    simp [findUnion, hty, hwrapped, hn fuel hfuel]
  | cons id before ih =>
    obtain ⟨n, hn⟩ := ih fun i hi => hbefore i (List.mem_cons_of_mem _ hi)
    obtain ⟨t, ⟨ty, wrapped, hty, hwrapped, hwraps⟩, ht⟩ := hbefore id List.mem_cons_self
    obtain ⟨k, hk⟩ := skipModsAndTypedefs_wraps hwraps
    refine ⟨max n k, fun fuel hfuel => ?_⟩
    have hrest := hn fuel (le_of_max_le_left hfuel)
    simp only [List.cons_append, findUnion, hty, hwrapped, hk fuel (le_of_max_le_right hfuel),
      Option.bind_eq_bind, Option.bind_some]
    cases t with
    | union size members => exact absurd rfl (ht size members)
    | _ => exact hrest

theorem readMember_encoded {name : String} {n : ℕ} {member : Member}
    (h : EncodesField btf name n member) (modalias : Modalias) :
    readMember btf modalias member = setField name (UInt32.ofNat n) modalias := by
  obtain ⟨ty, elem, capacity, hptr, harray, hcapacity⟩ := h.array
  simp [readMember, h.name, OsStr.toStr, hptr, harray, ← hcapacity]

def takeField (m : Modalias) (name : String) (s : Modalias) : Modalias where
  bus := if name = "bus" then m.bus else s.bus
  group := if name = "group" then m.group else s.group
  vid := if name = "vid" then m.vid else s.vid
  pid := if name = "pid" then m.pid else s.pid

theorem takeField_comm (m : Modalias) (a b : String) (s : Modalias) :
    takeField m a (takeField m b s) = takeField m b (takeField m a s) := by
  have hcomm {α : Type} (p q : Prop) [Decidable p] [Decidable q] (x y : α) :
      (if p then x else if q then x else y) = if q then x else if p then x else y := by
    by_cases hp : p <;> by_cases hq : q <;> simp [hp, hq]
  rw [takeField, takeField, Modalias.mk.injEq]
  exact ⟨hcomm .., hcomm .., hcomm .., hcomm ..⟩

theorem setField_fieldsOf {m : Modalias} {field : String × ℕ} (h : field ∈ fieldsOf m)
    (s : Modalias) :
    setField field.1 (UInt32.ofNat field.2) s = some (takeField m field.1 s) := by
  have hbus : (UInt32.ofNat m.bus.toNat).toNat = m.bus.toNat :=
    UInt32.toNat_ofNat_of_lt' (m.bus.toNat_lt.trans (by decide))
  have hgroup : (UInt32.ofNat m.group.toNat).toNat = m.group.toNat :=
    UInt32.toNat_ofNat_of_lt' (m.group.toNat_lt.trans (by decide))
  simp only [fieldsOf, List.mem_cons, List.not_mem_nil, or_false] at h
  rcases h with rfl | rfl | rfl | rfl | rfl
  · rfl
  · rw [setField, if_pos rfl, hbus, Bus.tryFrom_toNat]
    rfl
  · have hname : "group" ≠ "bus" := by decide
    rw [setField, if_neg hname, if_pos rfl, hgroup, Group.tryFrom_toNat]
    rfl
  · simp [setField, takeField]
  · simp [setField, takeField]

/-- The fields in any order give the entry. -/
theorem foldlM_setField {m : Modalias} {fields : List (String × ℕ)} (h : fields.Perm (fieldsOf m)) :
    fields.foldlM (fun s field => setField field.1 (UInt32.ofNat field.2) s) Modalias.new =
      some m := by
  rw [foldlM_eq_foldl (g := fun s field => takeField m field.1 s)
    fun field hfield => setField_fieldsOf (h.mem_iff.mp hfield)]
  have hperm := h.foldl_eq' (f := fun s field => takeField m field.1 s)
    (fun a _ b _ s => takeField_comm m b.1 a.1 s) Modalias.new
  rw [hperm]
  rfl

theorem fromBtfTypeId_encoded {m : Modalias} {member : Member} (h : EncodesDevice btf m member) :
    fromBtfTypeId btf member = some (some m) := by
  obtain ⟨size, members, fields, hty, hperm, hfields⟩ := h
  have hread (modalias : Modalias) : members.foldlM (readMember btf) modalias =
      fields.foldlM (fun s field => setField field.1 (UInt32.ofNat field.2) s) modalias := by
    clear hperm hty
    induction hfields generalizing modalias with
    | nil => rfl
    | cons hfield _ ih =>
      rw [List.foldlM_cons, List.foldlM_cons, readMember_encoded hfield]
      cases setField _ _ modalias with
      | none => rfl
      | some s => exact ih s
  rw [fromBtfTypeId, hty]
  simp only [hread, foldlM_setField hperm, Option.map_some]

theorem modaliases_encoded {entries : List Modalias} {members : List Member}
    (h : List.Forall₂ (EncodesDevice btf) entries members) :
    modaliases btf members = some entries := by
  have hmap : members.mapM (fromBtfTypeId btf) = some (entries.map some) := by
    induction h with
    | nil => rfl
    | cons hd _ ih => simp [List.mapM_cons, fromBtfTypeId_encoded hd, ih]
  rw [modaliases, hmap]
  simp

/-- What the macro declares is what the loader reads, entry by entry. -/
theorem config_round_trip (btf : ConfigBtf) (entries : List Modalias) (members : List Member)
    (h : EncodesConfig btf entries members) :
    ∃ n, ∀ fuel ≥ n, metadataFromBtf btf fuel = some (some members) ∧
      modaliases btf.toBtf members = some entries := by
  obtain ⟨before, var, after, size, hsec, hbefore, hvar⟩ := h.section_
  obtain ⟨n, hn⟩ := findUnion_encoded after hbefore hvar
  refine ⟨n, fun fuel hfuel => ⟨?_, ?_⟩⟩
  · rw [metadataFromBtf, hsec]
    exact hn fuel hfuel
  · exact modaliases_encoded h.devices

def PointsToArray (btf : Btf) (member : Member) (name : String) (capacity : UInt32) : Prop :=
  member.name = some (.text name) ∧ ∃ ty elem, btf.typeById member.ty = some (.reference .ptr ty) ∧
    btf.typeById ty = some (.array elem capacity)

/-- Structs whose members point to arrays of any length. -/
def DeviceUnion (btf : Btf) (members : List Member) : Prop :=
  ∀ entry ∈ members, ∃ size fields, btf.typeById entry.ty = some (.struct size fields) ∧
    ∀ field ∈ fields, ∃ name capacity, PointsToArray btf field name capacity

def KnownNumber (name : String) (capacity : UInt32) : Prop :=
  (name = "bus" → ∃ bus : Bus, capacity.toNat = bus.toNat) ∧
    (name = "group" → ∃ group : Group, capacity.toNat = group.toNat)

theorem isSome_setField_iff {name : String} {capacity : UInt32} (modalias : Modalias) :
    (setField name capacity modalias).isSome ↔ KnownNumber name capacity := by
  have hok {α : Type} (x : Except String α) : x.toOption.isSome ↔ ∃ a, x = .ok a := by
    cases x <;> simp [Except.toOption]
  unfold setField KnownNumber
  split
  · rename_i hname
    subst hname
    rw [Option.isSome_map, hok]
    simp [Bus.tryFrom_eq_ok]
  · split
    · rename_i hname
      subst hname
      rw [Option.isSome_map, hok]
      simp [Group.tryFrom_eq_ok]
    · rename_i hbus hgroup
      simp only [hbus, hgroup, false_implies, and_self, iff_true]
      split
      · rfl
      · split <;> rfl

theorem readMember_of_pointsToArray {member : Member} {name : String} {capacity : UInt32}
    (h : PointsToArray btf member name capacity) (modalias : Modalias) :
    readMember btf modalias member = setField name capacity modalias := by
  obtain ⟨hname, ty, elem, hptr, harray⟩ := h
  simp [readMember, hname, OsStr.toStr, hptr, harray]

theorem isSome_modaliases_iff {members : List Member} (h : DeviceUnion btf members) :
    (modaliases btf members).isSome ↔
      ∀ entry ∈ members, ∀ size fields, btf.typeById entry.ty = some (.struct size fields) →
        ∀ field ∈ fields, ∀ name capacity, PointsToArray btf field name capacity →
          KnownNumber name capacity := by
  rw [modaliases, Option.isSome_map, isSome_mapM_iff]
  refine forall₂_congr fun entry hentry => ?_
  obtain ⟨size, fields, hty, hfields⟩ := h entry hentry
  rw [fromBtfTypeId, hty]
  simp only [Option.isSome_map]
  rw [isSome_foldlM_iff (P := fun field => ∀ name capacity, PointsToArray btf field name capacity →
    KnownNumber name capacity)]
  · simp
  · intro field hfield modalias
    obtain ⟨name, capacity, hpoints⟩ := hfields field hfield
    rw [readMember_of_pointsToArray hpoints, isSome_setField_iff]
    refine ⟨fun hknown name' capacity' hpoints' => ?_, fun hknown => hknown name capacity hpoints⟩
    obtain ⟨hname, ty, elem, hptr, harray⟩ := hpoints
    obtain ⟨hname', ty', elem', hptr', harray'⟩ := hpoints'
    simp_all

def field (name : String) (ty : TypeId) : Member := ⟨some (.text name), ty, .normal 0⟩

/-- One entry behind `const` and a typedef, its members in another order, after an integer. -/
def oneEntryBtf : ConfigBtf where
  types := [.other, .int 4, .array 1 0, .reference .ptr 2, .array 1 3, .reference .ptr 4,
    .array 1 0x56A, .reference .ptr 6, .array 1 0x374, .reference .ptr 8,
    .struct 40 [field "pid" 9, field "name" 3, field "bus" 5, field "group" 3, field "vid" 7],
    .union 40 [field "_entry12" 10], .reference .typedef 11, .reference .const 12,
    .reference .var 13, .reference .var 1]
  dataSecs := [(".hid_bpf_config", [15, 14])]

theorem config_round_trip_one_entry : ∃ n, ∀ fuel ≥ n,
    metadataFromBtf oneEntryBtf fuel = some (some [field "_entry12" 10]) ∧
      modaliases oneEntryBtf.toBtf [field "_entry12" 10] = some [⟨.usb, .any, 0x56A, 0x374⟩] := by
  have hdevice : EncodesDevice oneEntryBtf.toBtf ⟨.usb, .any, 0x56A, 0x374⟩ (field "_entry12" 10) :=
    ⟨_, _, [("pid", 0x374), ("name", 0), ("bus", 3), ("group", 0), ("vid", 0x56A)], rfl,
      by decide,
      .cons ⟨rfl, _, _, _, rfl, rfl, rfl⟩ (.cons ⟨rfl, _, _, _, rfl, rfl, rfl⟩
        (.cons ⟨rfl, _, _, _, rfl, rfl, rfl⟩ (.cons ⟨rfl, _, _, _, rfl, rfl, rfl⟩
          (.cons ⟨rfl, _, _, _, rfl, rfl, rfl⟩ .nil))))⟩
  have hint : VarOf oneEntryBtf.toBtf 15 (.int 4) :=
    ⟨_, _, rfl, rfl, .done _ (fun _ _ h => by cases h)⟩
  have hunion : VarOf oneEntryBtf.toBtf 14 (.union 40 [field "_entry12" 10]) :=
    ⟨_, _, rfl, rfl, .step _ _ _ _ rfl rfl (.step _ _ _ _ rfl rfl
      (.done _ (fun _ _ h => by cases h)))⟩
  apply config_round_trip oneEntryBtf
  refine ⟨.cons hdevice .nil, [15], 14, [], 40, rfl, ?_, hunion⟩
  intro id hid
  obtain rfl := List.mem_singleton.mp hid
  exact ⟨_, hint, fun _ _ h => by cases h⟩

end ConfigMetadata
