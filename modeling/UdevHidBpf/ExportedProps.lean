import UdevHidBpf.ConfigMetadata
import UdevHidBpf.DescriptorInjection

/-! # The size of exported properties

`EXPORT_UDEV_PROP(name, len)` declares a map by a struct of four pointers, and its value size
is in the type behind the last of them. libbpf looks there for the map that properties are
checked against, `get_udev_property_maps_metadata` takes the size of the struct. -/
namespace ExportedProps

open BtfGraph DescriptorInjection TypeLayout
open ConfigMetadata (EncodesField)
open ListLoaded (stripPrefix)
open UdevProperties (LoadedMap UdevPropertyMap mapName)

structure InspectionUdevProp where
  name : String
  size : ℕ
  readonly : Bool
  deriving DecidableEq, Repr

def inspectionUdevProps (metadata : BpfMetadata) : List InspectionUdevProp :=
  (metadata.udevPropertiesBss ++ metadata.udevPropertiesData).map
      (fun var => ⟨var.name, var.size, true⟩) ++
    metadata.udevPropertyMaps.map fun map => ⟨map.name, map.size, false⟩

def BPF_MAP_TYPE_ARRAY : ℕ := 2

def pointer : Ty := .scalar "ptr" 8

def udevPropStruct : Ty :=
  .struct "udev_prop" false (.cons "type" pointer (.cons "max_entries" pointer
    (.cons "key" pointer (.cons "value" pointer .nil))))

/-- `__type(name, T)` with a `T` of `n` bytes. -/
structure EncodesType (btf : Btf) (name : String) (n : ℕ) (member : Member) : Prop where
  name : member.name = some (.text name)
  pointee : ∃ ty t u, btf.typeById member.ty = some (.reference .ptr ty) ∧
    btf.typeById ty = some t ∧ Resolves exactReading btf t u ∧ SizeOf exactReading btf u n

/-- `__type(name, __u8[len])` -/
structure EncodesBytes (btf : Btf) (name : String) (len : ℕ) (member : Member) : Prop where
  name : member.name = some (.text name)
  pointee : ∃ ty elem capacity t u, btf.typeById member.ty = some (.reference .ptr ty) ∧
    btf.typeById ty = some (.array elem capacity) ∧ capacity.toNat = len ∧
    btf.typeById elem = some t ∧ Resolves exactReading btf t u ∧ SizeOf exactReading btf u 1

/-- The variable of the macro in `.maps`. -/
structure ExportsAs (btf : NamedBtf) (v : DataSecVarInfo) (name : String) (len : ℕ) : Prop where
  named : varName btf v = some (mapName name)
  struct_ : ∃ ty size mapType maxEntries key value,
    btf.typeById v.ty = some (.reference .var ty) ∧
    btf.typeById ty = some (.struct size [mapType, maxEntries, key, value]) ∧
    size.toNat = udevPropStruct.size ∧
    EncodesField btf.toBtf "type" BPF_MAP_TYPE_ARRAY mapType ∧
    EncodesField btf.toBtf "max_entries" 1 maxEntries ∧
    EncodesType btf.toBtf "key" 4 key ∧ EncodesBytes btf.toBtf "value" len value
  size : v.size = udevPropStruct.size

/-- The program has an `EXPORT_UDEV_PROP(name, len)`, among any other maps. -/
def Exports (btf : NamedBtf) (name : String) (len : ℕ) : Prop :=
  0 < len ∧ ∃ vars v, btf.dataSecByName ".maps" = some vars ∧ v ∈ vars ∧ ExportsAs btf v name len

/-- The size of what the member `value` of the struct points to. -/
def ValueSize (btf : NamedBtf) (v : DataSecVarInfo) (n : ℕ) : Prop :=
  ∃ ty t size members, btf.typeById v.ty = some (.reference .var ty) ∧
    btf.typeById ty = some t ∧ Resolves exactReading btf.toBtf t (.struct size members) ∧
    ∃ member ∈ members, EncodesType btf.toBtf "value" n member

/-- The maps of the opened object: the variables have names of their own, and each that has a
value size is a map of this name and value size. -/
structure Opened (btf : NamedBtf) (maps : List LoadedMap) : Prop where
  distinct : ∀ vars, btf.dataSecByName ".maps" = some vars →
    (vars.filterMap (varName btf)).Nodup
  sized : ∀ vars, btf.dataSecByName ".maps" = some vars → ∀ v ∈ vars, ∀ name n,
    varName btf v = some name → ValueSize btf v n →
      ∃ m, maps.find? (fun m => m.name = name) = some m ∧ m.valueSize = n

/-- The property is recorded once and printed once, with the size that values are checked
against. -/
structure ReportsCapacity (metadata : BpfMetadata) (maps : List LoadedMap) (name : String)
    (len : ℕ) : Prop where
  recorded : metadata.udevPropertyMaps.filter (fun map => map.name = name) = [⟨name, len⟩]
  printed : (inspectionUdevProps metadata).filter (fun p => p.name = name ∧ p.readonly = false) =
    [⟨name, len, false⟩]
  checked : ∃ m, maps.find? (fun m => m.name = mapName name) = some m ∧ m.valueSize = len

theorem udevPropStruct_size : udevPropStruct.size = 32 := by decide

theorem stripPrefix_eq_some_iff {front s rest : String} :
    stripPrefix front s = some rest ↔ s = front ++ rest := by
  rw [stripPrefix, Option.ite_none_right_eq_some, List.isPrefixOf_iff_prefix, Option.some.injEq]
  constructor
  · rintro ⟨⟨tail, htail⟩, rfl⟩
    rw [← String.toList_inj, String.toList_append, String.toList_ofList, ← htail,
      ← String.length_toList, List.drop_left']
    rfl
  · rintro rfl
    rw [String.toList_append, ← String.length_toList, List.drop_left', String.ofList_toList]
    · exact ⟨List.prefix_append _ _, rfl⟩
    · rfl

section recorded

variable {btf : NamedBtf} {vars : List DataSecVarInfo} {v : DataSecVarInfo} {name : String}

def recordOf (btf : NamedBtf) (v : DataSecVarInfo) : Option UdevPropertyMap := do
  let _ ← btf.typeById v.ty
  let propName ← stripPrefix "UDEV_PROP_" (← varName btf v)
  some ⟨propName, v.size⟩

theorem recordOf_eq_some_iff {map : UdevPropertyMap} :
    recordOf btf v = some map ↔ (btf.typeById v.ty).isSome ∧
      varName btf v = some (mapName map.name) ∧ v.size = map.size := by
  obtain ⟨propName, size⟩ := map
  simp only [recordOf, Option.bind_eq_bind, Option.bind_eq_some_iff, Option.some.injEq,
    UdevPropertyMap.mk.injEq, stripPrefix_eq_some_iff, Option.isSome_iff_exists, mapName]
  constructor
  · rintro ⟨t, ht, varName, hvarName, propName, rfl, rfl, rfl⟩
    exact ⟨⟨t, ht⟩, hvarName, rfl⟩
  · rintro ⟨⟨t, ht⟩, hvarName, rfl⟩
    exact ⟨t, ht, _, hvarName, _, rfl, rfl, rfl⟩

theorem getUdevPropertyMapsMetadata_eq (h : btf.dataSecByName ".maps" = some vars) :
    getUdevPropertyMapsMetadata btf = vars.filterMap (recordOf btf) := by
  rw [getUdevPropertyMapsMetadata, h]
  rfl

theorem filter_recordOf_eq_nil (h : mapName name ∉ vars.filterMap (varName btf)) :
    (vars.filterMap (recordOf btf)).filter (fun map => map.name = name) = [] := by
  rw [List.filter_eq_nil_iff]
  intro map hmap hname
  obtain ⟨v, hv, hrecord⟩ := List.mem_filterMap.1 hmap
  obtain ⟨-, hvarName, -⟩ := recordOf_eq_some_iff.1 hrecord
  rw [of_decide_eq_true hname] at hvarName
  exact h (List.mem_filterMap.2 ⟨v, hv, hvarName⟩)

theorem filter_recordOf {t : BtfType} (hdistinct : (vars.filterMap (varName btf)).Nodup)
    (hv : v ∈ vars) (ht : btf.typeById v.ty = some t)
    (hname : varName btf v = some (mapName name)) :
    (vars.filterMap (recordOf btf)).filter (fun map => map.name = name) = [⟨name, v.size⟩] := by
  obtain ⟨before, after, rfl⟩ := List.append_of_mem hv
  rw [List.filterMap_append, List.filterMap_cons_some hname] at hdistinct
  obtain ⟨-, hafter, hdisjoint⟩ := List.nodup_append.1 hdistinct
  have hbefore : mapName name ∉ before.filterMap (varName btf) :=
    fun hmem => hdisjoint _ hmem _ List.mem_cons_self rfl
  have hrecord : recordOf btf v = some ⟨name, v.size⟩ :=
    recordOf_eq_some_iff.2 ⟨Option.isSome_of_eq_some ht, hname, rfl⟩
  have hself : decide (UdevPropertyMap.name ⟨name, v.size⟩ = name) = true := decide_eq_true rfl
  rw [List.filterMap_append, List.filterMap_cons_some hrecord, List.filter_append,
    filter_recordOf_eq_nil hbefore, List.filter_cons, if_pos hself,
    filter_recordOf_eq_nil (List.nodup_cons.1 hafter).1]
  rfl

end recorded

theorem filter_inspectionUdevProps (metadata : BpfMetadata) (name : String) :
    (inspectionUdevProps metadata).filter (fun p => p.name = name ∧ p.readonly = false) =
      (metadata.udevPropertyMaps.filter fun map => map.name = name).map
        fun map => ⟨map.name, map.size, false⟩ := by
  have hvars : ((metadata.udevPropertiesBss ++ metadata.udevPropertiesData).map fun var =>
      (⟨var.name, var.size, true⟩ : InspectionUdevProp)).filter
        (fun p => p.name = name ∧ p.readonly = false) = [] := by
    rw [List.filter_eq_nil_iff, List.forall_mem_map]
    intro var _
    simp
  rw [inspectionUdevProps, List.filter_append, hvars, List.nil_append, List.filter_map]
  simp [Function.comp_def]

theorem fromBtf_udevPropertyMaps {btf : NamedBtf} {metadata : BpfMetadata}
    (h : BpfMetadata.fromBtf btf = some metadata) :
    metadata.udevPropertyMaps = getUdevPropertyMapsMetadata btf := by
  simp only [BpfMetadata.fromBtf, Option.bind_eq_bind, Option.bind_eq_some_iff] at h
  obtain ⟨propsBss, -, propsData, -, rdescBss, -, rdescData, -, h⟩ := h
  obtain rfl := Option.some.inj h
  rfl

theorem valueSize_of_exportsAs {btf : NamedBtf} {v : DataSecVarInfo} {name : String} {len : ℕ}
    (h : ExportsAs btf v name len) : ValueSize btf v len := by
  obtain ⟨ty, size, mapType, maxEntries, key, value, hvar, hstruct, -, -, -, -, hvalue⟩ :=
    h.struct_
  obtain ⟨arrayTy, elem, capacity, t, u, hpointer, harray, hcapacity, ht, hu, hbyte⟩ :=
    hvalue.pointee
  have htimes : exactReading.times 1 capacity.toNat = len := by
    rw [hcapacity]
    exact Nat.one_mul len
  have hsize : SizeOf exactReading btf.toBtf (.array elem capacity) len :=
    htimes ▸ .array ht hu hbyte
  have hvalueType : EncodesType btf.toBtf "value" len value :=
    ⟨hvalue.name, arrayTy, .array elem capacity, .array elem capacity, hpointer, harray, .here id,
      hsize⟩
  exact ⟨ty, .struct size [mapType, maxEntries, key, value], size, _, hvar, hstruct, .here id,
    value, by simp, hvalueType⟩

/-- Whatever the length, the size of the struct is recorded. -/
theorem recorded_size {btf : NamedBtf} {maps : List LoadedMap} {name : String} {len : ℕ}
    {metadata : BpfMetadata} (hexports : Exports btf name len) (hopened : Opened btf maps)
    (hmetadata : BpfMetadata.fromBtf btf = some metadata) :
    metadata.udevPropertyMaps.filter (fun map => map.name = name) = [⟨name, 32⟩] ∧
      ∃ m, maps.find? (fun m => m.name = mapName name) = some m ∧ m.valueSize = len := by
  obtain ⟨-, vars, v, hvars, hv, hexport⟩ := hexports
  obtain ⟨ty, -, -, -, -, -, hvar, -⟩ := hexport.struct_
  refine ⟨?_, hopened.sized vars hvars v hv _ len hexport.named (valueSize_of_exportsAs hexport)⟩
  rw [fromBtf_udevPropertyMaps hmetadata, getUdevPropertyMapsMetadata_eq hvars,
    filter_recordOf (hopened.distinct vars hvars) hv hvar hexport.named, hexport.size,
    udevPropStruct_size]

/-- The reported size is the capacity of properties of 32 bytes only. -/
theorem exported_capacity_reported_iff {btf : NamedBtf} {maps : List LoadedMap} {name : String}
    {len : ℕ} {metadata : BpfMetadata} (hexports : Exports btf name len)
    (hopened : Opened btf maps) (hmetadata : BpfMetadata.fromBtf btf = some metadata) :
    ReportsCapacity metadata maps name len ↔ len = 32 := by
  obtain ⟨hrecorded, hchecked⟩ := recorded_size hexports hopened hmetadata
  constructor
  · intro h
    have heq := h.recorded
    rw [hrecorded] at heq
    injection heq with hmap
    injection hmap with _ hsize
    exact hsize.symm
  · rintro rfl
    refine ⟨hrecorded, ?_, hchecked⟩
    rw [filter_inspectionUdevProps, hrecorded]
    rfl

def structMember (name : String) (ty : TypeId) (offset : UInt32) : Member :=
  ⟨some (.text name), ty, .normal offset⟩

def exportBtf (len : UInt32) : NamedBtf where
  types := [.other, .int 4, .array 1 2, .reference .ptr 2, .array 1 1, .reference .ptr 4,
    .int 4, .reference .typedef 6, .reference .ptr 7, .int 1, .reference .typedef 9,
    .array 10 len, .reference .ptr 11,
    .struct 32 [structMember "type" 3 0, structMember "max_entries" 5 64, structMember "key" 8 128,
      structMember "value" 12 192],
    .reference .var 13]
  typeName := fun id => if id = 14 then some (.text "UDEV_PROP_HID_FOO") else none
  dataSecs := [(".maps", [⟨14, 0, 32⟩])]

def exportMaps (len : UInt32) : List LoadedMap :=
  [⟨"UDEV_PROP_HID_FOO", len.toNat, [List.replicate len.toNat 0]⟩]

def exportMetadata : BpfMetadata := ⟨⟨[], [], [⟨"HID_FOO", 32⟩]⟩, none, none⟩

theorem exportBtf_exports {len : UInt32} (h : 0 < len.toNat) :
    Exports (exportBtf len) "HID_FOO" len.toNat := by
  refine ⟨h, [⟨14, 0, 32⟩], ⟨14, 0, 32⟩, rfl, List.mem_singleton_self _, rfl, ?_, by decide⟩
  refine ⟨13, 32, _, _, _, _, rfl, rfl, by decide, ?_, ?_, ?_, ?_⟩
  · exact ⟨rfl, 2, 1, 2, rfl, rfl, rfl⟩
  · exact ⟨rfl, 4, 1, 1, rfl, rfl, rfl⟩
  · exact ⟨rfl, 7, .reference .typedef 6, .int 4, rfl, rfl, .next trivial rfl (.here id), .int 4⟩
  · exact ⟨rfl, 11, 10, len, .reference .typedef 9, .int 1, rfl, rfl, rfl, rfl,
      .next trivial rfl (.here id), .int 1⟩

theorem exportBtf_valueSize {len : UInt32} {n : ℕ}
    (h : ValueSize (exportBtf len) ⟨14, 0, 32⟩ n) : n = len.toNat := by
  obtain ⟨ty, t, size, members, hvar, ht, hresolves, member, hmember, hvalue⟩ := h
  cases hvar
  cases ht
  cases hresolves
  have hthird : member = structMember "value" 12 192 := by
    have hname := hvalue.name
    simp only [List.mem_cons, List.not_mem_nil, or_false] at hmember
    rcases hmember with rfl | rfl | rfl | rfl
    · exact absurd hname (by decide)
    · exact absurd hname (by decide)
    · exact absurd hname (by decide)
    · rfl
  subst hthird
  obtain ⟨arrayTy, pointee, u, hpointer, harray, hresolves, hsize⟩ := hvalue.pointee
  cases hpointer
  cases harray
  cases hresolves
  have hbytes : SizeOf exactReading (exportBtf len).toBtf (.array 10 len) (1 * len.toNat) :=
    .array rfl (.next trivial rfl (.here id)) (.int 1)
  rw [hsize.unique hbytes, Nat.one_mul]

theorem exportBtf_opened (len : UInt32) : Opened (exportBtf len) (exportMaps len) where
  distinct := by
    intro vars hvars
    cases hvars
    exact List.nodup_singleton _
  sized := by
    intro vars hvars v hv name n hname hsize
    cases hvars
    obtain rfl := List.mem_singleton.1 hv
    cases hname
    exact ⟨_, rfl, (exportBtf_valueSize hsize).symm⟩

theorem exportBtf_fromBtf (len : UInt32) :
    BpfMetadata.fromBtf (exportBtf len) = some exportMetadata := rfl

theorem exported_capacity_reported_32 :
    ReportsCapacity exportMetadata (exportMaps 32) "HID_FOO" 32 :=
  (exported_capacity_reported_iff (exportBtf_exports (by decide)) (exportBtf_opened 32)
    (exportBtf_fromBtf 32)).2 rfl

/-- Of a map of 64 bytes, 32 are reported. -/
theorem exported_capacity_64_misreported :
    Exports (exportBtf 64) "HID_FOO" 64 ∧ Opened (exportBtf 64) (exportMaps 64) ∧
      BpfMetadata.fromBtf (exportBtf 64) = some exportMetadata ∧
      ¬ ReportsCapacity exportMetadata (exportMaps 64) "HID_FOO" 64 := by
  refine ⟨exportBtf_exports (by decide), exportBtf_opened 64, exportBtf_fromBtf 64, ?_⟩
  intro h
  obtain ⟨hrecorded, -⟩ := recorded_size (exportBtf_exports (by decide)) (exportBtf_opened 64)
    (exportBtf_fromBtf 64)
  rw [h.recorded] at hrecorded
  exact absurd hrecorded (by decide)

end ExportedProps
