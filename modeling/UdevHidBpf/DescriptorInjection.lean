import UdevHidBpf.BtfCompleteness
import UdevHidBpf.ListLoaded
import UdevHidBpf.LoadBpfFiles
import UdevHidBpf.UdevInjection

/-! # Injecting the report descriptor

`BpfMetadata::from_btf` and `inject_report_descriptor` with all of their `unwrap`s, and what
becomes of `load_bpf_files` when one of them panics. `none` is a panic. -/
namespace DescriptorInjection

open BpfErrors BtfCompleteness BtfGraph BtfLayout BtfValidation FirstSuccess GroupedSort
open ListSplice LoadBpfFiles LoadPrograms OptionLists RawMemory RdescLayout StemSorting
open ListLoaded (stripPrefix)
open RdescStructs (HidRdescDescriptor ReportDescriptor)
open UdevProperties (Bytes UdevPropertyMap VariableMetadata endsWith)

structure DataSecVarInfo where
  ty : TypeId
  offset : UInt32
  size : ℕ

/-- A BTF section with the names of its types and its data sections. -/
structure NamedBtf extends Btf where
  typeName : TypeId → Option OsStr
  dataSecs : List (String × List DataSecVarInfo)

/-- `btf.type_by_name::<DataSec>` -/
def NamedBtf.dataSecByName (btf : NamedBtf) (name : String) : Option (List DataSecVarInfo) :=
  (btf.dataSecs.find? fun sec => sec.1 = name).map Prod.snd

structure BpfMetadata extends UdevInjection.BpfMetadata where
  reportDescriptorBss : Option VariableMetadata
  reportDescriptorData : Option VariableMetadata

def BpfMetadata.hasReportDescriptor (metadata : BpfMetadata) : Bool :=
  metadata.reportDescriptorBss.isSome || metadata.reportDescriptorData.isSome

section metadata

variable (btf : NamedBtf)

def varName (v : DataSecVarInfo) : Option String := (btf.typeName v.ty).bind OsStr.toStr

def extractVariablesMetadata (arrayName : String) (predicate : String → Option String) :
    Option (List VariableMetadata) :=
  match btf.dataSecByName arrayName with
  | none => some []
  | some vars =>
    (vars.mapM fun v => (btf.typeById v.ty).map fun _ =>
      ((varName btf v).bind predicate).map fun name =>
        (⟨name, v.offset.toNat, v.size⟩ : VariableMetadata)).map fun found => found.filterMap id

def getUdevPropertiesMetadata (arrayName : String) : Option (List VariableMetadata) :=
  extractVariablesMetadata btf arrayName (stripPrefix "UDEV_PROP_")

def getReportDescriptorMetadata (arrayName : String) : Option (Option VariableMetadata) :=
  (extractVariablesMetadata btf arrayName fun name =>
    if name = "HID_REPORT_DESCRIPTOR" then some name else none).map List.head?

def getUdevPropertyMapsMetadata : List UdevPropertyMap :=
  match btf.dataSecByName ".maps" with
  | none => []
  | some vars => vars.filterMap fun v => do
    let _ ← btf.typeById v.ty
    let propName ← stripPrefix "UDEV_PROP_" (← varName btf v)
    some ⟨propName, v.size⟩

def BpfMetadata.fromBtf : Option BpfMetadata := do
  let propsBss ← getUdevPropertiesMetadata btf ".bss"
  let propsData ← getUdevPropertiesMetadata btf ".data"
  let rdescBss ← getReportDescriptorMetadata btf ".bss"
  let rdescData ← getReportDescriptorMetadata btf ".data"
  some ⟨⟨propsBss, propsData, getUdevPropertyMapsMetadata btf⟩, rdescBss, rdescData⟩

end metadata

/-- A map as its keys show it: a lookup fails, finds nothing or finds the value. Updating a
value that was found succeeds. -/
structure ObjectMap where
  name : OsStr
  values : List (Except ErrorKind (Option Memory))

def injectValue (var : VariableMetadata) (rdescBytes : Memory) :
    Except ErrorKind (Option Memory) → Option (Except ErrorKind (Option Memory))
  | .error _ => none
  | .ok none => some (.ok none)
  | .ok (some data) =>
    if var.offset + rdescBytes.length ≤ data.length then
      some (.ok (some (splice data var.offset rdescBytes)))
    else none

def injectMap (arrayName : String) (var : VariableMetadata) (rdescBytes : Memory)
    (m : ObjectMap) : Option ObjectMap :=
  m.name.toStr.bind fun name =>
    if endsWith name arrayName then
      (m.values.mapM (injectValue var rdescBytes)).map fun values => { m with values := values }
    else some m

def injectReportDescriptorInArray (maps : List ObjectMap) (arrayName : String)
    (rdescMetadata : Option VariableMetadata) (rdescBytes : Memory) : Option (List ObjectMap) :=
  match rdescMetadata with
  | none => some maps
  | some var =>
    if var.size < rdescBytes.length then some maps
    else maps.mapM (injectMap arrayName var rdescBytes)

/-- The `find` over the variables of the section, unwrapped. -/
def findDescriptor (btf : NamedBtf) : List DataSecVarInfo → Option DataSecVarInfo
  | [] => none
  | v :: vars =>
    (btf.typeById v.ty).bind fun _ =>
      match btf.typeName v.ty with
      | none => findDescriptor btf vars
      | some osName =>
        osName.toStr.bind fun name =>
          if name = "HID_REPORT_DESCRIPTOR" then some v else findDescriptor btf vars

def descriptorArray (metadata : BpfMetadata) : Option String :=
  if metadata.reportDescriptorBss.isSome then metadata.reportDescriptorBss.map fun _ => ".bss"
  else metadata.reportDescriptorData.map fun _ => ".data"

section injecting

variable {ParserError : Type} (tryFrom : Bytes → Except ParserError ReportDescriptor)

/-- From `ReportDescriptor::try_from` on. -/
def injectParsed (maps : List ObjectMap) (metadata : BpfMetadata) (rdescBytes : Bytes) :
    Option (List ObjectMap) := do
  let rdesc ← (tryFrom rdescBytes).toOption
  let cRdesc ← HidRdescDescriptor.fromReportDescriptor rdesc
  let maps ← injectReportDescriptorInArray maps ".bss" metadata.reportDescriptorBss
    (descriptorBytes cRdesc)
  injectReportDescriptorInArray maps ".data" metadata.reportDescriptorData
    (descriptorBytes cRdesc)

/-- What follows the validation; `rest` is reached when it was successful. -/
def afterValidation {α : Type} (rest : Option α) : Call Cache → Option (Call α)
  | .running => some .running
  | .failed e => some (.failed e)
  | .ok _ => rest.map .ok

def injectReportDescriptor (fuel : ℕ) (maps : List ObjectMap) (btf : NamedBtf)
    (metadata : BpfMetadata) (rdescBytes : Bytes) : Option (Call (List ObjectMap)) :=
  if metadata.hasReportDescriptor = false then some (.ok maps)
  else do
    let arrayName ← descriptorArray metadata
    let btfMap ← btf.dataSecByName arrayName
    let v ← findDescriptor btf btfMap
    let vType ← btf.typeById v.ty
    afterValidation (injectParsed tryFrom maps metadata rdescBytes)
      (validateBtfLayoutFromType btf.toBtf fuel rustDescriptor vType [])

end injecting

/-- From some fuel on the call comes to one and the same result. -/
def Returns {α : Type} (call : ℕ → Option (Call α)) : Prop :=
  ∃ N r, r ≠ .running ∧ ∀ fuel ≥ N, call fuel = some r

section condition

variable (btf : NamedBtf)

def isDescriptor (v : DataSecVarInfo) : Bool := varName btf v = some "HID_REPORT_DESCRIPTOR"

def descriptorIn (arrayName : String) : Option (List DataSecVarInfo × DataSecVarInfo) :=
  (btf.dataSecByName arrayName).bind fun vars => (vars.find? (isDescriptor btf)).map (vars, ·)

def usedDescriptor : Option (List DataSecVarInfo × DataSecVarInfo) :=
  (descriptorIn btf ".bss").or (descriptorIn btf ".data")

def NamesReadable (vars : List DataSecVarInfo) : Prop :=
  ∀ v ∈ vars.takeWhile (fun v => ! isDescriptor btf v), ∀ name, btf.typeName v.ty = some name →
    name.toStr.isSome

def LayoutRejected (t : BtfType) : Prop :=
  ∃ e N, ∀ fuel ≥ N, validateBtfLayoutFromType btf.toBtf fuel rustDescriptor t [] = .failed e

def LayoutAccepted (t : BtfType) : Prop :=
  ∃ N, ∀ fuel ≥ N, ∃ cache,
    validateBtfLayoutFromType btf.toBtf fuel rustDescriptor t [] = .ok cache

end condition

def ObjectMap.lengths (m : ObjectMap) : List (Except ErrorKind (Option ℕ)) :=
  m.values.map fun value => value.map fun data => data.map List.length

/-- A lookup that finds nothing, or a value with the bytes `off` to `off + n`. -/
def Covers (off n : ℕ) : Except ErrorKind (Option ℕ) → Prop
  | .error _ => False
  | .ok none => True
  | .ok (some length) => off + n ≤ length

/-- A map whose name can be read, and that covers the variable if it is the section. -/
def HasRoom (arrayName : String) (off n : ℕ) (m : ObjectMap) : Prop :=
  ∃ name, m.name.toStr = some name ∧
    (endsWith name arrayName → ∀ length ∈ m.lengths, Covers off n length)

def RoomFor (maps : List ObjectMap) (arrayName : String) (v : DataSecVarInfo) : Prop :=
  rustDescriptor.size ≤ v.size →
    ∀ m ∈ maps, HasRoom arrayName v.offset.toNat rustDescriptor.size m

/-- The object has no report descriptor; or its layout is rejected; or the parser accepts the
bytes of the device, and the sections have room for the variables. -/
def InjectionReturns {ParserError : Type} (tryFrom : Bytes → Except ParserError ReportDescriptor)
    (maps : List ObjectMap) (btf : NamedBtf) (rdescBytes : Bytes) : Prop :=
  ∀ vars v, usedDescriptor btf = some (vars, v) → NamesReadable btf vars ∧
    ∀ t, btf.typeById v.ty = some t → LayoutRejected btf t ∨
      LayoutAccepted btf t ∧ (∃ rdesc, tryFrom rdescBytes = .ok rdesc) ∧
        ∀ arrayName ∈ [".bss", ".data"], ∀ vars v, descriptorIn btf arrayName = some (vars, v) →
          RoomFor maps arrayName v

section maps

variable {var : VariableMetadata} {bytes : Memory} {arrayName : String}

theorem injectValue_isSome {value : Except ErrorKind (Option Memory)} :
    (injectValue var bytes value).isSome ↔
      Covers var.offset bytes.length (value.map fun data => data.map List.length) := by
  cases value with
  | error e => exact ⟨nofun, False.elim⟩
  | ok found =>
    cases found with
    | none => exact ⟨fun _ => trivial, fun _ => rfl⟩
    | some data =>
      by_cases hfit : var.offset + bytes.length ≤ data.length
      · rw [injectValue, if_pos hfit]
        exact ⟨fun _ => hfit, fun _ => rfl⟩
      · rw [injectValue, if_neg hfit]
        exact ⟨nofun, fun h => absurd h hfit⟩

theorem injectValue_length {value value' : Except ErrorKind (Option Memory)}
    (h : injectValue var bytes value = some value') :
    value'.map (fun data => data.map List.length) = value.map fun data => data.map List.length := by
  cases value with
  | error e => cases h
  | ok found =>
    cases found with
    | none =>
      obtain rfl := Option.some.inj h
      rfl
    | some data =>
      rw [injectValue] at h
      split at h
      · rename_i hfit
        obtain rfl := Option.some.inj h
        exact congrArg (fun n => Except.ok (some n)) (length_splice hfit)
      · cases h

theorem injectMap_isSome {m : ObjectMap} :
    (injectMap arrayName var bytes m).isSome ↔ HasRoom arrayName var.offset bytes.length m := by
  rw [injectMap, HasRoom]
  cases hname : m.name.toStr with
  | none => simp
  | some name =>
    by_cases hend : endsWith name arrayName
    · simp [hend, isSome_mapM_iff, injectValue_isSome, ObjectMap.lengths]
    · simp [hend]

theorem injectMap_keeps {m m' : ObjectMap} (h : injectMap arrayName var bytes m = some m') :
    (m'.name, m'.lengths) = (m.name, m.lengths) := by
  obtain ⟨name, -, h⟩ := Option.bind_eq_some_iff.1 h
  split at h
  · obtain ⟨values, hvalues, rfl⟩ := Option.map_eq_some_iff.1 h
    rw [ObjectMap.lengths, ObjectMap.lengths,
      map_eq_of_mapM hvalues fun _ _ => injectValue_length]
  · obtain rfl := Option.some.inj h
    rfl

theorem hasRoom_congr {off n : ℕ} {maps maps' : List ObjectMap}
    (h : maps'.map (fun m => (m.name, m.lengths)) = maps.map fun m => (m.name, m.lengths)) :
    (∀ m ∈ maps', HasRoom arrayName off n m) ↔ ∀ m ∈ maps, HasRoom arrayName off n m := by
  have hkept (l : List ObjectMap) : (∀ m ∈ l, HasRoom arrayName off n m) ↔
      ∀ kept ∈ l.map fun m => (m.name, m.lengths), ∃ name, kept.1.toStr = some name ∧
        (endsWith name arrayName → ∀ length ∈ kept.2, Covers off n length) := by
    rw [List.forall_mem_map]
    rfl
  rw [hkept, hkept, h]

theorem inject_isSome {maps : List ObjectMap} {rdescMetadata : Option VariableMetadata} :
    (injectReportDescriptorInArray maps arrayName rdescMetadata bytes).isSome ↔
      ∀ var, rdescMetadata = some var → bytes.length ≤ var.size →
        ∀ m ∈ maps, HasRoom arrayName var.offset bytes.length m := by
  cases rdescMetadata with
  | none => simp [injectReportDescriptorInArray]
  | some var =>
    by_cases hsize : var.size < bytes.length
    · simp [injectReportDescriptorInArray, hsize]
    · simp [injectReportDescriptorInArray, hsize, not_lt.1 hsize, isSome_mapM_iff,
        injectMap_isSome]

theorem inject_keeps {maps maps' : List ObjectMap} {rdescMetadata : Option VariableMetadata}
    (h : injectReportDescriptorInArray maps arrayName rdescMetadata bytes = some maps') :
    maps'.map (fun m => (m.name, m.lengths)) = maps.map fun m => (m.name, m.lengths) := by
  cases rdescMetadata with
  | none =>
    obtain rfl := Option.some.inj h
    rfl
  | some var =>
    rw [injectReportDescriptorInArray] at h
    split at h
    · obtain rfl := Option.some.inj h
      rfl
    · exact map_eq_of_mapM h fun _ _ => injectMap_keeps

end maps

theorem injectParsed_isSome {ParserError : Type}
    {tryFrom : Bytes → Except ParserError ReportDescriptor} {maps : List ObjectMap}
    {metadata : BpfMetadata} {rdescBytes : Bytes} :
    (injectParsed tryFrom maps metadata rdescBytes).isSome ↔
      (∃ rdesc, tryFrom rdescBytes = .ok rdesc) ∧
      (∀ var, metadata.reportDescriptorBss = some var → rustDescriptor.size ≤ var.size →
        ∀ m ∈ maps, HasRoom ".bss" var.offset rustDescriptor.size m) ∧
      (∀ var, metadata.reportDescriptorData = some var → rustDescriptor.size ≤ var.size →
        ∀ m ∈ maps, HasRoom ".data" var.offset rustDescriptor.size m) := by
  have hlength (d : HidRdescDescriptor) : (descriptorBytes d).length = rustDescriptor.size :=
    length_descriptorBytes d
  rw [injectParsed]
  cases hparse : tryFrom rdescBytes with
  | error e => simp [Except.toOption]
  | ok rdesc =>
    simp only [Except.toOption, Option.bind_eq_bind, Option.bind_some,
      RdescStructs.fromReportDescriptor_eq]
    generalize hd : HidRdescDescriptor.mk _ _ _ _ _ _ = d
    have hbss : (injectReportDescriptorInArray maps ".bss" metadata.reportDescriptorBss
      (descriptorBytes d)).isSome ↔ _ := inject_isSome
    rw [hlength] at hbss
    cases hpass : injectReportDescriptorInArray maps ".bss" metadata.reportDescriptorBss
      (descriptorBytes d) with
    | none =>
      rw [hpass] at hbss
      simp [← hbss]
    | some maps' =>
      have hdata : (injectReportDescriptorInArray maps' ".data" metadata.reportDescriptorData
        (descriptorBytes d)).isSome ↔ _ := inject_isSome
      rw [hpass] at hbss
      rw [hlength] at hdata
      simp only [hasRoom_congr (inject_keeps hpass)] at hdata
      rw [Option.bind_some, hdata, ← hbss]
      simp

section variables_

variable {btf : NamedBtf} {arrayName : String}

def metadataOf (v : DataSecVarInfo) : VariableMetadata :=
  ⟨"HID_REPORT_DESCRIPTOR", v.offset.toNat, v.size⟩

theorem findSome_descriptor (vars : List DataSecVarInfo) :
    (vars.findSome? fun v => ((varName btf v).bind fun name =>
      if name = "HID_REPORT_DESCRIPTOR" then some name else none).map fun name =>
        (⟨name, v.offset.toNat, v.size⟩ : VariableMetadata)) =
      (vars.find? (isDescriptor btf)).map metadataOf := by
  induction vars with
  | nil => rfl
  | cons v vars ih =>
    rw [List.findSome?_cons, List.find?_cons, ih, isDescriptor]
    cases varName btf v with
    | none => rfl
    | some name =>
      by_cases hname : name = "HID_REPORT_DESCRIPTOR"
      · subst hname
        rfl
      · simp [hname]

theorem getReportDescriptorMetadata_spec {found : Option VariableMetadata}
    (h : getReportDescriptorMetadata btf arrayName = some found) :
    found = (descriptorIn btf arrayName).map (fun x => metadataOf x.2) ∧
      ∀ vars, btf.dataSecByName arrayName = some vars →
        ∀ v ∈ vars, (btf.typeById v.ty).isSome := by
  rw [getReportDescriptorMetadata, extractVariablesMetadata] at h
  rw [descriptorIn]
  cases hsec : btf.dataSecByName arrayName with
  | none =>
    rw [hsec] at h
    obtain rfl := Option.some.inj h
    exact ⟨rfl, nofun⟩
  | some vars =>
    rw [hsec] at h
    obtain ⟨l, hl, rfl⟩ := Option.map_eq_some_iff.1 h
    obtain ⟨found, hfound, rfl⟩ := Option.map_eq_some_iff.1 hl
    have hsome := isSome_mapM_iff.1 (Option.isSome_of_eq_some hfound)
    simp only [Option.isSome_map] at hsome
    rw [mapM_eq_map fun v hv => by
      obtain ⟨t, ht⟩ := Option.isSome_iff_exists.1 (hsome v hv)
      rw [ht, Option.map_some]] at hfound
    obtain rfl := Option.some.inj hfound
    refine ⟨?_, ?_⟩
    · rw [List.filterMap_map, List.head?_filterMap]
      simp only [Function.comp_def, id, findSome_descriptor, Option.bind_some, Option.map_map]
    · intro vars' hvars'
      obtain rfl := Option.some.inj hvars'
      exact hsome

theorem findDescriptor_spec {vars : List DataSecVarInfo} {v : DataSecVarInfo}
    (htypes : ∀ v ∈ vars, (btf.typeById v.ty).isSome)
    (hv : vars.find? (isDescriptor btf) = some v) :
    (NamesReadable btf vars → findDescriptor btf vars = some v) ∧
      (¬ NamesReadable btf vars → findDescriptor btf vars = none) := by
  induction vars with
  | nil => cases hv
  | cons w vars ih =>
    obtain ⟨t, ht⟩ := Option.isSome_iff_exists.1 (htypes w List.mem_cons_self)
    have ih := ih fun v hv => htypes v (List.mem_cons_of_mem _ hv)
    rw [findDescriptor, ht, Option.bind_some]
    rw [NamesReadable] at ih ⊢
    cases hname : btf.typeName w.ty with
    | none =>
      have hw : isDescriptor btf w = false := by simp [isDescriptor, varName, hname]
      rw [List.find?_cons_of_neg (by simp [hw])] at hv
      simpa [hw, hname] using ih hv
    | some osName =>
      cases hstr : osName.toStr with
      | none =>
        have hw : isDescriptor btf w = false := by simp [isDescriptor, varName, hname, hstr]
        simp [hw, hname, hstr]
      | some name =>
        by_cases hdesc : name = "HID_REPORT_DESCRIPTOR"
        · have hw : isDescriptor btf w = true := by
            simp [isDescriptor, varName, hname, hstr, hdesc]
          rw [List.find?_cons_of_pos hw] at hv
          simp [hw, hstr, hdesc, hv]
        · have hw : isDescriptor btf w = false := by
            simp [isDescriptor, varName, hname, hstr, hdesc]
          rw [List.find?_cons_of_neg (by simp [hw])] at hv
          simpa [hw, hname, hstr, hdesc] using ih hv

end variables_

section call

variable {ParserError : Type} {tryFrom : Bytes → Except ParserError ReportDescriptor}
  {maps : List ObjectMap} {btf : NamedBtf} {metadata : BpfMetadata} {rdescBytes : Bytes}

theorem fromBtf_spec (h : BpfMetadata.fromBtf btf = some metadata) :
    getReportDescriptorMetadata btf ".bss" = some metadata.reportDescriptorBss ∧
      getReportDescriptorMetadata btf ".data" = some metadata.reportDescriptorData := by
  simp only [BpfMetadata.fromBtf, Option.bind_eq_bind, Option.bind_eq_some_iff] at h
  obtain ⟨propsBss, -, propsData, -, rdescBss, hbss, rdescData, hdata, h⟩ := h
  obtain rfl := Option.some.inj h
  exact ⟨hbss, hdata⟩

theorem inject_unused (h : BpfMetadata.fromBtf btf = some metadata)
    (hused : usedDescriptor btf = none) (fuel : ℕ) :
    injectReportDescriptor tryFrom fuel maps btf metadata rdescBytes = some (.ok maps) := by
  obtain ⟨hbss, hdata⟩ := fromBtf_spec h
  obtain ⟨hbss, -⟩ := getReportDescriptorMetadata_spec hbss
  obtain ⟨hdata, -⟩ := getReportDescriptorMetadata_spec hdata
  obtain ⟨hnobss, hnodata⟩ := Option.or_eq_none_iff.1 hused
  rw [hnobss] at hbss
  rw [hnodata] at hdata
  rw [injectReportDescriptor, BpfMetadata.hasReportDescriptor, hbss, hdata]
  rfl

variable (tryFrom maps rdescBytes) in
theorem inject_used (h : BpfMetadata.fromBtf btf = some metadata) {vars : List DataSecVarInfo}
    {v : DataSecVarInfo} (hused : usedDescriptor btf = some (vars, v)) :
    ∃ t, btf.typeById v.ty = some t ∧
      (NamesReadable btf vars → ∀ fuel,
        injectReportDescriptor tryFrom fuel maps btf metadata rdescBytes =
          afterValidation (injectParsed tryFrom maps metadata rdescBytes)
            (validateBtfLayoutFromType btf.toBtf fuel rustDescriptor t [])) ∧
      (¬ NamesReadable btf vars → ∀ fuel,
        injectReportDescriptor tryFrom fuel maps btf metadata rdescBytes = none) := by
  obtain ⟨hbss, hdata⟩ := fromBtf_spec h
  obtain ⟨hbss, htypesbss⟩ := getReportDescriptorMetadata_spec hbss
  obtain ⟨hdata, htypesdata⟩ := getReportDescriptorMetadata_spec hdata
  obtain ⟨arrayName, harray, hin, htypes⟩ : ∃ arrayName,
      (metadata.hasReportDescriptor = true ∧ descriptorArray metadata = some arrayName) ∧
      descriptorIn btf arrayName = some (vars, v) ∧
      ∀ vars, btf.dataSecByName arrayName = some vars →
        ∀ v ∈ vars, (btf.typeById v.ty).isSome := by
    rw [BpfMetadata.hasReportDescriptor, descriptorArray]
    rcases Option.or_eq_some_iff.1 hused with hin | ⟨hnone, hin⟩
    · refine ⟨".bss", ?_, hin, htypesbss⟩
      rw [hbss, hin]
      exact ⟨rfl, rfl⟩
    · refine ⟨".data", ?_, hin, htypesdata⟩
      rw [hbss, hnone, hdata, hin]
      exact ⟨rfl, rfl⟩
  obtain ⟨vars', hsec, hfind⟩ := Option.bind_eq_some_iff.1 hin
  obtain ⟨v', hv', hpair⟩ := Option.map_eq_some_iff.1 hfind
  obtain ⟨rfl, rfl⟩ := Prod.mk.inj hpair
  obtain ⟨hreadable, hunreadable⟩ := findDescriptor_spec (htypes _ hsec) hv'
  obtain ⟨t, ht⟩ := Option.isSome_iff_exists.1 (htypes _ hsec _ (List.mem_of_find?_eq_some hv'))
  refine ⟨t, ht, ?_, ?_⟩
  · intro hnames fuel
    rw [injectReportDescriptor, harray.1, harray.2]
    simp [hsec, hreadable hnames, ht]
  · intro hnames fuel
    rw [injectReportDescriptor, harray.1, harray.2]
    simp [hsec, hunreadable hnames]

theorem afterValidation_cases {α : Type} {rest : Option α} {validated : Call Cache} {r : Call α}
    (hr : r ≠ .running) (h : afterValidation rest validated = some r) :
    (∃ e, validated = .failed e ∧ r = .failed e) ∨
      ∃ cache a, validated = .ok cache ∧ rest = some a ∧ r = .ok a := by
  cases validated with
  | running => exact absurd (Option.some.inj h).symm hr
  | failed e => exact Or.inl ⟨e, rfl, (Option.some.inj h).symm⟩
  | ok cache =>
    obtain ⟨a, ha, rfl⟩ := Option.map_eq_some_iff.1 h
    exact Or.inr ⟨cache, a, rfl, ha, rfl⟩

theorem returns_afterValidation {α : Type} {rest : Option α} {validate : ℕ → Call Cache} :
    Returns (fun fuel => afterValidation rest (validate fuel)) ↔
      (∃ e N, ∀ fuel ≥ N, validate fuel = .failed e) ∨
        (∃ N, ∀ fuel ≥ N, ∃ cache, validate fuel = .ok cache) ∧ rest.isSome := by
  constructor
  · rintro ⟨N, r, hr, hall⟩
    have hcases (fuel : ℕ) (hfuel : fuel ≥ N) := afterValidation_cases hr (hall fuel hfuel)
    rcases hcases N le_rfl with ⟨e, -, rfl⟩ | ⟨-, a, -, hrest, rfl⟩
    · refine Or.inl ⟨e, N, ?_⟩
      intro fuel hfuel
      rcases hcases fuel hfuel with ⟨e', hval, he⟩ | ⟨_, _, _, _, he⟩
      · rw [hval, Call.failed.inj he]
      · cases he
    · refine Or.inr ⟨⟨N, ?_⟩, Option.isSome_of_eq_some hrest⟩
      intro fuel hfuel
      rcases hcases fuel hfuel with ⟨_, _, he⟩ | ⟨cache, _, hval, _⟩
      · cases he
      · exact ⟨cache, hval⟩
  · rintro (⟨e, N, hall⟩ | ⟨⟨N, hall⟩, hrest⟩)
    · refine ⟨N, .failed e, nofun, ?_⟩
      intro fuel hfuel
      simp only [hall fuel hfuel]
      rfl
    · obtain ⟨a, rfl⟩ := Option.isSome_iff_exists.1 hrest
      refine ⟨N, .ok a, nofun, ?_⟩
      intro fuel hfuel
      obtain ⟨cache, hcache⟩ := hall fuel hfuel
      simp only [hcache]
      rfl

theorem room_iff {arrayName : String} {found : Option (List DataSecVarInfo × DataSecVarInfo)} :
    (∀ var, found.map (fun x => metadataOf x.2) = some var → rustDescriptor.size ≤ var.size →
      ∀ m ∈ maps, HasRoom arrayName var.offset rustDescriptor.size m) ↔
    ∀ vars v, found = some (vars, v) → RoomFor maps arrayName v := by
  cases found with
  | none => exact ⟨fun _ => nofun, fun _ => nofun⟩
  | some found =>
    obtain ⟨vars, v⟩ := found
    constructor
    · intro h vars' v' heq
      obtain ⟨-, rfl⟩ := Prod.mk.inj (Option.some.inj heq)
      exact h (metadataOf v) rfl
    · intro h var heq
      obtain rfl := Option.some.inj heq
      exact h vars v rfl

/-- The call returns exactly under the condition. -/
theorem inject_returns (h : BpfMetadata.fromBtf btf = some metadata) :
    Returns (fun fuel => injectReportDescriptor tryFrom fuel maps btf metadata rdescBytes) ↔
      InjectionReturns tryFrom maps btf rdescBytes := by
  rw [InjectionReturns]
  cases hused : usedDescriptor btf with
  | none =>
    simp only [inject_unused h hused]
    exact ⟨fun _ => nofun, fun _ => ⟨0, .ok maps, nofun, fun _ _ => rfl⟩⟩
  | some used =>
    obtain ⟨vars, v⟩ := used
    obtain ⟨t, ht, hreadable, hunreadable⟩ := inject_used tryFrom maps rdescBytes h hused
    have hparsed : (injectParsed tryFrom maps metadata rdescBytes).isSome ↔
        (∃ rdesc, tryFrom rdescBytes = .ok rdesc) ∧
          ∀ arrayName ∈ [".bss", ".data"], ∀ vars v, descriptorIn btf arrayName = some (vars, v) →
            RoomFor maps arrayName v := by
      obtain ⟨hbss, hdata⟩ := fromBtf_spec h
      obtain ⟨hbss, -⟩ := getReportDescriptorMetadata_spec hbss
      obtain ⟨hdata, -⟩ := getReportDescriptorMetadata_spec hdata
      rw [injectParsed_isSome, hbss, hdata, room_iff, room_iff]
      simp
    constructor
    · intro hreturns vars' v' heq
      obtain ⟨rfl, rfl⟩ := Prod.mk.inj (Option.some.inj heq)
      have hnames : NamesReadable btf vars := by
        by_contra hnames
        obtain ⟨N, r, -, hall⟩ := hreturns
        cases (hunreadable hnames N).symm.trans (hall N le_rfl)
      refine ⟨hnames, ?_⟩
      intro t' ht'
      obtain rfl := Option.some.inj (ht.symm.trans ht')
      simp only [hreadable hnames, returns_afterValidation, hparsed] at hreturns
      exact hreturns
    · intro hcond
      obtain ⟨hnames, hlayout⟩ := hcond vars v rfl
      simp only [hreadable hnames, returns_afterValidation, hparsed]
      exact hlayout t ht

theorem inject_extends {fuel fuel' : ℕ} (hfuel : fuel ≤ fuel') {r : Call (List ObjectMap)}
    (hr : r ≠ .running)
    (h : injectReportDescriptor tryFrom fuel maps btf metadata rdescBytes = some r) :
    injectReportDescriptor tryFrom fuel' maps btf metadata rdescBytes = some r := by
  unfold injectReportDescriptor at h ⊢
  split
  · rename_i hused
    rwa [if_pos hused] at h
  · rename_i hused
    rw [if_neg hused] at h
    simp only [Option.bind_eq_bind, Option.bind_eq_some_iff] at h ⊢
    obtain ⟨arrayName, harray, btfMap, hmap, v, hv, t, ht, h⟩ := h
    refine ⟨arrayName, harray, btfMap, hmap, v, hv, t, ht, ?_⟩
    rw [validateBtfLayoutFromType_extends hfuel rustDescriptor t []]
    · exact h
    · intro hrunning
      rw [hrunning] at h
      exact hr (Option.some.inj h).symm

end call

/-- What one load meets; the maps are those of the loaded object. -/
structure Situation where
  env : Env
  object : Object
  btf : NamedBtf
  maps : List ObjectMap
  rdescBytes : Bytes

/-- The steps of `load_programs` before `from_btf`. -/
def openObject (env : Env) (object : Object) : Except Error Unit := do
  context "couldn't read report descriptor" id env.readReportDescriptor
  noContext env.openFile
  noContext (load env (getBpfLoader object))
  noContext env.fromBpfObject

section loads

variable {ParserError : Type} (tryFrom : Bytes → Except ParserError ReportDescriptor)

/-- `load_programs` once the answer of the injection is known. -/
def loadAnswered (s : Situation) (sysname : String) (path : PathBuf)
    (answer : Except BpfError Unit) : Outcome :=
  loadPrograms { s.env with injectReportDescriptor := answer } s.object sysname path

def loadInjected (s : Situation) (sysname : String) (path : PathBuf) :
    Call (List ObjectMap) → Option Outcome
  | .running => none
  | .failed e => some (loadAnswered s sysname path (.error e))
  | .ok _ => some (loadAnswered s sysname path (.ok ()))

/-- `load_programs` with its injection; `none` is a panic, or a walk that is not over. -/
def loadInjecting (fuel : ℕ) (s : Situation) (sysname : String) (path : PathBuf) :
    Option Outcome :=
  if succeeded (openObject s.env s.object) then
    (BpfMetadata.fromBtf s.btf).bind fun metadata =>
      if succeeded s.env.injectUdevProperties then
        (injectReportDescriptor tryFrom fuel s.maps s.btf metadata s.rdescBytes).bind
          (loadInjected s sysname path)
      else some (loadAnswered s sysname path (.ok ()))
  else some (loadAnswered s sysname path (.ok ()))

def LoadReturns (s : Situation) : Prop :=
  succeeded (openObject s.env s.object) → ∃ metadata, BpfMetadata.fromBtf s.btf = some metadata ∧
    (succeeded s.env.injectUdevProperties →
      InjectionReturns tryFrom s.maps s.btf s.rdescBytes)

def loadBpfFilesInjecting (fuel : ℕ) (cf : CaseFolding) (it : IterationOrder)
    (world : List LoadAttempt → PathBuf → Situation) (sysname : String) (paths : List PathBuf) :
    Option (List LoadAttempt × Except ErrorKind Unit) :=
  (sortByStem cf PathBuf.fileName it paths).bind fun sorted =>
    (attemptGroups (fun h path => loadInjecting tryFrom fuel (world h path) sysname path) loaded []
      sorted).map fun attempts => (attempts, .ok ())

theorem loadAnswered_early {s : Situation}
    (h : (succeeded (openObject s.env s.object) && succeeded s.env.injectUdevProperties) = false)
    (sysname : String) (path : PathBuf) (answer answer' : Except BpfError Unit) :
    loadAnswered s sysname path answer = loadAnswered s sysname path answer' := by
  have hprepare (answer : Except BpfError Unit) (objectName : String) :
      prepare { s.env with injectReportDescriptor := answer } s.object objectName =
        openObject s.env s.object >>= fun _ =>
          context ("couldn't set udev properties on " ++ objectName) some
            s.env.injectUdevProperties >>= fun _ =>
          context ("couldn't inject report descriptor on " ++ objectName) some answer >>= fun _ =>
          context ("probe() of " ++ objectName ++ " failed") some s.env.probe := by
    simp only [openObject, bind_assoc]
    rfl
  rw [loadAnswered, loadAnswered, loadPrograms, loadPrograms, hprepare, hprepare]
  cases hopen : openObject s.env s.object with
  | error e => rfl
  | ok u =>
    rw [hopen, succeeded_ok, Bool.true_and, succeeded_eq_false] at h
    obtain ⟨e, he⟩ := h
    rw [he]
    rfl

variable {tryFrom} {s : Situation} {sysname : String} {path : PathBuf}

theorem load_came {fuel : ℕ} {out : Outcome}
    (h : loadInjecting tryFrom fuel s sysname path = some out) : LoadReturns tryFrom s := by
  intro hopen
  rw [loadInjecting, if_pos hopen] at h
  obtain ⟨metadata, hmetadata, h⟩ := Option.bind_eq_some_iff.1 h
  refine ⟨metadata, hmetadata, ?_⟩
  intro hudev
  rw [if_pos hudev] at h
  obtain ⟨r, hr, hout⟩ := Option.bind_eq_some_iff.1 h
  have hrunning : r ≠ .running := by
    rintro rfl
    cases hout
  rw [← inject_returns hmetadata]
  exact ⟨fuel, r, hrunning, fun fuel' hfuel => inject_extends hfuel hrunning hr⟩

theorem load_comes (h : LoadReturns tryFrom s) (sysname : String) (path : PathBuf) :
    ∃ out N, ∀ fuel ≥ N, loadInjecting tryFrom fuel s sysname path = some out := by
  by_cases hopen : succeeded (openObject s.env s.object)
  · obtain ⟨metadata, hmetadata, hinject⟩ := h hopen
    by_cases hudev : succeeded s.env.injectUdevProperties
    · obtain ⟨N, r, hr, hall⟩ := (inject_returns hmetadata).2 (hinject hudev)
      have hload (fuel : ℕ) (hfuel : fuel ≥ N) : loadInjecting tryFrom fuel s sysname path =
          loadInjected s sysname path r := by
        have hcall : injectReportDescriptor tryFrom fuel s.maps s.btf metadata s.rdescBytes =
          some r := hall fuel hfuel
        rw [loadInjecting, if_pos hopen, hmetadata, Option.bind_some, if_pos hudev, hcall,
          Option.bind_some]
      cases r with
      | running => exact absurd rfl hr
      | failed e => exact ⟨_, N, hload⟩
      | ok maps => exact ⟨_, N, hload⟩
    · refine ⟨loadAnswered s sysname path (.ok ()), 0, ?_⟩
      intro fuel _
      rw [loadInjecting, if_pos hopen, hmetadata, Option.bind_some, if_neg hudev]
  · refine ⟨loadAnswered s sysname path (.ok ()), 0, ?_⟩
    intro fuel _
    rw [loadInjecting, if_neg hopen]

theorem all_groups_tried {cf : CaseFolding} {it : IterationOrder}
    {world : List LoadAttempt → PathBuf → Situation} {paths : List PathBuf}
    (h : ∀ history, ∀ path ∈ paths, LoadReturns tryFrom (world history path)) :
    ∃ groups segments N, sortByStem cf PathBuf.fileName it paths = some groups ∧
      List.Forall₂ (CutAfterSuccess loaded) groups segments ∧
      ∀ fuel ≥ N, loadBpfFilesInjecting tryFrom fuel cf it world sysname paths =
        some (segments.flatten, .ok ()) := by
  have : Nonempty Outcome := ⟨⟨[], [], .ok ()⟩⟩
  choose! total htotal using fun history path (hpath : path ∈ paths) =>
    load_comes (h history path hpath) sysname path
  obtain ⟨segments, hsegments, hcut⟩ := tryGroups_segments total loaded []
    (grouped (stem cf PathBuf.fileName) (loweredName cf PathBuf.fileName) paths)
  have hback : ∃ N, ∀ fuel ≥ N, attemptGroups
      (fun history path => loadInjecting tryFrom fuel (world history path) sysname path) loaded []
      (grouped (stem cf PathBuf.fileName) (loweredName cf PathBuf.fileName) paths) =
        some (tryGroups total loaded [] (grouped (stem cf PathBuf.fileName)
          (loweredName cf PathBuf.fileName) paths)) := by
    apply attemptGroups_eventually
    intro history g hg path hpath
    exact htotal history path
      ((grouped_flatten_perm _ _ _).mem_iff.1 (List.mem_flatten_of_mem hg hpath))
  obtain ⟨N, hN⟩ := hback
  refine ⟨_, segments, N, sortByStem_eq it paths, hcut, ?_⟩
  intro fuel hfuel
  rw [loadBpfFilesInjecting, sortByStem_eq, Option.bind_some, hN fuel hfuel, hsegments,
    Option.map_some]

theorem run_came {fuel : ℕ} {cf : CaseFolding} {it : IterationOrder}
    {world : List LoadAttempt → PathBuf → Situation} {paths : List PathBuf}
    {attempts : List LoadAttempt} {result : Except ErrorKind Unit}
    (h : loadBpfFilesInjecting tryFrom fuel cf it world sysname paths = some (attempts, result)) :
    ∀ pre a post, attempts = pre ++ a :: post → LoadReturns tryFrom (world pre a.item) := by
  obtain ⟨sorted, -, h⟩ := Option.bind_eq_some_iff.1 h
  obtain ⟨as, has, hpair⟩ := Option.map_eq_some_iff.1 h
  obtain ⟨rfl, -⟩ := Prod.mk.inj hpair
  intro pre a post hsplit
  exact load_came (attemptGroups_came has pre a post hsplit)

end loads

/-- The injection returns exactly when the object has no report descriptor, its layout is
rejected, or the parser accepts the bytes; as long as the loads return, everything is tried,
and a run that ends has come back from each of its loads. -/
theorem injection_returns_iff {ParserError : Type}
    (tryFrom : Bytes → Except ParserError ReportDescriptor) :
    (∀ (maps : List ObjectMap) (btf : NamedBtf) (metadata : BpfMetadata) (rdescBytes : Bytes),
      BpfMetadata.fromBtf btf = some metadata →
      (Returns (fun fuel => injectReportDescriptor tryFrom fuel maps btf metadata rdescBytes) ↔
        InjectionReturns tryFrom maps btf rdescBytes)) ∧
    ∀ (cf : CaseFolding) (it : IterationOrder)
      (world : List LoadAttempt → PathBuf → Situation) (sysname : String) (paths : List PathBuf),
      ((∀ history, ∀ path ∈ paths, LoadReturns tryFrom (world history path)) →
        ∃ groups segments N, sortByStem cf PathBuf.fileName it paths = some groups ∧
          List.Forall₂ (CutAfterSuccess loaded) groups segments ∧
          ∀ fuel ≥ N, loadBpfFilesInjecting tryFrom fuel cf it world sysname paths =
            some (segments.flatten, .ok ())) ∧
      ∀ fuel attempts result,
        loadBpfFilesInjecting tryFrom fuel cf it world sysname paths = some (attempts, result) →
        ∀ pre a post, attempts = pre ++ a :: post → LoadReturns tryFrom (world pre a.item) := by
  refine ⟨fun maps btf metadata rdescBytes h => inject_returns h, ?_⟩
  intro cf it world sysname paths
  exact ⟨all_groups_tried, fun fuel attempts result h => run_came h⟩

def sizedDescriptor : Bytes :=
  [0x06, 0x00, 0xff, 0x09, 0x01, 0xa1, 0x01, 0x09, 0x02, 0x15, 0x00, 0x25, 0x01, 0x75, 0x08,
    0x95, 0x01, 0x81, 0x02, 0xc0]

/-- The same without `Report Size`. -/
def sizelessDescriptor : Bytes :=
  [0x06, 0x00, 0xff, 0x09, 0x01, 0xa1, 0x01, 0x09, 0x02, 0x15, 0x00, 0x25, 0x01, 0x95, 0x01,
    0x81, 0x02, 0xc0]

def tryFromSized (rdescBytes : Bytes) : Except Unit ReportDescriptor :=
  if rdescBytes = sizedDescriptor then
    .ok ⟨[⟨none, 8, [.variableField ⟨⟨0, 8⟩, ⟨0xff00, 2⟩, 0, 1,
      ⟨false, false, false, false, false, none, false⟩, [⟨[⟨0xff00, 1⟩], 1⟩]⟩]⟩], [], []⟩
  else .error ()

/-- The types of the C header with a `HID_REPORT_DESCRIPTOR` in `.bss`. -/
def rdescBtf : NamedBtf where
  types := (hidGraph 11).types ++ [hidVariable]
  typeName id := if id = 14 then some (.text "HID_REPORT_DESCRIPTOR") else none
  dataSecs := [(".bss", [⟨14, 0, 556227⟩])]

def rdescMetadata : BpfMetadata :=
  ⟨⟨[], [], []⟩, some ⟨"HID_REPORT_DESCRIPTOR", 0, 556227⟩, none⟩

def plainBtf : NamedBtf := ⟨⟨[]⟩, fun _ => none, []⟩

theorem rdescBtf_accepted :
    validateBtfLayoutFromType rdescBtf.toBtf 16 rustDescriptor hidVariable [] =
      .ok descriptorCache := by decide +kernel

theorem rdescBtf_valid {fuel : ℕ} (hfuel : 16 ≤ fuel) :
    validateBtfLayoutFromType rdescBtf.toBtf fuel rustDescriptor hidVariable [] =
      .ok descriptorCache := by
  rw [validateBtfLayoutFromType_extends hfuel rustDescriptor hidVariable [], rdescBtf_accepted]
  rw [rdescBtf_accepted]
  exact nofun

theorem rdescBtf_layout : LayoutAccepted rdescBtf hidVariable :=
  ⟨16, fun _ hfuel => ⟨descriptorCache, rdescBtf_valid hfuel⟩⟩

theorem rdescMetadata_eq : BpfMetadata.fromBtf rdescBtf = some rdescMetadata := by
  rfl

theorem usedDescriptor_rdescBtf :
    usedDescriptor rdescBtf = some ([⟨14, 0, 556227⟩], ⟨14, 0, 556227⟩) := by
  rfl

/-- With a report size the injection returns, whatever the maps. -/
theorem sized_descriptor_returns :
    Returns fun fuel =>
      injectReportDescriptor tryFromSized fuel [] rdescBtf rdescMetadata sizedDescriptor := by
  refine ((injection_returns_iff tryFromSized).1 [] rdescBtf rdescMetadata sizedDescriptor
    rdescMetadata_eq).2 ?_
  intro vars v hused
  rw [usedDescriptor_rdescBtf] at hused
  obtain ⟨rfl, rfl⟩ := Prod.mk.inj (Option.some.inj hused)
  refine ⟨nofun, ?_⟩
  intro t ht
  obtain rfl : hidVariable = t := Option.some.inj ht
  exact Or.inr ⟨rdescBtf_layout, ⟨_, rfl⟩, fun _ _ _ _ _ _ => nofun⟩

def newerNeedsDescriptor (_ : List LoadAttempt) (path : PathBuf) : Situation :=
  ⟨working, twoOps, if path = newer then rdescBtf else plainBtf, [], sizelessDescriptor⟩

theorem sizeless_not_returns : ¬ InjectionReturns tryFromSized [] rdescBtf sizelessDescriptor := by
  intro h
  obtain ⟨-, h⟩ := h _ _ usedDescriptor_rdescBtf
  rcases h hidVariable rfl with ⟨e, N, hrejected⟩ | ⟨-, ⟨rdesc, hparse⟩, -⟩
  · obtain ⟨M, haccepted⟩ := rdescBtf_layout
    obtain ⟨cache, hcache⟩ := haccepted (max N M) (le_max_right N M)
    cases (hrejected (max N M) (le_max_left N M)).symm.trans hcache
  · cases hparse

/-- The descriptor of the device ends the loader: the older version, which would load, is not
tried. -/
theorem sizeless_descriptor_panics :
    (¬ ∀ rdescBytes, Returns fun fuel =>
      injectReportDescriptor tryFromSized fuel [] rdescBtf rdescMetadata rdescBytes) ∧
    (∀ fuel ≥ 16, injectReportDescriptor tryFromSized fuel [] rdescBtf rdescMetadata
      sizelessDescriptor = none) ∧
    (∀ fuel, loadBpfFilesInjecting tryFromSized fuel asciiCase insertionOrder newerNeedsDescriptor
      sysname [older, newer] = none) ∧
    ∀ fuel history, ((loadInjecting tryFromSized fuel (newerNeedsDescriptor history older) sysname
      older).map loaded) = some true := by
  have hnewer (fuel : ℕ) : loadInjecting tryFromSized fuel (newerNeedsDescriptor [] newer) sysname
      newer = none := by
    cases hload : loadInjecting tryFromSized fuel (newerNeedsDescriptor [] newer) sysname newer with
    | none => rfl
    | some out =>
      obtain ⟨-, -, hinject⟩ := load_came hload rfl
      exact absurd (hinject rfl) sizeless_not_returns
  have hsorted : sortByStem asciiCase PathBuf.fileName insertionOrder [older, newer] =
      some [[newer, older]] := by decide +kernel
  refine ⟨?_, ?_, ?_, ?_⟩
  · intro h
    exact sizeless_not_returns ((inject_returns rdescMetadata_eq).1 (h sizelessDescriptor))
  · intro fuel hfuel
    obtain ⟨t, ht, hreadable, -⟩ := inject_used tryFromSized [] sizelessDescriptor
      rdescMetadata_eq usedDescriptor_rdescBtf
    obtain rfl : hidVariable = t := Option.some.inj ht
    rw [hreadable nofun, rdescBtf_valid hfuel]
    rfl
  · intro fuel
    rw [loadBpfFilesInjecting, hsorted, Option.bind_some, attemptGroups, attemptGroup, hnewer]
    rfl
  · intro fuel history
    rfl

end DescriptorInjection
