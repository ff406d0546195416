import UdevHidBpf.HwdbFile
import UdevHidBpf.Modaliases
import UdevHidBpf.OptionLists

/-! # The hardware database of the programs

`generate-hwdb.py` sorts the devices of all objects and writes a record for each. `print`
is a line; `none` is a `ValueError`. -/
namespace GenerateHwdb

open RadixText Glob Modaliases OptionLists

structure Device where
  vid : ℕ
  pid : ℕ
  bustype : ℕ
  group : ℕ
  filename : Text
  deriving DecidableEq, Repr

/-- `int(text, 16)` of a text without sign. -/
def int16 : Text → Option ℕ
  | '0' :: 'x' :: ds => readDigits 16 ds
  | '0' :: 'X' :: ds => readDigits 16 ds
  | ds => readDigits 16 ds

def extractDevice (filename : Text) (device : InspectionDevice) : Option Device := do
  return {
    filename := filename
    bustype := ← int16 device.bus
    group := ← int16 device.group
    vid := ← int16 device.vid
    pid := ← int16 device.pid }

def extract (js : List InspectionData) : Option (List Device) :=
  (js.mapM fun objfile : InspectionData =>
    objfile.devices.mapM (extractDevice objfile.filename)).map List.flatten

/-- `@dataclass(order=True)`: field by field. -/
def Device.le (d e : Device) : Bool :=
  decide (d.vid < e.vid) || d.vid = e.vid && (decide (d.pid < e.pid) || d.pid = e.pid &&
    (decide (d.bustype < e.bustype) || d.bustype = e.bustype &&
      (decide (d.group < e.group) || d.group = e.group && decide (d.filename ≤ e.filename))))

def maybeGlob (v : ℕ) : Text := orAny v (padded 16 4 v)

def globLine (d : Device) : Text :=
  "hid-bpf:hid:".toList ++ fieldsText (maybeGlob d.bustype) (maybeGlob d.group)
    (List.replicate 4 '0' ++ maybeGlob d.vid) (List.replicate 4 '0' ++ maybeGlob d.pid)

/-- The property of the `i`-th record. -/
def propertyName (namePrefix : Text) (i : ℕ) : Text := namePrefix ++ padded 10 3 i

def deviceLines (namePrefix : Text) (d : Device × ℕ) : List Text :=
  [globLine d.1, ' ' :: ' ' :: (propertyName namePrefix d.2 ++ '=' :: d.1.filename),
    "  .HID_BPF=1".toList, []]

def hwdbHeader : List Text :=
  ["# This file is generated and will be overwritten on updates. Do not edit".toList, []]

/-- Every `print` is one line, as no file name has a line break. -/
def main (namePrefix : Text) (js : List InspectionData) : Option (List Text) :=
  (extract js).map fun devices =>
    hwdbHeader ++ (devices.mergeSort Device.le).zipIdx.flatMap (deviceLines namePrefix)

def defaultPrefix : Text := "HID_BPF_".toList

def deviceRecord (namePrefix : Text) (d : Device × ℕ) : HwdbFile.Record :=
  ⟨[globLine d.1],
    [(propertyName namePrefix d.2, d.1.filename), (".HID_BPF".toList, "1".toList)]⟩

def isProgram (name : Text) : Bool := defaultPrefix.isPrefixOf name

def programsOf (objs : List ObjectFile) (dev : KernelDevice) : List Text :=
  objs.flatMap fun obj => (obj.entries.filter (Modalias.Matches · dev)).map fun _ => obj.filename

/-- The key of the `hwdb` builtin with `--lookup-prefix=hid-bpf:`. -/
def lookupKey (dev : KernelDevice) : Text := "hid-bpf:".toList ++ dev.modalias

def deviceOf (filename : Text) (m : Modalias) : Device :=
  ⟨m.vid.toNat, m.pid.toNat, m.bus.toNat, m.group.toNat, filename⟩

theorem int16_hex0x (n : ℕ) : int16 (hex0x n) = some n :=
  readDigits_padded (by decide) (by decide) 4 n

theorem extractDevice_inspectionDevice (filename : Text) (m : Modalias) :
    extractDevice filename (inspectionDevice m) = some (deviceOf filename m) := by
  simp [extractDevice, inspectionDevice, int16_hex0x, deviceOf]

theorem extract_inspect (objs : List ObjectFile) :
    extract (objs.map inspect) =
      some (objs.flatMap fun obj => obj.entries.map (deviceOf obj.filename)) := by
  have hobj (obj : ObjectFile) : (inspect obj).devices.mapM (extractDevice (inspect obj).filename) =
      some (obj.entries.map (deviceOf obj.filename)) := by
    rw [inspect, List.mapM_map]
    exact mapM_eq_map fun m _ => extractDevice_inspectionDevice obj.filename m
  rw [extract, List.mapM_map]
  simp only [Function.comp_def, hobj]
  rw [mapM_eq_map fun _ _ => rfl, Option.map_some, List.flatMap_def]

theorem lookupKey_eq (dev : KernelDevice) : lookupKey dev =
    "hid-bpf:hid:".toList ++ fieldsText (padded 16 4 dev.bus.toNat)
      (padded 16 4 dev.group.toNat) (padded 16 8 dev.vid.toNat) (padded 16 8 dev.pid.toNat) := by
  have hpre : "hid-bpf:hid:".toList = "hid-bpf:".toList ++ "hid:".toList := by decide
  rw [hpre, List.append_assoc]
  rfl

theorem globLine_deviceOf (filename : Text) (m : Modalias) : globLine (deviceOf filename m) =
    "hid-bpf:hid:".toList ++ fieldsText (orAny m.bus.toNat (padded 16 4 m.bus.toNat))
      (orAny m.group.toNat (padded 16 4 m.group.toNat))
      (List.replicate 4 '0' ++ orAny m.vid.toNat (padded 16 4 m.vid.toNat))
      (List.replicate 4 '0' ++ orAny m.pid.toNat (padded 16 4 m.pid.toNat)) := rfl

theorem accepts_globLine (m : Modalias) (filename : Text) (dev : KernelDevice) :
    accepts (ofText (globLine (deviceOf filename m))) (lookupKey dev) ↔
      m.Matches dev ∧ dev.vid.toNat < 16 ^ 4 ∧ dev.pid.toNat < 16 ^ 4 := by
  have hb := accepts_orAny 4 m.bus.toNat dev.bus.toNat
  have hg := accepts_orAny 4 m.group.toNat dev.group.toNat
  have hv := accepts_zeros_orAny (v := m.vid.toNat) (w := 4) (by decide) dev.vid.toNat_lt
  have hp := accepts_zeros_orAny (v := m.pid.toNat) (w := 4) (by decide) dev.pid.toNat_lt
  rw [lookupKey_eq, globLine_deviceOf]
  refine (accepts_fieldsText (by decide) (separate_padded _ _) (separate_padded _ _)
    (separate_padded _ _) (separate_padded _ _)).trans ?_
  rw [Modalias.matches_iff]
  constructor
  · rintro ⟨hbus, hgroup, hvid, hpid⟩
    exact ⟨⟨hb.mp hbus, hg.mp hgroup, (hv.mp hvid).1, (hp.mp hpid).1⟩, (hv.mp hvid).2,
      (hp.mp hpid).2⟩
  · rintro ⟨⟨hbus, hgroup, hvid, hpid⟩, hvlt, hplt⟩
    exact ⟨hb.mpr hbus, hg.mpr hgroup, hv.mpr ⟨hvid, hvlt⟩, hp.mpr ⟨hpid, hplt⟩⟩

/-- Properties under names that begin so are programs, and their lines can be read. -/
structure ProgramPrefix (namePrefix : Text) : Prop where
  begins : defaultPrefix <+: namePrefix
  no_equals : '=' ∉ namePrefix

theorem default_programPrefix : ProgramPrefix defaultPrefix := ⟨List.prefix_rfl, by decide⟩

theorem propertyName_injective (namePrefix : Text) :
    Function.Injective (propertyName namePrefix) := by
  intro i j h
  exact padded_injective (by decide) (by decide) (List.append_cancel_left h)

section prefixes

variable {namePrefix : Text} (hbegins : ProgramPrefix namePrefix)

include hbegins in
theorem isProgram_propertyName (i : ℕ) : isProgram (propertyName namePrefix i) :=
  List.isPrefixOf_iff_prefix.mpr (hbegins.begins.trans (List.prefix_append ..))

include hbegins in
theorem deviceRecord_block (d : Device × ℕ) : HwdbFile.Block (deviceRecord namePrefix d)
    [' ' :: ' ' :: (propertyName namePrefix d.2 ++ '=' :: d.1.filename),
      "  .HID_BPF=1".toList] := by
  have hglob : (globLine d.1).head? = some 'h' := rfl
  obtain ⟨rest, hrest⟩ := hbegins.begins
  have hname : propertyName namePrefix d.2 = 'H' :: ("ID_BPF_".toList ++ rest ++ padded 10 3 d.2) := by
    rw [propertyName, ← hrest]
    rfl
  have hequals : '=' ∉ propertyName namePrefix d.2 := by
    rw [propertyName, List.mem_append, not_or]
    exact ⟨hbegins.no_equals, not_mem_padded (by decide) (by decide) (by decide)⟩
  refine ⟨List.cons_ne_nil _ _, ?_, ?_⟩
  · intro g hg
    obtain rfl := List.mem_singleton.mp hg
    exact ⟨List.cons_ne_nil _ _, by rw [hglob]; decide, by rw [hglob]; decide⟩
  · refine .cons ⟨rfl, ?_⟩ (.cons ⟨by decide, by decide⟩ .nil)
    exact HwdbFile.readProperty_line hequals (by rw [hname, List.head?_cons]; decide)
      (by rw [hname]; exact List.cons_ne_nil _ _)

include hbegins in
theorem readHwdb_lines (devices : List (Device × ℕ)) :
    HwdbFile.readHwdb (hwdbHeader ++ devices.flatMap (deviceLines namePrefix)) =
      some (devices.map (deviceRecord namePrefix)) := by
  have hheader : hwdbHeader.foldlM HwdbFile.readLine .start = some ⟨[], [], []⟩ := rfl
  have hblocks : (devices.flatMap (deviceLines namePrefix)).foldlM HwdbFile.readLine
      ⟨[], [], []⟩ = some ⟨devices.map (deviceRecord namePrefix), [], []⟩ :=
    HwdbFile.foldlM_blocks devices (deviceRecord namePrefix) _
      (fun d _ => deviceRecord_block hbegins d) []
  rw [HwdbFile.readHwdb, List.foldlM_append, hheader, Option.bind_eq_bind, Option.bind_some,
    hblocks]
  rfl

end prefixes

theorem accepts_deviceRecord (namePrefix : Text) (d : Device × ℕ) (key : Text) :
    (deviceRecord namePrefix d).accepts key = accepts (ofText (globLine d.1)) key := by
  simp [HwdbFile.Record.accepts, deviceRecord]

def numbered (objs : List ObjectFile) : List (Device × ℕ) :=
  ((objs.flatMap fun obj => obj.entries.map (deviceOf obj.filename)).mergeSort Device.le).zipIdx

theorem main_inspect {namePrefix : Text} (hbegins : ProgramPrefix namePrefix)
    (objs : List ObjectFile) : ∃ lines, main namePrefix (objs.map inspect) = some lines ∧
      HwdbFile.readHwdb lines = some ((numbered objs).map (deviceRecord namePrefix)) :=
  ⟨_, by rw [main, extract_inspect]; rfl, readHwdb_lines hbegins (numbered objs)⟩

/-- Records of several databases, each under the prefix of its own. -/
def recordsOf (devices : List (Text × Device × ℕ)) : List HwdbFile.Record :=
  devices.map fun d => deviceRecord d.1 d.2

def nameOf (d : Text × Device × ℕ) : Text := propertyName d.1 d.2.2

section databases

variable {devices : List (Text × Device × ℕ)} (hbegins : ∀ d ∈ devices, ProgramPrefix d.1)

include hbegins in
theorem programs_of_records :
    ((recordsOf devices).flatMap HwdbFile.Record.properties).filter (fun p => isProgram p.1) =
      devices.map fun d => (nameOf d, d.2.1.filename) := by
  have hdot : ¬ isProgram ".HID_BPF".toList := by decide
  induction devices with
  | nil => rfl
  | cons d devices ih =>
    have hname := isProgram_propertyName (hbegins d List.mem_cons_self) d.2.2
    have hrecord : (deviceRecord d.1 d.2).properties.filter (fun p => isProgram p.1) =
        [(nameOf d, d.2.1.filename)] :=
      (List.filter_cons_of_pos (a := (nameOf d, d.2.1.filename)) hname).trans
        (congrArg _ (List.filter_cons_of_neg (a := (".HID_BPF".toList, "1".toList)) hdot))
    rw [recordsOf, List.map_cons, List.flatMap_cons, List.filter_append, hrecord, ← recordsOf,
      ih fun e he => hbegins e (List.mem_cons_of_mem _ he)]
    rfl

theorem recordsOf_accepting (devices : List (Text × Device × ℕ)) (key : Text) :
    (recordsOf devices).filter (·.accepts key) =
      recordsOf (devices.filter fun d => accepts (ofText (globLine d.2.1)) key) := by
  rw [recordsOf, List.filter_map, recordsOf]
  simp only [Function.comp_def, accepts_deviceRecord]

include hbegins in
/-- The programs a lookup yields are those of the matching devices. -/
theorem lookup_programs (h : (devices.map nameOf).Nodup) (key : Text) :
    ((HwdbFile.lookup (recordsOf devices) key).filter fun p => isProgram p.1).map Prod.snd =
      (devices.filter fun d => accepts (ofText (globLine d.2.1)) key).map
        fun d => d.2.1.filename := by
  have hsub : ((devices.filter fun d => accepts (ofText (globLine d.2.1)) key).map nameOf).Nodup :=
    h.sublist (List.filter_sublist.map _)
  have hnodup : (((devices.filter fun d => accepts (ofText (globLine d.2.1)) key).map
      fun d => (nameOf d, d.2.1.filename)).map Prod.fst).Nodup := by
    rwa [List.map_map]
  rw [HwdbFile.lookup, HwdbFile.merge_filter, recordsOf_accepting,
    programs_of_records fun d hd => hbegins d (List.mem_of_mem_filter hd),
    HwdbFile.merge_nodup hnodup, List.map_map]
  rfl

end databases

theorem numbered_names_nodup (namePrefix : Text) (objs : List ObjectFile) :
    ((numbered objs).map fun d => propertyName namePrefix d.2).Nodup := by
  have hnumbers : ((numbered objs).map Prod.snd).Nodup := by
    rw [numbered, List.zipIdx_map_snd]
    exact List.nodup_range'
  have hmap := hnumbers.map (propertyName_injective namePrefix)
  rwa [List.map_map] at hmap

theorem programsOf_eq (objs : List ObjectFile) {dev : KernelDevice}
    (hvid : dev.vid.toNat < 16 ^ 4) (hpid : dev.pid.toNat < 16 ^ 4) :
    ((objs.flatMap fun obj => obj.entries.map (deviceOf obj.filename)).filter fun d =>
        accepts (ofText (globLine d)) (lookupKey dev)).map Device.filename =
      programsOf objs dev := by
  have hmatch (filename : Text) (m : Modalias) :
      accepts (ofText (globLine (deviceOf filename m))) (lookupKey dev) =
        decide (m.Matches dev) := by
    rw [Bool.eq_iff_iff, accepts_globLine, decide_eq_true_iff]
    simp only [hvid, hpid, and_self, and_true]
  rw [List.filter_flatMap, List.map_flatMap, programsOf]
  simp only [List.filter_map, List.map_map, Function.comp_def, hmatch]
  rfl

theorem numbered_programs (objs : List ObjectFile) {dev : KernelDevice}
    (hvid : dev.vid.toNat < 16 ^ 4) (hpid : dev.pid.toNat < 16 ^ 4) :
    (((numbered objs).filter fun d => accepts (ofText (globLine d.1)) (lookupKey dev)).map
      fun d => d.1.filename).Perm (programsOf objs dev) := by
  let devices := objs.flatMap fun obj => obj.entries.map (deviceOf obj.filename)
  have hfst : (numbered objs).map Prod.fst = devices.mergeSort Device.le := List.zipIdx_map_fst ..
  have hfile : (((numbered objs).filter fun d =>
      accepts (ofText (globLine d.1)) (lookupKey dev)).map fun d => d.1.filename) =
        ((devices.mergeSort Device.le).filter fun d =>
          accepts (ofText (globLine d)) (lookupKey dev)).map Device.filename := by
    rw [← hfst, List.filter_map, List.map_map]
    rfl
  rw [hfile, ← programsOf_eq objs hvid hpid]
  exact ((List.mergeSort_perm devices Device.le).filter _).map _

/-- A device finds the programs of the objects that declare it, each under a name of its own. -/
theorem hwdb_programs_of_device (objs : List ObjectFile) (dev : KernelDevice)
    (hvid : dev.vid.toNat < 0x10000) (hpid : dev.pid.toNat < 0x10000) :
    ∃ lines records, main defaultPrefix (objs.map inspect) = some lines ∧
      HwdbFile.readHwdb lines = some records ∧
      (((records.flatMap HwdbFile.Record.properties).filter fun p => isProgram p.1).map
        Prod.fst).Nodup ∧
      (((HwdbFile.lookup records (lookupKey dev)).filter fun p => isProgram p.1).map
        Prod.snd).Perm (programsOf objs dev) := by
  obtain ⟨lines, hlines, hrecords⟩ := main_inspect default_programPrefix objs
  let devices := (numbered objs).map fun d => (defaultPrefix, d)
  have hbegins : ∀ d ∈ devices, ProgramPrefix d.1 := by
    intro d hd
    obtain ⟨d, -, rfl⟩ := List.mem_map.mp hd
    exact default_programPrefix
  have hrecordsOf : (numbered objs).map (deviceRecord defaultPrefix) = recordsOf devices := by
    rw [recordsOf, List.map_map]
    rfl
  have hnames : (devices.map nameOf).Nodup := by
    rw [List.map_map]
    exact numbered_names_nodup defaultPrefix objs
  refine ⟨lines, _, hlines, hrecords, ?_, ?_⟩
  · rw [hrecordsOf, programs_of_records hbegins, List.map_map]
    exact hnames
  · rw [hrecordsOf, lookup_programs hbegins hnames, List.filter_map, List.map_map]
    exact numbered_programs objs hvid hpid

/-- A wildcard entry of one object and an exact one of another. -/
theorem hwdb_programs_of_device_two_objects :
    ∃ lines records, main defaultPrefix
        ([⟨"a.bpf.o".toList, [⟨.usb, .any, 0, 0⟩]⟩,
          ⟨"b.bpf.o".toList, [⟨.usb, .generic, 0x56A, 0x374⟩, ⟨.i2c, .any, 0, 0⟩]⟩].map inspect) =
        some lines ∧ HwdbFile.readHwdb lines = some records ∧
      (((HwdbFile.lookup records (lookupKey ⟨3, 1, 0x56A, 0x374⟩)).filter
        fun p => isProgram p.1).map Prod.snd).Perm ["a.bpf.o".toList, "b.bpf.o".toList] := by
  obtain ⟨lines, records, hlines, hrecords, -, hperm⟩ := hwdb_programs_of_device
    [⟨"a.bpf.o".toList, [⟨.usb, .any, 0, 0⟩]⟩,
      ⟨"b.bpf.o".toList, [⟨.usb, .generic, 0x56A, 0x374⟩, ⟨.i2c, .any, 0, 0⟩]⟩]
    ⟨3, 1, 0x56A, 0x374⟩ (by decide) (by decide)
  exact ⟨lines, records, hlines, hrecords, hperm⟩

end GenerateHwdb
