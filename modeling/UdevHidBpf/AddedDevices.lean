import Mathlib.Data.List.Count
import Mathlib.Data.List.Nodup
import UdevHidBpf.SysfsDevices

/-! # How often an object is loaded on a device

A device is collected once for every entry whose name starts that of the device, and again
for every repetition of the object file. -/
namespace AddedDevices

open RadixText Modaliases OptionLists SysfsDevices

/-- What `add - prog…` passes to `cmd_add`, by object file and device, in the order of the
command line. -/
def loads (map : DeviceMap) (objfiles : List Text) : List (Text × Text) :=
  (objfiles.filter fun objfile => (map.find? fun entry => entry.1 = objfile).isSome).flatMap
    fun objfile => (devicesOf map objfile).map fun d => (objfile, d)

def names (d : Text) (e : Modalias) : Bool := (deviceVidPidName (inspectionDevice e)).isPrefixOf d

def ProcessedOnce (map : DeviceMap) (objfiles : List Text) : Prop :=
  (∀ objfile, (devicesOf map objfile).Nodup) ∧ (loads map objfiles).Nodup

/-- An object with a device is given once, and one entry names the device. -/
def NamedOnce (devices : List Text) (open_ : Text → Option ObjectFile) (objfiles : List Text) :
    Prop :=
  ∀ objfile ∈ objfiles, ∀ obj, open_ objfile = some obj → ∀ d ∈ devices,
    0 < obj.entries.countP (names d) →
      objfiles.count objfile = 1 ∧ obj.entries.countP (names d) = 1

theorem count_collectDevice (objfile : Text) (prefixes : List Text) (map : DeviceMap)
    (d key x : Text) : (devicesOf (collectDevice objfile prefixes map d) key).count x =
      (devicesOf map key).count x +
        if objfile = key ∧ d = x then prefixes.countP (·.isPrefixOf x) else 0 := by
  induction prefixes generalizing map with
  | nil => simp [collectDevice]
  | cons p prefixes ih =>
    have hstep : collectDevice objfile (p :: prefixes) map d = collectDevice objfile prefixes
        (if p.isPrefixOf d then push map objfile d else map) d := rfl
    rw [hstep, ih, List.countP_cons]
    by_cases hp : p.isPrefixOf d
    · rw [if_pos hp, devicesOf_push]
      by_cases hkey : objfile = key <;> by_cases hx : d = x
      · rw [← hx, if_pos hp]
        simp [hkey]
        omega
      · simp [hkey, hx]
      · simp [hkey]
      · simp [hkey]
    · rw [if_neg hp]
      by_cases hx : d = x
      · rw [← hx, if_neg hp, Nat.add_zero]
      · simp [hx]

theorem count_collectObject (devices : List Text) (map : DeviceMap)
    (object : Text × InspectionData) (key x : Text) :
    (devicesOf (collectObject devices map object) key).count x = (devicesOf map key).count x +
      if object.1 = key then devices.count x *
        (object.2.devices.map deviceVidPidName).countP (·.isPrefixOf x) else 0 := by
  induction devices generalizing map with
  | nil => simp [collectObject]
  | cons d devices ih =>
    have hstep : collectObject (d :: devices) map object = collectObject devices
        (collectDevice object.1 (object.2.devices.map deviceVidPidName) map d) object := rfl
    rw [hstep, ih, count_collectDevice, List.count_cons]
    by_cases hkey : object.1 = key
    · by_cases hx : d = x
      · simp [hkey, hx]
        ring
      · simp [hkey, hx]
    · simp [hkey]

theorem count_collectObjects {open_ : Text → Option ObjectFile} {objfiles : List Text}
    {data : List InspectionData}
    (hdata : List.Forall₂ (fun objfile i => (open_ objfile).map inspect = some i) objfiles data)
    {key : Text} {obj : ObjectFile} (hobj : open_ key = some obj) (devices : List Text)
    (map : DeviceMap) (x : Text) :
    (devicesOf ((objfiles.zip data).foldl (collectObject devices) map) key).count x =
      (devicesOf map key).count x +
        objfiles.count key * (devices.count x * obj.entries.countP (names x)) := by
  induction hdata generalizing map with
  | nil => simp
  | @cons objfile i objfiles data hi _ ih =>
    rw [List.zip_cons_cons, List.foldl_cons, ih, count_collectObject, List.count_cons]
    by_cases hkey : objfile = key
    · rw [hkey, hobj, Option.map_some, Option.some.injEq] at hi
      have hnames : (i.devices.map deviceVidPidName).countP (·.isPrefixOf x) =
          obj.entries.countP (names x) := by
        rw [← hi, inspect, List.map_map, List.countP_map]
        rfl
      simp [hkey, hnames]
      ring
    · simp [hkey]

section

variable {devices : List Text} {open_ : Text → Option ObjectFile} {objfiles : List Text}
  {map : DeviceMap}

theorem count_findSysfsDevices (h : findSysfsDevices (some devices) open_ objfiles = some map)
    {objfile : Text} {obj : ObjectFile} (hobj : open_ objfile = some obj) (x : Text) :
    (devicesOf map objfile).count x =
      objfiles.count objfile * (devices.count x * obj.entries.countP (names x)) := by
  simp only [findSysfsDevices, Option.bind_eq_bind, Option.bind_some, Option.bind_eq_some_iff,
    Option.pure_def, Option.some.injEq] at h
  obtain ⟨data, hdata, rfl⟩ := h
  rw [count_collectObjects (forall₂_of_mapM hdata) hobj]
  exact Nat.zero_add _

theorem opens (h : findSysfsDevices (some devices) open_ objfiles = some map) {objfile : Text}
    (hmem : objfile ∈ objfiles) : ∃ obj, open_ objfile = some obj := by
  simp only [findSysfsDevices, Option.bind_eq_bind, Option.bind_some, Option.bind_eq_some_iff,
    Option.pure_def, Option.some.injEq] at h
  obtain ⟨data, hdata, -⟩ := h
  obtain ⟨i, hi⟩ := List.mem_iff_getElem?.1 hmem
  obtain ⟨idata, -, hopen⟩ := forall₂_getElem? (forall₂_of_mapM hdata) hi
  obtain ⟨obj, hobj, -⟩ := Option.map_eq_some_iff.1 hopen
  exact ⟨obj, hobj⟩

theorem devicesOf_other (h : findSysfsDevices (some devices) open_ objfiles = some map)
    {objfile : Text} (hmem : objfile ∉ objfiles) : devicesOf map objfile = [] := by
  simp only [findSysfsDevices, Option.bind_eq_bind, Option.bind_some, Option.bind_eq_some_iff,
    Option.pure_def, Option.some.injEq] at h
  obtain ⟨data, -, rfl⟩ := h
  apply List.eq_nil_iff_forall_not_mem.2
  intro x hx
  rcases (mem_collectObjects devices (objfiles.zip data) [] objfile x).1 hx with hx | hx
  · exact absurd hx (by simp [devicesOf])
  · obtain ⟨object, hzip, rfl, -⟩ := hx
    exact hmem (List.of_mem_zip hzip).1

theorem count_pairs (objfile' objfile : Text) (ds : List Text) (d : Text) :
    (ds.map fun d => (objfile', d)).count (objfile, d) =
      if objfile' = objfile then ds.count d else 0 := by
  induction ds with
  | nil => simp
  | cons x ds ih =>
    rw [List.map_cons, List.count_cons, ih, List.count_cons]
    by_cases hkey : objfile' = objfile <;> simp [hkey]

theorem count_loads (map : DeviceMap) (objfiles : List Text) (objfile d : Text) :
    (loads map objfiles).count (objfile, d) =
      objfiles.count objfile * (devicesOf map objfile).count d := by
  induction objfiles with
  | nil => simp [loads]
  | cons o objfiles ih =>
    have hnext : (loads map (o :: objfiles)).count (objfile, d) =
        ((devicesOf map o).map fun d => (o, d)).count (objfile, d) +
          (loads map objfiles).count (objfile, d) := by
      by_cases hfound : (map.find? fun entry => entry.1 = o).isSome
      · simp only [loads, List.filter_cons, hfound, if_true, List.flatMap_cons, List.count_append]
      · have hnone : devicesOf map o = [] := by
          rw [Option.not_isSome_iff_eq_none] at hfound
          rw [devicesOf, hfound]
          rfl
        simp only [loads, List.filter_cons, hfound, hnone, List.map_nil, List.count_nil,
          Bool.false_eq_true, if_false, Nat.zero_add]
    rw [hnext, ih, count_pairs, List.count_cons]
    by_cases hkey : o = objfile
    · simp [hkey]
      ring
    · simp [hkey]

/-- Where nothing is named twice, an object that has the device is given once. -/
theorem given_once (hdevices : devices.Nodup)
    (h : findSysfsDevices (some devices) open_ objfiles = some map)
    (hnamed : NamedOnce devices open_ objfiles) (objfile d : Text) :
    (devicesOf map objfile).count d = 0 ∨
      objfiles.count objfile = 1 ∧ (devicesOf map objfile).count d = 1 := by
  by_cases hmem : objfile ∈ objfiles
  · obtain ⟨obj, hobj⟩ := opens h hmem
    rw [count_findSysfsDevices h hobj]
    by_cases hd : d ∈ devices
    · rcases Nat.eq_zero_or_pos (obj.entries.countP (names d)) with hnone | hsome
      · simp [hnone]
      · obtain ⟨hgiven, hone⟩ := hnamed objfile hmem obj hobj d hd hsome
        rw [hgiven, hone, List.count_eq_one_of_mem hdevices hd]
        exact .inr ⟨rfl, rfl⟩
    · simp [List.count_eq_zero_of_not_mem hd]
  · rw [devicesOf_other h hmem]
    exact .inl rfl

/-- Each device is processed once exactly where its name comes from one entry of one argument. -/
theorem processed_once_iff (hdevices : devices.Nodup)
    (h : findSysfsDevices (some devices) open_ objfiles = some map) :
    ProcessedOnce map objfiles ↔ NamedOnce devices open_ objfiles := by
  constructor
  · rintro ⟨hlists, -⟩ objfile hmem obj hobj d hd hnamed
    have hcount := List.nodup_iff_count_le_one.1 (hlists objfile) d
    have hgiven : 0 < objfiles.count objfile := List.count_pos_iff.2 hmem
    rw [count_findSysfsDevices h hobj, List.count_eq_one_of_mem hdevices hd, Nat.one_mul] at hcount
    have hone := le_antisymm hcount (Nat.mul_pos hgiven hnamed)
    exact ⟨Nat.eq_one_of_mul_eq_one_right hone, Nat.eq_one_of_mul_eq_one_left hone⟩
  · intro hnamed
    have honce := given_once hdevices h hnamed
    constructor
    · intro objfile
      apply List.nodup_iff_count_le_one.2
      intro d
      rcases honce objfile d with hnone | ⟨-, hone⟩
      · rw [hnone]
        exact Nat.zero_le 1
      · exact hone.le
    · apply List.nodup_iff_count_le_one.2
      rintro ⟨objfile, d⟩
      rw [count_loads]
      rcases honce objfile d with hnone | ⟨hgiven, hone⟩
      · rw [hnone]
        exact Nat.zero_le 1
      · rw [hgiven, hone]

end

def tablet : Text := "0003:056A:0374.0001".toList

def twoGroups : ObjectFile :=
  ⟨"a.bpf.o".toList, [⟨.usb, .generic, 0x56A, 0x374⟩, ⟨.usb, .any, 0x56A, 0x374⟩]⟩

/-- The tablet is listed, and loaded, twice. -/
theorem two_groups_load_twice : ∃ map, findSysfsDevices (some [tablet])
    (fun _ => some twoGroups) ["a.bpf.o".toList] = some map ∧
      ¬ ProcessedOnce map ["a.bpf.o".toList] := by
  refine ⟨[("a.bpf.o".toList, [tablet, tablet])], by decide, ?_⟩
  rintro ⟨hlists, -⟩
  exact absurd (hlists "a.bpf.o".toList) (by decide)

def twoProducts : ObjectFile :=
  ⟨"a.bpf.o".toList, [⟨.usb, .generic, 0x56A, 0x374⟩, ⟨.usb, .any, 0x56A, 0x375⟩]⟩

/-- Two entries that differ in their product. -/
theorem two_products_load_once : ∃ map, findSysfsDevices (some [tablet])
    (fun _ => some twoProducts) ["a.bpf.o".toList] = some map ∧
      ProcessedOnce map ["a.bpf.o".toList] := by
  have hfound : findSysfsDevices (some [tablet]) (fun _ => some twoProducts)
      ["a.bpf.o".toList] = some [("a.bpf.o".toList, [tablet])] := by decide
  refine ⟨_, hfound, (processed_once_iff (by decide) hfound).2 ?_⟩
  intro objfile hmem obj hobj d hd hnamed
  obtain rfl := List.mem_singleton.1 hmem
  obtain rfl := List.mem_singleton.1 hd
  obtain rfl := Option.some.inj hobj
  decide

end AddedDevices
