import UdevHidBpf.Modaliases
import UdevHidBpf.OptionLists

/-! # The devices an object is added to

`add - prog…` looks for devices by the names sysfs gives them. A path is the name in its
directory, the map an association list from object files to devices. `none` is an error. -/
namespace SysfsDevices

open RadixText Modaliases OptionLists

def hexWithoutPrefix (s : Text) : Text :=
  if "0x".toList.isPrefixOf s then s.drop 2 else s

def deviceVidPidName (device : InspectionDevice) : Text :=
  hexWithoutPrefix device.bus ++ ':' :: (hexWithoutPrefix device.vid ++
    ':' :: (hexWithoutPrefix device.pid ++ ['.']))

abbrev DeviceMap := List (Text × List Text)

/-- `map.entry(objfile).or_insert(Vec::new()).push(d)` -/
def push : DeviceMap → Text → Text → DeviceMap
  | [], objfile, d => [(objfile, [d])]
  | (key, ds) :: map, objfile, d =>
    if key = objfile then (key, ds ++ [d]) :: map else (key, ds) :: push map objfile d

def devicesOf (map : DeviceMap) (objfile : Text) : List Text :=
  ((map.find? fun entry => entry.1 = objfile).map Prod.snd).getD []

def collectDevice (objfile : Text) (prefixes : List Text) (map : DeviceMap) (d : Text) :
    DeviceMap :=
  prefixes.foldl (fun map p => if p.isPrefixOf d then push map objfile d else map) map

def collectObject (devices : List Text) (map : DeviceMap) (object : Text × InspectionData) :
    DeviceMap :=
  devices.foldl (collectDevice object.1 (object.2.devices.map deviceVidPidName)) map

/-- `readDir` is the sysfs directory, `open_` finds the object files. -/
def findSysfsDevices (readDir : Option (List Text)) (open_ : Text → Option ObjectFile)
    (objfiles : List Text) : Option DeviceMap := do
  let devices ← readDir
  let inspectionData ← objfiles.mapM fun objfile => (open_ objfile).map inspect
  return (objfiles.zip inspectionData).foldl (collectObject devices) []

/-- `%04X:%04X:%04X.%04X` -/
def sysname (d : KernelDevice) (id : UInt32) : Text :=
  padded 16 4 d.bus.toNat ++ ':' :: (padded 16 4 d.vid.toNat ++
    ':' :: (padded 16 4 d.pid.toNat ++ '.' :: padded 16 4 id.toNat))

/-- A sysfs device is told by bus, vendor and product; each may be declared as any. -/
def MatchesIds (e : Modalias) (d : KernelDevice) : Prop :=
  Selects e.bus.toNat d.bus.toNat ∧ Selects e.vid.toNat d.vid.toNat ∧
    Selects e.pid.toNat d.pid.toNat

def SameIds (e : Modalias) (d : KernelDevice) : Prop :=
  e.bus.toNat = d.bus.toNat ∧ e.vid.toNat = d.vid.toNat ∧ e.pid.toNat = d.pid.toNat

instance (e : Modalias) (d : KernelDevice) : Decidable (MatchesIds e d) :=
  inferInstanceAs (Decidable (_ ∧ _))

instance (e : Modalias) (d : KernelDevice) : Decidable (SameIds e d) :=
  inferInstanceAs (Decidable (_ ∧ _))

theorem SameIds.matchesIds {e : Modalias} {d : KernelDevice} (h : SameIds e d) : MatchesIds e d :=
  ⟨fun _ => h.1, fun _ => h.2.1, fun _ => h.2.2⟩

theorem devicesOf_cons (k : Text) (ds : List Text) (map : DeviceMap) (key : Text) :
    devicesOf ((k, ds) :: map) key = if k = key then ds else devicesOf map key := by
  by_cases h : k = key <;> simp [devicesOf, h]

theorem devicesOf_push (map : DeviceMap) (objfile d key : Text) :
    devicesOf (push map objfile d) key =
      if objfile = key then devicesOf map key ++ [d] else devicesOf map key := by
  induction map with
  | nil => rw [push, devicesOf_cons]; rfl
  | cons entry map ih =>
    obtain ⟨k, ds⟩ := entry
    rw [push]
    by_cases hk : k = objfile
    · rw [if_pos hk, devicesOf_cons, devicesOf_cons, hk]
      split <;> rfl
    · rw [if_neg hk, devicesOf_cons, devicesOf_cons, ih]
      by_cases hkey : k = key
      · rw [if_pos hkey, if_pos hkey, if_neg (fun h => hk (hkey.trans h.symm))]
      · rw [if_neg hkey, if_neg hkey]

theorem mem_collectDevice (objfile : Text) (prefixes : List Text) (map : DeviceMap)
    (d key x : Text) : x ∈ devicesOf (collectDevice objfile prefixes map d) key ↔
      x ∈ devicesOf map key ∨ objfile = key ∧ x = d ∧ ∃ p ∈ prefixes, p <+: x := by
  induction prefixes generalizing map with
  | nil => simp [collectDevice]
  | cons p prefixes ih =>
    have hstep : collectDevice objfile (p :: prefixes) map d = collectDevice objfile prefixes
        (if p.isPrefixOf d then push map objfile d else map) d := rfl
    rw [hstep, ih, List.exists_mem_cons_iff]
    by_cases hp : p.isPrefixOf d
    · have hp' : p <+: d := List.isPrefixOf_iff_prefix.mp hp
      rw [if_pos hp, devicesOf_push]
      by_cases hk : objfile = key
      · rw [if_pos hk, List.mem_append, List.mem_singleton]
        constructor
        · rintro ((h | rfl) | ⟨-, rfl, h⟩)
          · exact .inl h
          · exact .inr ⟨hk, rfl, .inl hp'⟩
          · exact .inr ⟨hk, rfl, .inl hp'⟩
        · rintro (h | ⟨-, hx, -⟩)
          · exact .inl (.inl h)
          · exact .inl (.inr hx)
      · simp only [hk, if_false, false_and]
    · rw [if_neg hp]
      refine or_congr_right (and_congr_right fun _ => and_congr_right fun hx => ?_)
      rw [or_iff_right]
      exact fun h => hp (List.isPrefixOf_iff_prefix.mpr (hx ▸ h))

theorem mem_collectObject (devices : List Text) (map : DeviceMap) (object : Text × InspectionData)
    (key x : Text) : x ∈ devicesOf (collectObject devices map object) key ↔
      x ∈ devicesOf map key ∨ object.1 = key ∧ x ∈ devices ∧
        ∃ p ∈ object.2.devices.map deviceVidPidName, p <+: x := by
  induction devices generalizing map with
  | nil => simp [collectObject]
  | cons d devices ih =>
    have hstep : collectObject (d :: devices) map object = collectObject devices
        (collectDevice object.1 (object.2.devices.map deviceVidPidName) map d) object := rfl
    rw [hstep, ih, mem_collectDevice, List.mem_cons]
    constructor
    · rintro ((h | ⟨hk, hx, hp⟩) | ⟨hk, hx, hp⟩)
      · exact .inl h
      · exact .inr ⟨hk, .inl hx, hp⟩
      · exact .inr ⟨hk, .inr hx, hp⟩
    · rintro (h | ⟨hk, hx | hx, hp⟩)
      · exact .inl (.inl h)
      · exact .inl (.inr ⟨hk, hx, hp⟩)
      · exact .inr ⟨hk, hx, hp⟩

theorem mem_collectObjects (devices : List Text) (objects : List (Text × InspectionData))
    (map : DeviceMap) (key x : Text) :
    x ∈ devicesOf (objects.foldl (collectObject devices) map) key ↔
      x ∈ devicesOf map key ∨ ∃ object ∈ objects, object.1 = key ∧ x ∈ devices ∧
        ∃ p ∈ object.2.devices.map deviceVidPidName, p <+: x := by
  induction objects generalizing map with
  | nil => simp
  | cons object objects ih => rw [List.foldl_cons, ih, mem_collectObject, List.exists_mem_cons_iff,
      or_assoc]

theorem mem_findSysfsDevices {devices : List Text} {open_ : Text → Option ObjectFile}
    {objfiles : List Text} {map : DeviceMap}
    (h : findSysfsDevices (some devices) open_ objfiles = some map) {objfile : Text}
    {obj : ObjectFile} (hmem : objfile ∈ objfiles) (hobj : open_ objfile = some obj) (x : Text) :
    x ∈ devicesOf map objfile ↔
      x ∈ devices ∧ ∃ e ∈ obj.entries, deviceVidPidName (inspectionDevice e) <+: x := by
  simp only [findSysfsDevices, Option.bind_eq_bind, Option.bind_some, Option.bind_eq_some_iff,
    Option.pure_def, Option.some.injEq] at h
  obtain ⟨data, hdata, rfl⟩ := h
  have hall := forall₂_of_mapM hdata
  have hstarts (idata : InspectionData) (hi : (open_ objfile).map inspect = some idata) :
      (∃ p ∈ idata.devices.map deviceVidPidName, p <+: x) ↔
        ∃ e ∈ obj.entries, deviceVidPidName (inspectionDevice e) <+: x := by
    rw [hobj, Option.map_some, Option.some.injEq] at hi
    subst hi
    simp [inspect]
  rw [mem_collectObjects]
  simp only [devicesOf, List.find?_nil, Option.map_none, Option.getD_none, List.not_mem_nil,
    false_or]
  constructor
  · rintro ⟨⟨o, idata⟩, hzip, rfl, hx, hp⟩
    exact ⟨hx, (hstarts idata ((List.forall₂_iff_zip.mp hall).2 hzip)).mp hp⟩
  · rintro ⟨hx, hp⟩
    obtain ⟨i, hi⟩ := List.mem_iff_getElem?.mp hmem
    obtain ⟨idata, hi', hdata'⟩ := forall₂_getElem? hall hi
    refine ⟨(objfile, idata), List.mem_of_getElem? (i := i) ?_, rfl, hx,
      (hstarts idata hdata').mpr hp⟩
    rw [List.getElem?_zip_eq_some]
    exact ⟨hi, hi'⟩

theorem deviceVidPidName_inspectionDevice (e : Modalias) :
    deviceVidPidName (inspectionDevice e) = padded 16 4 e.bus.toNat ++ ':' ::
      (padded 16 4 e.vid.toNat ++ ':' :: (padded 16 4 e.pid.toNat ++ ['.'])) := rfl

theorem prefix_sysname_iff (e : Modalias) (d : KernelDevice) (id : UInt32) :
    deviceVidPidName (inspectionDevice e) <+: sysname d id ↔ SameIds e d := by
  have hcolon (n : ℕ) : ':' ∉ padded 16 4 n :=
    not_mem_padded (by decide) (by decide) (by decide)
  have hdot (n : ℕ) : '.' ∉ padded 16 4 n := not_mem_padded (by decide) (by decide) (by decide)
  have heq (m n : ℕ) : padded 16 4 m = padded 16 4 n ↔ m = n :=
    ⟨padded_injective (by decide) (by decide), congrArg _⟩
  rw [deviceVidPidName_inspectionDevice, sysname, prefix_field (hcolon _) (hcolon _),
    prefix_field (hcolon _) (hcolon _), prefix_field (hdot _) (hdot _), heq, heq, heq, SameIds]
  simp

/-- A device is found as the entries promise exactly where no wildcard is needed. -/
theorem find_sysfs_devices_iff (devices : List (KernelDevice × UInt32))
    (open_ : Text → Option ObjectFile) (objfiles : List Text) (map : DeviceMap)
    (h : findSysfsDevices (some (devices.map fun (d, id) => sysname d id)) open_ objfiles = some map)
    (objfile : Text) (hmem : objfile ∈ objfiles) (obj : ObjectFile)
    (hobj : open_ objfile = some obj) (d : KernelDevice) (id : UInt32) (hd : (d, id) ∈ devices) :
    (sysname d id ∈ devicesOf map objfile ↔ ∃ e ∈ obj.entries, MatchesIds e d) ↔
      ((∃ e ∈ obj.entries, MatchesIds e d) → ∃ e ∈ obj.entries, SameIds e d) := by
  have hin : sysname d id ∈ devices.map fun (d, id) => sysname d id :=
    List.mem_map.mpr ⟨(d, id), hd, rfl⟩
  rw [mem_findSysfsDevices h hmem hobj]
  simp only [hin, true_and, prefix_sysname_iff]
  constructor
  · intro hiff
    exact hiff.mpr
  · intro himp
    exact ⟨fun ⟨e, he, hsame⟩ => ⟨e, he, hsame.matchesIds⟩, himp⟩

/-- A wildcard entry next to one that names the device. -/
theorem find_sysfs_devices_iff_named :
    ∃ map, findSysfsDevices (some ["0003:056A:0374.0001".toList])
        (fun _ => some ⟨"a.bpf.o".toList, [⟨.usb, .any, 0, 0⟩, ⟨.usb, .any, 0x56A, 0x374⟩]⟩)
        ["a.bpf.o".toList] = some map ∧
      (sysname ⟨3, 1, 0x56A, 0x374⟩ 1 ∈ devicesOf map "a.bpf.o".toList ↔
        ∃ e ∈ [⟨.usb, .any, 0, 0⟩, ⟨.usb, .any, 0x56A, 0x374⟩],
          MatchesIds e ⟨3, 1, 0x56A, 0x374⟩) := by
  refine ⟨_, rfl, (find_sysfs_devices_iff [(⟨3, 1, 0x56A, 0x374⟩, 1)]
    (fun _ => some ⟨"a.bpf.o".toList, [⟨.usb, .any, 0, 0⟩, ⟨.usb, .any, 0x56A, 0x374⟩]⟩)
    ["a.bpf.o".toList] _ (by decide) _ (.head _) _ rfl ⟨3, 1, 0x56A, 0x374⟩ 1 (.head _)).mpr ?_⟩
  intro _
  exact ⟨_, .tail _ (.head _), by decide⟩

/-- `HID_DEVICE(BUS_USB, HID_GROUP_ANY, HID_VID_ANY, HID_PID_ANY)` is to match any USB device. -/
theorem find_sysfs_devices_any_usb : ¬ ∀ (devices : List (KernelDevice × UInt32))
    (open_ : Text → Option ObjectFile) (objfiles : List Text) (map : DeviceMap),
    findSysfsDevices (some (devices.map fun (d, id) => sysname d id)) open_ objfiles = some map →
    ∀ objfile ∈ objfiles, ∀ obj, open_ objfile = some obj → ∀ (d : KernelDevice) (id : UInt32),
      (d, id) ∈ devices →
      (sysname d id ∈ devicesOf map objfile ↔ ∃ e ∈ obj.entries, MatchesIds e d) := by
  intro h
  have hfound := (h [(⟨3, 1, 0x56A, 0x374⟩, 1)]
    (fun _ => some ⟨"any.bpf.o".toList, [⟨.usb, .any, 0, 0⟩]⟩) ["any.bpf.o".toList] _ rfl
    "any.bpf.o".toList (.head _) _ rfl ⟨3, 1, 0x56A, 0x374⟩ 1 (.head _)).mpr
    ⟨_, .head _, by decide⟩
  exact absurd hfound (by decide)

end SysfsDevices
