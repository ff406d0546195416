import UdevHidBpf.BpfErrors
import UdevHidBpf.BpffsNames
import UdevHidBpf.FallibleLoops
import UdevHidBpf.UdevProperties

/-! # `list-loaded`

What is pinned below the root, as the structure that becomes JSON and as the list of udev
properties. Both walk through the devices, their objects and the entries of these. -/
namespace ListLoaded

open BpfErrors BpffsNames BpffsPaths FallibleLoops
open UdevProperties (Bytes decodeValue)

abbrev Path (OsString : Type) := List OsString

structure MapHandle where
  fd : ℕ

/-- What the system answers. Reading a directory may fail at once or at an entry. -/
structure FileSystem (E OsString : Type) where
  readDir : Path OsString → Except E (List (Except E OsString))
  isDir : Path OsString → Bool
  toStringLossy : OsString → String
  getStructOpsMapId : Path OsString → Option ℕ
  structOpsCallbacks : ℕ → List (String × ℕ)
  fromPinnedPath : Path OsString → Except BpfError MapHandle
  lookup : MapHandle → Except BpfError (Option Bytes)
  pathExists : String → Bool

def stripPrefix (front s : String) : Option String :=
  if front.toList.isPrefixOf s.toList then some (String.ofList (s.toList.drop front.length))
  else none

def startsWith (s front : String) : Bool := front.toList.isPrefixOf s.toList

section walk

variable {E OsString : Type} (fs : FileSystem E OsString)

def readUdevPropertyMap (map : MapHandle) : Except BpfError (Option String) :=
  (fs.lookup map).map fun data => data.bind decodeValue

abbrev Properties := List (String × String)

def collectEntry (object : Path OsString) (properties : Properties)
    (entry : Except E OsString) : Except E Properties := do
  let name ← entry
  let path := object ++ [name]
  if fs.isDir path then
    return properties
  match stripPrefix "UDEV_PROP_" (fs.toStringLossy name) with
  | none => return properties
  | some key =>
    match fs.fromPinnedPath path with
    | .error _ => return properties
    | .ok map =>
      match (readUdevPropertyMap fs map).toOption.join with
      | none => return properties
      | some value => return properties ++ [(key, value)]

def collectObject (device : Path OsString) (properties : Properties)
    (entry : Except E OsString) : Except E Properties := do
  let name ← entry
  let path := device ++ [name]
  if fs.isDir path then
    (← fs.readDir path).foldlM (collectEntry fs path) properties
  else
    return properties

def collectDevice (root : Path OsString) (filter : Option String) (properties : Properties)
    (entry : Except E OsString) : Except E Properties := do
  let name ← entry
  let path := root ++ [name]
  if fs.isDir path ∧ filter.all (fs.toStringLossy name = ·) then
    (← fs.readDir path).foldlM (collectObject fs path) properties
  else
    return properties

def collectUdevProperties (root : Path OsString) (filter : Option String) :
    Except E Properties := do
  (← fs.readDir root).foldlM (collectDevice fs root filter) []

structure ProgramCallback where
  progName : String
  deriving DecidableEq, Repr

structure LoadedProgram where
  name : String
  callbacks : List ProgramCallback
  deriving DecidableEq, Repr

structure LoadedMap where
  name : String
  value : Option String
  deriving DecidableEq, Repr

structure LoadedBpfObject where
  name : String
  programs : List LoadedProgram
  maps : List LoadedMap
  deriving DecidableEq, Repr

structure LoadedDevice where
  sysname : String
  syspath : Option String
  detached : Bool
  bpfObjects : List LoadedBpfObject
  deriving DecidableEq, Repr

structure LoadedBpfData where
  devices : List LoadedDevice
  deriving DecidableEq, Repr

def getHidSysfsPath (sysname : String) : Option String :=
  let path := "/sys/bus/hid/devices/" ++ sysname
  if fs.pathExists path then some path else none

def loadEntry (path : Path OsString) (object : LoadedBpfObject) (entry : Except E OsString) :
    Except E LoadedBpfObject := do
  let osName ← entry
  let entryPath := path ++ [osName]
  if fs.isDir entryPath then
    return object
  let name := fs.toStringLossy osName
  match fs.getStructOpsMapId entryPath with
  | some mapId =>
    let callbacks := (fs.structOpsCallbacks mapId).map fun c => ⟨c.1⟩
    return { object with programs := object.programs ++ [⟨name, callbacks⟩] }
  | none =>
    match fs.fromPinnedPath entryPath with
    | .error _ => return object
    | .ok map =>
      let value :=
        if startsWith name "UDEV_PROP_" then (readUdevPropertyMap fs map).toOption.join else none
      return { object with maps := object.maps ++ [⟨name, value⟩] }

def loadObject (device : Path OsString) (objects : List LoadedBpfObject)
    (entry : Except E OsString) : Except E (List LoadedBpfObject) := do
  let name ← entry
  let path := device ++ [name]
  if fs.isDir path then
    let object ← (← fs.readDir path).foldlM (loadEntry fs path) ⟨fs.toStringLossy name, [], []⟩
    return objects ++ [object]
  else
    return objects

def loadDevice (root : Path OsString) (filter : Option String) (devices : List LoadedDevice)
    (entry : Except E OsString) : Except E (List LoadedDevice) := do
  let name ← entry
  let path := root ++ [name]
  if fs.isDir path ∧ filter.all (fs.toStringLossy name = ·) then
    let sysname := bpffsToSysname (fs.toStringLossy name)
    let syspath := getHidSysfsPath fs sysname
    let objects ← (← fs.readDir path).foldlM (loadObject fs path) []
    return devices ++ [⟨sysname, syspath, syspath.isNone, objects⟩]
  else
    return devices

def loadedData (root : Path OsString) (filter : Option String) : Except E LoadedBpfData := do
  let devices ← (← fs.readDir root).foldlM (loadDevice fs root filter) []
  return ⟨devices⟩

def property (map : LoadedMap) : Option (String × String) :=
  (stripPrefix "UDEV_PROP_" map.name).bind fun key => map.value.map (key, ·)

def objectProperties (object : LoadedBpfObject) : Properties := object.maps.filterMap property

def deviceProperties (device : LoadedDevice) : Properties :=
  device.bpfObjects.flatMap objectProperties

def udevProperties (data : LoadedBpfData) : Properties := data.devices.flatMap deviceProperties

/-- A property map is no struct_ops link: a map opens as one only where it is one. -/
def PropertyMaps : Prop :=
  ∀ (path : Path OsString) (name : OsString),
    startsWith (fs.toStringLossy name) "UDEV_PROP_" = true →
    fs.getStructOpsMapId (path ++ [name]) = none ∨
      ∃ e, fs.fromPinnedPath (path ++ [name]) = .error e

theorem isSome_stripPrefix (front s : String) :
    (stripPrefix front s).isSome = startsWith s front := by
  unfold stripPrefix startsWith
  cases front.toList.isPrefixOf s.toList <;> rfl

variable {fs}

theorem objectProperties_append (name : String) (programs : List LoadedProgram)
    (maps : List LoadedMap) (map : LoadedMap) :
    objectProperties ⟨name, programs, maps ++ [map]⟩ =
      objectProperties ⟨name, programs, maps⟩ ++ (property map).toList := by
  rw [objectProperties, List.filterMap_append, objectProperties, List.filterMap_cons]
  cases property map <;> rfl

theorem ok_bind {α β : Type} (a : α) (f : α → Except E β) : (Except.ok a >>= f) = f a := rfl

theorem loadEntry_properties (h : PropertyMaps fs) (path : Path OsString) (props : Properties)
    (object : LoadedBpfObject) (entry : Except E OsString) :
    (fun o => props ++ objectProperties o) <$> loadEntry fs path object entry =
      collectEntry fs path (props ++ objectProperties object) entry := by
  cases entry with
  | error e => rfl
  | ok name =>
    simp only [loadEntry, collectEntry, ok_bind]
    by_cases hdir : fs.isDir (path ++ [name])
    · rw [if_pos hdir, if_pos hdir]
      rfl
    rw [if_neg hdir, if_neg hdir]
    have hkey := isSome_stripPrefix "UDEV_PROP_" (fs.toStringLossy name)
    cases hstrip : stripPrefix "UDEV_PROP_" (fs.toStringLossy name) with
    | none =>
      -- no property: whatever is added to the object carries no value
      rw [hstrip] at hkey
      have hnone (value : Option String) : property ⟨fs.toStringLossy name, value⟩ = none := by
        rw [property, hstrip]
        rfl
      cases fs.getStructOpsMapId (path ++ [name]) with
      | some mapId => rfl
      | none =>
        cases fs.fromPinnedPath (path ++ [name]) with
        | error e => rfl
        | ok map => simp [objectProperties_append, hnone]
    | some key =>
      rw [hstrip] at hkey
      have hprop (value : Option String) :
          property ⟨fs.toStringLossy name, value⟩ = value.map (key, ·) := by
        rw [property, hstrip]
        rfl
      cases hmap : fs.fromPinnedPath (path ++ [name]) with
      | error e => cases fs.getStructOpsMapId (path ++ [name]) <;> rfl
      | ok map =>
        have hid : fs.getStructOpsMapId (path ++ [name]) = none := by
          rcases h path name hkey.symm with hid | ⟨e, he⟩
          · exact hid
          · cases hmap.symm.trans he
        rw [hid]
        cases hvalue : (readUdevPropertyMap fs map).toOption.join <;>
          simp [objectProperties_append, hprop, ← hkey, hvalue]

theorem loadObject_properties (h : PropertyMaps fs) (device : Path OsString) (props : Properties)
    (objects : List LoadedBpfObject) (entry : Except E OsString) :
    (fun os => props ++ os.flatMap objectProperties) <$> loadObject fs device objects entry =
      collectObject fs device (props ++ objects.flatMap objectProperties) entry := by
  cases entry with
  | error e => rfl
  | ok name =>
    simp only [loadObject, collectObject, ok_bind]
    by_cases hdir : fs.isDir (device ++ [name])
    · rw [if_pos hdir, if_pos hdir, map_bind]
      refine bind_congr fun entries => ?_
      have hloop := map_foldlM (loadEntry_properties h (device ++ [name])
        (props ++ objects.flatMap objectProperties)) entries ⟨fs.toStringLossy name, [], []⟩
      rw [show objectProperties ⟨fs.toStringLossy name, [], []⟩ = [] from rfl,
        List.append_nil] at hloop
      rw [← hloop, map_bind, map_eq_pure_bind]
      refine bind_congr fun object => ?_
      simp
    · rw [if_neg hdir, if_neg hdir]
      rfl

theorem loadDevice_properties (h : PropertyMaps fs) (root : Path OsString)
    (filter : Option String) (devices : List LoadedDevice) (entry : Except E OsString) :
    (fun ds => ds.flatMap deviceProperties) <$> loadDevice fs root filter devices entry =
      collectDevice fs root filter (devices.flatMap deviceProperties) entry := by
  cases entry with
  | error e => rfl
  | ok name =>
    simp only [loadDevice, collectDevice, ok_bind]
    by_cases hdir : fs.isDir (root ++ [name]) ∧ filter.all (fs.toStringLossy name = ·)
    · rw [if_pos hdir, if_pos hdir, map_bind]
      refine bind_congr fun entries => ?_
      have hloop := map_foldlM (loadObject_properties h (root ++ [name])
        (devices.flatMap deviceProperties)) entries []
      rw [List.flatMap_nil, List.append_nil] at hloop
      rw [← hloop, map_bind, map_eq_pure_bind]
      refine bind_congr fun objects => ?_
      simp [deviceProperties]
    · rw [if_neg hdir, if_neg hdir]
      rfl

/-- Collecting the properties is listing everything and reading the properties off. -/
theorem collectUdevProperties_eq (h : PropertyMaps fs) (root : Path OsString)
    (filter : Option String) :
    collectUdevProperties fs root filter = udevProperties <$> loadedData fs root filter := by
  rw [collectUdevProperties, loadedData, map_bind]
  refine bind_congr fun entries => ?_
  have hloop := map_foldlM (loadDevice_properties h root filter) entries []
  rw [List.flatMap_nil] at hloop
  rw [← hloop, map_bind, map_eq_pure_bind]
  refine bind_congr fun devices => ?_
  simp [udevProperties]

end walk

inductive Output where
  | json (data : LoadedBpfData)
  | udev (output : List String)
  deriving DecidableEq, Repr

inductive ListError (E : Type) where
  | message (text : String)
  | io (e : E)
  deriving DecidableEq, Repr

def filterBpffsName (fromSyspath : String → Option String) (syspath : String) : String :=
  match fromSyspath syspath with
  | some sysname => sysnameToBpffs sysname
  | none => sysnameToBpffs ((lastName syspath).getD syspath)

def formatProperties (properties : Properties) : List String :=
  properties.map fun p => p.1 ++ "=" ++ p.2

section command

variable {E OsString : Type} (fs : FileSystem E OsString)
variable (fromSyspath : String → Option String) (filterSyspath : Option String)

def cmdListLoaded (format : String) : Except (ListError E) Output :=
  if format ≠ "json" ∧ format ≠ "udev" then
    .error (.message ("Unknown format '" ++ format ++ "', expected 'json' or 'udev'"))
  else if fs.pathExists bpffsRoot = false then
    .ok (if format = "json" then .json ⟨[]⟩ else .udev [])
  else
    let filter := filterSyspath.map (filterBpffsName fromSyspath)
    if format = "udev" then
      match collectUdevProperties fs [] filter with
      | .error e => .error (.io e)
      | .ok properties => .ok (.udev (formatProperties properties))
    else
      match loadedData fs [] filter with
      | .error e => .error (.io e)
      | .ok data => .ok (.json data)

def Output.asUdev : Output → Output
  | .json data => .udev (formatProperties (udevProperties data))
  | .udev output => .udev output

variable {fs}

theorem cmdListLoaded_udev (h : PropertyMaps fs) :
    cmdListLoaded fs fromSyspath filterSyspath "udev" =
      Output.asUdev <$> cmdListLoaded fs fromSyspath filterSyspath "json" := by
  have hudev : ¬ ("udev" ≠ "json" ∧ "udev" ≠ "udev") := by decide
  have hjson : ¬ ("json" ≠ "json" ∧ "json" ≠ "udev") := by decide
  have hne : ("json" : String) ≠ "udev" := by decide
  rw [cmdListLoaded, cmdListLoaded, if_neg hudev, if_neg hjson]
  by_cases hroot : fs.pathExists bpffsRoot = false
  · rw [if_pos hroot, if_pos hroot, if_neg hne.symm, if_pos rfl]
    rfl
  · rw [if_neg hroot, if_neg hroot]
    simp only [collectUdevProperties_eq h, if_true, if_neg hne]
    cases loadedData fs [] (filterSyspath.map (filterBpffsName fromSyspath)) <;> rfl

end command

/-- The listing for udev gives the properties of the full listing in their order, and fails
where that fails. -/
theorem udev_listing_agrees {E OsString : Type} (fs : FileSystem E OsString)
    (root : Path OsString) (filter : Option String) (fromSyspath : String → Option String)
    (filterSyspath : Option String) (h : PropertyMaps fs) :
    collectUdevProperties fs root filter = udevProperties <$> loadedData fs root filter ∧
      (∀ e, collectUdevProperties fs root filter = .error e ↔
        loadedData fs root filter = .error e) ∧
      cmdListLoaded fs fromSyspath filterSyspath "udev" =
        Output.asUdev <$> cmdListLoaded fs fromSyspath filterSyspath "json" := by
  refine ⟨collectUdevProperties_eq h root filter, ?_,
    cmdListLoaded_udev fromSyspath filterSyspath h⟩
  intro e
  rw [collectUdevProperties_eq h]
  cases loadedData fs root filter with
  | error e' =>
    constructor
    · rintro ⟨⟩
      rfl
    · rintro ⟨⟩
      rfl
  | ok data => exact ⟨nofun, nofun⟩

def mousePinned : FileSystem String String where
  readDir path :=
    if path = [] then .ok [.ok "0003_046D_C52B_0001", .ok "stray"]
    else if path = ["0003_046D_C52B_0001"] then .ok [.ok "0010-mouse_bpf"]
    else .ok [.ok "mouse", .ok "UDEV_PROP_DPI", .ok "nested", .ok "unreadable"]
  isDir path := path.getLast? ∈ [some "0003_046D_C52B_0001", some "0010-mouse_bpf", some "nested"]
  toStringLossy := id
  getStructOpsMapId path := if path.getLast? = some "mouse" then some 7 else none
  structOpsCallbacks _ := [("hid_device_event", 9)]
  fromPinnedPath path :=
    if path.getLast? = some "UDEV_PROP_DPI" then .ok ⟨5⟩ else .error (.osError 22)
  lookup _ := .ok (some [49, 0])
  pathExists _ := true

theorem udev_listing_agrees_mouse :
    collectUdevProperties mousePinned [] none =
      udevProperties <$> loadedData mousePinned [] none := by
  refine (udev_listing_agrees mousePinned [] none (fun _ => none) none ?_).1
  intro path name hname
  left
  have hne : name ≠ "mouse" := by
    rintro rfl
    exact absurd hname (by decide)
  simp [mousePinned, hne]

example : collectUdevProperties mousePinned [] none = .ok [("DPI", "1")] := by decide +kernel

end ListLoaded
