import UdevHidBpf.GenerateHwdb
import UdevHidBpf.ObjectLookup
import UdevHidBpf.PinPaths
import Mathlib.Data.List.Perm.Basic

/-! # From an event to the programs of a device

`81-hid-bpf.rules` looks the device up in the hardware database and runs `add`, which takes
the programs from the properties of the device or, while udev has not stored them yet, from
its environment. -/
namespace UdevEvents

open BpfErrors FirstSuccess GenerateHwdb Glob LoadBpfFiles LoadPrograms Modaliases ObjectLookup
open PinPaths (pathBuf)
open RadixText StemSorting
open HwdbFile (Property Record merge)

/-- The object files are built in sets; each has a database of its own. -/
inductive Build where
  | stable
  | testing
  deriving DecidableEq, Repr

def Build.suffix : Build → Text
  | .stable => "stable".toList
  | .testing => "testing".toList

/-- `'HID_BPF_@0@_'.format(suffix)` with the first letter of the suffix in upper case -/
def Build.propPrefix (build : Build) : Text :=
  "HID_BPF_".toList ++ (build.suffix.take 1).map Char.toUpper ++ "_".toList

/-- In the order of the files `81-hid-bpf-@0@.hwdb`. -/
def builds : List Build := [.stable, .testing]

/-- What the builds with these objects install; one that is off has none. -/
def installedHwdb (files : Build → List ObjectFile) : Option (List Record) :=
  (builds.mapM fun build =>
    (main build.propPrefix ((files build).map inspect)).bind HwdbFile.readHwdb).map List.flatten

structure Event where
  action : Text
  subsystem : Text
  /-- From the kernel and from the rules before. -/
  properties : List Property
  deriving DecidableEq, Repr

inductive Command where
  | add
  | remove
  | listLoaded
  deriving DecidableEq, Repr

/-- `IMPORT{builtin}="hwdb --subsystem=hid --lookup-prefix=hid-bpf:"` -/
def importHwdb (records : List Record) (dev : KernelDevice) (e : Event) : List Property :=
  merge (e.properties ++ HwdbFile.lookup records (lookupKey dev))

/-- `ENV{.HID_BPF}=="1"` -/
def marked (properties : List Property) : Bool :=
  (".HID_BPF".toList, "1".toList) ∈ properties

def actions : List Text := ["add".toList, "remove".toList, "bind".toList, "unbind".toList]

def rules (records : List Record) (dev : KernelDevice) (e : Event) : Option Command :=
  if ¬ actions.contains e.action then none
  else if e.subsystem ≠ "hid".toList then none
  else if ¬ marked (importHwdb records dev e) then none
  else if e.action = "add".toList then some .add
  else if e.action = "remove".toList then some .remove
  else some .listLoaded

/-- What a program is started with: properties behind a dot stay inside udev. -/
def exported (properties : List Property) : List Property :=
  properties.filter fun p => p.1.head? ≠ some '.'

/-- What libudev has stored of a device. -/
structure HidUdev where
  sysname : String
  properties : List Property
  deriving DecidableEq, Repr

def programValues (properties : List Property) : List Text :=
  (properties.filter fun p => isProgram p.1).map Prod.snd

/-- The environment counts only for a device of which nothing is stored. -/
def hidBpfProperties (dev : HidUdev) (environment : List Property) : List Text :=
  let fromDevice := programValues dev.properties
  if fromDevice ≠ [] then fromDevice
  else (programValues environment).filter fun value => suffix.isSuffixOf value

def isIgnored (dev : HidUdev) : Bool :=
  dev.properties.any fun p => p.1 = "HID_BPF_IGNORE_DEVICE".toList

inductive AddError (E : Type) where
  | invalidSyspath (syspath : Text)
  | noBpfDirs (dirs : List Text)
  | io (e : E)
  deriving DecidableEq, Repr

/-- What `add` meets: files, devices, what it was started with and how loads end. -/
structure World (E : Type) where
  files : FileSystem
  fromSyspath : Text → Except E HidUdev
  environment : List Property
  caseFolding : CaseFolding
  iteration : IterationOrder
  loads : String → List LoadAttempt → PathBuf → Env × Object

section add

variable {E : Type} (w : World E)

def loadFiles (dev : HidUdev) (paths : List Text) :
    Option (List LoadAttempt × Except ErrorKind Unit) :=
  loadBpfFiles w.caseFolding w.iteration (loadOnDevice (w.loads dev.sysname) dev.sysname)
    (paths.map pathBuf)

/-- The loads on one device; `none` is a panic. -/
def addDevice (dev : HidUdev) (objfiles dirs : List Text) : Option (List LoadAttempt) :=
  if objfiles = [] then
    if isIgnored dev then some []
    else (loadFiles w dev (searchForMatchingObjfiles w.files
      (hidBpfProperties dev w.environment) dirs)).map Prod.fst
  else
    let bpfFiles := findNamedObjfiles w.files objfiles dirs
    if bpfFiles = [] then some [] else (loadFiles w dev bpfFiles).map Prod.fst

def addDevices (objfiles dirs : List Text) :
    List Text → Option (List (HidUdev × List LoadAttempt) × Except (AddError E) Unit)
  | [] => some ([], .ok ())
  | syspath :: syspaths =>
    match w.fromSyspath syspath with
    | .error e => some ([], .error (.io e))
    | .ok dev =>
      (addDevice w dev objfiles dirs).bind fun attempts =>
        (addDevices objfiles dirs syspaths).map fun rest => ((dev, attempts) :: rest.1, rest.2)

def cmdAdd (defaultBpfDirs : List Text) (devices objfiles : List Text) (bpfdir : Option Text) :
    Option (List (HidUdev × List LoadAttempt) × Except (AddError E) Unit) :=
  match devices.find? fun syspath => !w.files.exists syspath with
  | some syspath => some ([], .error (.invalidSyspath syspath))
  | none =>
    let dirs := bpfdir.toList ++ defaultBpfDirs
    if objfiles = [] ∧ ¬ dirs.any w.files.exists then some ([], .error (.noBpfDirs dirs))
    else addDevices w objfiles dirs devices

end add

def Declares (obj : ObjectFile) (dev : KernelDevice) : Prop := ∃ m ∈ obj.entries, m.Matches dev

theorem mem_programsOf {objs : List ObjectFile} {dev : KernelDevice} {filename : Text} :
    filename ∈ programsOf objs dev ↔ ∃ obj ∈ objs, Declares obj dev ∧ obj.filename = filename := by
  simp only [programsOf, List.mem_flatMap, List.mem_map, List.mem_filter, decide_eq_true_iff,
    Declares]
  constructor
  · rintro ⟨obj, hobj, m, ⟨hm, hmatch⟩, rfl⟩
    exact ⟨obj, hobj, ⟨m, hm, hmatch⟩, rfl⟩
  · rintro ⟨obj, hobj, ⟨m, hm, hmatch⟩, rfl⟩
    exact ⟨obj, hobj, m, ⟨hm, hmatch⟩, rfl⟩

section database

variable {devices : List (Text × Device × ℕ)} (key : Text)

theorem lookup_names {p : Property} (hp : p ∈ HwdbFile.lookup (recordsOf devices) key) :
    (∃ d ∈ devices, p.1 = nameOf d) ∨ p = (".HID_BPF".toList, "1".toList) := by
  obtain ⟨r, hr, hpr⟩ := List.mem_flatMap.mp (HwdbFile.merge_subset _ hp)
  obtain ⟨d, hd, rfl⟩ := List.mem_map.mp (List.mem_of_mem_filter hr)
  rcases List.mem_cons.mp hpr with rfl | hmark
  · exact .inl ⟨d, hd, rfl⟩
  · exact .inr (List.mem_singleton.mp hmark)

theorem marked_lookup (hbegins : ∀ d ∈ devices, ProgramPrefix d.1) :
    (".HID_BPF".toList, "1".toList) ∈ HwdbFile.lookup (recordsOf devices) key ↔
      ∃ d ∈ devices, accepts (ofText (globLine d.2.1)) key := by
  constructor
  · intro h
    obtain ⟨r, hr, -⟩ := List.mem_flatMap.mp (HwdbFile.merge_subset _ h)
    obtain ⟨hr, haccepts⟩ := List.mem_filter.mp hr
    obtain ⟨d, hd, rfl⟩ := List.mem_map.mp hr
    exact ⟨d, hd, (accepts_deviceRecord d.1 d.2 key).symm.trans haccepts⟩
  · rintro ⟨d, hd, haccepts⟩
    have hname : ".HID_BPF".toList ∈
        (HwdbFile.lookup (recordsOf devices) key).map Prod.fst := by
      apply HwdbFile.mem_names_merge.mpr
      refine List.mem_map.mpr ⟨(".HID_BPF".toList, "1".toList), ?_, rfl⟩
      refine List.mem_flatMap.mpr ⟨deviceRecord d.1 d.2,
        List.mem_filter.mpr ⟨List.mem_map.mpr ⟨d, hd, rfl⟩, ?_⟩, ?_⟩
      · exact (accepts_deviceRecord d.1 d.2 key).trans haccepts
      · exact List.mem_cons_of_mem _ (List.mem_singleton.mpr rfl)
    obtain ⟨p, hp, hpname⟩ := List.mem_map.mp hname
    rcases lookup_names key hp with ⟨d, hd, hd'⟩ | rfl
    · have hprogram : isProgram (nameOf d) := isProgram_propertyName (hbegins d hd) d.2.2
      rw [← hd', hpname] at hprogram
      exact absurd hprogram (by decide)
    · exact hp

end database

theorem Build.programPrefix (build : Build) : ProgramPrefix build.propPrefix := by
  cases build
  · exact ⟨⟨"S_".toList, rfl⟩, by decide⟩
  · exact ⟨⟨"T_".toList, rfl⟩, by decide⟩

theorem propertyName_build {build build' : Build} {i j : ℕ}
    (h : propertyName build.propPrefix i = propertyName build'.propPrefix j) :
    build = build' := by
  have hlen : build.propPrefix.length = build'.propPrefix.length := by
    cases build <;> cases build' <;> rfl
  have hsame := (List.append_inj h hlen).1
  cases build <;> cases build' <;> first | rfl | exact absurd hsame (by decide)

section installed

variable (files : Build → List ObjectFile)

def installedDevices : List (Text × Device × ℕ) :=
  builds.flatMap fun build => (numbered (files build)).map fun d => (build.propPrefix, d)

def installedObjects : List ObjectFile := builds.flatMap files

theorem mem_installedDevices {d : Text × Device × ℕ} (h : d ∈ installedDevices files) :
    ∃ build : Build, d.1 = build.propPrefix := by
  obtain ⟨build, -, hd⟩ := List.mem_flatMap.mp h
  obtain ⟨d, -, rfl⟩ := List.mem_map.mp hd
  exact ⟨build, rfl⟩

theorem installedHwdb_eq : installedHwdb files = some (recordsOf (installedDevices files)) := by
  have hbuild (build : Build) :
      (main build.propPrefix ((files build).map inspect)).bind HwdbFile.readHwdb =
        some ((numbered (files build)).map (deviceRecord build.propPrefix)) := by
    obtain ⟨lines, hlines, hrecords⟩ := main_inspect build.programPrefix (files build)
    rw [hlines, Option.bind_some, hrecords]
  rw [installedHwdb, OptionLists.mapM_eq_map fun build _ => hbuild build, Option.map_some,
    recordsOf, installedDevices, List.map_flatMap, List.flatMap_def]
  simp only [List.map_map, Function.comp_def]

theorem installed_names_nodup : ((installedDevices files).map nameOf).Nodup := by
  rw [installedDevices, List.map_flatMap]
  refine List.nodup_flatMap.mpr ⟨fun build _ => ?_, ?_⟩
  · rw [List.map_map]
    exact numbered_names_nodup build.propPrefix (files build)
  · have hbuilds : builds.Pairwise (· ≠ ·) := by decide
    refine hbuilds.imp fun hne => List.disjoint_left.mpr ?_
    intro name hname hname'
    obtain ⟨d, hd, rfl⟩ := List.mem_map.mp hname
    obtain ⟨d', hd', hsame⟩ := List.mem_map.mp hname'
    obtain ⟨device, -, rfl⟩ := List.mem_map.mp hd
    obtain ⟨device', -, rfl⟩ := List.mem_map.mp hd'
    exact hne (propertyName_build hsame).symm

theorem installed_programs {dev : KernelDevice} (hvid : dev.vid.toNat < 16 ^ 4)
    (hpid : dev.pid.toNat < 16 ^ 4) :
    (((installedDevices files).filter fun d =>
      accepts (ofText (globLine d.2.1)) (lookupKey dev)).map fun d => d.2.1.filename).Perm
        (programsOf (installedObjects files) dev) := by
  rw [installedDevices, List.filter_flatMap, List.map_flatMap, installedObjects, programsOf,
    List.flatMap_assoc]
  refine List.Perm.flatMap_left builds fun build _ => ?_
  rw [List.filter_map, List.map_map]
  exact numbered_programs (files build) hvid hpid

end installed

/-- The generated databases, as a lookup sees them: the programs that declare the device under
numbered names, and the mark if there are any. -/
structure Describes (objs : List ObjectFile) (dev : KernelDevice) (found : List Property) :
    Prop where
  values : (programValues found).Perm (programsOf objs dev)
  numbered : ∀ p ∈ found, isProgram p.1 →
    ∃ (build : Build) (i : ℕ), p.1 = propertyName build.propPrefix i
  mark : (".HID_BPF".toList, "1".toList) ∈ found ↔ ∃ obj ∈ objs, Declares obj dev
  nodup : (found.map Prod.fst).Nodup

theorem generated_describes (files : Build → List ObjectFile) (dev : KernelDevice)
    (hvid : dev.vid.toNat < 16 ^ 4) (hpid : dev.pid.toNat < 16 ^ 4) :
    ∃ records, installedHwdb files = some records ∧
      Describes (installedObjects files) dev (HwdbFile.lookup records (lookupKey dev)) := by
  have hbegins : ∀ d ∈ installedDevices files, ProgramPrefix d.1 := by
    intro d hd
    obtain ⟨build, hbuild⟩ := mem_installedDevices files hd
    exact hbuild ▸ build.programPrefix
  have haccepted := installed_programs files hvid hpid
  refine ⟨_, installedHwdb_eq files, ?_, ?_, ?_, HwdbFile.nodup_names_merge _⟩
  · rw [programValues, lookup_programs hbegins (installed_names_nodup files)]
    exact haccepted
  · intro p hp hprogram
    rcases lookup_names (lookupKey dev) hp with ⟨d, hd, hname⟩ | rfl
    · obtain ⟨build, hbuild⟩ := mem_installedDevices files hd
      exact ⟨build, d.2.2, by rw [hname, nameOf, hbuild]⟩
    · exact absurd hprogram (by decide)
  · rw [marked_lookup _ hbegins]
    constructor
    · rintro ⟨d, hd, haccepts⟩
      have hmem := haccepted.mem_iff.mp
        (List.mem_map.mpr ⟨d, List.mem_filter.mpr ⟨hd, haccepts⟩, rfl⟩)
      obtain ⟨obj, hobj, hdeclares, -⟩ := mem_programsOf.mp hmem
      exact ⟨obj, hobj, hdeclares⟩
    · rintro ⟨obj, hobj, hdeclares⟩
      have hmem := haccepted.mem_iff.mpr (mem_programsOf.mpr ⟨obj, hobj, hdeclares, rfl⟩)
      obtain ⟨d, hd, -⟩ := List.mem_map.mp hmem
      exact ⟨d, (List.mem_filter.mp hd).1, (List.mem_filter.mp hd).2⟩

/-- The rules before do not mark the device, nor take the place of a program. Anything else
may be set, a property that names no object file among it. -/
structure Event.Fresh (e : Event) : Prop where
  unmarked : ∀ p ∈ e.properties, p.1 ≠ ".HID_BPF".toList
  no_program : ∀ p ∈ e.properties, isProgram p.1 →
    ¬ suffix <:+ p.2 ∧ ∀ (build : Build) (i : ℕ), p.1 ≠ propertyName build.propPrefix i

def objectValues (properties : List Property) : List Text :=
  (programValues properties).filter fun value => suffix.isSuffixOf value

/-- What udev has stored of the device: no programs yet, or those of an event like this. -/
def StoredLike (dev : HidUdev) (properties : List Property) : Prop :=
  programValues dev.properties = [] ∨
    (objectValues dev.properties).Perm (objectValues properties)

section imports

variable {objs : List ObjectFile} {dev : KernelDevice} {e : Event} {found : List Property}

theorem marked_iff (hfresh : e.Fresh) (h : Describes objs dev found) :
    marked (merge (e.properties ++ found)) = true ↔ ∃ obj ∈ objs, Declares obj dev := by
  have hkept : (merge (e.properties ++ found)).filter (fun p => p.1 = ".HID_BPF".toList) =
      merge (found.filter fun p => p.1 = ".HID_BPF".toList) := by
    have hnone : e.properties.filter (fun p => p.1 = ".HID_BPF".toList) = [] := by
      apply List.filter_eq_nil_iff.mpr
      intro p hp hname
      exact hfresh.unmarked p hp (of_decide_eq_true hname)
    rw [HwdbFile.merge_filter (fun name => name = ".HID_BPF".toList), List.filter_append, hnone,
      List.nil_append]
  have hmem (l : List Property) : (".HID_BPF".toList, "1".toList) ∈ l ↔
      (".HID_BPF".toList, "1".toList) ∈ l.filter fun p => p.1 = ".HID_BPF".toList :=
    ⟨fun h => List.mem_filter.mpr ⟨h, decide_eq_true rfl⟩, List.mem_of_mem_filter⟩
  have hnodup : ((found.filter fun p => p.1 = ".HID_BPF".toList).map Prod.fst).Nodup :=
    h.nodup.sublist (List.filter_sublist.map _)
  rw [marked, decide_eq_true_iff, hmem, hkept, HwdbFile.merge_nodup hnodup, ← hmem, h.mark]

theorem imported_values (hfresh : e.Fresh) (h : Describes objs dev found) :
    (objectValues (merge (e.properties ++ found))).Perm
      ((programsOf objs dev).filter fun value => suffix.isSuffixOf value) := by
  have hapart : ∀ p ∈ e.properties.filter (fun p => isProgram p.1),
      p.1 ∉ (found.filter fun p => isProgram p.1).map Prod.fst := by
    intro p hp hname
    obtain ⟨hp, hprogram⟩ := List.mem_filter.mp hp
    obtain ⟨q, hq, hqp⟩ := List.mem_map.mp hname
    obtain ⟨build, i, hi⟩ := h.numbered q (List.mem_of_mem_filter hq) (List.mem_filter.mp hq).2
    exact (hfresh.no_program p hp hprogram).2 build i (hqp ▸ hi)
  have hbefore : ((merge (e.properties.filter fun p => isProgram p.1)).map Prod.snd).filter
      (fun value => suffix.isSuffixOf value) = [] := by
    apply List.filter_eq_nil_iff.mpr
    intro value hvalue
    obtain ⟨p, hp, rfl⟩ := List.mem_map.mp hvalue
    obtain ⟨hp, hprogram⟩ := List.mem_filter.mp (HwdbFile.merge_subset _ hp)
    rw [List.isSuffixOf_iff_suffix]
    exact (hfresh.no_program p hp hprogram).1
  have hnodup : ((found.filter fun p => isProgram p.1).map Prod.fst).Nodup :=
    h.nodup.sublist (List.filter_sublist.map _)
  rw [objectValues, programValues, HwdbFile.merge_filter isProgram, List.filter_append,
    HwdbFile.merge_append_apart hapart, List.map_append, List.filter_append, hbefore,
    List.nil_append, HwdbFile.merge_nodup hnodup]
  exact h.values.filter _

theorem programValues_exported (properties : List Property) :
    programValues (exported properties) = programValues properties := by
  rw [programValues, exported, List.filter_filter, programValues]
  congr 1
  apply List.filter_congr
  intro p _
  cases hprogram : isProgram p.1 with
  | false => rfl
  | true =>
    obtain ⟨rest, hrest⟩ := List.isPrefixOf_iff_prefix.mp hprogram
    have hhead : p.1.head? = some 'H' := by rw [← hrest]; rfl
    simp [hhead]

end imports

theorem earliest_values (fs : FileSystem) (dirs values : List Text) :
    searchForMatchingObjfiles fs values dirs = values.filterMap (earliest fs dirs) := by
  have hfiles : ∀ path ∈ values.filterMap (findFirstMatchingFile fs dirs), fs.isFile path := by
    intro path hpath
    obtain ⟨value, -, hfound⟩ := List.mem_filterMap.mp hpath
    exact (find_first_spec hfound).1
  rw [searchForMatchingObjfiles, find_named_file _ hfiles]
  clear hfiles
  induction values with
  | nil => rfl
  | cons value values ih =>
    rw [List.filterMap_cons, List.filterMap_cons, earliest]
    cases hfound : findFirstMatchingFile fs dirs value with
    | none =>
      rw [ite_self]
      exact ih
    | some path =>
      have hsuffix := (find_first_spec hfound).2
      by_cases hvalue : suffix <:+ value
      · rw [if_pos hvalue, List.filter_cons_of_pos
          (List.isSuffixOf_iff_suffix.mpr (hsuffix.mpr hvalue)), ih]
      · rw [if_neg hvalue, List.filter_cons_of_neg
          (mt List.isSuffixOf_iff_suffix.mp (mt hsuffix.mp hvalue)), ih]

theorem earliest_objects (fs : FileSystem) (dirs values : List Text) :
    (values.filter fun value => suffix.isSuffixOf value).filterMap (earliest fs dirs) =
      values.filterMap (earliest fs dirs) := by
  rw [List.filterMap_filter]
  apply List.filterMap_congr
  intro value _
  rw [earliest]
  by_cases hvalue : suffix <:+ value
  · rw [if_pos (List.isSuffixOf_iff_suffix.mpr hvalue)]
  · rw [if_neg (mt List.isSuffixOf_iff_suffix.mp hvalue), if_neg hvalue]

section event

variable {E : Type} {w : World E} {objs : List ObjectFile} {dev : KernelDevice} {e : Event}
  {found : List Property} {hid : HidUdev}

/-- Whether they come from the database or from the environment, the files are those that the
device's programs stand in. -/
theorem files_of_event (hfresh : e.Fresh) (h : Describes objs dev found)
    (henv : w.environment = exported (merge (e.properties ++ found)))
    (hstored : StoredLike hid (merge (e.properties ++ found))) (dirs : List Text) :
    (searchForMatchingObjfiles w.files (hidBpfProperties hid w.environment) dirs).Perm
      ((programsOf objs dev).filterMap (earliest w.files dirs)) := by
  have himported := imported_values hfresh h
  rw [earliest_values, ← earliest_objects _ _ (programsOf objs dev)]
  by_cases hempty : programValues hid.properties = []
  · have hvalues : hidBpfProperties hid w.environment =
        objectValues (merge (e.properties ++ found)) := by
      rw [hidBpfProperties, if_neg (not_not.mpr hempty), henv, programValues_exported]
      rfl
    rw [hvalues]
    exact himported.filterMap _
  · have hvalues : hidBpfProperties hid w.environment = programValues hid.properties := by
      rw [hidBpfProperties, if_pos hempty]
    rw [hvalues, ← earliest_objects]
    exact ((hstored.resolve_left hempty).trans himported).filterMap _

/-- The attempts of a run of `add` on a device. A file that is not attempted gives way to a
version above it that loads, and one that is has seen the versions above it fail. -/
structure LoadsMatching (w : World E) (dirs : List Text) (objs : List ObjectFile)
    (dev : KernelDevice) (attempts : List LoadAttempt) : Prop where
  sound : ∀ a ∈ attempts, ∃ obj ∈ objs, Declares obj dev ∧
    (earliest w.files dirs obj.filename).map pathBuf = some a.item
  complete : ∀ obj ∈ objs, Declares obj dev → ∀ path,
    earliest w.files dirs obj.filename = some path → ∃ a ∈ attempts,
      stem w.caseFolding PathBuf.fileName a.item =
        stem w.caseFolding PathBuf.fileName (pathBuf path) ∧
      (a.item = pathBuf path ∨ (loaded a.result = true ∧
        loweredName w.caseFolding PathBuf.fileName (pathBuf path) ≤
          loweredName w.caseFolding PathBuf.fileName a.item))
  once : attempts.Pairwise fun a b => stem w.caseFolding PathBuf.fileName a.item =
    stem w.caseFolding PathBuf.fileName b.item → loaded a.result = false
  order : ∀ pre a post, attempts = pre ++ a :: post → ∀ obj ∈ objs, Declares obj dev → ∀ path,
    earliest w.files dirs obj.filename = some path →
      stem w.caseFolding PathBuf.fileName (pathBuf path) =
        stem w.caseFolding PathBuf.fileName a.item →
      loweredName w.caseFolding PathBuf.fileName a.item <
        loweredName w.caseFolding PathBuf.fileName (pathBuf path) →
      ∃ b ∈ pre, b.item = pathBuf path ∧ loaded b.result = false

theorem loads_matching {dirs paths : List Text}
    (hpaths : paths.Perm ((programsOf objs dev).filterMap (earliest w.files dirs)))
    {attempts : List LoadAttempt} {result : Except ErrorKind Unit}
    (hrun : loadFiles w hid paths = some (attempts, result)) :
    LoadsMatching w dirs objs dev attempts := by
  have hspec := loadBpfFiles_run hrun
  have hmem {obj : ObjectFile} (hobj : obj ∈ objs) (hdeclares : Declares obj dev) {path : Text}
      (hearliest : earliest w.files dirs obj.filename = some path) : pathBuf path ∈ paths.map pathBuf :=
    List.mem_map_of_mem (hpaths.mem_iff.mpr (List.mem_filterMap.mpr
      ⟨obj.filename, mem_programsOf.mpr ⟨obj, hobj, hdeclares, rfl⟩, hearliest⟩))
  refine ⟨?_, fun obj hobj hdeclares path hearliest =>
    load_covers hrun (hmem hobj hdeclares hearliest), hspec.once, ?_⟩
  · intro a ha
    obtain ⟨path, hpath, hitem⟩ := List.mem_map.mp (hspec.item_mem a ha)
    obtain ⟨filename, hname, hearliest⟩ := List.mem_filterMap.mp (hpaths.mem_iff.mp hpath)
    obtain ⟨obj, hobj, hdeclares, rfl⟩ := mem_programsOf.mp hname
    refine ⟨obj, hobj, hdeclares, ?_⟩
    rw [hearliest, Option.map_some, hitem]
  · intro pre a post hsplit obj hobj hdeclares path hearliest hstem habove
    exact load_order hrun hsplit (hmem hobj hdeclares hearliest) hstem habove

theorem cmdAdd_device {defaultBpfDirs : List Text} {syspath : Text}
    (hexists : w.files.exists syspath) (hdev : w.fromSyspath syspath = .ok hid)
    (hdirs : defaultBpfDirs.any w.files.exists) (hignored : isIgnored hid = false) :
    ∃ attempts, cmdAdd w defaultBpfDirs [syspath] [] none = some ([(hid, attempts)], .ok ()) ∧
      ∃ result, loadFiles w hid (searchForMatchingObjfiles w.files
        (hidBpfProperties hid w.environment) defaultBpfDirs) = some (attempts, result) := by
  obtain ⟨attempts, result, hrun⟩ : ∃ attempts result, loadFiles w hid
      (searchForMatchingObjfiles w.files (hidBpfProperties hid w.environment) defaultBpfDirs) =
        some (attempts, result) := by
    rw [loadFiles, loadBpfFiles, sortByStem_eq]
    exact ⟨_, _, rfl⟩
  refine ⟨attempts, ?_, result, hrun⟩
  have hfound : [syspath].find? (fun syspath => !w.files.exists syspath) = none := by
    simp [hexists]
  simp [cmdAdd, hfound, hdirs, addDevices, hdev, addDevice, hignored, hrun]

end event

/-- The rules run `add` for exactly the devices that an installed program declares, and `add`
then attempts files of these programs only: of each program the file in the first directory
that has it, unless a version above it of the same name loads. What is ignored or stored is
decided by the databases alone. -/
theorem add_event_loads_matching (files : Build → List ObjectFile) (dev : KernelDevice)
    (hvid : dev.vid.toNat < 16 ^ 4) (hpid : dev.pid.toNat < 16 ^ 4) :
    ∃ records, installedHwdb files = some records ∧
      ∀ e : Event, e.Fresh →
        (rules records dev e = some .add ↔ e.action = "add".toList ∧ e.subsystem = "hid".toList ∧
          ∃ obj ∈ installedObjects files, Declares obj dev) ∧
        ∀ (E : Type) (w : World E) (hid : HidUdev) (defaultBpfDirs : List Text) (syspath : Text),
          w.environment = exported (importHwdb records dev e) →
          w.files.exists syspath → w.fromSyspath syspath = .ok hid →
          defaultBpfDirs.any w.files.exists → isIgnored hid = false →
          StoredLike hid (importHwdb records dev e) →
          ∃ attempts,
            cmdAdd w defaultBpfDirs [syspath] [] none = some ([(hid, attempts)], .ok ()) ∧
              LoadsMatching w defaultBpfDirs (installedObjects files) dev attempts := by
  obtain ⟨records, hrecords, hdescribes⟩ := generated_describes files dev hvid hpid
  refine ⟨records, hrecords, ?_⟩
  intro e hfresh
  constructor
  · rw [← marked_iff hfresh hdescribes, rules, importHwdb]
    by_cases hadd : e.action = "add".toList
    · have haction : actions.contains e.action := hadd ▸ by decide
      rw [if_neg (not_not.mpr haction), if_pos hadd]
      split_ifs <;> simp_all
    · split_ifs <;> simp_all
  · intro E w hid defaultBpfDirs syspath henv hexists hdev hdirs hignored hstored
    obtain ⟨attempts, hcmd, result, hrun⟩ := cmdAdd_device hexists hdev hdirs hignored
    exact ⟨attempts, hcmd,
      loads_matching (files_of_event hfresh hdescribes henv hstored defaultBpfDirs) hrun⟩

def twoObjects : Build → List ObjectFile
  | .stable => [⟨"0010-a.bpf.o".toList, [⟨.usb, .any, 0, 0⟩]⟩]
  | .testing =>
    [⟨"0020-a.bpf.o".toList, [⟨.usb, .generic, 0x56A, 0x374⟩, ⟨.i2c, .any, 0, 0⟩]⟩]

def ignoredEvent : Event :=
  ⟨"add".toList, "hid".toList, [("HID_BPF_IGNORE_DEVICE".toList, "1".toList)]⟩

def newDevice : HidUdev := ⟨"0003:056A:0374.0001", []⟩

def firmwareWorld (environment : List Property) : World String where
  files _ := some .file
  fromSyspath _ := .ok newDevice
  environment := environment
  caseFolding := asciiCase
  iteration := insertionOrder
  loads _ _ _ := (working, twoOps)

theorem ignoredEvent_fresh : ignoredEvent.Fresh where
  unmarked := by decide
  no_program := by
    intro p hp _
    obtain rfl := List.mem_singleton.mp hp
    refine ⟨by decide, ?_⟩
    intro build i hi
    have hletters := congrArg (List.take 10) hi
    rw [propertyName, List.take_append_of_le_length (by cases build <;> decide)] at hletters
    cases build <;> exact absurd hletters (by decide)

/-- The property is in the environment only, and the device is not ignored. -/
theorem add_event_loads_matching_ignored :
    ∃ records, installedHwdb twoObjects = some records ∧
      rules records ⟨3, 1, 0x56A, 0x374⟩ ignoredEvent = some .add ∧
      ∃ attempts, cmdAdd (firmwareWorld (exported (importHwdb records ⟨3, 1, 0x56A, 0x374⟩
          ignoredEvent))) ["/lib/firmware/hid/bpf".toList] ["/sys/a".toList] [] none =
            some ([(newDevice, attempts)], .ok ()) ∧
        LoadsMatching (firmwareWorld (exported (importHwdb records ⟨3, 1, 0x56A, 0x374⟩
          ignoredEvent))) ["/lib/firmware/hid/bpf".toList] (installedObjects twoObjects)
          ⟨3, 1, 0x56A, 0x374⟩ attempts := by
  obtain ⟨records, hrecords, h⟩ := add_event_loads_matching twoObjects
    ⟨3, 1, 0x56A, 0x374⟩ (by decide) (by decide)
  obtain ⟨hrules, hadd⟩ := h ignoredEvent ignoredEvent_fresh
  have hdeclares : Declares ⟨"0010-a.bpf.o".toList, [⟨.usb, .any, 0, 0⟩]⟩ ⟨3, 1, 0x56A, 0x374⟩ :=
    ⟨_, List.mem_singleton.mpr rfl, by decide⟩
  exact ⟨records, hrecords, hrules.mpr ⟨rfl, rfl, _, List.mem_cons_self, hdeclares⟩,
    hadd String _ newDevice _ _ rfl rfl rfl rfl rfl (.inl rfl)⟩

end UdevEvents
