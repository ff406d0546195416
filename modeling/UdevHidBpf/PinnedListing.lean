import UdevHidBpf.BpffsWorkers
import UdevHidBpf.PropertyOutput

/-! # What `list-loaded` finds

The walk of `list-loaded --format udev` over what the loads and removals of all devices have
left in bpffs. -/
namespace PinnedListing

open BpffsNames BpffsPaths BpffsWorkers FallibleLoops Interleavings ListLoaded LoadBpfFiles
open LoadPrograms PinPaths PropertyOutput StemSorting
open UdevProperties (decodeValue mapName)

def entryPath (p : Pin) : Path String :=
  (components p.dir).drop (components bpffsRoot).length ++ [p.name]

variable {E : Type}

def names (fs : FileSystem E String) (path : Path String) : List String :=
  match fs.readDir path with
  | .ok entries => entries.filterMap Except.toOption
  | .error _ => []

/-- The files of bpffs are the pins. A directory may be empty. -/
structure Mounted (fs : FileSystem E String) (pins : List Pin) : Prop where
  lossy : fs.toStringLossy = id
  root : fs.pathExists bpffsRoot = true
  top : fs.isDir [] = true
  file : ∀ p ∈ pins, fs.isDir (entryPath p) = false
  above : ∀ p ∈ pins, ∀ path, path <+: entryPath p → path ≠ entryPath p → fs.isDir path = true
  readDir : ∀ path, fs.isDir path = true → fs.readDir path = .ok ((names fs path).map .ok)
  mem_names : ∀ path, fs.isDir path = true → ∀ name, name ∈ names fs path ↔
    fs.isDir (path ++ [name]) = true ∨ ∃ p ∈ pins, entryPath p = path ++ [name]

section walk

variable (fs : FileSystem E String)

def valueAt (path : Path String) : Option String :=
  (fs.fromPinnedPath path).toOption.bind fun map => (readUdevPropertyMap fs map).toOption.join

def propertyAt (path : Path String) (name : String) : Option (String × String) :=
  (stripPrefix "UDEV_PROP_" name).bind fun key => (valueAt fs path).map (key, ·)

def shownEntry (object : Path String) (name : String) : Properties :=
  if fs.isDir (object ++ [name]) then [] else (propertyAt fs (object ++ [name]) name).toList

def shownObject (device : Path String) (name : String) : Properties :=
  if fs.isDir (device ++ [name]) then
    (names fs (device ++ [name])).flatMap (shownEntry fs (device ++ [name]))
  else []

def shownDevice (device name : String) : Properties :=
  if fs.isDir [name] ∧ name = device then (names fs [name]).flatMap (shownObject fs [name])
  else []

variable {fs} {pins : List Pin}

theorem collectEntry_shown (h : Mounted fs pins) (object : Path String) (props : Properties)
    (name : String) :
    collectEntry fs object props (.ok name) = .ok (props ++ shownEntry fs object name) := by
  rw [shownEntry, propertyAt, valueAt]
  simp only [collectEntry, ok_bind, h.lossy, id]
  by_cases hdir : fs.isDir (object ++ [name])
  · rw [if_pos hdir, if_pos hdir, List.append_nil]
    rfl
  rw [if_neg hdir, if_neg hdir]
  cases stripPrefix "UDEV_PROP_" name with
  | none => simp [pure, Except.pure]
  | some key =>
    cases fs.fromPinnedPath (object ++ [name]) with
    | error e => simp [Except.toOption, pure, Except.pure]
    | ok map =>
      cases hvalue : (readUdevPropertyMap fs map).toOption.join <;>
        simp [Except.toOption, pure, Except.pure] <;> simp_all [Except.toOption]

theorem collectObject_shown (h : Mounted fs pins) (device : Path String) (props : Properties)
    (name : String) :
    collectObject fs device props (.ok name) = .ok (props ++ shownObject fs device name) := by
  simp only [collectObject, ok_bind]
  by_cases hdir : fs.isDir (device ++ [name])
  · rw [if_pos hdir, h.readDir _ hdir, ok_bind, shownObject, if_pos hdir]
    exact foldlM_append (collectEntry_shown h (device ++ [name])) _ props
  · rw [if_neg hdir, shownObject, if_neg hdir, List.append_nil]
    rfl

theorem collectDevice_shown (h : Mounted fs pins) (device : String) (props : Properties)
    (name : String) :
    collectDevice fs [] (some device) props (.ok name) =
      .ok (props ++ shownDevice fs device name) := by
  simp only [collectDevice, ok_bind, List.nil_append, h.lossy, id, Option.all_some,
    decide_eq_true_eq]
  by_cases hdir : fs.isDir [name] ∧ name = device
  · rw [if_pos hdir, h.readDir _ hdir.1, ok_bind, shownDevice, if_pos hdir]
    exact foldlM_append (collectObject_shown h [name]) _ props
  · rw [if_neg hdir, shownDevice, if_neg hdir, List.append_nil]
    rfl

theorem collectUdevProperties_shown (h : Mounted fs pins) (device : String) :
    collectUdevProperties fs [] (some device) =
      .ok ((names fs []).flatMap (shownDevice fs device)) := by
  rw [collectUdevProperties, h.readDir [] h.top, ok_bind]
  exact foldlM_append (collectDevice_shown h device) _ []

theorem mem_ite_nil {α : Type} {c : Prop} [Decidable c] {a : α} {l : List α} :
    (a ∈ if c then l else []) ↔ c ∧ a ∈ l := by
  split_ifs with hc <;> simp [hc]

theorem mem_nil_ite {α : Type} {c : Prop} [Decidable c] {a : α} {l : List α} :
    (a ∈ if c then [] else l) ↔ ¬ c ∧ a ∈ l := by
  split_ifs with hc <;> simp [hc]

/-- What the walk shows of a device are its readable properties three levels down. -/
theorem mem_shown (h : Mounted fs pins) {device : String} {prop : String × String} :
    prop ∈ (names fs []).flatMap (shownDevice fs device) ↔ ∃ p ∈ pins, ∃ object,
      entryPath p = [device, object, p.name] ∧ propertyAt fs (entryPath p) p.name = some prop := by
  constructor
  · intro hprop
    obtain ⟨dev, hdev, hshown⟩ := List.mem_flatMap.mp hprop
    obtain ⟨⟨hdir, rfl⟩, hobjects⟩ := mem_ite_nil.mp hshown
    obtain ⟨object, hobject, hshown⟩ := List.mem_flatMap.mp hobjects
    obtain ⟨ho, hentries⟩ := mem_ite_nil.mp hshown
    obtain ⟨name, hname, hshown⟩ := List.mem_flatMap.mp hentries
    obtain ⟨hn, hentry⟩ := mem_nil_ite.mp hshown
    rcases (h.mem_names _ ho name).mp hname with hdir' | ⟨p, hp, hpath⟩
    · exact absurd hdir' hn
    · have hpname : p.name = name := by
        have hlast := congrArg List.getLast? hpath
        simpa [entryPath] using hlast
      subst hpname
      rw [← hpath, Option.mem_toList] at hentry
      exact ⟨p, hp, object, hpath, hentry⟩
  · rintro ⟨p, hp, object, hpath, hprop⟩
    have hdevice : fs.isDir [device] = true :=
      h.above p hp _ (hpath ▸ ⟨[object, p.name], rfl⟩) (by simp [hpath])
    have hobject : fs.isDir [device, object] = true :=
      h.above p hp _ (hpath ▸ ⟨[p.name], rfl⟩) (by simp [hpath])
    refine List.mem_flatMap.mpr ⟨device, (h.mem_names [] h.top device).mpr (.inl hdevice), ?_⟩
    refine mem_ite_nil.mpr ⟨⟨hdevice, rfl⟩, ?_⟩
    refine List.mem_flatMap.mpr ⟨object, (h.mem_names _ hdevice object).mpr (.inl hobject), ?_⟩
    refine mem_ite_nil.mpr ⟨hobject, ?_⟩
    refine List.mem_flatMap.mpr ⟨p.name, (h.mem_names _ hobject p.name).mpr
      (.inr ⟨p, hp, hpath⟩), ?_⟩
    have hfile := h.file p hp
    rw [hpath] at hfile hprop
    exact mem_nil_ite.mpr ⟨ne_true_of_eq_false hfile, Option.mem_toList.mpr hprop⟩

end walk

section placed

variable {d e : String} {p : Pin}

def Placed (d : String) (p : Pin) : Prop :=
  ∃ object, components p.dir = components bpffsRoot ++ [sysnameToBpffs d, object]

theorem Placed.entryPath (h : Placed d p) :
    ∃ object, entryPath p = [sysnameToBpffs d, object, p.name] := by
  obtain ⟨object, hobject⟩ := h
  refine ⟨object, ?_⟩
  rw [PinnedListing.entryPath, hobject, List.drop_left]
  rfl

theorem Placed.below_iff (h : Placed e p) (he : KernelSysname e) (hd : KernelSysname d) :
    Below d p ↔ e = d := by
  obtain ⟨object, hobject⟩ := h
  rw [Below, components_removedDir, hd.components, hobject, List.prefix_append_right_inj]
  constructor
  · intro hprefix
    exact (hd.injective he (List.cons_prefix_cons.mp hprefix).1).symm
  · rintro rfl
    exact ⟨[object], rfl⟩

theorem components_object {path : PathBuf} (h : IsObjfile path.fileName)
    (hslash : '/' ∉ path.fileName.toList) :
    components (replaceSeparators (fileStem path.fileName)) =
      [replaceSeparators (fileStem path.fileName)] := by
  obtain ⟨front, hfront⟩ := h
  have hlist : (replaceSeparators (fileStem path.fileName)).toList =
      (front ++ ".bpf".toList).map underscore := by
    rw [toList_replaceSeparators, toList_fileStem hfront.symm]
  have hp : 'p' ∈ (replaceSeparators (fileStem path.fileName)).toList := by
    rw [hlist, List.map_append]
    exact List.mem_append_right _ (by decide)
  apply components_name
  · intro hempty
    simp [hempty] at hp
  · intro hdot
    simp [hdot] at hp
  · rw [hlist]
    intro hmem
    obtain ⟨c, hc, hunder⟩ := List.mem_map.mp hmem
    have hc' : c = '/' := by
      rw [underscore] at hunder
      split at hunder
      · exact absurd hunder (by decide)
      · exact hunder
    subst hc'
    rcases List.mem_append.mp hc with hc | hc
    · exact hslash (hfront ▸ List.mem_append_left _ hc)
    · exact absurd hc (by decide)

theorem placed_of_dir {path : PathBuf} (hd : KernelSysname d) (h : IsObjfile path.fileName)
    (hslash : '/' ∉ path.fileName.toList) (hdir : p.dir = bpffsDir d path) : Placed d p := by
  refine ⟨replaceSeparators (fileStem path.fileName), ?_⟩
  rw [hdir, bpffsDir, components_getBpffsPath, hd.components, components_object h hslash,
    List.append_assoc]
  rfl

end placed

section output

variable {env : Env} {object : Object} {d : String} {path : PathBuf}

theorem readUdevPropertyMaps_mem {maps : List BpfMap} {pms : List UdevProperties.UdevPropertyMap}
    {props : Properties} (h : readUdevPropertyMaps env maps pms = .ok props) {q : String × String}
    (hq : q ∈ props) : ∃ m ∈ maps, m.name = mapName q.1 ∧
      (env.lookup m).map (fun data => data.bind decodeValue) = .ok (some q.2) := by
  induction pms generalizing props with
  | nil =>
    cases h
    cases hq
  | cons pm pms ih =>
    rw [readUdevPropertyMaps] at h
    split at h
    · exact ih h hq
    · rename_i m hfind
      split at h
      · cases h
      · rename_i data hlookup
        split at h
        · exact ih h hq
        · rename_i value hvalue
          cases hrest : readUdevPropertyMaps env maps pms with
          | error e =>
            rw [hrest] at h
            cases h
          | ok rest =>
            rw [hrest] at h
            cases h
            rcases List.mem_cons.mp hq with rfl | hq
            · refine ⟨m, List.mem_of_find?_eq_some hfind, ?_, ?_⟩
              · have hname := List.find?_some hfind
                exact of_decide_eq_true hname
              · rw [hlookup, Except.map, hvalue]
            · exact ih hrest hq

theorem pinMaps_all {dir : String} {ms : List BpfMap}
    (h : (pinMaps env dir path ms).2 = .ok ()) {m : BpfMap} (hm : m ∈ ms) :
    .pin ⟨dir, m.name, .map, path⟩ ∈ (pinMaps env dir path ms).1 := by
  induction ms with
  | nil => cases hm
  | cons m' ms ih =>
    rw [pinMaps] at h ⊢
    split at h
    · cases h
    · rcases List.mem_cons.mp hm with rfl | hm
      · exact List.mem_cons_self
      · exact List.mem_cons_of_mem _ (ih h hm)

theorem printed_stages {line : String} (h : line ∈ (loadPrograms env object d path).output) :
    ∃ props, (pinMaps env (bpffsDir d path) path (ordinaryMaps object)).2 = .ok () ∧
      readUdevPropertyMaps env object.maps object.propertyMaps = .ok props ∧
      loadPrograms env object d path =
        ⟨pinOps env object d path, props.map fun p => p.1 ++ "=" ++ p.2, .ok ()⟩ := by
  unfold loadPrograms at h ⊢
  dsimp only at h ⊢
  cases hprep : prepare env object (fileStem path.fileName) with
  | error e => simp [hprep] at h
  | ok =>
    cases hattach : (attachAndPin env (bpffsDir d path) path object (getBpfLoader object)).2 with
    | error e => simp [hprep, hattach] at h
    | ok =>
      cases hpin : (pinMaps env (bpffsDir d path) path (ordinaryMaps object)).2 with
      | error e => simp [hprep, hattach, hpin] at h
      | ok =>
        cases hread : readUdevPropertyMaps env object.maps object.propertyMaps with
        | error e => simp [hprep, hattach, hpin, hread] at h
        | ok props => exact ⟨props, rfl, rfl, rfl⟩

theorem printed_line {line : String} (h : line ∈ (loadPrograms env object d path).output) :
    loaded (loadPrograms env object d path) = true ∧
      (∃ m ∈ object.maps, ∃ key value, m.name = mapName key ∧ line = key ++ "=" ++ value ∧
        (env.lookup m).map (fun data => data.bind decodeValue) = .ok (some value)) ∧
      ∀ m ∈ ordinaryMaps object, .pin ⟨bpffsDir d path, m.name, .map, path⟩ ∈
        (loadPrograms env object d path).ops := by
  obtain ⟨props, hpin, hread, heq⟩ := printed_stages h
  rw [heq] at h ⊢
  obtain ⟨q, hq, rfl⟩ := List.mem_map.mp h
  obtain ⟨m, hm, hname, hvalue⟩ := readUdevPropertyMaps_mem hread hq
  refine ⟨rfl, ⟨m, hm, q.1, q.2, hname, rfl, hvalue⟩, ?_⟩
  intro m hm
  exact List.mem_append_right _ (pinMaps_all hpin hm)

end output

def FileNames (jobs : String → List Job) : Prop :=
  ∀ d attempts, .add attempts ∈ jobs d → ∀ a ∈ attempts, '/' ∉ a.item.fileName.toList

/-- The path of the event leads to the device, or ends in its name. -/
def Names (fromSyspath : String → Option String) (syspath d : String) : Prop :=
  fromSyspath syspath = some d ∨ fromSyspath syspath = none ∧ lastName syspath = some d

def pinLine {E : Type} (fs : FileSystem E String) (p : Pin) : Option String :=
  (propertyAt fs (entryPath p) p.name).map fun q => q.1 ++ "=" ++ q.2

def KeepsMaps {E : Type} (fs : FileSystem E String) (d : String) (path : PathBuf) (env : Env)
    (object : Object) : Prop :=
  ∀ m ∈ ordinaryMaps object, ∃ map,
    fs.fromPinnedPath (entryPath ⟨bpffsDir d path, m.name, .map, path⟩) = .ok map ∧
      fs.lookup map = env.lookup m

/-- Property maps are array maps with the name of a C variable. -/
def PropertiesOrdinary (object : Object) : Prop :=
  ∀ m ∈ object.maps, startsWith m.name "UDEV_PROP_" = true → m ∈ ordinaryMaps object

section listing

variable {E : Type} {fs : FileSystem E String} {jobs : String → List Job}
variable {trace : List (String × BpffsOp)} {d : String}

theorem stripPrefix_mapName (key : String) :
    stripPrefix "UDEV_PROP_" (mapName key) = some key := by
  have hprefix : "UDEV_PROP_".toList.isPrefixOf (mapName key).toList = true := by
    rw [mapName, String.toList_append]
    exact List.isPrefixOf_iff_prefix.mpr (List.prefix_append _ _)
  rw [stripPrefix, if_pos hprefix, mapName, String.toList_append, ← String.length_toList,
    List.drop_left, String.ofList_toList]

theorem filterBpffsName_of_names {fromSyspath : String → Option String} {syspath : String}
    (h : Names fromSyspath syspath d) : filterBpffsName fromSyspath syspath = sysnameToBpffs d := by
  rw [filterBpffsName]
  rcases h with h | ⟨h, hlast⟩
  · rw [h]
  · rw [h, hlast]
    rfl

/-- Every pin is where a load of its device puts it. -/
theorem placed_of_moment (h : Moment jobs trace) (hnames : FileNames jobs) {p : Pin}
    (hp : p ∈ bpffs trace) : ∃ e, KernelSysname e ∧ Placed e p ∧
      ∃ attempts, .add attempts ∈ jobs e ∧ ∃ a ∈ attempts, .pin p ∈ a.result.ops := by
  obtain ⟨e, he, attempts, hadd, a, ha, hpin, -, hdir⟩ := h.origin hp
  obtain ⟨cf, it, world, paths, result, hrun, hobjfile⟩ := h.runs e _ hadd
  have hitem := (loadBpfFiles_run hrun).item_mem a ha
  exact ⟨e, he, placed_of_dir he (hobjfile _ hitem) (hnames e attempts hadd a ha) hdir,
    attempts, hadd, a, ha, hpin⟩

theorem mem_lines (h : Moment jobs trace) (hnames : FileNames jobs)
    (hfs : Mounted fs (bpffs trace)) (hd : KernelSysname d) {line : String} :
    line ∈ formatProperties ((names fs []).flatMap (shownDevice fs (sysnameToBpffs d))) ↔
      ∃ p ∈ bpffs trace, Below d p ∧ pinLine fs p = some line := by
  rw [formatProperties, List.mem_map]
  constructor
  · rintro ⟨prop, hprop, rfl⟩
    obtain ⟨p, hp, object, hpath, hprop⟩ := (mem_shown hfs).mp hprop
    obtain ⟨e, he, hplaced, -⟩ := placed_of_moment h hnames hp
    obtain ⟨object', hpath'⟩ := hplaced.entryPath
    have hname : sysnameToBpffs d = sysnameToBpffs e :=
      (List.cons_eq_cons.mp (hpath.symm.trans hpath')).1
    have hbelow := (hplaced.below_iff he hd).mpr (he.injective hd hname.symm)
    exact ⟨p, hp, hbelow, by rw [pinLine, hprop]; rfl⟩
  · rintro ⟨p, hp, hbelow, hline⟩
    obtain ⟨prop, hprop, rfl⟩ := Option.map_eq_some_iff.mp hline
    obtain ⟨e, he, hplaced, -⟩ := placed_of_moment h hnames hp
    obtain rfl := (hplaced.below_iff he hd).mp hbelow
    obtain ⟨object, hpath⟩ := hplaced.entryPath
    exact ⟨prop, (mem_shown hfs).mpr ⟨p, hp, object, hpath, hprop⟩, rfl⟩

theorem pinLine_printed {env : Env} {object : Object} {path : PathBuf}
    (hordinary : PropertiesOrdinary object) (hkeeps : KeepsMaps fs d path env object)
    {line : String} (h : line ∈ (loadPrograms env object d path).output) :
    ∃ p, .pin p ∈ (loadPrograms env object d path).ops ∧ p.dir = bpffsDir d path ∧
      pinLine fs p = some line := by
  obtain ⟨-, ⟨m, hm, key, value, hname, rfl, hvalue⟩, hpins⟩ := printed_line h
  have hstrip := stripPrefix_mapName key
  rw [← hname] at hstrip
  have hstarts : startsWith m.name "UDEV_PROP_" = true := by
    rw [← isSome_stripPrefix, hstrip]
    rfl
  have hmem := hordinary m hm hstarts
  obtain ⟨map, hopen, hlookup⟩ := hkeeps m hmem
  refine ⟨_, hpins m hmem, rfl, ?_⟩
  have hread : readUdevPropertyMap fs map = .ok (some value) := by
    rw [readUdevPropertyMap, hlookup]
    exact hvalue
  rw [pinLine, propertyAt, hstrip, Option.bind_some, valueAt, hopen]
  simp only [Except.toOption, Option.bind_some, hread, Option.join_some, Option.map_some]

end listing

/-- At any moment the listing of a device shows the readable properties pinned below it, all
of them pinned by its own loads: nothing after a removal that does not fail, and what the loads
of its last event have printed so far if no two of its files have names that meet, whatever the
other devices do meanwhile. -/
theorem listing_follows_events {E : Type} (jobs : String → List Job)
    (trace : List (String × BpffsOp)) (h : Moment jobs trace) (hnames : FileNames jobs)
    (fs : FileSystem E String) (hfs : Mounted fs (bpffs trace))
    (fromSyspath : String → Option String) (syspath d : String) (hd : KernelSysname d)
    (hsyspath : Names fromSyspath syspath d) :
    ∃ lines, cmdListLoaded fs fromSyspath (some syspath) "udev" = .ok (.udev lines) ∧
      (∀ line, line ∈ lines ↔ ∃ p ∈ bpffs trace, Below d p ∧ pinLine fs p = some line) ∧
      (∀ line ∈ lines, ∃ attempts, .add attempts ∈ jobs d ∧ ∃ a ∈ attempts, ∃ p,
        .pin p ∈ a.result.ops ∧ pinLine fs p = some line) ∧
      (∀ before, projection d trace = before ++ [.removeObjects d []] → lines = []) ∧
      ∀ cf it world paths pre attempts result moment,
        loadBpfFiles cf it (loadOnDevice world d) paths = some (attempts, result) →
        (∀ p ∈ paths, IsObjfile p.fileName) → Apart paths →
        jobs d = pre ++ [.add attempts] →
        projection d trace = jobOps d pre ++ moment.map .load →
        ∀ before b rest, attempts = before ++ b :: rest → effects (before ++ [b]) <+: moment →
          PropertiesOrdinary (world before b.item).2 →
          KeepsMaps fs d b.item (world before b.item).1 (world before b.item).2 →
          ∀ line ∈ b.result.output, line ∈ lines := by
  have hlines := @mem_lines E fs jobs trace d h hnames hfs hd
  refine ⟨formatProperties ((names fs []).flatMap (shownDevice fs (sysnameToBpffs d))), ?_,
    fun _ => hlines, ?_, ?_, ?_⟩
  · have hudev : ¬ ("udev" ≠ "json" ∧ "udev" ≠ "udev") := by decide
    have hroot : ¬ fs.pathExists bpffsRoot = false := by
      rw [hfs.root]
      exact Bool.noConfusion
    rw [cmdListLoaded, if_neg hudev, if_neg hroot]
    simp only [Option.map_some, filterBpffsName_of_names hsyspath, if_true]
    rw [collectUdevProperties_shown hfs]
  · intro line hline
    obtain ⟨p, hp, hbelow, hpin⟩ := hlines.mp hline
    obtain ⟨e, he, hplaced, attempts, hadd, a, ha, hmem⟩ := placed_of_moment h hnames hp
    obtain rfl := (hplaced.below_iff he hd).mp hbelow
    exact ⟨attempts, hadd, a, ha, p, hmem, hpin⟩
  · intro before hsplit
    apply List.eq_nil_iff_forall_not_mem.mpr
    intro line hline
    obtain ⟨p, hp, hbelow, -⟩ := hlines.mp hline
    exact (h.removed hd hsplit hp hbelow).elim List.not_mem_nil List.not_mem_nil
  · intro cf it world paths pre attempts result moment hload hobj hapart hjobs hmoment before b
      rest hsplit hfrom hordinary hkeeps line hline
    have hresult := (loadBpfFiles_run hload).result before b rest hsplit
    rw [hresult] at hline
    obtain ⟨p, hpin, hdir, hshown⟩ := pinLine_printed hordinary hkeeps hline
    have hok : loaded b.result = true := by
      rw [hresult]
      exact (printed_line hline).1
    have hmem : .pin p ∈ b.result.ops := by
      rw [hresult]
      exact hpin
    have hkept := h.kept hd hjobs hmoment hload hobj hapart hsplit hok hfrom hmem
    exact hlines.mpr ⟨p, hkept, below_bpffsDir hdir, hshown⟩

def mouseAttempts : List LoadAttempt :=
  [⟨newer, loadPrograms (holding oneLine) exporting sysname newer⟩]

def mouseComes (d : String) : List Job :=
  if d = sysname then [.add mouseAttempts] else if d = gone then [.remove []] else []

def mouseTrace : List (String × BpffsOp) :=
  (gone, .removeObjects gone []) ::
    (loadPrograms (holding oneLine) exporting sysname newer).ops.map (sysname, .load ·)

theorem mouseAttempts_run : loadBpfFiles asciiCase insertionOrder
    (loadOnDevice (fun _ _ => (holding oneLine, exporting)) sysname) [newer] =
      some (mouseAttempts, .ok ()) := by
  have hsorted : sortByStem asciiCase PathBuf.fileName insertionOrder [newer] = some [[newer]] := by
    decide +kernel
  rw [loadBpfFiles, hsorted]
  rfl

theorem newer_objfile : ∀ p ∈ [newer], IsObjfile p.fileName := by
  intro p hp
  obtain rfl := List.mem_singleton.mp hp
  exact ⟨"0020-foo".toList, rfl⟩

theorem mouse_moment : Moment mouseComes mouseTrace where
  runs := by
    intro d j hj
    rw [mouseComes] at hj
    split_ifs at hj with hd hd
    · obtain rfl := List.mem_singleton.mp hj
      subst hd
      exact ⟨_, _, _, _, _, mouseAttempts_run, newer_objfile⟩
    · obtain rfl := List.mem_singleton.mp hj
      trivial
    · cases hj
  kernel := by
    intro d hd
    rw [mouseComes] at hd
    split_ifs at hd with h h
    · exact comes_and_goes_moment.kernel d (h ▸ by decide)
    · exact comes_and_goes_moment.kernel d (h ▸ by decide)
    · exact absurd rfl hd
  done := by
    intro d
    by_cases hd : d = sysname
    · subst hd
      decide +kernel
    by_cases hg : d = gone
    · subst hg
      decide +kernel
    · have hnone : projection d mouseTrace = [] := by
        apply List.map_eq_nil_iff.mpr
        apply List.filter_eq_nil_iff.mpr
        intro x hx hxd
        have hname : ∀ x ∈ mouseTrace, x.1 = sysname ∨ x.1 = gone := by decide +kernel
        rcases hname x hx with h | h
        · exact hd ((of_decide_eq_true hxd).symm.trans h)
        · exact hg ((of_decide_eq_true hxd).symm.trans h)
      rw [hnone]
      exact List.nil_prefix

def mouseDir : List (Path String) :=
  [[], ["0003_046D_C52B_0001"], ["0003_046D_C52B_0001", "0020-foo_bpf"]]

def mouseMounted : FileSystem String String where
  readDir path :=
    if path = [] then .ok [.ok "0003_046D_C52B_0001"]
    else if path = ["0003_046D_C52B_0001"] then .ok [.ok "0020-foo_bpf"]
    else .ok [.ok "mouse", .ok "UDEV_PROP_DPI"]
  isDir path := path ∈ mouseDir
  toStringLossy := id
  getStructOpsMapId _ := none
  structOpsCallbacks _ := []
  fromPinnedPath path :=
    if path.getLast? = some "UDEV_PROP_DPI" then .ok ⟨5⟩ else .error (.osError 22)
  lookup _ := .ok (some oneLine)
  pathExists _ := true

theorem mouse_pins : (bpffs mouseTrace).map entryPath =
    [["0003_046D_C52B_0001", "0020-foo_bpf", "mouse"],
      ["0003_046D_C52B_0001", "0020-foo_bpf", "UDEV_PROP_DPI"]] := by decide +kernel

theorem mouse_mounted : Mounted mouseMounted (bpffs mouseTrace) := by
  have hpath {p : Pin} (hp : p ∈ bpffs mouseTrace) :
      entryPath p = ["0003_046D_C52B_0001", "0020-foo_bpf", "mouse"] ∨
        entryPath p = ["0003_046D_C52B_0001", "0020-foo_bpf", "UDEV_PROP_DPI"] := by
    have hmem := List.mem_map_of_mem hp (f := entryPath)
    rw [mouse_pins] at hmem
    exact List.mem_pair.mp hmem
  have hpin (path : Path String) : (∃ p ∈ bpffs mouseTrace, entryPath p = path) ↔
      path = ["0003_046D_C52B_0001", "0020-foo_bpf", "mouse"] ∨
        path = ["0003_046D_C52B_0001", "0020-foo_bpf", "UDEV_PROP_DPI"] := by
    rw [← List.mem_map, mouse_pins, List.mem_pair]
  refine ⟨rfl, rfl, rfl, ?_, ?_, ?_, ?_⟩
  · intro p hp
    rcases hpath hp with h | h <;> rw [h] <;> decide
  · intro p hp path hprefix hne
    rcases hpath hp with h | h <;>
    · rw [h] at hprefix hne
      simp only [List.prefix_cons_iff, List.prefix_nil] at hprefix
      rcases hprefix with rfl | ⟨t, rfl, rfl | ⟨u, rfl, rfl | ⟨v, rfl, rfl⟩⟩⟩
      · rfl
      · rfl
      · rfl
      · exact absurd rfl hne
  · intro path hdir
    have hmem : path ∈ mouseDir := of_decide_eq_true hdir
    simp only [mouseDir, List.mem_cons, List.not_mem_nil, or_false] at hmem
    rcases hmem with rfl | rfl | rfl <;> rfl
  · intro path hdir name
    have hmem : path ∈ mouseDir := of_decide_eq_true hdir
    simp only [mouseDir, List.mem_cons, List.not_mem_nil, or_false] at hmem
    rw [hpin]
    rcases hmem with rfl | rfl | rfl <;>
      simp [names, mouseMounted, mouseDir, Except.toOption, or_comm]

theorem listing_follows_events_mouse :
    ∃ lines, cmdListLoaded mouseMounted (fun _ => none) (some sysname) "udev" =
      .ok (.udev lines) ∧ "DPI=1" ∈ lines := by
  have hnames : FileNames mouseComes := by
    intro d attempts hadd a ha
    rw [mouseComes] at hadd
    split_ifs at hadd
    · cases List.mem_singleton.mp hadd
      obtain rfl := List.mem_singleton.mp ha
      decide
    · cases List.mem_singleton.mp hadd
    · cases hadd
  have hkernel : KernelSysname sysname := mouse_moment.kernel sysname (by decide)
  obtain ⟨lines, hlist, -, -, -, hprinted⟩ := listing_follows_events mouseComes mouseTrace
    mouse_moment hnames mouseMounted mouse_mounted (fun _ => none) sysname sysname hkernel
    (.inr ⟨rfl, by decide +kernel⟩)
  refine ⟨lines, hlist, ?_⟩
  have hapart : Apart [newer] := by
    intro p hp q hq hne
    rw [List.mem_singleton.mp hp, List.mem_singleton.mp hq] at hne
    exact absurd rfl hne
  apply hprinted asciiCase insertionOrder _ _ [] mouseAttempts _ (effects mouseAttempts)
    mouseAttempts_run newer_objfile hapart rfl (by decide +kernel) [] _ [] rfl
    (List.prefix_refl _)
  · intro m hm _
    revert m
    decide
  · intro m hm
    obtain rfl : m = ⟨5, "UDEV_PROP_DPI", .other⟩ := by
      revert m
      decide
    have hopen {path : Path String} (h : path.getLast? = some "UDEV_PROP_DPI") :
        mouseMounted.fromPinnedPath path = .ok ⟨5⟩ := if_pos h
    exact ⟨⟨5⟩, hopen (by decide +kernel), rfl⟩
  · decide

end PinnedListing
