import UdevHidBpf.BpfErrors
import UdevHidBpf.BpffsPaths
import UdevHidBpf.UdevProperties

/-! # `HidBPF::load_programs`

One call loads one object on one device. What libbpf and the kernel answer is an `Env`;
the effects on bpffs are recorded as the list of operations in the order they happen,
so that every moment of a call is a prefix of that list. -/
namespace LoadPrograms

open BpfErrors BpffsPaths UdevProperties

/-- A path that has a file name. -/
structure PathBuf where
  parent : String
  fileName : String
  deriving DecidableEq, Repr

/-- An `anyhow` error: the contexts, outermost first, and what failed. `none` is an I/O
error that is no `BpfError`. -/
structure Error where
  context : List String
  cause : Option BpfError
  deriving DecidableEq, Repr

inductive MapType where
  | structOps
  | other
  deriving DecidableEq, Repr

structure BpfMap where
  fd : ℕ
  name : String
  mapType : MapType
  deriving DecidableEq, Repr

inductive ProgType where
  | tracing
  | other
  deriving DecidableEq, Repr

structure BpfProg where
  fd : ℕ
  name : String
  progType : ProgType
  section_ : String
  deriving DecidableEq, Repr

/-- An opened object file with the property maps its BTF announces. -/
structure Object where
  progs : List BpfProg
  maps : List BpfMap
  propertyMaps : List UdevPropertyMap
  deriving DecidableEq, Repr

/-- What the system answers to each step of one call. Any combination is possible. -/
structure Env where
  readReportDescriptor : Except (Option BpfError) Unit
  openFile : Except BpfError Unit
  traceSupported : Bool
  loadObject : Except ErrorKind Unit
  fromBpfObject : Except BpfError Unit
  injectUdevProperties : Except BpfError Unit
  injectReportDescriptor : Except BpfError Unit
  probe : Except BpfError Unit
  attachProg : BpfProg → Except (Option BpfError) Unit
  pinProg : BpfProg → Except BpfError Unit
  attachStructOps : BpfMap → Except BpfError Unit
  pinLink : BpfMap → Except BpfError Unit
  pinMap : BpfMap → Except BpfError Unit
  lookup : BpfMap → Except BpfError (Option Bytes)

inductive PinKind where
  | link
  | map
  deriving DecidableEq, Repr

/-- An entry of bpffs, with the object file whose load made it. -/
structure Pin where
  dir : String
  name : String
  kind : PinKind
  object : PathBuf
  deriving DecidableEq, Repr

inductive FsOp where
  | createDirAll (dir : String)
  | pin (p : Pin)
  | removeDirAll (dir : String)
  deriving DecidableEq, Repr

def applyOp (fs : List Pin) : FsOp → List Pin
  | .createDirAll _ => fs
  | .pin p => fs ++ [p]
  | .removeDirAll dir => fs.filter fun p => p.dir ≠ dir

def replay (fs : List Pin) (ops : List FsOp) : List Pin := ops.foldl applyOp fs

structure Outcome where
  ops : List FsOp
  output : List String
  result : Except Error Unit

def succeeded {ε α : Type} : Except ε α → Bool
  | .ok _ => true
  | .error _ => false

inductive Loader where
  | trace
  | structOps
  deriving DecidableEq, Repr

def getBpfLoader (object : Object) : Loader :=
  if object.progs.any fun p =>
      p.progType = .tracing ∧ "fmodret/hid_".toList.isPrefixOf p.section_.toList then .trace
  else .structOps

def context {ε α : Type} (c : String) (cause : ε → Option BpfError) : Except ε α → Except Error α
  | .ok a => .ok a
  | .error e => .error ⟨[c], cause e⟩

def noContext {α : Type} : Except BpfError α → Except Error α
  | .ok a => .ok a
  | .error e => .error ⟨[], some e⟩

/-- `HidBPFTrace::load` and `HidBPFStructOps::load`. libbpf says `ENOENT` when the kernel
has no struct_ops. -/
def load (env : Env) : Loader → Except BpfError Unit
  | .trace =>
    if env.traceSupported then env.loadObject.mapError .libBPFError
    else .error (.osError ENOTSUP)
  | .structOps =>
    env.loadObject.mapError fun kind =>
      if kind = .notFound then .unsupported else .libBPFError kind

/-- Everything before `attach_and_pin`; none of it pins anything. -/
def prepare (env : Env) (object : Object) (objectName : String) : Except Error Unit := do
  context "couldn't read report descriptor" id env.readReportDescriptor
  noContext env.openFile
  noContext (load env (getBpfLoader object))
  noContext env.fromBpfObject
  context ("couldn't set udev properties on " ++ objectName) some env.injectUdevProperties
  context ("couldn't inject report descriptor on " ++ objectName) some env.injectReportDescriptor
  context ("probe() of " ++ objectName ++ " failed") some env.probe

section pinning

variable (env : Env) (dir : String) (path : PathBuf)

/-- `HidBPFTrace::load_prog`. -/
def loadProg (p : BpfProg) : List FsOp × Except (Option BpfError) String :=
  match env.attachProg p with
  | .error e => ([], .error e)
  | .ok () =>
    match env.pinProg p with
    | .error e => ([.createDirAll dir], .error (some e))
    | .ok () =>
      ([.createDirAll dir, .pin ⟨dir, p.name, .link, path⟩], .ok (dir ++ "/" ++ p.name))

/-- `HidBPFTrace::load_progs`: failing programs are skipped, but not all may fail. -/
def loadProgs (progs : List BpfProg) : List FsOp × Except BpfError (List String) :=
  let loaded := (progs.filter fun p => p.progType = .tracing).map (loadProg env dir path)
  let attached := loaded.filterMap fun r => r.2.toOption
  (loaded.flatMap Prod.fst,
    if attached.isEmpty then .error (.osError EINVAL) else .ok attached)

/-- The short-circuiting `map(..).collect()` of `HidBPFStructOps::attach_and_pin`. -/
def attachMaps : List BpfMap → List FsOp × Except BpfError (List String)
  | [] => ([], .ok [])
  | m :: ms =>
    match env.attachStructOps m with
    | .error e => ([], .error e)
    | .ok () =>
      match env.pinLink m with
      | .error e => ([], .error e)
      | .ok () =>
        let rest := attachMaps ms
        (.pin ⟨dir, m.name, .link, path⟩ :: rest.1, rest.2.map ((dir ++ "/" ++ m.name) :: ·))

def structOpsMaps (object : Object) : List BpfMap :=
  object.maps.filter fun m => m.mapType = .structOps

def attachAndPin (object : Object) : Loader → List FsOp × Except BpfError (List String)
  | .trace => loadProgs env dir path object.progs
  | .structOps =>
    let attached := attachMaps env dir path (structOpsMaps object)
    (.createDirAll dir :: attached.1, attached.2)

def ordinaryMaps (object : Object) : List BpfMap :=
  (object.maps.filter fun m => '.' ∉ m.name.toList).filter fun m => m.mapType ≠ .structOps

def pinMaps : List BpfMap → List FsOp × Except Error Unit
  | [] => ([], .ok ())
  | m :: ms =>
    match env.pinMap m with
    | .error e => ([], .error ⟨["Failed to pin map at " ++ dir ++ "/" ++ m.name], some e⟩)
    | .ok () =>
      let rest := pinMaps ms
      (.pin ⟨dir, m.name, .map, path⟩ :: rest.1, rest.2)

end pinning

def readUdevPropertyMaps (env : Env) (maps : List BpfMap) :
    List UdevPropertyMap → Except BpfError (List (String × String))
  | [] => .ok []
  | pm :: pms =>
    match maps.find? fun m => m.name = mapName pm.name with
    | none => readUdevPropertyMaps env maps pms
    | some m =>
      match env.lookup m with
      | .error e => .error e
      | .ok data =>
        match data.bind decodeValue with
        | none => readUdevPropertyMaps env maps pms
        | some value => (readUdevPropertyMaps env maps pms).map ((pm.name, value) :: ·)

def loadPrograms (env : Env) (object : Object) (sysname : String) (path : PathBuf) : Outcome :=
  let objectName := fileStem path.fileName
  match prepare env object objectName with
  | .error e => ⟨[], [], .error e⟩
  | .ok () =>
    let dir := getBpffsPath sysname objectName
    let attached := attachAndPin env dir path object (getBpfLoader object)
    match attached.2 with
    | .error e =>
      ⟨attached.1, [], .error ⟨["attach_and_pin() of " ++ objectName ++ " failed"], some e⟩⟩
    | .ok _ =>
      let pinned := pinMaps env dir path (ordinaryMaps object)
      match pinned.2 with
      | .error e => ⟨attached.1 ++ pinned.1 ++ [.removeDirAll dir], [], .error e⟩
      | .ok () =>
        match readUdevPropertyMaps env object.maps object.propertyMaps with
        | .error e =>
          ⟨attached.1 ++ pinned.1, [],
            .error ⟨["read_udev_property_maps() of " ++ objectName ++ " failed"], some e⟩⟩
        | .ok props =>
          ⟨attached.1 ++ pinned.1, props.map fun p => p.1 ++ "=" ++ p.2, .ok ()⟩

section steps

variable (env : Env) (object : Object)

def prepared : Bool :=
  succeeded env.readReportDescriptor && succeeded env.openFile &&
    succeeded (load env (getBpfLoader object)) && succeeded env.fromBpfObject &&
    succeeded env.injectUdevProperties && succeeded env.injectReportDescriptor &&
    succeeded env.probe

def progLoaded (p : BpfProg) : Bool :=
  p.progType = .tracing && succeeded (env.attachProg p) && succeeded (env.pinProg p)

def linkMade (m : BpfMap) : Bool := succeeded (env.attachStructOps m) && succeeded (env.pinLink m)

def readable (maps : List BpfMap) (pm : UdevPropertyMap) : Bool :=
  (maps.find? fun m => m.name = mapName pm.name).all fun m => succeeded (env.lookup m)

/-- Attaching succeeds: for struct_ops every link is made, for tracing one program is. -/
def attachOk : Bool :=
  match getBpfLoader object with
  | .trace => object.progs.any (progLoaded env)
  | .structOps => (structOpsMaps object).all (linkMade env)

def linkPinned : Bool :=
  match getBpfLoader object with
  | .trace => object.progs.any (progLoaded env)
  | .structOps => (structOpsMaps object).head?.any (linkMade env)

def pinOk : Bool := (ordinaryMaps object).all fun m => succeeded (env.pinMap m)

def readOk : Bool := object.propertyMaps.all (readable env object.maps)

/-- No step that fails comes after a pin, unless it is the pin of an ordinary map. -/
def CleanExit : Prop :=
  prepared env object = true →
    (attachOk env object = true ∨ linkPinned env object = false) ∧
    (attachOk env object = true → pinOk env object = true →
      readOk env object = true ∨ (linkPinned env object = false ∧ ordinaryMaps object = []))

instance : Decidable (CleanExit env object) := inferInstanceAs (Decidable (_ → _))

end steps

@[simp] theorem succeeded_ok {ε α : Type} (a : α) :
    succeeded (.ok a : Except ε α) = true := rfl

@[simp] theorem succeeded_error {ε α : Type} (e : ε) :
    succeeded (.error e : Except ε α) = false := rfl

@[simp] theorem succeeded_map {ε α β : Type} (f : α → β) (x : Except ε α) :
    succeeded (x.map f) = succeeded x := by cases x <;> rfl

theorem succeeded_eq_false {ε α : Type} {x : Except ε α} :
    succeeded x = false ↔ ∃ e, x = .error e := by
  cases x <;> simp

theorem succeeded_bind {ε α β : Type} (x : Except ε α) (y : Except ε β) :
    succeeded (x >>= fun _ => y) = (succeeded x && succeeded y) := by
  cases x <;> rfl

@[simp] theorem succeeded_context {ε α : Type} (c : String) (cause : ε → Option BpfError)
    (x : Except ε α) : succeeded (context c cause x) = succeeded x := by cases x <;> rfl

@[simp] theorem succeeded_noContext {α : Type} (x : Except BpfError α) :
    succeeded (noContext x) = succeeded x := by cases x <;> rfl

theorem succeeded_prepare (env : Env) (object : Object) (objectName : String) :
    succeeded (prepare env object objectName) = prepared env object := by
  simp only [prepare, prepared, succeeded_bind, succeeded_context, succeeded_noContext,
    Bool.and_assoc]

/-- Only creates directories and pins entries of `path` in `dir`. -/
def OnlyPins (dir : String) (path : PathBuf) (ops : List FsOp) : Prop :=
  ∀ op ∈ ops, (∃ d, op = .createDirAll d) ∨ ∃ p, op = .pin p ∧ p.dir = dir ∧ p.object = path

theorem OnlyPins.append {dir : String} {path : PathBuf} {ops ops' : List FsOp}
    (h : OnlyPins dir path ops) (h' : OnlyPins dir path ops') : OnlyPins dir path (ops ++ ops') :=
  fun op hop => (List.mem_append.mp hop).elim (h op) (h' op)

theorem replay_append (fs : List Pin) (ops ops' : List FsOp) :
    replay fs (ops ++ ops') = replay (replay fs ops) ops' := List.foldl_append

theorem mem_replay {fs : List Pin} {ops : List FsOp} {p : Pin} (h : p ∈ replay fs ops) :
    p ∈ fs ∨ .pin p ∈ ops := by
  induction ops generalizing fs with
  | nil => exact .inl h
  | cons op ops ih =>
    rcases ih h with hp | hp
    · cases op with
      | createDirAll d => exact .inl hp
      | pin q =>
        rcases List.mem_append.mp hp with hp | hp
        · exact .inl hp
        · rw [List.mem_singleton.mp hp]
          exact .inr List.mem_cons_self
      | removeDirAll d => exact .inl (List.mem_of_mem_filter hp)
    · exact .inr (List.mem_cons_of_mem _ hp)

theorem mem_replay_of_kept {fs : List Pin} {ops : List FsOp} {p : Pin} (hp : p ∈ fs)
    (hkept : ∀ dir, .removeDirAll dir ∈ ops → p.dir ≠ dir) : p ∈ replay fs ops := by
  induction ops generalizing fs with
  | nil => exact hp
  | cons op ops ih =>
    refine ih ?_ fun dir hdir => hkept dir (List.mem_cons_of_mem _ hdir)
    cases op with
    | createDirAll d => exact hp
    | pin q => exact List.mem_append_left _ hp
    | removeDirAll d =>
      exact List.mem_filter.mpr ⟨hp, decide_eq_true (hkept d List.mem_cons_self)⟩

theorem OnlyPins.mem_replay_iff {dir : String} {path : PathBuf} {ops : List FsOp}
    (h : OnlyPins dir path ops) {fs : List Pin} {p : Pin} :
    p ∈ replay fs ops ↔ p ∈ fs ∨ .pin p ∈ ops := by
  refine ⟨mem_replay, ?_⟩
  induction ops generalizing fs with
  | nil => simp [replay]
  | cons op ops ih =>
    have ih := @ih (fun o ho => h o (List.mem_cons_of_mem _ ho)) (applyOp fs op)
    intro hp
    rcases h op List.mem_cons_self with ⟨d, rfl⟩ | ⟨q, rfl, -, -⟩
    · refine ih ?_
      simpa [applyOp] using hp
    · refine ih ?_
      simp only [applyOp, List.mem_append, List.mem_singleton]
      simp only [List.mem_cons, FsOp.pin.injEq] at hp
      tauto

section stages

variable (env : Env) (dir : String) (path : PathBuf)

theorem loadProg_onlyPins (p : BpfProg) : OnlyPins dir path (loadProg env dir path p).1 := by
  unfold loadProg
  split
  · simp [OnlyPins]
  · split <;> simp [OnlyPins]

theorem loadProg_pins (p : BpfProg) (hp : p.progType = .tracing) :
    (∃ q, .pin q ∈ (loadProg env dir path p).1) ↔ progLoaded env p = true := by
  unfold loadProg progLoaded
  cases env.attachProg p <;> cases env.pinProg p <;> simp [hp]

theorem loadProg_result (p : BpfProg) (hp : p.progType = .tracing) :
    (loadProg env dir path p).2.toOption.isSome = progLoaded env p := by
  unfold loadProg progLoaded
  cases env.attachProg p <;> cases env.pinProg p <;> simp [hp, Except.toOption]

theorem loadProgs_onlyPins (progs : List BpfProg) :
    OnlyPins dir path (loadProgs env dir path progs).1 := by
  intro op hop
  simp only [loadProgs, List.mem_flatMap, List.mem_map] at hop
  obtain ⟨-, ⟨p, -, rfl⟩, hop⟩ := hop
  exact loadProg_onlyPins env dir path p op hop

theorem loadProgs_pins (progs : List BpfProg) :
    (∃ q, .pin q ∈ (loadProgs env dir path progs).1) ↔ progs.any (progLoaded env) = true := by
  simp only [loadProgs, List.mem_flatMap, List.mem_map, List.any_eq_true]
  constructor
  · rintro ⟨q, -, ⟨p, hp, rfl⟩, hq⟩
    have ht : p.progType = .tracing := by simpa using (List.mem_filter.mp hp).2
    exact ⟨p, (List.mem_filter.mp hp).1, (loadProg_pins env dir path p ht).mp ⟨q, hq⟩⟩
  · rintro ⟨p, hp, hl⟩
    have ht : p.progType = .tracing := by simp_all [progLoaded]
    obtain ⟨q, hq⟩ := (loadProg_pins env dir path p ht).mpr hl
    exact ⟨q, _, ⟨p, List.mem_filter.mpr ⟨hp, by simpa using ht⟩, rfl⟩, hq⟩

theorem succeeded_loadProgs (progs : List BpfProg) :
    succeeded (loadProgs env dir path progs).2 = progs.any (progLoaded env) := by
  have h : ((progs.filter fun p => p.progType = .tracing).map (loadProg env dir path)).filterMap
      (fun r => r.2.toOption) ≠ [] ↔ progs.any (progLoaded env) = true := by
    rw [Ne, List.filterMap_eq_nil_iff, List.any_eq_true]
    simp only [List.mem_map, not_forall, exists_prop]
    constructor
    · rintro ⟨-, ⟨p, hp, rfl⟩, hr⟩
      have ht : p.progType = .tracing := by simpa using (List.mem_filter.mp hp).2
      refine ⟨p, (List.mem_filter.mp hp).1, ?_⟩
      rwa [← loadProg_result env dir path p ht, Option.isSome_iff_ne_none]
    · rintro ⟨p, hp, hl⟩
      have ht : p.progType = .tracing := by simp_all [progLoaded]
      refine ⟨_, ⟨p, List.mem_filter.mpr ⟨hp, by simpa using ht⟩, rfl⟩, ?_⟩
      rwa [← Ne, ← Option.isSome_iff_ne_none, loadProg_result env dir path p ht]
  rw [Bool.eq_iff_iff, ← h]
  simp only [loadProgs]
  split <;> simp_all

theorem attachMaps_onlyPins (ms : List BpfMap) :
    OnlyPins dir path (attachMaps env dir path ms).1 := by
  induction ms with
  | nil => simp [attachMaps, OnlyPins]
  | cons m ms ih =>
    unfold attachMaps
    split
    · simp [OnlyPins]
    · split
      · simp [OnlyPins]
      · intro op hop
        rcases List.mem_cons.mp hop with rfl | hop
        · exact .inr ⟨_, rfl, rfl, rfl⟩
        · exact ih op hop

theorem attachMaps_pins (ms : List BpfMap) :
    (∃ q, .pin q ∈ (attachMaps env dir path ms).1) ↔ ms.head?.any (linkMade env) = true := by
  cases ms with
  | nil => simp [attachMaps]
  | cons m ms =>
    unfold attachMaps
    cases ha : env.attachStructOps m <;> cases hp : env.pinLink m <;> simp [linkMade, ha, hp]

theorem succeeded_attachMaps (ms : List BpfMap) :
    succeeded (attachMaps env dir path ms).2 = ms.all (linkMade env) := by
  induction ms with
  | nil => rfl
  | cons m ms ih =>
    unfold attachMaps
    cases ha : env.attachStructOps m <;> cases hp : env.pinLink m <;>
      simp [linkMade, ha, hp, ih]

theorem pinMaps_onlyPins (ms : List BpfMap) : OnlyPins dir path (pinMaps env dir path ms).1 := by
  induction ms with
  | nil => simp [pinMaps, OnlyPins]
  | cons m ms ih =>
    unfold pinMaps
    split
    · simp [OnlyPins]
    · intro op hop
      rcases List.mem_cons.mp hop with rfl | hop
      · exact .inr ⟨_, rfl, rfl, rfl⟩
      · exact ih op hop

theorem pinMaps_pins (ms : List BpfMap) :
    (∃ q, .pin q ∈ (pinMaps env dir path ms).1) ↔
      ms.head?.any (fun m => succeeded (env.pinMap m)) = true := by
  cases ms with
  | nil => simp [pinMaps]
  | cons m ms =>
    unfold pinMaps
    cases hp : env.pinMap m <;> simp [hp]

theorem succeeded_pinMaps (ms : List BpfMap) :
    succeeded (pinMaps env dir path ms).2 = ms.all fun m => succeeded (env.pinMap m) := by
  induction ms with
  | nil => rfl
  | cons m ms ih =>
    unfold pinMaps
    cases hp : env.pinMap m <;> simp [hp, ih]

theorem succeeded_readUdevPropertyMaps (maps : List BpfMap) (pms : List UdevPropertyMap) :
    succeeded (readUdevPropertyMaps env maps pms) = pms.all (readable env maps) := by
  induction pms with
  | nil => rfl
  | cons pm pms ih =>
    unfold readUdevPropertyMaps
    rw [List.all_cons, readable]
    split
    · rename_i hm
      rw [hm, ih]
      rfl
    · rename_i m hm
      rw [hm]
      cases hl : env.lookup m with
      | error e => simp [hl]
      | ok data => cases hd : data.bind decodeValue <;> simp [hl, hd, ih]

theorem attachAndPin_onlyPins (object : Object) (loader : Loader) :
    OnlyPins dir path (attachAndPin env dir path object loader).1 := by
  cases loader with
  | trace => exact loadProgs_onlyPins env dir path _
  | structOps =>
    intro op hop
    rcases List.mem_cons.mp hop with rfl | hop
    · exact .inl ⟨_, rfl⟩
    · exact attachMaps_onlyPins env dir path _ op hop

theorem attachAndPin_pins (object : Object) :
    (∃ q, .pin q ∈ (attachAndPin env dir path object (getBpfLoader object)).1) ↔
      linkPinned env object = true := by
  unfold linkPinned
  cases getBpfLoader object with
  | trace => exact loadProgs_pins env dir path _
  | structOps =>
    simpa [attachAndPin] using attachMaps_pins env dir path (structOpsMaps object)

theorem succeeded_attachAndPin (object : Object) :
    succeeded (attachAndPin env dir path object (getBpfLoader object)).2 = attachOk env object := by
  unfold attachOk
  cases getBpfLoader object with
  | trace => exact succeeded_loadProgs env dir path _
  | structOps => exact succeeded_attachMaps env dir path _

end stages

section call

variable (env : Env) (object : Object) (sysname : String) (path : PathBuf)

abbrev bpffsDir (sysname : String) (path : PathBuf) : String :=
  getBpffsPath sysname (fileStem path.fileName)

def pinOps : List FsOp :=
  (attachAndPin env (bpffsDir sysname path) path object (getBpfLoader object)).1 ++
    (pinMaps env (bpffsDir sysname path) path (ordinaryMaps object)).1

inductive Exit : Outcome → Prop where
  | unprepared (e : Error) (h : prepared env object = false) : Exit ⟨[], [], .error e⟩
  | attach (e : Error) (h : attachOk env object = false) (hp : prepared env object = true) :
    Exit ⟨(attachAndPin env (bpffsDir sysname path) path object (getBpfLoader object)).1, [],
      .error e⟩
  | pin (e : Error) (h : pinOk env object = false) (ha : attachOk env object = true) :
    Exit ⟨pinOps env object sysname path ++ [.removeDirAll (bpffsDir sysname path)], [], .error e⟩
  | read (e : Error) (h : readOk env object = false) (hp : prepared env object = true)
    (ha : attachOk env object = true) (hm : pinOk env object = true) :
    Exit ⟨pinOps env object sysname path, [], .error e⟩
  | loaded (output : List String) (h : readOk env object = true)
    (ha : attachOk env object = true) : Exit ⟨pinOps env object sysname path, output, .ok ()⟩

theorem loadPrograms_exit : Exit env object sysname path (loadPrograms env object sysname path) := by
  have hprep := succeeded_prepare env object (fileStem path.fileName)
  have hattach := succeeded_attachAndPin env (bpffsDir sysname path) path object
  have hpin := succeeded_pinMaps env (bpffsDir sysname path) path (ordinaryMaps object)
  have hread := succeeded_readUdevPropertyMaps env object.maps object.propertyMaps
  unfold loadPrograms
  simp only
  split
  · rename_i e he
    exact .unprepared e (by rw [← hprep, he]; rfl)
  rename_i he
  rw [he, succeeded_ok] at hprep
  split
  · rename_i e he
    exact .attach _ (by rw [← hattach, he]; rfl) hprep.symm
  rename_i he
  rw [he, succeeded_ok] at hattach
  split
  · rename_i e he
    exact .pin e (by rw [pinOk, ← hpin, he]; rfl) hattach.symm
  rename_i he
  rw [he, succeeded_ok] at hpin
  split
  · rename_i e he
    exact .read _ (by rw [readOk, ← hread, he]; rfl) hprep.symm hattach.symm hpin.symm
  · rename_i he
    exact .loaded _ (by rw [readOk, ← hread, he]; rfl) hattach.symm

theorem pinOps_onlyPins :
    OnlyPins (bpffsDir sysname path) path (pinOps env object sysname path) :=
  (attachAndPin_onlyPins env _ path object _).append (pinMaps_onlyPins env _ path _)

theorem pinOps_pins (hm : pinOk env object = true) :
    (∃ q, .pin q ∈ pinOps env object sysname path) ↔
      linkPinned env object = true ∨ ordinaryMaps object ≠ [] := by
  have hmaps : (∃ q, .pin q ∈ (pinMaps env (bpffsDir sysname path) path (ordinaryMaps object)).1) ↔
      ordinaryMaps object ≠ [] := by
    rw [pinMaps_pins]
    unfold pinOk at hm
    cases h : ordinaryMaps object with
    | nil => simp
    | cons m ms => simp_all
  rw [← attachAndPin_pins env (bpffsDir sysname path) path object, ← hmaps]
  simp only [pinOps, List.mem_append, exists_or]

theorem loadPrograms_owns {q : Pin} (h : .pin q ∈ (loadPrograms env object sysname path).ops) :
    q.dir = bpffsDir sysname path ∧ q.object = path := by
  have hown {ops : List FsOp} (ho : OnlyPins (bpffsDir sysname path) path ops)
      (hq : .pin q ∈ ops) : q.dir = bpffsDir sysname path ∧ q.object = path := by
    rcases ho _ hq with ⟨d, hd⟩ | ⟨p, hp, hpo⟩
    · cases hd
    · cases hp
      exact hpo
  have hexit := loadPrograms_exit env object sysname path
  generalize loadPrograms env object sysname path = out at hexit h
  revert h
  cases hexit with
  | unprepared => simp
  | attach => exact hown (attachAndPin_onlyPins env _ path object _)
  | pin =>
    intro h
    refine hown (pinOps_onlyPins env object sysname path) ?_
    simpa using h
  | read => exact hown (pinOps_onlyPins env object sysname path)
  | loaded => exact hown (pinOps_onlyPins env object sysname path)

theorem OnlyPins.removeDirAll_not_mem {dir d : String} {ops : List FsOp}
    (h : OnlyPins dir path ops) : .removeDirAll d ∉ ops := by
  intro hd
  rcases h _ hd with ⟨d', hc⟩ | ⟨q, hc, -⟩
  · cases hc
  · cases hc

theorem loadPrograms_removes {d : String}
    (h : .removeDirAll d ∈ (loadPrograms env object sysname path).ops) :
    d = bpffsDir sysname path ∧ succeeded (loadPrograms env object sysname path).result = false := by
  have hpins := (pinOps_onlyPins env object sysname path).removeDirAll_not_mem (d := d)
  have hexit := loadPrograms_exit env object sysname path
  generalize loadPrograms env object sysname path = out at hexit h
  revert h
  cases hexit with
  | unprepared => simp
  | attach =>
    intro h
    exact absurd h (attachAndPin_onlyPins env _ path object _).removeDirAll_not_mem
  | pin =>
    intro h
    simpa [hpins] using h
  | read => exact fun h => absurd h hpins
  | loaded => exact fun h => absurd h hpins

theorem loaded_onlyPins
    (h : succeeded (loadPrograms env object sysname path).result = true) :
    OnlyPins (bpffsDir sysname path) path (loadPrograms env object sysname path).ops := by
  have hpins := pinOps_onlyPins env object sysname path
  have hexit := loadPrograms_exit env object sysname path
  generalize loadPrograms env object sysname path = out at hexit h ⊢
  cases hexit with
  | unprepared => cases h
  | attach => cases h
  | pin => cases h
  | read => cases h
  | loaded => exact hpins

theorem loadPrograms_output {props : List (String × String)}
    (hread : readUdevPropertyMaps env object.maps object.propertyMaps = .ok props)
    (hok : (loadPrograms env object sysname path).result = .ok ()) :
    (loadPrograms env object sysname path).output = props.map fun p => p.1 ++ "=" ++ p.2 := by
  revert hok
  unfold loadPrograms
  simp only [hread]
  split
  · exact nofun
  split
  · exact nofun
  split
  · exact nofun
  · exact fun _ => rfl

/-- A failed call with a clean exit leaves nothing that was not there. -/
theorem clean_failure_leaves (hc : CleanExit env object) {s : List Pin}
    (hf : succeeded (loadPrograms env object sysname path).result = false) :
    ∀ p ∈ replay s (loadPrograms env object sysname path).ops, p ∈ s := by
  intro p
  have hexit := loadPrograms_exit env object sysname path
  generalize loadPrograms env object sysname path = out at hexit hf ⊢
  cases hexit with
  | unprepared => exact id
  | attach e ha hp =>
    intro h
    rcases mem_replay h with h | h
    · exact h
    · rcases (hc hp).1 with hc | hc
      · simp [ha] at hc
      · have hl := (attachAndPin_pins env _ path object).mp ⟨p, h⟩
        simp [hc] at hl
  | pin =>
    intro h
    rw [replay_append] at h
    obtain ⟨h, hd⟩ := List.mem_filter.mp h
    rcases mem_replay h with h | h
    · exact h
    · rcases pinOps_onlyPins env object sysname path _ h with ⟨d, hd⟩ | ⟨q, hq, hqd, -⟩
      · cases hd
      · cases hq
        simp [hqd] at hd
  | read e hr hp ha hm =>
    intro h
    rcases mem_replay h with h | h
    · exact h
    · have hleft := (pinOps_pins env object sysname path hm).mp ⟨p, h⟩
      rcases (hc hp).2 ha hm with hc | ⟨hl, ho⟩
      · simp [hr] at hc
      · simp [hl, ho] at hleft
  | loaded => simp at hf

/-- Failing leaves the directory empty exactly for the clean exits. -/
theorem clean_exit_iff {s : List Pin} (hs : ∀ p ∈ s, p.dir ≠ bpffsDir sysname path) :
    (succeeded (loadPrograms env object sysname path).result = false →
      ∀ p ∈ replay s (loadPrograms env object sysname path).ops, p.dir ≠ bpffsDir sysname path) ↔
    CleanExit env object := by
  refine ⟨fun h hp => ?_, fun hc hf p hp => hs p
    (clean_failure_leaves env object sysname path hc hf p hp)⟩
  have hleft {ops : List FsOp} (ho : OnlyPins (bpffsDir sysname path) path ops)
      (hempty : ∀ p ∈ replay s ops, p.dir ≠ bpffsDir sysname path) : ¬ ∃ q, .pin q ∈ ops := by
    rintro ⟨q, hq⟩
    rcases ho _ hq with ⟨d, hd⟩ | ⟨p, hp, hpd, -⟩
    · cases hd
    · cases hp
      exact hempty q (ho.mem_replay_iff.mpr (.inr hq)) hpd
  have hexit := loadPrograms_exit env object sysname path
  generalize loadPrograms env object sysname path = out at hexit h
  cases hexit with
  | unprepared e he => simp [he] at hp
  | attach e ha =>
    have hl := hleft (attachAndPin_onlyPins env _ path object _) (h rfl)
    rw [attachAndPin_pins] at hl
    exact ⟨.inr (by simpa using hl), fun ha' => absurd ha' (by simp [ha])⟩
  | pin e hm ha => exact ⟨.inl ha, fun _ hm' => absurd hm' (by simp [hm])⟩
  | read e hr _ ha hm =>
    have hl := hleft (pinOps_onlyPins env object sysname path) (h rfl)
    rw [pinOps_pins env object sysname path hm] at hl
    exact ⟨.inl ha, fun _ _ => .inr (by simpa using hl)⟩
  | loaded output hr ha => exact ⟨.inl ha, fun _ _ => .inl hr⟩

end call

end LoadPrograms
