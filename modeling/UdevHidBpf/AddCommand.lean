import UdevHidBpf.RemoveCommand
import UdevHidBpf.SplitPaths
import UdevHidBpf.SysfsDevices
import UdevHidBpf.UdevEvents

/-! # `add` on the command line

Devices are given or found by the entries of the object files. With `--replace` what they have
is removed before anything is loaded. A command is its operations on the bpf file system, each
under the name of its device, and a result. -/
namespace AddCommand

open BpffsNames BpffsWorkers Interleavings LoadBpfFiles LoadPrograms Modaliases RadixText
open RemoveCommand SplitPaths StemSorting SysfsDevices UdevEvents

abbrev Adds := List (HidUdev × List LoadAttempt)

inductive CommandError where
  | arguments (message : String)
  /-- `find_sysfs_devices` -/
  | sysfs
  | noDevices
  | remove (errno : Option ℕ)
  | add (e : AddError (Option ℕ))
  deriving DecidableEq, Repr

/-- What a command meets. Loads may end differently each time. -/
structure Machine where
  world : World (Option ℕ)
  loads : ℕ → String → List LoadAttempt → PathBuf → Env × Object
  readLink : Text → Option Text
  kept : ℕ → List Pin
  sysfs : Option (List Text)
  openObject : Text → Option ObjectFile
  iteration : DeviceMap → DeviceMap
  iteration_perm : ∀ map, (iteration map).Perm map
  defaultBpfDirs : List Text
  /-- HID devices have the names that the kernel gives them. -/
  device_kernel : ∀ syspath dev, world.fromSyspath syspath = .ok dev → KernelSysname dev.sysname

structure AddArgs where
  paths : List String
  bpfdir : Option Text
  replace : Bool
  deriving Repr

def devicePath (name : Text) : Text := "/sys/bus/hid/devices/".toList ++ name

namespace Machine

variable (m : Machine)

def surroundings : Surroundings where
  fromSyspath syspath := (m.world.fromSyspath syspath).map HidUdev.sysname
  readLink := m.readLink
  kept := m.kept

theorem kernel : Kernel m.surroundings := by
  intro syspath sysname h
  cases hdev : m.world.fromSyspath syspath with
  | error e =>
    simp only [surroundings, hdev, Except.map] at h
    cases h
  | ok dev =>
    simp only [surroundings, hdev, Except.map, Except.ok.injEq] at h
    exact h ▸ m.device_kernel syspath dev hdev

end Machine

def loadTrace (adds : Adds) : Trace :=
  adds.flatMap fun add => (effects add.2).map fun op => (add.1.sysname, .load op)

namespace Machine

variable (m : Machine)

def targets (args : AddArgs) : List Text :=
  match splitPaths args.paths with
  | .error _ => []
  | .ok (devices, objects) =>
    if devices = [] then
      match findSysfsDevices m.sysfs m.openObject (objects.map String.toList) with
      | none => []
      | some map => ((m.iteration map).flatMap Prod.snd).map devicePath
    else devices.map String.toList

end Machine

def asLoad : BpffsOp → Option FsOp
  | .load op => some op
  | .removeObjects _ _ => none

def asRemoval : BpffsOp → Option (List Pin)
  | .load _ => none
  | .removeObjects _ kept => some kept

def loadsOn (d : String) (trace : Trace) : List FsOp := (projection d trace).filterMap asLoad

/-- What each removal of a device leaves. -/
def removalsOf (d : String) (trace : Trace) : List (List Pin) :=
  (projection d trace).filterMap asRemoval

/-- Loads on devices that the command is about. -/
structure LoadsFor (m : Machine) (targets : List Text) (adds : Adds) : Prop where
  device : ∀ add ∈ adds, ∃ syspath ∈ targets, m.world.fromSyspath syspath = .ok add.1
  attempt : ∀ add ∈ adds, ∀ a ∈ add.2, ∃ env object,
    a.result = loadPrograms env object add.1.sysname a.item

section loading

variable {m : Machine} {n : ℕ} {targets : List Text} {adds : Adds}

theorem LoadsFor.nil : LoadsFor m targets [] :=
  ⟨fun _ h => absurd h List.not_mem_nil, fun _ h => absurd h List.not_mem_nil⟩

theorem LoadsFor.append {rest : Adds} (h : LoadsFor m targets adds)
    (hrest : LoadsFor m targets rest) : LoadsFor m targets (adds ++ rest) where
  device add hadd := (List.mem_append.mp hadd).elim (h.device add) (hrest.device add)
  attempt add hadd := (List.mem_append.mp hadd).elim (h.attempt add) (hrest.attempt add)

theorem LoadsFor.own (h : LoadsFor m targets adds) {d : String} {op : BpffsOp}
    (hop : (d, op) ∈ loadTrace adds) :
    ∃ syspath ∈ targets, ∃ dev, m.world.fromSyspath syspath = .ok dev ∧ dev.sysname = d ∧
      Own d op ∧ ∃ fsOp, op = .load fsOp := by
  obtain ⟨add, hadd, hmem⟩ := List.mem_flatMap.mp hop
  obtain ⟨fsOp, hfsOp, heq⟩ := List.mem_map.mp hmem
  cases heq
  obtain ⟨syspath, htarget, hdev⟩ := h.device add hadd
  obtain ⟨a, ha, hmem⟩ := List.mem_flatMap.mp hfsOp
  obtain ⟨env, object, hresult⟩ := h.attempt add hadd a ha
  rw [hresult] at hmem
  exact ⟨syspath, htarget, add.1, hdev, rfl, own_attempt hmem, fsOp, rfl⟩

end loading

/-- What the command did: removals for its targets with `--replace`, then loads for them. -/
structure Ran (m : Machine) (args : AddArgs) (targets : List Text) (adds : Adds) (trace : Trace)
    (result : Except CommandError Unit) : Prop where
  loads : LoadsFor m targets adds
  trace_eq : trace = (if args.replace then (cmdRemove m.surroundings 0 targets).1 else []) ++
    loadTrace adds
  removed : args.replace → (cmdRemove m.surroundings 0 targets).2 = .ok () ∨
    adds = [] ∧ ∃ errno, result = .error (.remove errno)
  failed : ∀ errno, result = .error (.remove errno) → adds = []

section command

variable {m : Machine} {args : AddArgs} {trace : Trace} {result : Except CommandError Unit}

theorem Ran.refused (e : CommandError) : Ran m args [] [] [] (.error e) where
  loads := LoadsFor.nil
  trace_eq := by simp [cmdRemove, loadTrace]
  removed _ := .inl rfl
  failed _ _ := rfl

section view

variable {targets : List Text} {adds : Adds} {d : String}

theorem Ran.mem_trace (h : Ran m args targets adds trace result) {op : BpffsOp}
    (hop : (d, op) ∈ trace) : Shaped d ∧ Own d op := by
  rw [h.trace_eq] at hop
  rcases List.mem_append.mp hop with hremoval | hload
  · split_ifs at hremoval
    · obtain ⟨hd, kept, rfl⟩ := mem_cmdRemove m.kernel hremoval
      exact ⟨hd, .remove kept⟩
    · cases hremoval
  · obtain ⟨syspath, -, dev, hdev, rfl, hown, -⟩ := h.loads.own hload
    exact ⟨(m.device_kernel syspath dev hdev).shaped, hown⟩

theorem foldl_removals {ops : List BpffsOp} (hall : ∀ op ∈ ops, ∃ kept, op = .removeObjects d kept)
    (s : List Pin) : ops.foldl applyBpffs s =
      s.filter fun p => ¬ Below d p ∨ ∀ kept ∈ ops.filterMap asRemoval, p ∈ kept := by
  induction ops generalizing s with
  | nil => simp
  | cons op ops ih =>
    obtain ⟨kept, rfl⟩ := hall _ List.mem_cons_self
    have hremovals : (BpffsOp.removeObjects d kept :: ops).filterMap asRemoval =
        kept :: ops.filterMap asRemoval := rfl
    rw [List.foldl_cons, ih fun op hop => hall op (List.mem_cons_of_mem _ hop), applyBpffs,
      List.filter_filter, hremovals]
    apply List.filter_congr
    intro p _
    simp only [List.forall_mem_cons, or_and_left, Bool.decide_and, Bool.and_comm]

theorem foldl_removals_below {ops : List BpffsOp}
    (hall : ∀ op ∈ ops, ∃ kept, op = .removeObjects d kept) (s : List Pin) :
    ops.foldl applyBpffs (below d s) =
      (below d s).filter fun p => ∀ kept ∈ ops.filterMap asRemoval, p ∈ kept := by
  rw [foldl_removals hall]
  apply List.filter_congr
  intro p hp
  have hbelow := (mem_below.mp hp).2
  simp [hbelow]

theorem foldl_loads {ops : List BpffsOp} (hall : ∀ op ∈ ops, ∃ fsOp, op = .load fsOp)
    (s : List Pin) : ops.foldl applyBpffs s = replay s (ops.filterMap asLoad) := by
  induction ops generalizing s with
  | nil => rfl
  | cons op ops ih =>
    obtain ⟨fsOp, rfl⟩ := hall _ List.mem_cons_self
    exact ih (fun op hop => hall op (List.mem_cons_of_mem _ hop)) (applyOp s fsOp)

theorem projection_append (d : String) (a b : Trace) :
    projection d (a ++ b) = projection d a ++ projection d b := by
  simp [projection]

theorem Ran.projection_loads (h : Ran m args targets adds trace result) :
    ∀ op ∈ projection d (loadTrace adds), ∃ fsOp, op = .load fsOp := by
  intro op hop
  obtain ⟨-, -, -, -, -, -, hload⟩ := h.loads.own (mem_projection.mp hop)
  exact hload

theorem Ran.projection_eq (h : Ran m args targets adds trace result) (d : String) :
    ∃ removals loads, projection d trace = removals ++ loads ∧
      (∀ op ∈ removals, args.replace ∧ ∃ kept, op = .removeObjects d kept) ∧
      (∀ op ∈ loads, ∃ fsOp, op = .load fsOp) ∧ loads = projection d (loadTrace adds) := by
  refine ⟨_, _, by rw [h.trace_eq, projection_append], ?_, h.projection_loads, rfl⟩
  intro op hop
  split_ifs at hop with hreplace
  · exact ⟨hreplace, (mem_cmdRemove m.kernel (mem_projection.mp hop)).2⟩
  · cases hop

theorem filterMap_removals {ops : List BpffsOp}
    (hall : ∀ op ∈ ops, ∃ kept, op = .removeObjects d kept) : ops.filterMap asLoad = [] := by
  apply List.filterMap_eq_nil_iff.mpr
  intro op hop
  obtain ⟨kept, rfl⟩ := hall op hop
  rfl

theorem filterMap_loads {ops : List BpffsOp} (hall : ∀ op ∈ ops, ∃ fsOp, op = .load fsOp) :
    ops.filterMap asRemoval = [] := by
  apply List.filterMap_eq_nil_iff.mpr
  intro op hop
  obtain ⟨fsOp, rfl⟩ := hall op hop
  rfl

theorem Ran.loadsOn_eq (h : Ran m args targets adds trace result) :
    loadsOn d trace = (projection d (loadTrace adds)).filterMap asLoad := by
  obtain ⟨removals, loads, htrace, hremovals, -, rfl⟩ := h.projection_eq d
  rw [loadsOn, htrace, List.filterMap_append,
    filterMap_removals fun op hop => (hremovals op hop).2, List.nil_append]

/-- Below a device is what the command's loads make of what its removals have left. -/
theorem Ran.below (h : Ran m args targets adds trace result) (hd : KernelSysname d)
    (s : List Pin) : below d (run applyBpffs s trace) =
      replay ((BpffsWorkers.below d s).filter fun p => ∀ kept ∈ removalsOf d trace, p ∈ kept)
        (loadsOn d trace) := by
  have hown : ∀ op ∈ projection d trace, ∀ s, BpffsWorkers.below d (applyBpffs s op) =
      applyBpffs (BpffsWorkers.below d s) op :=
    fun op hop s => own_acts (h.mem_trace (mem_projection.mp hop)).2 s
  have hother : ∀ e op, (e, op) ∈ trace → e ≠ d → ∀ s,
      BpffsWorkers.below d (applyBpffs s op) = BpffsWorkers.below d s := by
    intro e op hop hne s
    obtain ⟨he, hown⟩ := h.mem_trace hop
    exact other_keeps hd he hne hown s
  obtain ⟨removals, loads, htrace, hremovals, hloads, rfl⟩ := h.projection_eq d
  have hall : ∀ op ∈ removals, ∃ kept, op = .removeObjects d kept :=
    fun op hop => (hremovals op hop).2
  rw [run_view hown hother, h.loadsOn_eq, removalsOf, htrace, List.foldl_append,
    foldl_removals_below hall, foldl_loads hloads, List.filterMap_append, filterMap_loads hloads,
    List.append_nil]

end view

end command

def mouseObject : PathBuf := PinPaths.pathBuf "/lib/firmware/hid/bpf/0010-foo.bpf.o".toList

def mouseTrace : Trace :=
  (LoadBpfFiles.sysname, .removeObjects LoadBpfFiles.sysname []) ::
    (loadPrograms working twoOps LoadBpfFiles.sysname mouseObject).ops.map
      (LoadBpfFiles.sysname, .load ·)

end AddCommand
