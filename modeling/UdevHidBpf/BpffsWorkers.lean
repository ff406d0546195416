import UdevHidBpf.Interleavings
import UdevHidBpf.PinPaths

/-! # Events of several devices at a time

udev handles the events of one device one after the other and those of different devices at
the same time, so the operations of their runs come in any order. -/
namespace BpffsWorkers

open BpfErrors BpffsNames BpffsPaths Interleavings LoadBpfFiles LoadPrograms PinPaths StemSorting

inductive BpffsOp where
  | load (op : FsOp)
  /-- `remove_bpf_objects`; a `remove_dir_all` that fails is ignored and leaves some pins. -/
  | removeObjects (sysname : String) (kept : List Pin)
  deriving DecidableEq, Repr

def Below (sysname : String) (p : Pin) : Prop :=
  components (removedDir sysname) <+: components p.dir

instance (sysname : String) (p : Pin) : Decidable (Below sysname p) :=
  inferInstanceAs (Decidable (_ <+: _))

def applyBpffs (s : List Pin) : BpffsOp → List Pin
  | .load op => applyOp s op
  | .removeObjects sysname kept => s.filter fun p => ¬ Below sysname p ∨ p ∈ kept

/-- One event of a device, with the loads it leads to. -/
inductive Job where
  | add (attempts : List LoadAttempt)
  | remove (kept : List Pin)

def Job.ops (sysname : String) : Job → List BpffsOp
  | .add attempts => (effects attempts).map .load
  | .remove kept => [.removeObjects sysname kept]

/-- The loads are those of `load_bpf_files` for some object files, whatever they met. -/
def Job.Runs (sysname : String) : Job → Prop
  | .add attempts => ∃ cf it world paths result,
      loadBpfFiles cf it (loadOnDevice world sysname) paths = some (attempts, result) ∧
        ∀ p ∈ paths, IsObjfile p.fileName
  | .remove _ => True

def jobOps (sysname : String) (jobs : List Job) : List BpffsOp := jobs.flatMap (Job.ops sysname)

def below (sysname : String) (s : List Pin) : List Pin := s.filter fun p => Below sysname p

/-- What an operation may touch. -/
inductive Own (sysname : String) : BpffsOp → Prop where
  | create (dir : String) : Own sysname (.load (.createDirAll dir))
  | pin (p : Pin) (path : PathBuf) (hdir : p.dir = bpffsDir sysname path)
    (hobject : p.object = path) : Own sysname (.load (.pin p))
  | removeDir (path : PathBuf) : Own sysname (.load (.removeDirAll (bpffsDir sysname path)))
  | remove (kept : List Pin) : Own sysname (.removeObjects sysname kept)

theorem own_attempt {sysname : String} {env : Env} {object : Object} {path : PathBuf} {op : FsOp}
    (h : op ∈ (loadPrograms env object sysname path).ops) : Own sysname (.load op) := by
  cases op with
  | createDirAll dir => exact .create dir
  | pin p =>
    obtain ⟨hdir, hobject⟩ := loadPrograms_owns env object sysname path h
    exact .pin p path hdir hobject
  | removeDirAll dir =>
    obtain ⟨rfl, -⟩ := loadPrograms_removes env object sysname path h
    exact .removeDir path

theorem attempt_result {sysname : String} {attempts : List LoadAttempt}
    (h : (Job.add attempts).Runs sysname) {a : LoadAttempt} (ha : a ∈ attempts) :
    ∃ env object, a.result = loadPrograms env object sysname a.item := by
  obtain ⟨cf, it, world, paths, result, hrun, -⟩ := h
  obtain ⟨pre, post, hsplit⟩ := List.append_of_mem ha
  exact ⟨_, _, (loadBpfFiles_run hrun).result pre a post hsplit⟩

theorem own_job {sysname : String} {j : Job} (h : j.Runs sysname) {op : BpffsOp}
    (hop : op ∈ j.ops sysname) : Own sysname op := by
  cases j with
  | add attempts =>
    obtain ⟨fsOp, hfsOp, rfl⟩ := List.mem_map.mp hop
    obtain ⟨a, ha, hmem⟩ := List.mem_flatMap.mp hfsOp
    obtain ⟨env, object, hresult⟩ := attempt_result h ha
    rw [hresult] at hmem
    exact own_attempt hmem
  | remove kept =>
    obtain rfl := List.mem_singleton.mp hop
    exact .remove kept

section frame

variable {d e : String}

theorem below_bpffsDir {p : Pin} {path : PathBuf} (h : p.dir = bpffsDir d path) : Below d p := by
  rw [Below, h]
  exact removedDir_prefix_getBpffsPath d _

theorem below_append (d : String) (s t : List Pin) : below d (s ++ t) = below d s ++ below d t :=
  List.filter_append ..

theorem below_singleton {p : Pin} (h : Below d p) : below d [p] = [p] :=
  List.filter_eq_self.mpr fun _ hq => decide_eq_true (List.mem_singleton.mp hq ▸ h)

theorem below_foreign {p : Pin} (h : ¬ Below d p) : below d [p] = [] :=
  List.filter_eq_nil_iff.mpr fun _ hq hb =>
    h (List.mem_singleton.mp hq ▸ of_decide_eq_true hb)

theorem filter_swap {α : Type*} (P Q : α → Bool) (l : List α) :
    (l.filter P).filter Q = (l.filter Q).filter P := by
  rw [List.filter_filter, List.filter_filter]
  exact List.filter_congr fun a _ => Bool.and_comm _ _

theorem other_keeps (hd : KernelSysname d) (he : Shaped e) (hne : e ≠ d) {op : BpffsOp}
    (hown : Own e op) (s : List Pin) : below d (applyBpffs s op) = below d s := by
  have hforeign {p : Pin} (hp : Below d p) : ¬ Below e p := not_below_both he hd hne hp
  cases hown with
  | create dir => rfl
  | pin p path hdir hobject =>
    have hnot : ¬ Below d p := fun hp => hforeign hp (below_bpffsDir hdir)
    rw [applyBpffs, applyOp, below_append, below_foreign hnot, List.append_nil]
  | removeDir path =>
    rw [applyBpffs, applyOp, below, List.filter_filter, below]
    apply List.filter_congr
    intro p _
    by_cases hp : Below d p
    · have hdir : p.dir ≠ bpffsDir e path := fun h => hforeign hp (below_bpffsDir h)
      rw [decide_eq_true hp, decide_eq_true hdir, Bool.true_and]
    · rw [decide_eq_false hp, Bool.false_and]
  | remove kept =>
    rw [applyBpffs, below, List.filter_filter, below]
    apply List.filter_congr
    intro p _
    by_cases hp : Below d p
    · rw [decide_eq_true hp, decide_eq_true (Or.inl (hforeign hp)), Bool.true_and]
    · rw [decide_eq_false hp, Bool.false_and]

theorem own_acts {op : BpffsOp} (hown : Own d op) (s : List Pin) :
    below d (applyBpffs s op) = applyBpffs (below d s) op := by
  cases hown with
  | create dir => rfl
  | pin p path hdir hobject =>
    rw [applyBpffs, applyOp, below_append, below_singleton (below_bpffsDir hdir)]
    rfl
  | removeDir path => exact filter_swap _ _ s
  | remove kept => exact filter_swap _ _ s

end frame

abbrev bpffs (trace : List (String × BpffsOp)) : List Pin := run applyBpffs [] trace

/-- At any moment every device is part of the way through its own events. -/
structure Moment (jobs : String → List Job) (trace : List (String × BpffsOp)) : Prop where
  runs : ∀ d, ∀ j ∈ jobs d, j.Runs d
  kernel : ∀ d, jobs d ≠ [] → KernelSysname d
  done : ∀ d, projection d trace <+: jobOps d (jobs d)

section moment

variable {jobs : String → List Job} {trace : List (String × BpffsOp)} {d : String}

theorem Moment.job_of_op (h : Moment jobs trace) {op : BpffsOp} (hop : (d, op) ∈ trace) :
    ∃ j ∈ jobs d, op ∈ j.ops d :=
  List.mem_flatMap.mp ((h.done d).subset (mem_projection.mpr hop))

theorem Moment.own (h : Moment jobs trace) {op : BpffsOp} (hop : (d, op) ∈ trace) :
    KernelSysname d ∧ Own d op := by
  obtain ⟨j, hj, hmem⟩ := h.job_of_op hop
  exact ⟨h.kernel d (List.ne_nil_of_mem hj), own_job (h.runs d j hj) hmem⟩

/-- What is below a device is what its own operations leave there. -/
theorem Moment.view (h : Moment jobs trace) (hd : KernelSysname d) :
    below d (bpffs trace) = (projection d trace).foldl applyBpffs [] := by
  have hown : ∀ op ∈ projection d trace, ∀ s, below d (applyBpffs s op) =
      applyBpffs (below d s) op :=
    fun op hop s => own_acts (h.own (mem_projection.mp hop)).2 s
  apply run_view hown
  intro e op hop hne s
  obtain ⟨he, hown⟩ := h.own hop
  exact other_keeps hd he.shaped hne hown s

theorem mem_foldl {s : List Pin} {ops : List BpffsOp} {p : Pin}
    (h : p ∈ ops.foldl applyBpffs s) : p ∈ s ∨ .load (.pin p) ∈ ops := by
  induction ops generalizing s with
  | nil => exact .inl h
  | cons op ops ih =>
    rcases ih h with hp | hp
    · cases op with
      | load op =>
        have hone : p ∈ replay s [op] := hp
        rcases mem_replay hone with hp | hp
        · exact .inl hp
        · obtain rfl := List.mem_singleton.mp hp
          exact .inr List.mem_cons_self
      | removeObjects sysname kept => exact .inl (List.mem_of_mem_filter hp)
    · exact .inr (List.mem_cons_of_mem _ hp)

theorem foldl_load (s : List Pin) (ops : List FsOp) :
    (ops.map BpffsOp.load).foldl applyBpffs s = replay s ops := by
  rw [List.foldl_map]
  rfl

theorem mem_below {s : List Pin} {p : Pin} : p ∈ below d s ↔ p ∈ s ∧ Below d p := by
  rw [below, List.mem_filter]
  exact and_congr_right fun _ => decide_eq_true_iff

theorem Moment.origin (h : Moment jobs trace) {p : Pin} (hp : p ∈ bpffs trace) :
    ∃ d, KernelSysname d ∧ ∃ attempts, .add attempts ∈ jobs d ∧ ∃ a ∈ attempts,
      .pin p ∈ a.result.ops ∧ p.object = a.item ∧ p.dir = bpffsDir d a.item := by
  have hpinned : .load (.pin p) ∈ trace.map Prod.snd := by
    have hrun : p ∈ (trace.map Prod.snd).foldl applyBpffs [] := by
      rw [List.foldl_map]
      exact hp
    exact (mem_foldl hrun).resolve_left (List.not_mem_nil)
  obtain ⟨⟨d, op⟩, hop, rfl⟩ := List.mem_map.mp hpinned
  obtain ⟨j, hj, hmem⟩ := h.job_of_op hop
  refine ⟨d, h.kernel d (List.ne_nil_of_mem hj), ?_⟩
  cases j with
  | remove kept => cases List.mem_singleton.mp hmem
  | add attempts =>
    obtain ⟨fsOp, hfsOp, heq⟩ := List.mem_map.mp hmem
    cases heq
    obtain ⟨a, ha, hpin⟩ := List.mem_flatMap.mp hfsOp
    obtain ⟨env, object, hresult⟩ := attempt_result (h.runs d _ hj) ha
    have hpin' := hpin
    rw [hresult] at hpin'
    obtain ⟨hdir, hobject⟩ := loadPrograms_owns env object d a.item hpin'
    exact ⟨attempts, hj, a, ha, hpin, hobject, hdir⟩

theorem Moment.removed (h : Moment jobs trace) (hd : KernelSysname d) {before after : List BpffsOp}
    {kept : List Pin} (hsplit : projection d trace = before ++ .removeObjects d kept :: after)
    {p : Pin} (hp : p ∈ bpffs trace) (hbelow : Below d p) :
    p ∈ kept ∨ .load (.pin p) ∈ after := by
  have hview := h.view hd
  rw [hsplit, List.foldl_append, List.foldl_cons] at hview
  have hmem : p ∈ below d (bpffs trace) := mem_below.mpr ⟨hp, hbelow⟩
  rw [hview] at hmem
  refine (mem_foldl hmem).imp_left fun hleft => ?_
  obtain ⟨hbefore, hleft⟩ := List.mem_filter.mp hleft
  exact (of_decide_eq_true hleft).resolve_left fun hnot => hnot hbelow

theorem Moment.kept (h : Moment jobs trace) (hd : KernelSysname d) {pre : List Job}
    {attempts : List LoadAttempt} (hjobs : jobs d = pre ++ [.add attempts]) {moment : List FsOp}
    (hmoment : projection d trace = jobOps d pre ++ moment.map .load)
    {cf : CaseFolding} {it : IterationOrder} {world : List LoadAttempt → PathBuf → Env × Object}
    {paths : List PathBuf} {result : Except ErrorKind Unit}
    (hload : loadBpfFiles cf it (loadOnDevice world d) paths = some (attempts, result))
    (hobj : ∀ p ∈ paths, IsObjfile p.fileName) (hapart : Apart paths)
    {before rest : List LoadAttempt} {b : LoadAttempt} (hsplit : attempts = before ++ b :: rest)
    (hok : loaded b.result = true) (hfrom : effects (before ++ [b]) <+: moment) {q : Pin}
    (hq : .pin q ∈ b.result.ops) : q ∈ bpffs trace := by
  have hto : moment <+: effects attempts := by
    have hdone := h.done d
    have hops : jobOps d (jobs d) = jobOps d pre ++ (effects attempts).map .load := by
      rw [hjobs, jobOps, List.flatMap_append, List.flatMap_singleton]
      rfl
    rw [hmoment, hops, List.prefix_append_right_inj] at hdone
    exact (List.prefix_map_iff_of_injective fun _ _ => BpffsOp.load.inj).mp hdone
  have hstays := loaded_pin_stays (loadBpfFiles_run hload) hd hobj hapart hsplit hok hq
    ((jobOps d pre).foldl applyBpffs []) hfrom hto
  have hview := h.view hd
  rw [hmoment, List.foldl_append, foldl_load] at hview
  rw [← hview] at hstays
  exact (mem_below.mp hstays).1

end moment

/-- In whatever order the operations of different devices come, no device loses or gains an
entry by another one's: what is below it is what its own events alone leave, each entry comes
from a load of its own, and none outlives a removal that does not fail. What its last event has
loaded stays if no two of its files have names that meet. -/
theorem devices_do_not_interfere (jobs : String → List Job) (trace : List (String × BpffsOp))
    (h : Moment jobs trace) :
    (∀ d, KernelSysname d → below d (bpffs trace) = (projection d trace).foldl applyBpffs []) ∧
    (∀ p ∈ bpffs trace, ∃ d, KernelSysname d ∧ ∃ attempts, .add attempts ∈ jobs d ∧
      ∃ a ∈ attempts, .pin p ∈ a.result.ops ∧ p.object = a.item ∧ p.dir = bpffsDir d a.item) ∧
    (∀ d before kept after, KernelSysname d →
      projection d trace = before ++ .removeObjects d kept :: after →
      ∀ p ∈ bpffs trace, Below d p → p ∈ kept ∨ .load (.pin p) ∈ after) ∧
    ∀ d pre attempts moment, KernelSysname d → jobs d = pre ++ [.add attempts] →
      projection d trace = jobOps d pre ++ moment.map .load →
      ∀ cf it world paths result,
        loadBpfFiles cf it (loadOnDevice world d) paths = some (attempts, result) →
        (∀ p ∈ paths, IsObjfile p.fileName) → Apart paths →
        ∀ before b rest, attempts = before ++ b :: rest → loaded b.result = true →
          effects (before ++ [b]) <+: moment → ∀ q, .pin q ∈ b.result.ops → q ∈ bpffs trace := by
  refine ⟨fun d hd => h.view hd, fun p hp => h.origin hp, ?_, ?_⟩
  · intro d before kept after hd hsplit p hp hbelow
    exact h.removed hd hsplit hp hbelow
  · intro d pre attempts moment hd hjobs hmoment cf it world paths result hload hobj hapart
      before b rest hsplit hok hfrom q hq
    exact h.kept hd hjobs hmoment hload hobj hapart hsplit hok hfrom hq

def gone : String := "0003:046D:C52B.0002"

def comesAndGoes (d : String) : List Job :=
  if d = sysname then [.add (twoAttempts statePinFails)] else if d = gone then [.remove []] else []

def comesAndGoesTrace : List (String × BpffsOp) :=
  (loadPrograms statePinFails twoOps sysname newer).ops.map (sysname, .load ·) ++
    (gone, .removeObjects gone []) ::
      (loadPrograms working twoOps sysname older).ops.map (sysname, .load ·)

theorem two_objfiles : ∀ p ∈ [older, newer], IsObjfile p.fileName := by
  intro p hp
  rcases List.mem_pair.mp hp with rfl | rfl
  · exact ⟨"0010-foo".toList, rfl⟩
  · exact ⟨"0020-foo".toList, rfl⟩

theorem two_apart : Apart [older, newer] := by
  intro p hp q hq hne
  rw [confusable_iff]
  rcases List.mem_pair.mp hp with rfl | rfl <;> rcases List.mem_pair.mp hq with rfl | rfl
  · exact absurd rfl hne
  · decide
  · decide
  · exact absurd rfl hne

theorem comes_and_goes_moment : Moment comesAndGoes comesAndGoesTrace where
  runs := by
    intro d j hj
    rw [comesAndGoes] at hj
    split_ifs at hj with hd hd
    · obtain rfl := List.mem_singleton.mp hj
      subst hd
      exact ⟨_, _, _, _, _, twoAttempts_run (by decide), two_objfiles⟩
    · obtain rfl := List.mem_singleton.mp hj
      trivial
    · cases hj
  kernel := by
    intro d hd
    rw [comesAndGoes] at hd
    split_ifs at hd with h h
    · subst h
      exact @KernelSysname.of_all ['0', '0', '0', '3'] ['0', '4', '6', 'D'] ['C', '5', '2', 'B']
        ['0', '0', '0', '1'] (by decide)
    · subst h
      exact @KernelSysname.of_all ['0', '0', '0', '3'] ['0', '4', '6', 'D'] ['C', '5', '2', 'B']
        ['0', '0', '0', '2'] (by decide)
    · exact absurd rfl hd
  done := by
    intro d
    by_cases hd : d = sysname
    · subst hd
      decide +kernel
    by_cases hg : d = gone
    · subst hg
      decide +kernel
    · have hnone : projection d comesAndGoesTrace = [] := by
        apply List.map_eq_nil_iff.mpr
        apply List.filter_eq_nil_iff.mpr
        intro x hx hxd
        have hname : ∀ x ∈ comesAndGoesTrace, x.1 = sysname ∨ x.1 = gone := by decide +kernel
        rcases hname x hx with h | h
        · exact hd ((of_decide_eq_true hxd).symm.trans h)
        · exact hg ((of_decide_eq_true hxd).symm.trans h)
      rw [hnone]
      exact List.nil_prefix

theorem devices_do_not_interfere_two :
    ⟨bpffsDir sysname older, "state", .map, older⟩ ∈ bpffs comesAndGoesTrace := by
  obtain ⟨-, -, -, hkept⟩ := devices_do_not_interfere comesAndGoes comesAndGoesTrace
    comes_and_goes_moment
  have hkernel : KernelSysname sysname := comes_and_goes_moment.kernel sysname (by decide)
  exact hkept sysname [] (twoAttempts statePinFails) (effects (twoAttempts statePinFails)) hkernel
    (if_pos rfl) (by decide +kernel) asciiCase insertionOrder (newerMeets statePinFails)
    [older, newer] (.ok ()) (twoAttempts_run (by decide)) two_objfiles two_apart
    [⟨newer, loadPrograms statePinFails twoOps sysname newer⟩]
    ⟨older, loadPrograms working twoOps sysname older⟩ [] rfl (by decide) (List.prefix_refl _)
    ⟨bpffsDir sysname older, "state", .map, older⟩ (by simp [working_ops])

end BpffsWorkers
