import UdevHidBpf.FirstSuccess
import UdevHidBpf.LoadPrograms
import UdevHidBpf.StemSorting

/-! # `HidUdev::load_bpf_files`

The groups of `sort_by_stem` are tried one after the other, each until a file loads. How
a load ends may depend on everything attempted before. -/
namespace LoadBpfFiles

open BpfErrors BpffsPaths FirstSuccess GroupedSort LoadPrograms StemSorting

abbrev LoadAttempt := Attempt PathBuf Outcome

def loaded (out : Outcome) : Bool := succeeded out.result

/-- The attempts in their order, and the result. `none` is a panic of `sort_by_stem`. -/
def loadBpfFiles (cf : CaseFolding) (it : IterationOrder)
    (loadPrograms : List LoadAttempt → PathBuf → Outcome) (paths : List PathBuf) :
    Option (List LoadAttempt × Except ErrorKind Unit) :=
  (sortByStem cf PathBuf.fileName it paths).map fun sorted =>
    (tryGroups loadPrograms loaded [] sorted, .ok ())

section versions

variable (cf : CaseFolding) (it : IterationOrder)
  (load : List LoadAttempt → PathBuf → Outcome) (paths : List PathBuf)

theorem loadBpfFiles_eq {segments : List (List LoadAttempt)}
    (h : tryGroups load loaded [] (grouped (stem cf PathBuf.fileName)
      (loweredName cf PathBuf.fileName) paths) = segments.flatten) :
    loadBpfFiles cf it load paths = some (segments.flatten, .ok ()) := by
  rw [loadBpfFiles, sortByStem_eq, Option.map_some, h]

theorem grouped_disjoint :
    (grouped (stem cf PathBuf.fileName) (loweredName cf PathBuf.fileName) paths).Pairwise
      fun g h => ∀ p ∈ g, ∀ q ∈ h, stem cf PathBuf.fileName p ≠ stem cf PathBuf.fileName q :=
  (grouped_ascending _ _ _).imp fun h p hp q hq => ne_of_lt (h p hp q hq)

/-- Once a file of a stem loads, no file of that stem is attempted again. -/
theorem attempts_pairwise {segments : List (List LoadAttempt)}
    (h : List.Forall₂ (CutAfterSuccess loaded) (grouped (stem cf PathBuf.fileName)
      (loweredName cf PathBuf.fileName) paths) segments) :
    segments.flatten.Pairwise fun a b =>
      stem cf PathBuf.fileName a.item = stem cf PathBuf.fileName b.item →
        loaded a.result = false :=
  segments_pairwise h (grouped_disjoint cf paths)

/-- What a whole run does, whatever the loads answer. -/
structure Run (attempts : List LoadAttempt) : Prop where
  item_mem : ∀ a ∈ attempts, a.item ∈ paths
  once : attempts.Pairwise fun a b =>
    stem cf PathBuf.fileName a.item = stem cf PathBuf.fileName b.item → loaded a.result = false
  result : ∀ pre a post, attempts = pre ++ a :: post → a.result = load pre a.item

variable {cf it load paths} in
theorem loadBpfFiles_run {attempts : List LoadAttempt} {result : Except ErrorKind Unit}
    (h : loadBpfFiles cf it load paths = some (attempts, result)) : Run cf load paths attempts := by
  obtain ⟨segments, he, hcut⟩ := tryGroups_segments load loaded [] (grouped
    (stem cf PathBuf.fileName) (loweredName cf PathBuf.fileName) paths)
  rw [loadBpfFiles_eq cf it load paths he, Option.some.injEq, Prod.mk.injEq] at h
  obtain ⟨rfl, -⟩ := h
  refine ⟨fun a ha => ?_, attempts_pairwise cf paths hcut, fun pre a post hsplit => ?_⟩
  · obtain ⟨as, has, ha⟩ := List.mem_flatten.mp ha
    obtain ⟨g, hg, hc⟩ := OptionLists.forall₂_mem_right hcut has
    exact (grouped_flatten_perm _ _ _).mem_iff.mp (List.mem_flatten_of_mem hg (hc.item_mem ha))
  · have hhonest := tryGroups_honest load loaded [] (grouped
      (stem cf PathBuf.fileName) (loweredName cf PathBuf.fileName) paths)
    exact hhonest.result (he.trans hsplit)

variable {cf it load paths} in
theorem load_covers {attempts : List LoadAttempt} {result : Except ErrorKind Unit}
    (h : loadBpfFiles cf it load paths = some (attempts, result)) {p : PathBuf} (hp : p ∈ paths) :
    ∃ a ∈ attempts, stem cf PathBuf.fileName a.item = stem cf PathBuf.fileName p ∧
      (a.item = p ∨ (loaded a.result = true ∧
        loweredName cf PathBuf.fileName p ≤ loweredName cf PathBuf.fileName a.item)) := by
  obtain ⟨segments, he, hcut⟩ := tryGroups_segments load loaded [] (grouped
    (stem cf PathBuf.fileName) (loweredName cf PathBuf.fileName) paths)
  rw [loadBpfFiles_eq cf it load paths he, Option.some.injEq, Prod.mk.injEq] at h
  obtain ⟨rfl, -⟩ := h
  obtain ⟨g, hg, hpg⟩ := List.mem_flatten.mp ((grouped_flatten_perm
    (stem cf PathBuf.fileName) (loweredName cf PathBuf.fileName) paths).mem_iff.mpr hp)
  obtain ⟨as, has, hc⟩ := OptionLists.forall₂_mem_left hcut hg
  obtain ⟨a, ha, hcover⟩ := hc.covers (grouped_descending _ _ _ hg) hpg
  have hmem {q : PathBuf} (hq : q ∈ g) : q ∈ paths :=
    (grouped_flatten_perm _ _ _).mem_iff.mp (List.mem_flatten_of_mem hg hq)
  have hitem := hc.item_mem ha
  exact ⟨a, List.mem_flatten_of_mem has ha,
    (same_group_iff _ _ _ (hmem hitem) (hmem hpg)).mp ⟨g, hg, hitem, hpg⟩, hcover⟩

variable {cf it load paths} in
/-- Before a file is attempted, the versions above it were and failed. -/
theorem load_order {attempts : List LoadAttempt} {result : Except ErrorKind Unit}
    (h : loadBpfFiles cf it load paths = some (attempts, result)) {pre post : List LoadAttempt}
    {a : LoadAttempt} (hsplit : attempts = pre ++ a :: post) {p : PathBuf} (hp : p ∈ paths)
    (hstem : stem cf PathBuf.fileName p = stem cf PathBuf.fileName a.item)
    (habove : loweredName cf PathBuf.fileName a.item < loweredName cf PathBuf.fileName p) :
    ∃ b ∈ pre, b.item = p ∧ loaded b.result = false := by
  obtain ⟨segments, he, hcut⟩ := tryGroups_segments load loaded [] (grouped
    (stem cf PathBuf.fileName) (loweredName cf PathBuf.fileName) paths)
  rw [loadBpfFiles_eq cf it load paths he, Option.some.injEq, Prod.mk.injEq] at h
  obtain ⟨as, has, pre', post', rfl, hpre⟩ := flatten_split (h.1.trans hsplit)
  obtain ⟨g, hg, hc⟩ := OptionLists.forall₂_mem_right hcut has
  have hag : a.item ∈ g := hc.item_mem (List.mem_append_right _ List.mem_cons_self)
  have hpg := mem_group_of_key _ _ _ hg hag hp hstem
  have hne : p ≠ a.item := by
    rintro rfl
    exact lt_irrefl _ habove
  obtain ⟨b, hb, hbp, hfailed⟩ := hc.tried_before (grouped_descending _ _ _ hg) hpg hne
    (not_le.mpr habove)
  exact ⟨b, hpre hb, hbp, hfailed⟩

/-- The attempts are, group by group, the files in descending version order cut after the
first that loads, and the result is always `Ok`. -/
theorem load_bpf_files_spec :
    ∃ groups segments, sortByStem cf PathBuf.fileName it paths = some groups ∧
      loadBpfFiles cf it load paths = some (segments.flatten, .ok ()) ∧
      List.Forall₂ (CutAfterSuccess loaded) groups segments ∧
      groups.flatten.Perm paths ∧
      (groups.Pairwise fun g h => ∀ p ∈ g, ∀ q ∈ h,
        stem cf PathBuf.fileName p < stem cf PathBuf.fileName q) ∧
      (∀ g ∈ groups, ∀ p ∈ g, ∀ q ∈ g,
        stem cf PathBuf.fileName p = stem cf PathBuf.fileName q) ∧
      (∀ g ∈ groups, g.Pairwise fun p q =>
        loweredName cf PathBuf.fileName q ≤ loweredName cf PathBuf.fileName p) ∧
      (∀ g ∈ groups, ∀ (i j m n : ℕ) (p q : PathBuf), g[i]? = some p → g[j]? = some q →
        HasVersion PathBuf.fileName p m → HasVersion PathBuf.fileName q n → m < n → j < i) ∧
      (∀ as ∈ segments, ∀ a ∈ as, loaded a.result = true →
        as.getLast? = some a ∧ as.countP (fun b => loaded b.result) = 1) ∧
      List.Forall₂ (fun g as => (∀ a ∈ as, loaded a.result = false) →
        as.map Attempt.item = g) groups segments ∧
      (∀ as ∈ segments, as ≠ []) ∧
      ∀ pre a post, segments.flatten = pre ++ a :: post →
        a.result = load pre a.item ∧
        (loaded a.result = true → ∀ b ∈ post,
          stem cf PathBuf.fileName b.item ≠ stem cf PathBuf.fileName a.item) := by
  obtain ⟨segments, he, hcut⟩ := tryGroups_segments load loaded [] (grouped
    (stem cf PathBuf.fileName) (loweredName cf PathBuf.fileName) paths)
  have hdesc : ∀ g ∈ grouped (stem cf PathBuf.fileName) (loweredName cf PathBuf.fileName) paths,
      g.Pairwise fun p q =>
        loweredName cf PathBuf.fileName q ≤ loweredName cf PathBuf.fileName p :=
    fun g hg => grouped_descending _ _ _ hg
  have hgroup : ∀ as ∈ segments, ∃ g ∈ grouped (stem cf PathBuf.fileName)
      (loweredName cf PathBuf.fileName) paths, CutAfterSuccess loaded g as :=
    fun as has => OptionLists.forall₂_mem_right hcut has
  refine ⟨_, segments, sortByStem_eq it paths, loadBpfFiles_eq cf it load paths he, hcut,
    grouped_flatten_perm _ _ _, grouped_ascending _ _ _, ?_, hdesc, ?_, ?_, ?_, ?_, ?_⟩
  · intro g hg p hp q hq
    have hmem {r : PathBuf} (hr : r ∈ g) : r ∈ paths :=
      (grouped_flatten_perm _ _ _).mem_iff.mp (List.mem_flatten_of_mem hg hr)
    exact (same_group_iff _ _ _ (hmem hp) (hmem hq)).mp ⟨g, hg, hp, hq⟩
  · intro g hg i j m n p q hi hj hp hq hmn
    exact higher_version_first cf PathBuf.fileName (hdesc g hg) hi hj hp hq hmn
  · intro as has a ha hok
    obtain ⟨g, -, hc⟩ := hgroup as has
    exact hc.of_success ha hok
  · exact hcut.imp fun g as hc => hc.of_failure
  · intro as has
    obtain ⟨g, hg, hc⟩ := hgroup as has
    exact hc.ne_nil (grouped_ne_nil _ _ _ hg)
  · intro pre a post hsplit
    have hhonest := tryGroups_honest load loaded [] (grouped
      (stem cf PathBuf.fileName) (loweredName cf PathBuf.fileName) paths)
    refine ⟨hhonest.result (he.trans hsplit), fun hok b hb hk => ?_⟩
    have hpair := attempts_pairwise cf paths hcut
    rw [hsplit] at hpair
    have hfail := (List.pairwise_cons.mp (List.pairwise_append.mp hpair).2.1).1 b hb hk.symm
    simp [hok] at hfail

end versions

/-- The loads of one device; `world` says what a load meets. -/
def loadOnDevice (world : List LoadAttempt → PathBuf → Env × Object) (sysname : String)
    (h : List LoadAttempt) (path : PathBuf) : Outcome :=
  loadPrograms (world h path).1 (world h path).2 sysname path

def effects (attempts : List LoadAttempt) : List FsOp := attempts.flatMap fun a => a.result.ops

section moments

variable {sysname : String}

/-- A load whose failure leaves nothing behind. -/
def CleanAttempt (sysname : String) (a : LoadAttempt) : Prop :=
  ∃ env object, a.result = loadPrograms env object sysname a.item ∧ CleanExit env object

theorem settled {as : List LoadAttempt} (hc : ∀ a ∈ as, CleanAttempt sysname a) {s : List Pin}
    {p : Pin} (hp : p ∈ replay s (effects as)) :
    p ∈ s ∨ ∃ a ∈ as, loaded a.result = true ∧ p.object = a.item := by
  induction as generalizing s with
  | nil => exact .inl hp
  | cons a as ih =>
    rw [effects, List.flatMap_cons, replay_append] at hp
    rcases ih (fun b hb => hc b (List.mem_cons_of_mem _ hb)) hp with hp | ⟨b, hb, hok, ho⟩
    · obtain ⟨env, object, he, hclean⟩ := hc a List.mem_cons_self
      rw [he] at hp
      cases hok : loaded a.result with
      | false =>
        rw [he] at hok
        exact .inl (clean_failure_leaves env object sysname a.item hclean hok p hp)
      | true =>
        rcases mem_replay hp with hp | hp
        · exact .inl hp
        · exact .inr ⟨a, List.mem_cons_self, hok, (loadPrograms_owns _ _ _ _ hp).2⟩
    · exact .inr ⟨b, List.mem_cons_of_mem _ hb, hok, ho⟩

/-- At any moment whatever is new belongs to a file that loaded or is being loaded. -/
theorem owner_at_moment {as : List LoadAttempt} (hc : ∀ a ∈ as, CleanAttempt sysname a)
    {s : List Pin} {done rest : List FsOp} (hd : effects as = done ++ rest) :
    (∀ p ∈ replay s done, p ∈ s) ∨ ∃ pre a post, as = pre ++ a :: post ∧
      ∀ p ∈ replay s done, p ∈ s ∨ (∃ b ∈ pre, loaded b.result = true ∧ p.object = b.item) ∨
        p.object = a.item := by
  rcases flatMap_moment hd with rfl | ⟨pre, a, post, current, has, rfl, hcur⟩
  · exact .inl fun p hp => hp
  refine .inr ⟨pre, a, post, has, fun p hp => ?_⟩
  rw [replay_append] at hp
  rcases mem_replay hp with hp | hp
  · rcases settled (fun b hb => hc b (by simp [has, hb])) hp with hp | hp
    · exact .inl hp
    · exact .inr (.inl hp)
  · obtain ⟨env, object, he, -⟩ := hc a (by simp [has])
    refine .inr (.inr ?_)
    have hin := hcur.subset hp
    rw [he] at hin
    exact (loadPrograms_owns _ _ _ _ hin).2

theorem same_owner {as : List LoadAttempt} {stem : PathBuf → String}
    (hpair : as.Pairwise fun a b => stem a.item = stem b.item → loaded a.result = false)
    {pre post : List LoadAttempt} {a : LoadAttempt} (has : as = pre ++ a :: post)
    {x y : PathBuf}
    (hx : (∃ b ∈ pre, loaded b.result = true ∧ x = b.item) ∨ x = a.item)
    (hy : (∃ b ∈ pre, loaded b.result = true ∧ y = b.item) ∨ y = a.item)
    (hxy : stem x = stem y) : x = y := by
  rw [has] at hpair
  obtain ⟨hpre, -, hcross⟩ := List.pairwise_append.mp hpair
  have hcurrent {b : LoadAttempt} (hb : b ∈ pre) (hok : loaded b.result = true) :
      stem b.item ≠ stem a.item := by
    intro h
    simp [hcross b hb a List.mem_cons_self h] at hok
  rcases hx with ⟨b, hb, hbok, rfl⟩ | rfl <;> rcases hy with ⟨c, hc, hcok, rfl⟩ | rfl
  · by_contra hne
    have hsym : pre.Pairwise fun b c => loaded b.result = true → loaded c.result = true →
        stem b.item = stem c.item → b.item = c.item := by
      refine hpre.imp ?_
      intro b c h hb _ hs
      simp [h hs] at hb
    have hflip : pre.Pairwise fun b c => loaded c.result = true → loaded b.result = true →
        stem c.item = stem b.item → c.item = b.item := by
      refine hpre.imp ?_
      intro b c h _ hb hs
      simp [h hs.symm] at hb
    exact hne (List.Pairwise.forall_of_forall_of_flip (fun _ _ _ _ _ => rfl) hsym hflip hb hc
      hbok hcok hxy)
  · exact absurd hxy (hcurrent hb hbok)
  · exact absurd hxy.symm (hcurrent hc hcok)
  · rfl

end moments

/-- A failed load leaves nothing in its directory exactly when its exit is clean, and as
long as every exit is, no two files of one stem have entries at the same moment. -/
theorem failed_load_leaves_nothing_iff (cf : CaseFolding) (it : IterationOrder)
    (world : List LoadAttempt → PathBuf → Env × Object) (sysname : String)
    (paths : List PathBuf) :
    (∀ (env : Env) (object : Object) (path : PathBuf) (s : List Pin),
      (∀ p ∈ s, p.dir ≠ bpffsDir sysname path) →
      ((∀ e, (loadPrograms env object sysname path).result = .error e →
        ∀ p ∈ replay s (loadPrograms env object sysname path).ops,
          p.dir ≠ bpffsDir sysname path) ↔ CleanExit env object)) ∧
    ∀ attempts result, loadBpfFiles cf it (loadOnDevice world sysname) paths =
        some (attempts, result) →
      (∀ pre a post, attempts = pre ++ a :: post →
        CleanExit (world pre a.item).1 (world pre a.item).2) →
      ∀ s : List Pin, (∀ p ∈ s, ∀ path ∈ paths, p.dir ≠ bpffsDir sysname path) →
      ∀ done rest, effects attempts = done ++ rest →
      ∀ p ∈ replay s done, ∀ q ∈ replay s done,
        (∃ path ∈ paths, p.dir = bpffsDir sysname path) →
        (∃ path ∈ paths, q.dir = bpffsDir sysname path) →
        stem cf PathBuf.fileName p.object = stem cf PathBuf.fileName q.object →
        p.object = q.object := by
  refine ⟨fun env object path s hs => ?_, ?_⟩
  · rw [← clean_exit_iff env object sysname path hs, succeeded_eq_false]
    exact ⟨fun h ⟨e, he⟩ => h e he, fun h e he => h ⟨e, he⟩⟩
  intro attempts result hrun hclean s hs done rest hd p hp q hq hpd hqd hstem
  have hspec := loadBpfFiles_run hrun
  have hall : ∀ a ∈ attempts, CleanAttempt sysname a := by
    intro a ha
    obtain ⟨pre, post, hsplit⟩ := List.append_of_mem ha
    exact ⟨_, _, hspec.result pre a post hsplit, hclean pre a post hsplit⟩
  have hnew {r : Pin} (hr : ∃ path ∈ paths, r.dir = bpffsDir sysname path) : r ∉ s := by
    obtain ⟨path, hpath, hdir⟩ := hr
    exact fun hrs => hs r hrs path hpath hdir
  rcases owner_at_moment hall hd with h | ⟨pre, a, post, hsplit, hown⟩
  · exact absurd (h p hp) (hnew hpd)
  · exact same_owner hspec.once hsplit ((hown p hp).resolve_left (hnew hpd))
      ((hown q hq).resolve_left (hnew hqd)) hstem

def newer : PathBuf := ⟨"/lib/firmware/hid/bpf", "0020-foo.bpf.o"⟩

def older : PathBuf := ⟨"/lib/firmware/hid/bpf", "0010-foo.bpf.o"⟩

def sysname : String := "0003:046D:C52B.0001"

def working : Env where
  readReportDescriptor := .ok ()
  openFile := .ok ()
  traceSupported := true
  loadObject := .ok ()
  fromBpfObject := .ok ()
  injectUdevProperties := .ok ()
  injectReportDescriptor := .ok ()
  probe := .ok ()
  attachProg := fun _ => .ok ()
  pinProg := fun _ => .ok ()
  attachStructOps := fun _ => .ok ()
  pinLink := fun _ => .ok ()
  pinMap := fun _ => .ok ()
  lookup := fun _ => .ok none

def twoOps : Object where
  progs := []
  maps := [⟨4, "first", .structOps⟩, ⟨5, "second", .structOps⟩, ⟨6, "state", .other⟩]
  propertyMaps := []

/-- The newer version meets `env`, the older one loads. -/
def newerMeets (env : Env) (_ : List LoadAttempt) (path : PathBuf) : Env × Object :=
  (if path = newer then env else working, twoOps)

def statePinFails : Env := { working with pinMap := fun _ => .error (.osError 28) }

def secondAttachFails : Env :=
  { working with attachStructOps := fun m =>
      if m.name = "second" then .error (.osError EINVAL) else .ok () }

def twoAttempts (env : Env) : List LoadAttempt :=
  [⟨newer, loadPrograms env twoOps sysname newer⟩,
    ⟨older, loadPrograms working twoOps sysname older⟩]

theorem twoAttempts_run {env : Env}
    (h : loaded (loadPrograms env twoOps sysname newer) = false) :
    loadBpfFiles asciiCase insertionOrder (loadOnDevice (newerMeets env) sysname) [older, newer] =
      some (twoAttempts env, .ok ()) := by
  have hsorted : sortByStem asciiCase PathBuf.fileName insertionOrder [older, newer] =
      some [[newer, older]] := by decide +kernel
  have hnewer (hist : List LoadAttempt) :
      loadOnDevice (newerMeets env) sysname hist newer = loadPrograms env twoOps sysname newer :=
    rfl
  have holder (hist : List LoadAttempt) :
      loadOnDevice (newerMeets env) sysname hist older =
        loadPrograms working twoOps sysname older := rfl
  simp [loadBpfFiles, hsorted, tryGroups, tryGroup, hnewer, holder, h, twoAttempts]

theorem failed_load_leaves_nothing_pin_fails :
    (∀ e, (loadPrograms statePinFails twoOps sysname newer).result = .error e →
      ∀ p ∈ replay [] (loadPrograms statePinFails twoOps sysname newer).ops,
        p.dir ≠ bpffsDir sysname newer) ∧
    ∀ done rest, effects (twoAttempts statePinFails) = done ++ rest →
      ∀ p ∈ replay [] done, ∀ q ∈ replay [] done,
        p.dir = bpffsDir sysname newer → q.dir = bpffsDir sysname older →
        stem asciiCase PathBuf.fileName p.object = stem asciiCase PathBuf.fileName q.object →
        p.object = q.object := by
  obtain ⟨hcall, hrun⟩ := failed_load_leaves_nothing_iff asciiCase insertionOrder
    (newerMeets statePinFails) sysname [older, newer]
  refine ⟨(hcall statePinFails twoOps newer [] (by simp)).mpr (by decide), ?_⟩
  intro done rest hd p hp q hq hpd hqd
  refine hrun (twoAttempts statePinFails) (.ok ()) (twoAttempts_run (by decide)) ?_ [] (by simp)
    done rest hd p hp q hq ⟨newer, by simp, hpd⟩ ⟨older, by simp, hqd⟩
  intro pre a post _
  unfold newerMeets
  split <;> decide

/-- The second struct_ops map does not attach: the link of the first stays, and with the
older version loaded two files of one stem have links. -/
theorem link_outlives_failed_load :
    (∃ e, (loadPrograms secondAttachFails twoOps sysname newer).result = .error e) ∧
    replay [] (loadPrograms secondAttachFails twoOps sysname newer).ops =
      [⟨bpffsDir sysname newer, "first", .link, newer⟩] ∧
    loadBpfFiles asciiCase insertionOrder (loadOnDevice (newerMeets secondAttachFails) sysname)
      [older, newer] = some (twoAttempts secondAttachFails, .ok ()) ∧
    (∃ p ∈ replay [] (effects (twoAttempts secondAttachFails)),
      ∃ q ∈ replay [] (effects (twoAttempts secondAttachFails)),
        p.kind = .link ∧ q.kind = .link ∧
        stem asciiCase PathBuf.fileName p.object = stem asciiCase PathBuf.fileName q.object ∧
        p.object ≠ q.object) := by
  refine ⟨succeeded_eq_false.mp (by decide), by decide, twoAttempts_run (by decide), ?_⟩
  refine ⟨⟨bpffsDir sysname newer, "first", .link, newer⟩, by decide,
    ⟨bpffsDir sysname older, "first", .link, older⟩, by decide, rfl, rfl, by decide, by decide⟩

end LoadBpfFiles
