import Mathlib.Data.List.DropRight
import UdevHidBpf.BpffsNames
import UdevHidBpf.LoadBpfFiles
import UdevHidBpf.ObjectLookup

/-! # Where two object files meet

Two files of a device share a directory when their names differ in separators only, and
then the failure of one removes what the other has pinned. -/
namespace PinPaths

open BpfErrors BpffsNames BpffsPaths FirstSuccess GroupedSort LoadBpfFiles LoadPrograms
open ObjectLookup RadixText StemSorting

def pathBuf (path : Text) : PathBuf where
  parent := String.ofList (path.rdropWhile (· ≠ '/'))
  fileName := String.ofList (path.rtakeWhile (· ≠ '/'))

def IsObjfile (fileName : String) : Prop := suffix <:+ fileName.toList

theorem isObjfile_pathBuf {path : Text} (h : suffix <:+ path) :
    IsObjfile (pathBuf path).fileName := by
  obtain ⟨front, rfl⟩ := h
  simp only [IsObjfile, pathBuf, String.toList_ofList]
  rw [List.rtakeWhile, List.reverse_append, List.takeWhile_append_of_pos (by simp [suffix]),
    List.reverse_append, List.reverse_reverse]
  exact List.suffix_append _ _

theorem isObjfile_of_mem {fs : FileSystem} {filenames dirs : List Text} {path : Text}
    (h : path ∈ findNamedObjfiles fs filenames dirs) : IsObjfile (pathBuf path).fileName := by
  obtain ⟨filename, hmem, hpath⟩ := List.mem_filterMap.mp h
  have hsuffix : suffix <:+ filename :=
    List.isSuffixOf_iff_suffix.mp (List.mem_filter.mp hmem).2
  apply isObjfile_pathBuf
  split at hpath
  · cases hpath
    exact hsuffix
  · exact (find_first_spec hpath).2.mpr hsuffix

/-- The names are the same up to which separator stands in a place. -/
def Confusable (f g : String) : Prop :=
  List.Forall₂ (fun c d => c = d ∨ (c ∈ [':', '.', '_'] ∧ d ∈ [':', '.', '_'])) f.toList g.toList

theorem underscore_eq_iff {c d : Char} :
    underscore c = underscore d ↔ c = d ∨ (c ∈ [':', '.', '_'] ∧ d ∈ [':', '.', '_']) := by
  simp only [underscore, List.mem_cons, List.not_mem_nil, or_false]
  split <;> split <;> grind

theorem confusable_iff {f g : String} :
    Confusable f g ↔ replaceSeparators f = replaceSeparators g := by
  rw [← String.toList_inj, toList_replaceSeparators, toList_replaceSeparators, Confusable]
  rw [← List.forall₂_eq_eq_eq, List.forall₂_map_left_iff, List.forall₂_map_right_iff]
  simp only [underscore_eq_iff]

theorem toList_fileStem {f : String} {front : Text} (h : f.toList = front ++ suffix) :
    (fileStem f).toList = front ++ ".bpf".toList := by
  have hrev : f.toList.reverse.dropWhile (· ≠ '.') = ".fpb.".toList ++ front.reverse := by
    rw [h, List.reverse_append]
    rfl
  rw [fileStem, hrev]
  simp

theorem replaceSeparators_fileStem {f g : String} (hf : IsObjfile f) (hg : IsObjfile g) :
    replaceSeparators (fileStem f) = replaceSeparators (fileStem g) ↔ Confusable f g := by
  obtain ⟨front, hfront⟩ := hf
  obtain ⟨front', hfront'⟩ := hg
  rw [confusable_iff, ← String.toList_inj, ← String.toList_inj]
  simp only [toList_replaceSeparators]
  rw [toList_fileStem hfront.symm, toList_fileStem hfront'.symm, ← hfront, ← hfront']
  simp only [List.map_append, List.append_cancel_right_eq]

/-- Where an object file is pinned tells the device, and the file up to its separators. -/
theorem bpffsDir_eq_iff {d e : String} {p q : PathBuf} (hd : KernelSysname d)
    (he : KernelSysname e) (hp : IsObjfile p.fileName) (hq : IsObjfile q.fileName) :
    bpffsDir d p = bpffsDir e q ↔ d = e ∧ Confusable p.fileName q.fileName := by
  rw [bpffsDir, bpffsDir, getBpffsPath_eq_iff hd he, replaceSeparators_fileStem hp hq]

section run

variable {cf : CaseFolding} {world : List LoadAttempt → PathBuf → Env × Object}
variable {sysname : String} {paths : List PathBuf} {attempts : List LoadAttempt}

/-- Files with different names do not meet. -/
def Apart (paths : List PathBuf) : Prop :=
  ∀ p ∈ paths, ∀ q ∈ paths, p.fileName ≠ q.fileName → ¬ Confusable p.fileName q.fileName

theorem removed_by_attempt (h : Run cf (loadOnDevice world sysname) paths attempts)
    {d : String} {pre rest : List LoadAttempt} {ops : List FsOp} (hsplit : attempts = pre ++ rest)
    (hops : ops <+: effects rest) (hd : .removeDirAll d ∈ ops) :
    ∃ a ∈ rest, d = bpffsDir sysname a.item := by
  obtain ⟨a, ha, hmem⟩ := List.mem_flatMap.mp (hops.subset hd)
  obtain ⟨before, after, hrest⟩ := List.append_of_mem ha
  have hresult := h.result (pre ++ before) a after (by rw [hsplit, hrest, List.append_assoc])
  rw [hresult] at hmem
  exact ⟨a, ha, (loadPrograms_removes _ _ _ _ hmem).1⟩

theorem foreign_pin_stays (h : Run cf (loadOnDevice world sysname) paths attempts)
    {s : List Pin} {q : Pin} (hq : q ∈ s) (hdir : ∀ p ∈ paths, q.dir ≠ bpffsDir sysname p)
    {moment : List FsOp} (hm : moment <+: effects attempts) : q ∈ replay s moment := by
  apply mem_replay_of_kept hq
  intro d hd
  obtain ⟨a, ha, rfl⟩ := removed_by_attempt h (List.nil_append attempts).symm hm hd
  exact hdir a.item (h.item_mem a ha)

/-- What is attempted after a file has loaded has another directory: the versions of one file
are given up, and other files are apart. -/
theorem later_dir_ne (h : Run cf (loadOnDevice world sysname) paths attempts)
    (hsys : KernelSysname sysname) (hobj : ∀ p ∈ paths, IsObjfile p.fileName)
    (hapart : Apart paths) {pre rest : List LoadAttempt} {a b : LoadAttempt}
    (hsplit : attempts = pre ++ b :: rest) (hok : loaded b.result = true) (ha : a ∈ rest) :
    bpffsDir sysname b.item ≠ bpffsDir sysname a.item := by
  intro hdir
  have hmem {c : LoadAttempt} (hc : c ∈ b :: rest) : c.item ∈ paths := by
    apply h.item_mem
    rw [hsplit]
    exact List.mem_append_right _ hc
  have hb := hmem List.mem_cons_self
  have ha' := hmem (List.mem_cons_of_mem _ ha)
  have hconf := ((bpffsDir_eq_iff hsys hsys (hobj _ hb) (hobj _ ha')).mp hdir).2
  have hname : b.item.fileName = a.item.fileName := by
    by_contra hne
    exact hapart _ hb _ ha' hne hconf
  have honce := h.once
  rw [hsplit] at honce
  have hfail := (List.pairwise_cons.mp (List.pairwise_append.mp honce).2.1).1 a ha
    (by rw [stem, stem, hname])
  simp [hfail] at hok

/-- What a file pins that has loaded is there at every later moment. -/
theorem loaded_pin_stays (h : Run cf (loadOnDevice world sysname) paths attempts)
    (hsys : KernelSysname sysname) (hobj : ∀ p ∈ paths, IsObjfile p.fileName)
    (hapart : Apart paths) {pre rest : List LoadAttempt} {b : LoadAttempt}
    (hsplit : attempts = pre ++ b :: rest) (hok : loaded b.result = true) {q : Pin}
    (hq : .pin q ∈ b.result.ops) (s : List Pin) {moment : List FsOp}
    (hfrom : effects (pre ++ [b]) <+: moment) (hto : moment <+: effects attempts) :
    q ∈ replay s moment := by
  have hresult := h.result pre b rest hsplit
  obtain ⟨later, rfl⟩ := hfrom
  have hlater : later <+: effects rest := by
    have hsplit' : effects attempts = effects (pre ++ [b]) ++ effects rest := by
      simp [effects, hsplit]
    rwa [hsplit', List.prefix_append_right_inj] at hto
  rw [replay_append]
  apply mem_replay_of_kept
  · rw [hresult] at hq hok
    have hpins := loaded_onlyPins _ _ _ _ hok
    rw [effects, List.flatMap_append, replay_append, List.flatMap_singleton, hresult]
    exact hpins.mem_replay_iff.mpr (.inr hq)
  · intro d hd
    obtain ⟨a, ha, rfl⟩ := removed_by_attempt h
      (hsplit.trans (List.append_cons pre b rest)) hlater hd
    rw [hresult] at hq
    rw [(loadPrograms_owns _ _ _ _ hq).1]
    exact later_dir_ne h hsys hobj hapart hsplit hok ha

end run

/-- Different pairs of a device and a file have different directories unless the device is
the same and the names differ in separators only. In a run without such names no failure
removes what another file has pinned, in this run or before. -/
theorem pins_apart_iff (fs fs' : FileSystem) (filenames dirs filenames' dirs' : List Text)
    (d e : String) (f g : Text) (hd : KernelSysname d) (he : KernelSysname e)
    (hf : f ∈ findNamedObjfiles fs filenames dirs)
    (hg : g ∈ findNamedObjfiles fs' filenames' dirs') :
    (bpffsDir d (pathBuf f) ≠ bpffsDir e (pathBuf g) ↔
      (d = e → ¬ Confusable (pathBuf f).fileName (pathBuf g).fileName)) ∧
    ∀ cf it world paths attempts result,
      paths = (findNamedObjfiles fs filenames dirs).map pathBuf →
      loadBpfFiles cf it (loadOnDevice world d) paths = some (attempts, result) →
      Apart paths → ∀ s moment, moment <+: effects attempts →
      (∀ pre b rest, attempts = pre ++ b :: rest → loaded b.result = true →
        effects (pre ++ [b]) <+: moment →
        ∀ q, .pin q ∈ b.result.ops → q ∈ replay s moment) ∧
      ((d = e → ∀ p ∈ paths, ¬ Confusable (pathBuf g).fileName p.fileName) →
        ∀ q ∈ s, q.dir = bpffsDir e (pathBuf g) → q ∈ replay s moment) := by
  have hobj := isObjfile_of_mem hf
  have hobj' := isObjfile_of_mem hg
  refine ⟨?_, ?_⟩
  · rw [Ne, bpffsDir_eq_iff hd he hobj hobj']
    exact not_and
  rintro cf it world paths attempts result rfl hrun hapart s moment hm
  have hspec := loadBpfFiles_run hrun
  have hall : ∀ p ∈ (findNamedObjfiles fs filenames dirs).map pathBuf, IsObjfile p.fileName := by
    intro p hp
    obtain ⟨path, hpath, rfl⟩ := List.mem_map.mp hp
    exact isObjfile_of_mem hpath
  constructor
  · intro pre b rest hsplit hok hfrom q hq
    exact loaded_pin_stays hspec hd hall hapart hsplit hok hq s hfrom hm
  · intro hother q hq hdir
    refine foreign_pin_stays hspec hq ?_ hm
    intro p hp
    rw [hdir, Ne, bpffsDir_eq_iff he hd hobj' (hall p hp)]
    rintro ⟨rfl, hconf⟩
    exact hother rfl p hp hconf

def dotted : PathBuf := ⟨"/lib/firmware/hid/bpf/", "0010-a.b.bpf.o"⟩

def underscored : PathBuf := ⟨"/lib/firmware/hid/bpf/", "0010-a_b.bpf.o"⟩

def firmware : List Text :=
  ["/lib/firmware/hid/bpf/0010-a.b.bpf.o".toList, "/lib/firmware/hid/bpf/0010-a_b.bpf.o".toList]

def allThere : FileSystem := fun _ => some .file

theorem found : (findNamedObjfiles allThere firmware []).map pathBuf = [dotted, underscored] := by
  decide

theorem pins_apart_other_device :
    bpffsDir sysname (pathBuf "/a/0010-a.b.bpf.o".toList) ≠
      bpffsDir "0003:046D:C52B.0002" (pathBuf "/a/0010-a_b.bpf.o".toList) := by
  have h := pins_apart_iff allThere allThere ["/a/0010-a.b.bpf.o".toList] []
    ["/a/0010-a_b.bpf.o".toList] []
    (joinSysname ['0', '0', '0', '3'] ['0', '4', '6', 'D'] ['C', '5', '2', 'B']
      ['0', '0', '0', '1'])
    (joinSysname ['0', '0', '0', '3'] ['0', '4', '6', 'D'] ['C', '5', '2', 'B']
      ['0', '0', '0', '2'])
    "/a/0010-a.b.bpf.o".toList "/a/0010-a_b.bpf.o".toList (.of_all (by decide))
    (.of_all (by decide)) (by decide) (by decide)
  exact h.1.mpr fun he => absurd he (by decide)

def thirdOp : Object where
  progs := []
  maps := [⟨4, "third", .structOps⟩, ⟨6, "state", .other⟩]
  propertyMaps := []

def statePinned : Env := { working with pinMap := fun _ => .error (.osError 17) }

def meeting (_ : List LoadAttempt) (path : PathBuf) : Env × Object :=
  if path = dotted then (working, twoOps) else (statePinned, thirdOp)

def meetingAttempts : List LoadAttempt :=
  [⟨dotted, loadPrograms working twoOps sysname dotted⟩,
    ⟨underscored, loadPrograms statePinned thirdOp sysname underscored⟩]

theorem working_ops (path : PathBuf) : (loadPrograms working twoOps sysname path).ops =
    .createDirAll (bpffsDir sysname path) :: ["first", "second"].map
      (fun name => .pin ⟨bpffsDir sysname path, name, .link, path⟩) ++
      [.pin ⟨bpffsDir sysname path, "state", .map, path⟩] := rfl

theorem statePinned_ops (path : PathBuf) : (loadPrograms statePinned thirdOp sysname path).ops =
    [.createDirAll (bpffsDir sysname path), .pin ⟨bpffsDir sysname path, "third", .link, path⟩,
      .removeDirAll (bpffsDir sysname path)] := rfl

theorem meeting_dir : bpffsDir sysname dotted = bpffsDir sysname underscored := by
  have hstem : replaceSeparators (fileStem dotted.fileName) =
      replaceSeparators (fileStem underscored.fileName) := by decide
  rw [bpffsDir, bpffsDir, getBpffsPath, getBpffsPath, hstem]

/-- Both files have one directory, and when the second fails the pins of the first go. -/
theorem dot_meets_underscore :
    KernelSysname sysname ∧
      (findNamedObjfiles allThere firmware []).map pathBuf = [dotted, underscored] ∧
      dotted.fileName ≠ underscored.fileName ∧
      bpffsDir sysname dotted = bpffsDir sysname underscored ∧
      loadBpfFiles asciiCase insertionOrder (loadOnDevice meeting sysname) [dotted, underscored] =
        some (meetingAttempts, .ok ()) ∧
      meetingAttempts.map (fun a => loaded a.result) = [true, false] ∧
      (replay [] (effects (meetingAttempts.take 1))).map Pin.name =
        ["first", "second", "state"] ∧
      replay [] (effects meetingAttempts) = [] := by
  have hsorted : sortByStem asciiCase PathBuf.fileName insertionOrder [dotted, underscored] =
      some [[dotted], [underscored]] := by decide +kernel
  have hdotted (hist : List LoadAttempt) : loadOnDevice meeting sysname hist dotted =
      loadPrograms working twoOps sysname dotted := rfl
  have hunder (hist : List LoadAttempt) : loadOnDevice meeting sysname hist underscored =
      loadPrograms statePinned thirdOp sysname underscored := rfl
  have hok : loaded (loadPrograms working twoOps sysname dotted) = true := rfl
  have hfail : loaded (loadPrograms statePinned thirdOp sysname underscored) = false := rfl
  have hsysname : KernelSysname sysname :=
    @KernelSysname.of_all ['0', '0', '0', '3'] ['0', '4', '6', 'D'] ['C', '5', '2', 'B']
      ['0', '0', '0', '1'] (by decide)
  refine ⟨hsysname, found, by decide, meeting_dir, ?_, ?_, ?_, ?_⟩
  · simp [loadBpfFiles, hsorted, tryGroups, tryGroup, hdotted, hunder, hok, meetingAttempts]
  · simp [meetingAttempts, hok, hfail]
  · simp [meetingAttempts, effects, working_ops, replay, applyOp]
  · simp [meetingAttempts, effects, working_ops, statePinned_ops, replay, applyOp, meeting_dir]

end PinPaths
