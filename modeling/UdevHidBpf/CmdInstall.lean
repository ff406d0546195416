import UdevHidBpf.FileTrees
import UdevHidBpf.ObjectLookup
import UdevHidBpf.UdevRules

/-! # `cmd_install`

Checks and writes take turns: first the executable, then the object file, then the rule. -/
namespace CmdInstall

open RadixText Modaliases UdevRules FileTrees
open ObjectLookup (join suffix)

inductive Op where
  | createDirAll (p : Path)
  | copy (source target : Path)
  | create (p : Path)
  | write (inode : ℕ)

inductive InstallError where
  | notObject
  | notInspected
  | noEntries
  | noExecutable
  | fileExists (path : Text)
  | failed (op : Op)
  | panicked

/-- Any operation may fail, and leave any tree behind; `none` lets it go on. -/
structure Os where
  fails : Op → FileTree → Option FileTree

/-- What the build and the process have fixed. `parse` reads the `HID_DEVICE` entries of an
object file, `none` where it is no object file. -/
structure Env where
  bindir : Text
  currentExe : Text
  parse : List UInt8 → Option (List Modalias)

structure Args where
  path : Text
  installPrefix : Option Text
  force : Bool
  installExe : Bool
  dryRun : Bool

/-- The files, and the lines of the rule that a dry run printed. -/
structure World where
  tree : FileTree
  printed : List Text

abbrev Install := EStateM InstallError World

section operations

variable (os : Os)

def attempt {A : Type} (op : Op) (act : FileTree → FileTree × Option A) : Install A := fun w =>
  match os.fails op w.tree with
  | some tree => .error (.failed op) { w with tree }
  | none =>
    match act w.tree with
    | (tree, none) => .error (.failed op) { w with tree }
    | (tree, some a) => .ok a { w with tree }

def createDirAll (p : Path) : Install Unit := attempt os (.createDirAll p) (·.createDirAll p)

def copy (source target : Path) : Install Unit :=
  attempt os (.copy source target) (·.copy source target)

def create (p : Path) : Install ℕ := attempt os (.create p) (·.create p)

def write (inode : ℕ) (bytes : List UInt8) : Install Unit :=
  attempt os (.write inode) fun tree => (tree.write inode bytes, some ())

end operations

def fwdir : Text := "/etc/udev-hid-bpf".toList
def udevdir : Text := "/etc/udev/rules.d".toList

/-- `Path::file_name` of a path that ends in a name. -/
def fileName (path : Text) : Text := (path.reverse.takeWhile (· ≠ '/')).reverse

def targetOf (path : Text) : InstallTarget := ⟨fwdir, fileName path⟩

def stem (path : Text) : Text := (fileName path).take ((fileName path).length - suffix.length)

def udevTarget (path : Text) : Text :=
  udevdir ++ "/99-hid-bpf-".toList ++ stem path ++ ".rules".toList

def bindirOf (env : Env) (args : Args) : Text :=
  match args.installPrefix with
  | some p => join p "bin".toList
  | none => env.bindir

def exeOf (env : Env) (args : Args) : Text := join (bindirOf env args) "udev-hid-bpf".toList

def ruleBytes (lines : List Text) : List UInt8 :=
  (lines.flatMap (· ++ ['\n'])).flatMap String.utf8EncodeChar

def globOf (m : Modalias) : Text := "hid:".toList ++ m.text

/-- The lines of the rule file, told from the entries. -/
def ruleLines (bindir : Text) (target : InstallTarget) (entries : List Modalias) : List Text :=
  ruleHeader ++ entries.flatMap (fun m => deviceRules bindir target (globOf m)) ++ ruleFooter

def inspectPath (env : Env) (path : Text) : Install (List InspectionDevice) := do
  match ((← get).tree.read (.ofText path)).bind env.parse with
  | none => throw .notInspected
  | some entries => return entries.map inspectionDevice

def checkInput (env : Env) (args : Args) : Install (List InspectionDevice) := do
  if !suffix.isSuffixOf args.path then throw .notObject
  let devices ← inspectPath env args.path
  if devices.isEmpty then throw .noEntries
  return devices

def installSelf (os : Os) (env : Env) (args : Args) : Install Unit := do
  let exe := Path.ofText (exeOf env args)
  if !(← get).tree.exists exe then
    if !args.installExe then throw .noExecutable
    if !args.dryRun then
      createDirAll os exe.parent
      copy os (.ofText env.currentExe) exe

def ensureAbsent (path : Text) : Install Unit := do
  if (← get).tree.exists (.ofText path) then throw (.fileExists path)

def checkTargets (args : Args) : Install Unit := do
  if !args.force then
    ensureAbsent (targetOf args.path).path
    ensureAbsent (udevTarget args.path)

def installProgram (os : Os) (args : Args) : Install Unit := do
  let target := Path.ofText (targetOf args.path).path
  if !args.dryRun then
    createDirAll os target.parent
    copy os (.ofText args.path) target

/-- `write_udev_rule`, with `put` for the writer. -/
def putRule (env : Env) (args : Args) (devices : List InspectionDevice)
    (put : List Text → Install Unit) : Install Unit :=
  match writeUdevRule (bindirOf env args) (targetOf args.path) devices with
  | none => throw .panicked
  | some lines => put lines

def installRule (os : Os) (env : Env) (args : Args) (devices : List InspectionDevice) :
    Install Unit := do
  if !args.dryRun then
    createDirAll os (.ofText udevdir)
    let rulefile ← create os (.ofText (udevTarget args.path))
    putRule env args devices fun lines => write os rulefile (ruleBytes lines)
  else
    putRule env args devices fun lines => modify fun w => { w with printed := lines }

def cmdInstall (os : Os) (env : Env) (args : Args) : Install Unit := do
  let devices ← checkInput env args
  installSelf os env args
  checkTargets args
  installProgram os args
  installRule os env args devices

section sequence

variable {ε σ A B : Type} {x : EStateM ε σ A} {f : A → EStateM ε σ B} {w w' : σ}

theorem bind_ok {b : B} : (x >>= f) w = .ok b w' ↔
    ∃ a w₁, x w = .ok a w₁ ∧ f a w₁ = .ok b w' := by
  change EStateM.bind x f w = _ ↔ _
  rw [EStateM.bind]
  cases x w <;> simp

theorem bind_error {e : ε} : (x >>= f) w = .error e w' ↔
    x w = .error e w' ∨ ∃ a w₁, x w = .ok a w₁ ∧ f a w₁ = .error e w' := by
  change EStateM.bind x f w = _ ↔ _
  rw [EStateM.bind]
  cases x w <;> simp

end sequence

variable {os : Os} {env : Env} {args : Args} {w w' : World}

@[simp] theorem get_apply : (get : Install World) w = .ok w w := rfl

@[simp] theorem throw_apply {A : Type} (e : InstallError) :
    (throw e : Install A) w = .error e w := rfl

@[simp] theorem bind_apply {A B : Type} (x : Install A) (f : A → Install B) :
    (x >>= f) w = match x w with
      | .ok a w₁ => f a w₁
      | .error e w₁ => .error e w₁ := by
  change EStateM.bind x f w = _
  rw [EStateM.bind]
  cases x w <;> rfl

theorem inspectPath_eq (path : Text) : inspectPath env path w =
    match (w.tree.read (.ofText path)).bind env.parse with
    | none => .error .notInspected w
    | some entries => .ok (entries.map inspectionDevice) w := by
  rw [inspectPath, bind_apply, get_apply]
  dsimp only
  cases (w.tree.read (.ofText path)).bind env.parse <;> rfl

theorem checkInput_eq : checkInput env args w =
    if ¬ suffix <:+ args.path then .error .notObject w
    else
      match (w.tree.read (.ofText args.path)).bind env.parse with
      | none => .error .notInspected w
      | some entries =>
        if entries = [] then .error .noEntries w else .ok (entries.map inspectionDevice) w := by
  rw [checkInput]
  by_cases hsuffix : suffix <:+ args.path
  · have hyes : suffix.isSuffixOf args.path = true := List.isSuffixOf_iff_suffix.2 hsuffix
    rw [if_neg (not_not.2 hsuffix)]
    simp only [hyes, Bool.not_true, Bool.false_eq_true, if_false, bind_apply, inspectPath_eq]
    cases (w.tree.read (.ofText args.path)).bind env.parse with
    | none => rfl
    | some entries => cases entries <;> rfl
  · have hno : suffix.isSuffixOf args.path = false := by
      rw [← Bool.not_eq_true, List.isSuffixOf_iff_suffix]
      exact hsuffix
    rw [if_pos hsuffix]
    simp only [hno, Bool.not_false, if_true, bind_apply, throw_apply]

theorem installSelf_eq : installSelf os env args w =
    if w.tree.exists (.ofText (exeOf env args)) then .ok () w
    else if !args.installExe then .error .noExecutable w
    else if args.dryRun then .ok () w
    else (createDirAll os (Path.ofText (exeOf env args)).parent >>= fun _ =>
      copy os (.ofText env.currentExe) (.ofText (exeOf env args))) w := by
  rw [installSelf, bind_apply, get_apply]
  dsimp only
  cases w.tree.exists (.ofText (exeOf env args)) <;> cases args.installExe <;>
    cases args.dryRun <;> rfl

theorem ensureAbsent_eq (path : Text) : ensureAbsent path w =
    if w.tree.exists (.ofText path) then .error (.fileExists path) w else .ok () w := by
  rw [ensureAbsent, bind_apply, get_apply]
  dsimp only
  cases w.tree.exists (.ofText path) <;> rfl

theorem checkTargets_eq : checkTargets args w =
    if args.force then .ok () w
    else if w.tree.exists (.ofText (targetOf args.path).path) then
      .error (.fileExists (targetOf args.path).path) w
    else if w.tree.exists (.ofText (udevTarget args.path)) then
      .error (.fileExists (udevTarget args.path)) w
    else .ok () w := by
  rw [checkTargets]
  cases args.force with
  | true => rfl
  | false =>
    simp only [Bool.not_false, if_true, bind_apply, ensureAbsent_eq, Bool.false_eq_true, if_false]
    cases w.tree.exists (.ofText (targetOf args.path).path) <;> rfl

theorem attempt_ok {A : Type} {op : Op} {act : FileTree → FileTree × Option A} {a : A} :
    attempt os op act w = .ok a w' ↔
      os.fails op w.tree = none ∧ ∃ t, act w.tree = (t, some a) ∧ w' = { w with tree := t } := by
  rw [attempt]
  cases os.fails op w.tree with
  | some t => simp
  | none =>
    rcases h : act w.tree with ⟨t, _ | b⟩
    · simp
    · simp only [EStateM.Result.ok.injEq, true_and, Prod.mk.injEq, Option.some.injEq]
      constructor
      · rintro ⟨rfl, rfl⟩
        exact ⟨t, ⟨rfl, rfl⟩, rfl⟩
      · rintro ⟨t', ⟨rfl, rfl⟩, rfl⟩
        exact ⟨rfl, rfl⟩

theorem attempt_error {A : Type} {op : Op} {act : FileTree → FileTree × Option A}
    {e : InstallError} (h : attempt os op act w = .error e w') : e = .failed op := by
  rw [attempt] at h
  split at h
  · cases h
    rfl
  · split at h <;> cases h
    rfl

theorem createDirAll_ok {p : Path} (h : createDirAll os p w = .ok () w') :
    MakesDirs p.lineage w.tree w'.tree ∧ w'.printed = w.printed := by
  obtain ⟨-, t, hmade, rfl⟩ := attempt_ok.1 h
  exact ⟨makesDirs_createDirAll hmade, rfl⟩

theorem copy_ok {source target : Path} (h : copy os source target w = .ok () w') :
    w.tree.copy source target = (w'.tree, some ()) ∧ w'.printed = w.printed := by
  obtain ⟨-, t, hcopied, rfl⟩ := attempt_ok.1 h
  exact ⟨hcopied, rfl⟩

def Copies (source target dir : Path) (t t' : FileTree) : Prop :=
  ∃ t₁, MakesDirs dir.lineage t t₁ ∧ t₁.copy source target = (t', some ())

theorem copies_ok {source target dir : Path}
    (h : (createDirAll os dir >>= fun _ => copy os source target) w = .ok () w') :
    Copies source target dir w.tree w'.tree ∧ w'.printed = w.printed := by
  obtain ⟨_, w₁, hdirs, hcopy⟩ := bind_ok.1 h
  obtain ⟨hmade, hprinted⟩ := createDirAll_ok hdirs
  obtain ⟨hcopied, hprinted'⟩ := copy_ok hcopy
  exact ⟨⟨w₁.tree, hmade, hcopied⟩, hprinted'.trans hprinted⟩

theorem copies_error {source target dir : Path} {e : InstallError}
    (h : (createDirAll os dir >>= fun _ => copy os source target) w = .error e w') :
    ∃ op, e = .failed op := by
  rcases bind_error.1 h with h | ⟨_, w₁, -, h⟩
  · exact ⟨_, attempt_error h⟩
  · exact ⟨_, attempt_error h⟩

def exePath (env : Env) (args : Args) : Path := .ofText (exeOf env args)

/-- The executable was missing and is there now. -/
structure InstallsSelf (env : Env) (args : Args) (w w' : World) : Prop where
  absent : ¬ w.tree.exists (exePath env args)
  wanted : args.installExe
  real : ¬ args.dryRun
  copied : Copies (.ofText env.currentExe) (exePath env args) (exePath env args).parent
    w.tree w'.tree
  printed : w'.printed = w.printed

theorem installSelf_ok (h : installSelf os env args w = .ok () w') :
    w' = w ∧ (w.tree.exists (exePath env args) ∨ args.installExe ∧ args.dryRun) ∨
      InstallsSelf env args w w' := by
  rw [installSelf_eq] at h
  split at h
  · rename_i hexists
    cases h
    exact .inl ⟨rfl, .inl hexists⟩
  rename_i habsent
  split at h
  · cases h
  rename_i hwanted
  have hinstall : args.installExe = true := by simpa using hwanted
  split at h
  · rename_i hdry
    cases h
    exact .inl ⟨rfl, .inr ⟨hinstall, hdry⟩⟩
  · rename_i hreal
    obtain ⟨hcopied, hprinted⟩ := copies_ok h
    exact .inr ⟨habsent, hinstall, hreal, hcopied, hprinted⟩

theorem installSelf_error {e : InstallError} (h : installSelf os env args w = .error e w') :
    e = .noExecutable ∧ w' = w ∧ ¬ args.installExe ∧ ¬ w.tree.exists (exePath env args) ∨
      ∃ op, e = .failed op := by
  rw [installSelf_eq] at h
  split at h
  · cases h
  rename_i habsent
  split at h
  · rename_i hwanted
    cases h
    exact .inl ⟨rfl, rfl, by simpa using hwanted, habsent⟩
  split at h
  · cases h
  · exact .inr (copies_error h)

theorem Copies.exists {source target dir : Path} {t t' : FileTree}
    (h : Copies source target dir t t') : t'.exists target := by
  obtain ⟨t₁, -, hcopy⟩ := h
  obtain ⟨i, j, t₂, -, hcreates, rfl⟩ := copy_spec hcopy
  exact exists_of_fileAt hcreates.fileAt

theorem checkTargets_ok (h : checkTargets args w = .ok () w') : w' = w := by
  rw [checkTargets_eq] at h
  split_ifs at h
  · cases h
    rfl
  · cases h
    rfl

theorem checkTargets_error {e : InstallError} (h : checkTargets args w = .error e w') :
    w' = w ∧ ∃ path, e = .fileExists path := by
  rw [checkTargets_eq] at h
  split_ifs at h
  · cases h
    exact ⟨rfl, _, rfl⟩
  · cases h
    exact ⟨rfl, _, rfl⟩

def targetPath (args : Args) : Path := .ofText (targetOf args.path).path

def rulePath (args : Args) : Path := .ofText (udevTarget args.path)

theorem installProgram_eq : installProgram os args w =
    if args.dryRun then .ok () w
    else (createDirAll os (targetPath args).parent >>= fun _ =>
      copy os (.ofText args.path) (targetPath args)) w := by
  rw [installProgram]
  cases args.dryRun <;> rfl

theorem installProgram_error {e : InstallError} (h : installProgram os args w = .error e w') :
    ∃ op, e = .failed op := by
  rw [installProgram_eq] at h
  split at h
  · cases h
  · exact copies_error h

theorem putRule_eq (devices : List InspectionDevice) (put : List Text → Install Unit) :
    putRule env args devices put w =
      match writeUdevRule (bindirOf env args) (targetOf args.path) devices with
      | none => .error .panicked w
      | some lines => put lines w := by
  rw [putRule]
  cases writeUdevRule (bindirOf env args) (targetOf args.path) devices <;> rfl

theorem installRule_eq (devices : List InspectionDevice) : installRule os env args devices w =
    if args.dryRun then
      putRule env args devices (fun lines => modify fun w => { w with printed := lines }) w
    else (createDirAll os (.ofText udevdir) >>= fun _ => create os (rulePath args) >>=
      fun rulefile => putRule env args devices fun lines =>
        write os rulefile (ruleBytes lines)) w := by
  rw [installRule]
  cases args.dryRun <;> rfl

theorem installRule_dry (h : args.dryRun) (entries : List Modalias) :
    installRule os env args (entries.map inspectionDevice) w =
      .ok () { w with printed := ruleLines (bindirOf env args) (targetOf args.path) entries } := by
  rw [installRule_eq, if_pos h, putRule_eq, writeUdevRule_inspect]
  rfl

theorem installRule_error {entries : List Modalias} {e : InstallError}
    (h : installRule os env args (entries.map inspectionDevice) w = .error e w') :
    ∃ op, e = .failed op := by
  by_cases hdry : args.dryRun
  · rw [installRule_dry hdry] at h
    cases h
  rw [installRule_eq, if_neg hdry] at h
  rcases bind_error.1 h with h | ⟨_, w₁, -, h⟩
  · exact ⟨_, attempt_error h⟩
  rcases bind_error.1 h with h | ⟨k, w₂, -, h⟩
  · exact ⟨_, attempt_error h⟩
  rw [putRule_eq, writeUdevRule_inspect] at h
  exact ⟨_, attempt_error h⟩

def Refuses : InstallError → Prop
  | .notObject => True
  | .noEntries => True
  | .noExecutable => True
  | .fileExists _ => True
  | _ => False

def entriesAt (env : Env) (args : Args) (w : World) : Option (List Modalias) :=
  (w.tree.read (.ofText args.path)).bind env.parse

theorem checkInput_error {e : InstallError} (h : checkInput env args w = .error e w') :
    w' = w ∧ (¬ suffix <:+ args.path ∨ entriesAt env args w = some [] ∨ e = .notInspected) := by
  rw [checkInput_eq, ← entriesAt] at h
  split at h
  · rename_i hsuffix
    cases h
    exact ⟨rfl, .inl hsuffix⟩
  split at h
  · cases h
    exact ⟨rfl, .inr (.inr rfl)⟩
  · rename_i entries hentries
    split_ifs at h with hnil
    cases h
    exact ⟨rfl, .inr (.inl (by rw [hentries, hnil]))⟩

theorem checkInput_ok {devices : List InspectionDevice}
    (h : checkInput env args w = .ok devices w') : w' = w ∧ suffix <:+ args.path ∧
      ∃ entries, entriesAt env args w = some entries ∧ entries ≠ [] ∧
        devices = entries.map inspectionDevice := by
  rw [checkInput_eq, ← entriesAt] at h
  split at h
  · cases h
  rename_i hsuffix
  split at h
  · cases h
  · rename_i entries hentries
    split_ifs at h with hnil
    cases h
    exact ⟨rfl, not_not.1 hsuffix, entries, hentries, hnil, rfl⟩

/-- A run that is done, phase by phase. -/
structure Phases (os : Os) (env : Env) (args : Args) (entries : List Modalias)
    (w w₁ w₂ w' : World) : Prop where
  object : suffix <:+ args.path
  declared : entriesAt env args w = some entries
  nonempty : entries ≠ []
  self : installSelf os env args w = .ok () w₁
  targets : checkTargets args w₁ = .ok () w₁
  program : installProgram os args w₁ = .ok () w₂
  rule : installRule os env args (entries.map inspectionDevice) w₂ = .ok () w'

theorem phases_of_ok (h : cmdInstall os env args w = .ok () w') :
    ∃ entries w₁ w₂, Phases os env args entries w w₁ w₂ w' := by
  rw [cmdInstall] at h
  obtain ⟨devices, w₀, hinput, hrest⟩ := bind_ok.1 h
  obtain ⟨rfl, hobject, entries, hdeclared, hnonempty, rfl⟩ := checkInput_ok hinput
  obtain ⟨_, w₁, hself, hrest₁⟩ := bind_ok.1 hrest
  obtain ⟨_, w₁', htargets, hrest₂⟩ := bind_ok.1 hrest₁
  have hsame := checkTargets_ok htargets
  subst hsame
  obtain ⟨_, w₂, hprogram, hrule⟩ := bind_ok.1 hrest₂
  exact ⟨entries, w₁', w₂, hobject, hdeclared, hnonempty, hself, htargets, hprogram, hrule⟩

/-- What ends a run: the input, the executable, a file in the way or an operation. -/
inductive Ends (os : Os) (env : Env) (args : Args) (w w' : World) : InstallError → Prop where
  | input {e} : checkInput env args w = .error e w' → Ends os env args w w' e
  | self {e entries} : suffix <:+ args.path → entriesAt env args w = some entries → entries ≠ [] →
      installSelf os env args w = .error e w' → Ends os env args w w' e
  | targets {e entries w₁} : suffix <:+ args.path → entriesAt env args w = some entries →
      entries ≠ [] → installSelf os env args w = .ok () w₁ → checkTargets args w₁ = .error e w' →
        Ends os env args w w' e
  | failed (op) : Ends os env args w w' (.failed op)

theorem ends_of_error {e : InstallError} (h : cmdInstall os env args w = .error e w') :
    Ends os env args w w' e := by
  rw [cmdInstall] at h
  rcases bind_error.1 h with hinput | ⟨devices, w₀, hinput, hrest⟩
  · exact .input hinput
  obtain ⟨rfl, hobject, entries, hdeclared, hnonempty, rfl⟩ := checkInput_ok hinput
  rcases bind_error.1 hrest with hself | ⟨_, w₁, hself, hrest₁⟩
  · exact .self hobject hdeclared hnonempty hself
  rcases bind_error.1 hrest₁ with htargets | ⟨_, w₂, -, hrest₂⟩
  · exact .targets hobject hdeclared hnonempty hself htargets
  rcases bind_error.1 hrest₂ with hprogram | ⟨_, w₃, -, hrule⟩
  · obtain ⟨op, rfl⟩ := installProgram_error hprogram
    exact .failed op
  · obtain ⟨op, rfl⟩ := installRule_error hrule
    exact .failed op

def NothingWritten (env : Env) (args : Args) (w : World) : Prop :=
  ¬ suffix <:+ args.path ∨ entriesAt env args w = some [] ∨
    w.tree.exists (exePath env args) ∨ ¬ args.installExe ∨ args.dryRun

theorem cmdInstall_refusal {e : InstallError} (h : cmdInstall os env args w = .error e w')
    (he : Refuses e) : w' = w ∧ NothingWritten env args w ∨ InstallsSelf env args w w' ∧
      suffix <:+ args.path ∧ entriesAt env args w ≠ some [] := by
  cases ends_of_error h with
  | input hinput =>
    obtain ⟨rfl, hsuffix | hnil | rfl⟩ := checkInput_error hinput
    · exact .inl ⟨rfl, .inl hsuffix⟩
    · exact .inl ⟨rfl, .inr (.inl hnil)⟩
    · exact absurd he id
  | self hobject hdeclared hnonempty hself =>
    rcases installSelf_error hself with ⟨-, rfl, hno, -⟩ | ⟨op, rfl⟩
    · exact .inl ⟨rfl, .inr (.inr (.inr (.inl hno)))⟩
    · exact absurd he id
  | targets hobject hdeclared hnonempty hself htargets =>
    obtain ⟨rfl, -⟩ := checkTargets_error htargets
    rcases installSelf_ok hself with ⟨rfl, hthere | ⟨-, hdry⟩⟩ | hwritten
    · exact .inl ⟨rfl, .inr (.inr (.inl hthere))⟩
    · exact .inl ⟨rfl, .inr (.inr (.inr (.inr hdry)))⟩
    · refine .inr ⟨hwritten, hobject, ?_⟩
      rw [hdeclared, ne_eq, Option.some.injEq]
      exact hnonempty
  | failed op => exact absurd he id

/-- A refused install leaves the files alone exactly where it does not come after the
executable was written. -/
theorem refused_unchanged_iff {e : InstallError} (h : cmdInstall os env args w = .error e w')
    (he : Refuses e) : w'.tree = w.tree ↔ NothingWritten env args w := by
  rcases cmdInstall_refusal h he with ⟨rfl, hnothing⟩ | ⟨hwritten, hobject, hsome⟩
  · exact iff_of_true rfl hnothing
  · apply iff_of_false
    · intro heq
      have hthere := hwritten.copied.exists
      rw [heq] at hthere
      exact hwritten.absent hthere
    · rintro (hno | hnil | hthere | hno | hdry)
      · exact hno hobject
      · exact hsome hnil
      · exact hwritten.absent hthere
      · exact hno hwritten.wanted
      · exact hwritten.real hdry

def willing : Os := ⟨fun _ _ => none⟩

def elfMagic : List UInt8 := [0x7f, 0x45, 0x4c, 0x46]

def sampleEnv : Env where
  bindir := "/usr/bin".toList
  currentExe := "/u".toList
  parse bytes := if elfMagic <+: bytes then some [⟨.usb, .any, 0x56A, 0x374⟩] else none

def sampleLoc (text : String) : Loc := (Path.ofText text.toList).names

def sampleDirs : List (Loc × Entry) :=
  [([], .dir), (sampleLoc "etc", .dir), (sampleLoc "etc/udev-hid-bpf", .dir),
    (sampleLoc "etc/udev", .dir), (sampleLoc "etc/udev/rules.d", .dir), (sampleLoc "opt", .dir)]

def sampleFiles : List (List UInt8) := [[1], elfMagic, [2]]

def reinstall : World where
  tree := .ofTables [] (sampleDirs ++ [(sampleLoc "u", .file 0), (sampleLoc "x.bpf.o", .file 1),
    (sampleLoc "etc/udev-hid-bpf/x.bpf.o", .file 2)]) sampleFiles (by decide)
  printed := []

def upgrade : World where
  tree := .ofTables [] (sampleDirs ++ [(sampleLoc "u", .file 0), (sampleLoc "x.bpf.o", .file 1),
    (sampleLoc "etc/udev-hid-bpf/x.bpf.o", .file 2), (sampleLoc "opt/bin", .dir),
    (sampleLoc "opt/bin/udev-hid-bpf", .file 0)]) sampleFiles (by decide)
  printed := []

def toOpt (force dryRun : Bool) : Args :=
  ⟨"x.bpf.o".toList, some "/opt".toList, force, true, dryRun⟩

def endsAtFile (kind : FileTree → Bool) : EStateM.Result InstallError World Unit → Bool
  | .error (.fileExists _) w => kind w.tree
  | _ => false

theorem of_endsAtFile {kind : FileTree → Bool} {r : EStateM.Result InstallError World Unit}
    (h : endsAtFile kind r) : ∃ path w', r = .error (.fileExists path) w' ∧ kind w'.tree := by
  match r, h with
  | .error (.fileExists path) w', h => exact ⟨path, w', rfl, h⟩

/-- The executable is left behind. -/
theorem refusal_leaves_executable : ∃ e w', cmdInstall willing sampleEnv (toOpt false false)
    reinstall = .error e w' ∧ Refuses e ∧ w'.tree ≠ reinstall.tree := by
  have hthere : endsAtFile (·.exists (exePath sampleEnv (toOpt false false)))
      (cmdInstall willing sampleEnv (toOpt false false) reinstall) := by decide +kernel
  have habsent : ¬ reinstall.tree.exists (exePath sampleEnv (toOpt false false)) := by
    decide +kernel
  obtain ⟨path, w', h, hexists⟩ := of_endsAtFile hthere
  refine ⟨_, w', h, trivial, ?_⟩
  intro heq
  rw [heq] at hexists
  exact habsent hexists

theorem refusal_keeps_files : ∃ e w', cmdInstall willing sampleEnv (toOpt false false)
    upgrade = .error e w' ∧ Refuses e ∧ w'.tree = upgrade.tree := by
  have hends : endsAtFile (fun _ => true)
      (cmdInstall willing sampleEnv (toOpt false false) upgrade) := by decide +kernel
  have hthere : upgrade.tree.exists (exePath sampleEnv (toOpt false false)) := by decide +kernel
  obtain ⟨path, w', h, -⟩ := of_endsAtFile hends
  exact ⟨_, w', h, trivial, (refused_unchanged_iff h trivial).2 (.inr (.inr (.inl hthere)))⟩

end CmdInstall
