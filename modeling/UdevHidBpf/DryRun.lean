import UdevHidBpf.InstallResult

/-! # The dry run

An install without its writes: what it announces, and how far the install keeps to it. -/
namespace DryRun

open RadixText Modaliases UdevRules FileTrees CmdInstall InstallResult
open ObjectLookup (suffix)

def dry (args : Args) : Args := { args with dryRun := true }

def real (args : Args) : Args := { args with dryRun := false }

def Succeeds (r : EStateM.Result InstallError World Unit) : Prop := ∃ w, r = .ok () w

def NothingFails {A : Type} (r : EStateM.Result InstallError World A) : Prop :=
  ∀ op w, r ≠ .error (.failed op) w

def lastTree {A : Type} : EStateM.Result InstallError World A → FileTree
  | .ok _ w => w.tree
  | .error _ w => w.tree

/-- The target or the rule file comes into being with the executable. -/
def Brought (env : Env) (args : Args) (t : FileTree) : Prop :=
  ¬ args.force ∧ Missing env args t ∧
    (Brings (exePath env args).parent.lineage (exePath env args) t (targetPath args) ∨
      Brings (exePath env args).parent.lineage (exePath env args) t (rulePath args))

structure Rehearsal (os : Os) (env : Env) (args : Args) (w : World) : Prop where
  unchanged : lastTree (cmdInstall os env (dry args) w) = w.tree
  agrees : NothingFails (cmdInstall os env (real args) w) →
    (Succeeds (cmdInstall os env (real args) w) ↔
      Succeeds (cmdInstall os env (dry args) w) ∧ ¬ Brought env args w.tree)
  text : ∀ w₁ w₂, cmdInstall os env (dry args) w = .ok () w₁ →
    cmdInstall os env (real args) w = .ok () w₂ →
      w₂.tree.read (rulePath args) = some (ruleBytes w₁.printed)

variable {os : Os} {env : Env} {args : Args} {w w' : World}

def Quiet {A : Type} (x : Install A) : Prop := ∀ w, lastTree (x w) = w.tree ∧ NothingFails (x w)

@[simp] theorem nothingFails_ok {A : Type} (a : A) : NothingFails (.ok a w) := by
  intro op w'
  simp

@[simp] theorem nothingFails_error {A : Type} {e : InstallError} :
    NothingFails (A := A) (.error e w) ↔ ∀ op, e ≠ .failed op := by
  simp [NothingFails]

theorem Quiet.bind {A B : Type} {x : Install A} {f : A → Install B} (hx : Quiet x)
    (hf : ∀ a, Quiet (f a)) : Quiet (x >>= f) := by
  intro w
  obtain ⟨htree, hfails⟩ := hx w
  rw [bind_apply]
  cases h : x w with
  | ok a w₁ =>
    rw [h] at htree
    obtain ⟨htree', hfails'⟩ := hf a w₁
    exact ⟨htree'.trans htree, hfails'⟩
  | error e w₁ =>
    rw [h] at htree hfails
    exact ⟨htree, fun op w' heq => hfails op w' (by cases heq; rfl)⟩

theorem quiet_checkInput : Quiet (checkInput env args) := by
  intro w
  rw [checkInput_eq]
  split
  · exact ⟨rfl, by simp⟩
  split
  · exact ⟨rfl, by simp⟩
  split
  · exact ⟨rfl, by simp⟩
  · exact ⟨rfl, by simp⟩

theorem quiet_installSelf (h : args.dryRun) : Quiet (installSelf os env args) := by
  intro w
  rw [installSelf_eq, if_pos h]
  split_ifs
  · exact ⟨rfl, by simp⟩
  · exact ⟨rfl, by simp⟩
  · exact ⟨rfl, by simp⟩

theorem quiet_checkTargets : Quiet (checkTargets args) := by
  intro w
  rw [checkTargets_eq]
  split_ifs
  · exact ⟨rfl, by simp⟩
  · exact ⟨rfl, by simp⟩
  · exact ⟨rfl, by simp⟩
  · exact ⟨rfl, by simp⟩

theorem quiet_installProgram (h : args.dryRun) : Quiet (installProgram os args) := by
  intro w
  rw [installProgram_eq, if_pos h]
  exact ⟨rfl, by simp⟩

theorem quiet_installRule (h : args.dryRun) (devices : List InspectionDevice) :
    Quiet (installRule os env args devices) := by
  intro w
  rw [installRule_eq, if_pos h, putRule_eq]
  split
  · exact ⟨rfl, by simp⟩
  · exact ⟨rfl, nothingFails_ok ()⟩

theorem quiet_cmdInstall (h : args.dryRun) : Quiet (cmdInstall os env args) := by
  apply quiet_checkInput.bind
  intro devices
  apply (quiet_installSelf h).bind
  intro _
  apply quiet_checkTargets.bind
  intro _
  exact (quiet_installProgram h).bind fun _ => quiet_installRule h devices

def Free (args : Args) (t : FileTree) : Prop :=
  args.force ∨ ¬ t.exists (targetPath args) ∧ ¬ t.exists (rulePath args)

theorem free_iff : Free args w.tree ↔ checkTargets args w = .ok () w := by
  rw [checkTargets_eq, ← targetPath, ← rulePath, Free]
  split_ifs with hforce htarget hrule
  · simp [hforce]
  · simp [hforce, htarget]
  · simp [hforce, hrule]
  · simp [hforce, htarget, hrule]

/-- What the checks ask for before anything is written. -/
structure Admits (env : Env) (args : Args) (t : FileTree) : Prop where
  object : suffix <:+ args.path
  declared : ∃ entries, (t.read (sourcePath args)).bind env.parse = some entries ∧ entries ≠ []
  exe : ¬ Missing env args t ∨ args.installExe
  free : Free args t

theorem free_of_installsSelf (h : InstallsSelf env args w w') :
    Free args w'.tree ↔ Free args w.tree ∧ ¬ Brought env args w.tree := by
  obtain ⟨t₁, hmade, hcopy⟩ := h.copied
  obtain ⟨m, x, hcopied⟩ := copied_of_dirs hmade hcopy
  have hmissing : Missing env args w.tree := h.absent
  rw [Free, Free, Brought, hcopied.exists_iff, hcopied.exists_iff]
  tauto

theorem free_of_installSelf (h : installSelf os env args w = .ok () w') :
    Free args w'.tree ↔ Free args w.tree ∧ (args.dryRun ∨ ¬ Brought env args w.tree) := by
  rcases installSelf_ok h with ⟨rfl, hthere | ⟨-, hdry⟩⟩ | hwritten
  · have hno : ¬ Brought env args w'.tree := fun hbrought => hbrought.2.1 hthere
    simp [hno]
  · simp [hdry]
  · rw [free_of_installsSelf hwritten]
    simp [hwritten.real]

theorem admits_of_ok (h : cmdInstall os env args w = .ok () w') :
    Admits env args w.tree ∧ (args.dryRun ∨ ¬ Brought env args w.tree) := by
  obtain ⟨entries, w₁, w₂, hphases⟩ := phases_of_ok h
  obtain ⟨hfree, hbrought⟩ := (free_of_installSelf hphases.self).1 (free_iff.2 hphases.targets)
  have hdeclared := hphases.declared
  refine ⟨⟨hphases.object, ⟨entries, hdeclared, hphases.nonempty⟩, ?_, hfree⟩, hbrought⟩
  rcases installSelf_ok hphases.self with ⟨-, hthere | ⟨hwanted, -⟩⟩ | hwritten
  · exact .inl (not_not.2 hthere)
  · exact .inr hwanted
  · exact .inr hwritten.wanted

theorem failed_of_admits (h : Admits env args w.tree)
    (hbrought : args.dryRun ∨ ¬ Brought env args w.tree) {e : InstallError}
    (herror : cmdInstall os env args w = .error e w') : ∃ op, e = .failed op := by
  obtain ⟨hobject, ⟨entries, hdeclared, hnonempty⟩, hexe, hfree⟩ := h
  cases ends_of_error herror with
  | input hinput =>
    rw [checkInput_eq, if_neg (not_not.2 hobject), ← sourcePath, hdeclared] at hinput
    simp [hnonempty] at hinput
  | self _ _ _ hself =>
    rcases installSelf_error hself with ⟨-, -, hunwanted, hmissing⟩ | hop
    · exact absurd (hexe.resolve_left fun hthere => hthere hmissing) hunwanted
    · exact hop
  | targets _ _ _ hself htargets =>
    have hpass := free_iff.1 ((free_of_installSelf hself).2 ⟨hfree, hbrought⟩)
    rw [htargets] at hpass
    cases hpass
  | failed op => exact ⟨op, rfl⟩

theorem succeeds_iff (h : NothingFails (cmdInstall os env args w)) :
    Succeeds (cmdInstall os env args w) ↔
      Admits env args w.tree ∧ (args.dryRun ∨ ¬ Brought env args w.tree) := by
  constructor
  · rintro ⟨w', hok⟩
    exact admits_of_ok hok
  · rintro ⟨hadmits, hbrought⟩
    cases hrun : cmdInstall os env args w with
    | ok _ w' => exact ⟨w', rfl⟩
    | error e w' =>
      obtain ⟨op, rfl⟩ := failed_of_admits hadmits hbrought hrun
      exact absurd hrun (h op w')

theorem printed_of_ok (h : cmdInstall os env args w = .ok () w') (hdry : args.dryRun) :
    ∃ entries, (w.tree.read (sourcePath args)).bind env.parse = some entries ∧
      w'.printed = ruleLines (bindirOf env args) (targetOf args.path) entries := by
  obtain ⟨entries, w₁, w₂, hphases⟩ := phases_of_ok h
  have hrule := hphases.rule
  rw [installRule_dry hdry] at hrule
  cases hrule
  exact ⟨entries, hphases.declared, rfl⟩

theorem written_of_ok (h : cmdInstall os env args w = .ok () w') (hreal : ¬ args.dryRun) :
    ∃ entries, (w.tree.read (sourcePath args)).bind env.parse = some entries ∧
      w'.tree.read (rulePath args) =
        some (ruleBytes (ruleLines (bindirOf env args) (targetOf args.path) entries)) := by
  obtain ⟨entries, i, j, k, t₁, t₂, t₃, hstages⟩ := stages_of_ok h hreal
  refine ⟨entries, hstages.parsed, ?_⟩
  rw [FileTree.read, hstages.rule.fileAt, Option.map_some, hstages.rule.holds]

/-- The install goes as rehearsed, unless the executable brings about a file that it must not
overwrite. -/
theorem dry_run_rehearses (os : Os) (env : Env) (args : Args) (w : World) :
    Rehearsal os env args w where
  unchanged := (quiet_cmdInstall rfl w).1
  agrees := by
    intro hfails
    have hadmits : Admits env (real args) w.tree ↔ Admits env (dry args) w.tree := by
      constructor
      · rintro ⟨hobject, hdeclared, hexe, hfree⟩
        exact ⟨hobject, hdeclared, hexe, hfree⟩
      · rintro ⟨hobject, hdeclared, hexe, hfree⟩
        exact ⟨hobject, hdeclared, hexe, hfree⟩
    have hdry : Succeeds (cmdInstall os env (dry args) w) ↔ Admits env (dry args) w.tree := by
      rw [succeeds_iff (quiet_cmdInstall rfl w).2]
      exact and_iff_left (.inl rfl)
    rw [succeeds_iff hfails, hdry, hadmits]
    apply and_congr_right
    intro _
    exact or_iff_right Bool.false_ne_true
  text w₁ w₂ hdry hreal := by
    obtain ⟨entries, hentries, hprinted⟩ := printed_of_ok hdry rfl
    obtain ⟨entries', hentries', hread⟩ := written_of_ok hreal Bool.false_ne_true
    obtain rfl : entries = entries' := Option.some.inj (hentries.symm.trans hentries')
    rw [hprinted]
    exact hread

/-- Links followed, neither the executable nor a directory on its way is the file `p`. -/
def Outside (env : Env) (args : Args) (t : FileTree) (p : Path) : Prop :=
  ∀ q ∈ exePath env args :: (exePath env args).parent.lineage, ∀ loc,
    t.place p = some loc → t.place q ≠ some loc

def HasWay (t : FileTree) (p : Path) : Prop :=
  ∀ w, t.walk p = some w → (t.entries w.loc).isSome → t.exists p

theorem not_brings_of_outside {t : FileTree} {p : Path} (hout : Outside env args t p)
    (hway : HasWay t p) :
    ¬ Brings (exePath env args).parent.lineage (exePath env args) t p := by
  rintro ⟨hmissing, v, hv, -, hend | ⟨q, hq, hplace⟩⟩
  · exact hmissing (hway v hv hend)
  · apply hout q hq v.loc _ hplace
    rw [FileTree.place, hv, Option.map_some]

/-- With the prefix outside, the install goes as rehearsed. -/
theorem not_brought_of_outside {t : FileTree}
    (htarget : Outside env args t (targetPath args)) (hrule : Outside env args t (rulePath args))
    (htargetWay : HasWay t (targetPath args)) (hruleWay : HasWay t (rulePath args)) :
    ¬ Brought env args t := by
  rintro ⟨-, -, hbrings | hbrings⟩
  · exact not_brings_of_outside htarget htargetWay hbrings
  · exact not_brings_of_outside hrule hruleWay hbrings

def dangling : World where
  tree := .ofTables [(sampleLoc "etc/udev-hid-bpf/x.bpf.o",
      .ofText "/opt/bin/udev-hid-bpf".toList)]
    (sampleDirs ++ [(sampleLoc "u", .file 0), (sampleLoc "x.bpf.o", .file 1)]) sampleFiles
    (by decide)
  printed := []

/-- The rehearsal passes, and the install is refused although nothing fails. -/
theorem dry_run_misses_refusal :
    Succeeds (cmdInstall willing sampleEnv (dry (toOpt false false)) dangling) ∧
      NothingFails (cmdInstall willing sampleEnv (real (toOpt false false)) dangling) ∧
      ¬ Succeeds (cmdInstall willing sampleEnv (real (toOpt false false)) dangling) := by
  have hdry : endsWell (fun _ => true)
      (cmdInstall willing sampleEnv (dry (toOpt false false)) dangling) := by decide +kernel
  have hreal : endsAtFile (fun _ => true)
      (cmdInstall willing sampleEnv (real (toOpt false false)) dangling) := by decide +kernel
  obtain ⟨w₁, hdone, -⟩ := of_endsWell hdry
  obtain ⟨path, w₂, hrefused, -⟩ := of_endsAtFile hreal
  rw [hrefused]
  refine ⟨⟨w₁, hdone⟩, by simp, ?_⟩
  rintro ⟨w₃, hok⟩
  cases hok

end DryRun
