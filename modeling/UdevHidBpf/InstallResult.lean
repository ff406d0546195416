import UdevHidBpf.CmdInstall

/-! # What a successful install leaves

The program, its rule, the executable where it was missing, and nothing else. -/
namespace InstallResult

open RadixText Modaliases UdevRules FileTrees CmdInstall

def rulesFor (action : Text) (lines : List Text) : List Text :=
  lines.filter fun line => ("ACTION==\"".toList ++ action ++ ['"']).isPrefixOf line

def bindRule (bindir glob : Text) : Text :=
  "ACTION==\"bind|unbind\",".toList ++ kernelMatch glob ++
    ", IMPORT\x7bprogram\x7d+=\"".toList ++ bindir ++
    "/udev-hid-bpf list-loaded --format udev --syspath $sys$devpath\"".toList

/-- The lines are those of `write_udev_rule`, with one rule of each kind per entry in order. -/
structure RuleFile (bindir : Text) (target : InstallTarget) (entries : List Modalias)
    (lines : List Text) : Prop where
  written : writeUdevRule bindir target (entries.map inspectionDevice) = some lines
  add : rulesFor "add".toList lines = entries.map fun m =>
    actionRule bindir (globOf m) "add".toList "IMPORT".toList target.path
  remove : rulesFor "remove".toList lines = entries.map fun m =>
    actionRule bindir (globOf m) "remove".toList "RUN".toList []
  bind : rulesFor "bind|unbind".toList lines = entries.map fun m => bindRule bindir (globOf m)

theorem rulesFor_ruleLines {action bindir : Text} {target : InstallTarget} (rule : Text → Text)
    (hheader : rulesFor action ruleHeader = []) (hfooter : rulesFor action ruleFooter = [])
    (hone : ∀ glob, rulesFor action (deviceRules bindir target glob) = [rule glob])
    (entries : List Modalias) : rulesFor action (ruleLines bindir target entries) =
      entries.map fun m => rule (globOf m) := by
  have hdevices : rulesFor action (entries.flatMap fun m => deviceRules bindir target (globOf m)) =
      entries.map fun m => rule (globOf m) := by
    induction entries with
    | nil => rfl
    | cons m entries ih =>
      rw [List.flatMap_cons, rulesFor, List.filter_append, ← rulesFor, ← rulesFor, hone, ih]
      rfl
  rw [ruleLines, rulesFor, List.filter_append, List.filter_append, ← rulesFor, ← rulesFor,
    ← rulesFor, hheader, hfooter, hdevices, List.nil_append, List.append_nil]

theorem ruleFile_ruleLines (bindir : Text) (target : InstallTarget) (entries : List Modalias) :
    RuleFile bindir target entries (ruleLines bindir target entries) where
  written := writeUdevRule_inspect bindir target entries
  add := by
    apply rulesFor_ruleLines fun glob =>
      actionRule bindir glob "add".toList "IMPORT".toList target.path
    · decide +kernel
    · decide +kernel
    · intro glob
      rfl
  remove := by
    apply rulesFor_ruleLines fun glob => actionRule bindir glob "remove".toList "RUN".toList []
    · decide +kernel
    · decide +kernel
    · intro glob
      rfl
  bind := by
    apply rulesFor_ruleLines fun glob => bindRule bindir glob
    · decide +kernel
    · decide +kernel
    · intro glob
      rfl

def sourcePath (args : Args) : Path := .ofText args.path

def Missing (env : Env) (args : Args) (t : FileTree) : Prop := ¬ t.exists (exePath env args)

def parentsOf (env : Env) (args : Args) : List Path :=
  (exePath env args).parent.lineage ++ (targetPath args).parent.lineage ++
    (Path.ofText udevdir).lineage

structure Installed (env : Env) (args : Args) (t t' : FileTree) : Prop where
  program : ∃ bytes, t.read (sourcePath args) = some bytes ∧ t'.read (targetPath args) = some bytes
  rule : ∃ entries lines, (t.read (sourcePath args)).bind env.parse = some entries ∧
    RuleFile (bindirOf env args) (targetOf args.path) entries lines ∧
      t'.read (rulePath args) = some (ruleBytes lines)
  contents : ∀ i < t.next, t'.fileAt (targetPath args) ≠ some i →
    t'.fileAt (rulePath args) ≠ some i →
      ¬ (Missing env args t ∧ t'.fileAt (exePath env args) = some i) →
        t'.contents i = t.contents i
  kept : ∀ loc e, t.entries loc = some e → t'.entries loc = some e
  added : ∀ loc e, t.entries loc = none → t'.entries loc = some e →
    e = .dir ∧ (∃ p ∈ parentsOf env args, t.place p = some loc) ∨
      t.place (targetPath args) = some loc ∨ t.place (rulePath args) = some loc ∨
        Missing env args t ∧ t.place (exePath env args) = some loc

/-- The source holds what the running executable does, under another inode. -/
def SameBytes (env : Env) (args : Args) (t : FileTree) : Prop :=
  ∃ i m, t.fileAt (sourcePath args) = some i ∧
    t.fileAtPlace (.ofText env.currentExe) = some m ∧ m ≠ i ∧ t.contents m = t.contents i

/-- The source is not overwritten before it is read, and the target not after it was
written. A missing executable may be installed over the source by way of a directory that is
missing as well; that is told from its bytes alone. -/
structure Distinct (env : Env) (args : Args) (t : FileTree) : Prop where
  target : ¬ Same t (sourcePath args) (targetPath args)
  rule : ¬ Same t (targetPath args) (rulePath args)
  exe : Missing env args t → Same t (sourcePath args) (exePath env args) → SameBytes env args t

/-- The executable, the program and the rule file, one after the other. -/
structure Stages (env : Env) (args : Args) (entries : List Modalias) (i j k : ℕ)
    (t t₁ t₂ t₃ t' : FileTree) : Prop where
  parsed : (t.read (sourcePath args)).bind env.parse = some entries
  self : t₁ = t ∧ ¬ Missing env args t ∨ Missing env args t ∧ ∃ m x,
    Copied (.ofText env.currentExe) (exePath env args) (exePath env args).parent.lineage m x t t₁
  program : Copied (sourcePath args) (targetPath args) (targetPath args).parent.lineage i j t₁ t₂
  dirs : MakesDirs (Path.ofText udevdir).lineage t₂ t₃
  rule : Fills (rulePath args) k
    (ruleBytes (ruleLines (bindirOf env args) (targetOf args.path) entries)) t₃ t'

variable {os : Os} {env : Env} {args : Args} {w w' : World}

theorem stages_of_ok (h : cmdInstall os env args w = .ok () w') (hreal : ¬ args.dryRun) :
    ∃ entries i j k t₁ t₂ t₃, Stages env args entries i j k w.tree t₁ t₂ t₃ w'.tree := by
  obtain ⟨entries, w₁, w₂, hphases⟩ := phases_of_ok h
  have hprogram := hphases.program
  rw [installProgram_eq, if_neg hreal] at hprogram
  obtain ⟨⟨t₁, hdirs, hcopy⟩, -⟩ := copies_ok hprogram
  obtain ⟨i, j, hcopied⟩ := copied_of_dirs hdirs hcopy
  have hrule := hphases.rule
  rw [installRule_eq, if_neg hreal] at hrule
  obtain ⟨_, w₃, hudevdir, hrest⟩ := bind_ok.1 hrule
  obtain ⟨k, w₄, hcreate, hput⟩ := bind_ok.1 hrest
  obtain ⟨hmade, -⟩ := createDirAll_ok hudevdir
  obtain ⟨-, t₄, hcreated, rfl⟩ := attempt_ok.1 hcreate
  rw [putRule_eq, writeUdevRule_inspect] at hput
  obtain ⟨-, t', hwritten, rfl⟩ := attempt_ok.1 hput
  cases hwritten
  refine ⟨entries, i, j, k, w₁.tree, w₂.tree, w₃.tree, hphases.declared, ?_, hcopied, hmade,
    (creates_create hcreated).fills _⟩
  rcases installSelf_ok hphases.self with ⟨rfl, hthere | ⟨-, hdry⟩⟩ | hwritten
  · exact .inl ⟨rfl, not_not.2 hthere⟩
  · exact absurd hdry hreal
  · obtain ⟨t₁, hmade₁, hcopy₁⟩ := hwritten.copied
    exact .inr ⟨hwritten.absent, copied_of_dirs hmade₁ hcopy₁⟩

theorem head?_ruleBytes (bindir : Text) (target : InstallTarget) (entries : List Modalias) :
    (ruleBytes (ruleLines bindir target entries)).head? = some 0x23 := rfl

/-- An object file starts with the magic number of its format, a rule file with a comment. -/
theorem parsed_bytes {bytes : List UInt8} (hmagic : elfMagic <+: bytes) (bindir : Text)
    (target : InstallTarget) (entries : List Modalias) :
    bytes ≠ [] ∧ bytes ≠ ruleBytes (ruleLines bindir target entries) := by
  obtain ⟨rest, rfl⟩ := hmagic
  constructor
  · exact List.cons_ne_nil _ _
  · intro heq
    have hhead := head?_ruleBytes bindir target entries
    rw [← heq] at hhead
    cases hhead

section stages

variable {entries : List Modalias} {i j k : ℕ} {t t₁ t₂ t₃ t' : FileTree}

theorem Stages.grows_self (h : Stages env args entries i j k t t₁ t₂ t₃ t') : Grows t t₁ := by
  rcases h.self with ⟨rfl, -⟩ | ⟨-, m, x, hcopied⟩
  · exact .refl t₁
  · exact hcopied.grows

theorem Stages.grows_program (h : Stages env args entries i j k t t₁ t₂ t₃ t') : Grows t t₂ :=
  h.grows_self.trans h.program.grows

theorem Stages.grows_rule (h : Stages env args entries i j k t t₁ t₂ t₃ t') : Grows t₂ t' :=
  h.dirs.grows.trans h.rule.grows

theorem Stages.grows (h : Stages env args entries i j k t t₁ t₂ t₃ t') : Grows t t' :=
  h.grows_program.trans h.grows_rule

theorem Stages.targetFile (h : Stages env args entries i j k t t₁ t₂ t₃ t') :
    t'.fileAt (targetPath args) = some j := h.grows_rule.fileAt h.program.targetFile

theorem Stages.source (h : Stages env args entries i j k t t₁ t₂ t₃ t') :
    t.fileAt (sourcePath args) = some i ∧ env.parse (t.contents i) = some entries := by
  obtain ⟨bytes, hread, hparse⟩ := Option.bind_eq_some_iff.1 h.parsed
  obtain ⟨l, hl, rfl⟩ := Option.map_eq_some_iff.1 hread
  have hlast := h.grows_program.fileAt hl
  rw [h.program.sourceFile, Option.some.injEq] at hlast
  rw [hlast]
  exact ⟨hl, hparse⟩

theorem Stages.contents_rule (h : Stages env args entries i j k t t₁ t₂ t₃ t') {l : ℕ}
    (hl : l ≠ k) : t'.contents l = t₂.contents l := by
  rw [h.rule.contents l hl, h.dirs.contents]

theorem Stages.contents_self (h : Stages env args entries i j k t t₁ t₂ t₃ t') {l : ℕ}
    (hl : ¬ (Missing env args t ∧ t₁.fileAt (exePath env args) = some l)) :
    t₁.contents l = t.contents l := by
  rcases h.self with ⟨rfl, -⟩ | ⟨hmissing, m, x, hcopied⟩
  · rfl
  · apply hcopied.contents
    rintro rfl
    exact hl ⟨hmissing, hcopied.targetFile⟩

theorem Stages.adds (h : Stages env args entries i j k t t₁ t₂ t₃ t') :
    ∃ files, (∀ p ∈ files, Missing env args t ∧ p = exePath env args) ∧
      Adds (parentsOf env args) (files ++ [targetPath args, rulePath args]) t t' := by
  obtain ⟨files, hfiles, hself⟩ : ∃ files,
      (∀ p ∈ files, Missing env args t ∧ p = exePath env args) ∧
        Adds (exePath env args).parent.lineage files t t₁ := by
    rcases h.self with ⟨rfl, -⟩ | ⟨hmissing, m, x, hcopied⟩
    · exact ⟨[], by simp, .refl _ _ t₁⟩
    · refine ⟨[exePath env args], ?_, hcopied.adds⟩
      intro p hp
      exact ⟨hmissing, List.mem_singleton.1 hp⟩
  refine ⟨files, hfiles, ?_⟩
  have hprogram := hself.trans h.grows_self h.program.adds h.program.grows
  have hdirs := hprogram.trans h.grows_program h.dirs.adds h.dirs.grows
  have hall := hdirs.trans (h.grows_program.trans h.dirs.grows) h.rule.adds h.rule.grows
  simpa only [parentsOf, List.append_nil, List.append_assoc, List.nil_append,
    List.singleton_append] using hall

/-- The target holds the source at the end exactly where none of the files is another. -/
theorem Stages.target_iff (h : Stages env args entries i j k t t₁ t₂ t₃ t')
    (hmagic : elfMagic <+: t.contents i) :
    t'.contents j = t.contents i ↔ i ≠ j ∧ j ≠ k ∧ t₁.contents i = t.contents i := by
  obtain ⟨hne, hrule⟩ := parsed_bytes hmagic (bindirOf env args) (targetOf args.path) entries
  by_cases hjk : j = k
  · have hlast := h.rule.holds
    rw [← hjk] at hlast
    rw [hlast]
    exact iff_of_false hrule.symm fun hall => hall.2.1 hjk
  · rw [h.contents_rule hjk, h.program.filled]
    by_cases hij : i = j
    · rw [if_pos hij]
      exact iff_of_false hne.symm fun hall => hall.1 hij
    · rw [if_neg hij]
      exact ⟨fun heq => ⟨hij, hjk, heq⟩, fun hall => hall.2.2⟩

theorem Stages.source_kept_iff (h : Stages env args entries i j k t t₁ t₂ t₃ t')
    (hmagic : elfMagic <+: t.contents i) :
    t₁.contents i = t.contents i ↔ Missing env args t →
      Same t (sourcePath args) (exePath env args) → SameBytes env args t := by
  rcases h.self with ⟨rfl, hthere⟩ | ⟨hmissing, m, x, hcopied⟩
  · exact iff_of_true rfl fun hmissing => absurd hmissing hthere
  have hsource : t₁.fileAt (sourcePath args) = some i := h.grows_self.fileAt h.source.1
  by_cases hix : i = x
  · subst hix
    rw [hcopied.filled]
    constructor
    · intro heq _ _
      split_ifs at heq with hmi
      · exact absurd heq.symm (parsed_bytes hmagic (bindirOf env args) (targetOf args.path) []).1
      · exact ⟨i, m, h.source.1, hcopied.old, hmi, heq⟩
    · intro hexe
      have hsame := same_of_fileAt hcopied.grows hsource hcopied.targetFile
      obtain ⟨i', m', hi, hm, hne, heq⟩ := hexe hmissing hsame
      rw [h.source.1, Option.some.injEq] at hi
      rw [hcopied.old, Option.some.injEq] at hm
      subst hi hm
      rw [if_neg hne, heq]
  · apply iff_of_true (hcopied.contents i hix)
    intro _ hsame
    exact absurd (fileAt_of_same hcopied.grows hsame hsource hcopied.targetFile) hix

theorem Stages.distinct_iff (h : Stages env args entries i j k t t₁ t₂ t₃ t')
    (hmagic : elfMagic <+: t.contents i) :
    Distinct env args t ↔ t'.contents j = t.contents i := by
  have hsource := h.grows_program.fileAt h.source.1
  rw [h.target_iff hmagic, h.source_kept_iff hmagic]
  constructor
  · rintro ⟨htarget, hrule, hexe⟩
    refine ⟨?_, ?_, hexe⟩
    · rintro rfl
      exact htarget (same_of_fileAt h.grows_program hsource h.program.targetFile)
    · rintro rfl
      exact hrule (same_of_fileAt h.grows h.targetFile h.rule.fileAt)
  · rintro ⟨hij, hjk, hexe⟩
    refine ⟨fun hsame => hij ?_, fun hsame => hjk ?_, hexe⟩
    · exact fileAt_of_same h.grows_program hsame hsource h.program.targetFile
    · exact fileAt_of_same h.grows hsame h.targetFile h.rule.fileAt

theorem Stages.installed (h : Stages env args entries i j k t t₁ t₂ t₃ t')
    (hprogram : t'.contents j = t.contents i) : Installed env args t t' where
  program := by
    refine ⟨t.contents i, ?_, ?_⟩
    · rw [FileTree.read, h.source.1, Option.map_some]
    · rw [FileTree.read, h.targetFile, Option.map_some, hprogram]
  rule := by
    refine ⟨entries, _, h.parsed, ruleFile_ruleLines .., ?_⟩
    rw [FileTree.read, h.rule.fileAt, Option.map_some, h.rule.holds]
  contents l hl htarget hrule hexe := by
    have hj : l ≠ j := fun heq => htarget (heq ▸ h.targetFile)
    have hk : l ≠ k := fun heq => hrule (heq ▸ h.rule.fileAt)
    rw [h.contents_rule hk, h.program.contents l hj]
    apply h.contents_self
    rintro ⟨hmissing, hlast⟩
    exact hexe ⟨hmissing, h.program.grows.trans h.grows_rule |>.fileAt hlast⟩
  kept := h.grows.kept
  added loc e hnone hsome := by
    obtain ⟨files, hfiles, hadds⟩ := h.adds
    refine (hadds loc e hnone hsome).imp_right ?_
    rintro ⟨p, hp, hplace⟩
    rcases List.mem_append.1 hp with hself | hother
    · obtain ⟨hmissing, rfl⟩ := hfiles p hself
      exact .inr (.inr ⟨hmissing, hplace⟩)
    · rcases List.mem_pair.1 hother with rfl | rfl
      · exact .inl hplace
      · exact .inr (.inl hplace)

end stages

/-- An install puts the program in its place exactly where its files are not each other's. -/
theorem installed_iff (hparse : ∀ bytes entries, env.parse bytes = some entries →
    elfMagic <+: bytes) (hreal : ¬ args.dryRun) (h : cmdInstall os env args w = .ok () w') :
    Installed env args w.tree w'.tree ↔ Distinct env args w.tree := by
  obtain ⟨entries, i, j, k, t₁, t₂, t₃, hstages⟩ := stages_of_ok h hreal
  have hmagic := hparse _ _ hstages.source.2
  rw [hstages.distinct_iff hmagic]
  constructor
  · intro hinstalled
    obtain ⟨bytes, hsource, htarget⟩ := hinstalled.program
    rw [FileTree.read, hstages.source.1, Option.map_some, Option.some.injEq] at hsource
    rw [FileTree.read, hstages.targetFile, Option.map_some, Option.some.injEq] at htarget
    rw [htarget, hsource]
  · exact hstages.installed

theorem sampleEnv_parse (bytes : List UInt8) (entries : List Modalias)
    (h : sampleEnv.parse bytes = some entries) : elfMagic <+: bytes := by
  by_contra hno
  have hnone : sampleEnv.parse bytes = none := if_neg hno
  rw [hnone] at h
  cases h

def endsWell (kind : FileTree → Bool) : EStateM.Result InstallError World Unit → Bool
  | .ok () w => kind w.tree
  | _ => false

theorem of_endsWell {kind : FileTree → Bool} {r : EStateM.Result InstallError World Unit}
    (h : endsWell kind r) : ∃ w', r = .ok () w' ∧ kind w'.tree := by
  match r, h with
  | .ok () w', h => exact ⟨w', rfl, h⟩

theorem upgrade_installs : ∃ w', cmdInstall willing sampleEnv (toOpt true false) upgrade =
    .ok () w' ∧ Installed sampleEnv (toOpt true false) upgrade.tree w'.tree := by
  have hends : endsWell (fun _ => true)
      (cmdInstall willing sampleEnv (toOpt true false) upgrade) := by decide +kernel
  have hthere : upgrade.tree.exists (exePath sampleEnv (toOpt true false)) := by decide +kernel
  have hsource : upgrade.tree.place (sourcePath (toOpt true false)) =
      some (sampleLoc "x.bpf.o") := by decide +kernel
  have htarget : upgrade.tree.place (targetPath (toOpt true false)) =
      some (sampleLoc "etc/udev-hid-bpf/x.bpf.o") := by decide +kernel
  have hrule : upgrade.tree.place (rulePath (toOpt true false)) =
      some (sampleLoc "etc/udev/rules.d/99-hid-bpf-x.rules") := by decide +kernel
  have hreal : ¬ (toOpt true false).dryRun = true := Bool.false_ne_true
  obtain ⟨w', h, -⟩ := of_endsWell hends
  refine ⟨w', h, (installed_iff sampleEnv_parse hreal h).2 ⟨?_, ?_, ?_⟩⟩
  · apply not_same hsource htarget
    · decide +kernel
    · decide +kernel
  · apply not_same htarget hrule
    · decide +kernel
    · decide +kernel
  · intro hmissing
    exact absurd hthere hmissing

def installed : World where
  tree := .ofTables [] (sampleDirs ++ [(sampleLoc "u", .file 0),
    (sampleLoc "etc/udev-hid-bpf/x.bpf.o", .file 1), (sampleLoc "opt/bin", .dir),
    (sampleLoc "opt/bin/udev-hid-bpf", .file 0)]) sampleFiles (by decide)
  printed := []

def fromTarget : Args where
  path := "/etc/udev-hid-bpf/x.bpf.o".toList
  installPrefix := some "/opt".toList
  force := true
  installExe := false
  dryRun := false

/-- The program is emptied, and the install is reported as done. -/
theorem install_from_target_empties : ∃ w', cmdInstall willing sampleEnv fromTarget installed =
    .ok () w' ∧ ¬ Installed sampleEnv fromTarget installed.tree w'.tree := by
  have hends : endsWell (fun t => t.read (targetPath fromTarget) = some [])
      (cmdInstall willing sampleEnv fromTarget installed) := by decide +kernel
  have hsource : installed.tree.read (sourcePath fromTarget) = some elfMagic := by decide +kernel
  obtain ⟨w', h, hempty⟩ := of_endsWell hends
  refine ⟨w', h, ?_⟩
  rintro ⟨⟨bytes, hbytes, htarget⟩, -, -, -, -⟩
  rw [hsource, Option.some.injEq] at hbytes
  rw [of_decide_eq_true hempty, Option.some.injEq, ← hbytes] at htarget
  cases htarget

end InstallResult
