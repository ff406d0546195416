import Mathlib.Data.List.Infix
import Mathlib.Data.Nat.Notation
import Mathlib.Logic.Function.Basic

/-! # File trees

Directories, regular files and symbolic links. A location is a path without links from the
root on; a path is walked from name to name, each link followed to its target. Names of one
file have one inode, under which its contents are kept. -/
namespace FileTrees

abbrev Name := List Char

abbrev Loc := List Name

structure Path where
  absolute : Bool
  names : List Name
  deriving DecidableEq

/-- Empty names and `.` are passed over. -/
def Path.ofText (text : List Char) : Path :=
  ⟨text.head? == some '/', (text.splitOn '/').filter fun name => name ≠ [] ∧ name ≠ ['.']⟩

def Path.parent (p : Path) : Path := { p with names := p.names.dropLast }

def Path.lineage (p : Path) : List Path := p.names.inits.tail.map fun names => { p with names }

inductive Entry where
  | dir
  | file (inode : ℕ)
  deriving DecidableEq

/-- The end of a walk, and the directories it leads through. -/
structure Walk where
  via : List Loc
  loc : Loc
  deriving DecidableEq

def Walk.through (loc : Loc) (w : Walk) : Walk := { w with via := loc :: w.via }

structure FileTree where
  cwd : Loc
  links : Loc → Option Path
  entries : Loc → Option Entry
  contents : ℕ → List UInt8
  next : ℕ
  fresh : ∀ loc i, entries loc = some (.file i) → i < next

/-- A walk that hands over to `follow` at a link. -/
def walkTo (links : Loc → Option Path) (follow : Loc → List Name → Option Walk) :
    Loc → List Name → Option Walk
  | cur, [] => some ⟨[], cur⟩
  | cur, name :: names =>
    if name = ['.', '.'] then (walkTo links follow cur.dropLast names).map (Walk.through cur)
    else
      match links (cur ++ [name]) with
      | none => (walkTo links follow (cur ++ [name]) names).map (Walk.through cur)
      | some target =>
        (follow (if target.absolute then [] else cur) (target.names ++ names)).map
          (Walk.through cur)

def walk (links : Loc → Option Path) : ℕ → Loc → List Name → Option Walk
  | 0 => walkTo links fun _ _ => none
  | n + 1 => walkTo links (walk links n)

variable (t : FileTree)

def FileTree.walk (p : Path) : Option Walk :=
  FileTrees.walk t.links 40 (if p.absolute then [] else t.cwd) p.names

def FileTree.isDirAt (loc : Loc) : Bool := t.entries loc = some .dir

/-- Where a path ends if there is a way; there need not be anything. -/
def FileTree.reach (p : Path) : Option Loc :=
  (t.walk p).bind fun w => if w.via.all t.isDirAt then some w.loc else none

def FileTree.entry (p : Path) : Option Entry := (t.reach p).bind t.entries

def FileTree.exists (p : Path) : Bool := (t.entry p).isSome

def FileTree.isDir (p : Path) : Bool := t.entry p = some .dir

def FileTree.fileAt (p : Path) : Option ℕ :=
  match t.entry p with
  | some (.file i) => some i
  | _ => none

def FileTree.read (p : Path) : Option (List UInt8) := (t.fileAt p).map t.contents

def FileTree.isLink (p : Path) : Bool :=
  match t.reach p.parent, p.names.getLast? with
  | some loc, some name => (t.links (loc ++ [name])).isSome
  | _, _ => false

def FileTree.write (i : ℕ) (bytes : List UInt8) : FileTree :=
  { t with contents := Function.update t.contents i bytes }

def FileTree.addDir (loc : Loc) : FileTree :=
  { t with
    entries := Function.update t.entries loc (some .dir)
    fresh := by
      intro loc' i h
      by_cases hloc : loc' = loc
      · rw [hloc, Function.update_self] at h
        cases h
      · rw [Function.update_of_ne hloc] at h
        exact t.fresh loc' i h }

def FileTree.addFile (loc : Loc) : FileTree :=
  { t with
    entries := Function.update t.entries loc (some (.file t.next))
    contents := Function.update t.contents t.next []
    next := t.next + 1
    fresh := by
      intro loc' i h
      by_cases hloc : loc' = loc
      · rw [hloc, Function.update_self] at h
        cases h
        exact Nat.lt_succ_self _
      · rw [Function.update_of_ne hloc] at h
        exact Nat.lt_succ_of_lt (t.fresh loc' i h) }

def FileTree.mkdir (p : Path) : Option FileTree :=
  match t.reach p with
  | none => none
  | some loc => if (t.entries loc).isSome || t.isLink p then none else some (t.addDir loc)

def FileTree.makeDirs (t : FileTree) : List Path → FileTree × Option Unit
  | [] => (t, some ())
  | p :: ps =>
    if t.isDir p then makeDirs t ps
    else
      match t.mkdir p with
      | none => (t, none)
      | some t' => makeDirs t' ps

def FileTree.createDirAll (p : Path) : FileTree × Option Unit := t.makeDirs p.lineage

/-- The file is emptied where there is one, else made; a link is followed to its target. -/
def FileTree.create (p : Path) : FileTree × Option ℕ :=
  match t.reach p with
  | none => (t, none)
  | some loc =>
    match t.entries loc with
    | some .dir => (t, none)
    | some (.file i) => (t.write i [], some i)
    | none => (t.addFile loc, some t.next)

/-- The target is opened, and with that emptied, before the source is read. -/
def FileTree.copy (source target : Path) : FileTree × Option Unit :=
  match t.fileAt source with
  | none => (t, none)
  | some i =>
    match t.create target with
    | (t', none) => (t', none)
    | (t', some j) => (t'.write j (t'.contents i), some ())

/-- Nothing is removed or renamed, and a new file has one name. The contents may change. -/
structure Grows (t t' : FileTree) : Prop where
  cwd : t'.cwd = t.cwd
  links : t'.links = t.links
  kept : ∀ loc e, t.entries loc = some e → t'.entries loc = some e
  le_next : t.next ≤ t'.next
  new_file : ∀ loc i, t.entries loc = none → t'.entries loc = some (.file i) → t.next ≤ i
  one_name : ∀ loc loc' i, t.next ≤ i → t'.entries loc = some (.file i) →
    t'.entries loc' = some (.file i) → loc = loc'

variable {t t' t'' : FileTree} {p q : Path} {loc : Loc} {i : ℕ}

theorem Grows.old_file (h : Grows t t') (hi : i < t.next) (hloc : t'.entries loc = some (.file i)) :
    t.entries loc = some (.file i) := by
  cases hold : t.entries loc with
  | none => exact absurd (h.new_file loc i hold hloc) (not_le.2 hi)
  | some e => rw [← hloc, h.kept loc e hold]

theorem Grows.refl (t : FileTree) : Grows t t where
  cwd := rfl
  links := rfl
  kept _ _ h := h
  le_next := Nat.le_refl _
  new_file loc i hnone hsome := by
    rw [hnone] at hsome
    cases hsome
  one_name loc loc' i hi hloc _ := absurd (t.fresh loc i hloc) (not_lt.2 hi)

theorem Grows.trans (h : Grows t t') (h' : Grows t' t'') : Grows t t'' where
  cwd := h'.cwd.trans h.cwd
  links := h'.links.trans h.links
  kept loc e hloc := h'.kept loc e (h.kept loc e hloc)
  le_next := le_trans h.le_next h'.le_next
  new_file loc i hnone hsome := by
    cases hmid : t'.entries loc with
    | none => exact le_trans h.le_next (h'.new_file loc i hmid hsome)
    | some e =>
      have hkept := h'.kept loc e hmid
      rw [hsome, Option.some.injEq] at hkept
      exact h.new_file loc i hnone (hmid.trans (congrArg some hkept.symm))
  one_name loc loc' i hi hloc hloc' := by
    by_cases hnew : t'.next ≤ i
    · exact h'.one_name loc loc' i hnew hloc hloc'
    · have hold := not_le.1 hnew
      exact h.one_name loc loc' i hi (h'.old_file hold hloc) (h'.old_file hold hloc')

theorem Grows.walk (h : Grows t t') (p : Path) : t'.walk p = t.walk p := by
  rw [FileTree.walk, FileTree.walk, h.links, h.cwd]

theorem reach_eq_some : t.reach p = some loc ↔
    ∃ w, t.walk p = some w ∧ (∀ d ∈ w.via, t.entries d = some .dir) ∧ w.loc = loc := by
  simp only [FileTree.reach, Option.bind_eq_some_iff, Option.ite_none_right_eq_some,
    List.all_eq_true, FileTree.isDirAt, decide_eq_true_eq, Option.some.injEq]

theorem Grows.reach (h : Grows t t') (hp : t.reach p = some loc) : t'.reach p = some loc := by
  obtain ⟨w, hw, hvia, hloc⟩ := reach_eq_some.1 hp
  rw [reach_eq_some]
  exact ⟨w, (h.walk p).trans hw, fun d hd => h.kept d _ (hvia d hd), hloc⟩

theorem entry_eq_some {e : Entry} :
    t.entry p = some e ↔ ∃ loc, t.reach p = some loc ∧ t.entries loc = some e :=
  Option.bind_eq_some_iff

theorem Grows.entry (h : Grows t t') {e : Entry} (hp : t.entry p = some e) :
    t'.entry p = some e := by
  obtain ⟨loc, hloc, he⟩ := entry_eq_some.1 hp
  exact entry_eq_some.2 ⟨loc, h.reach hloc, h.kept loc e he⟩

theorem Grows.exists (h : Grows t t') (hp : t.exists p) : t'.exists p := by
  obtain ⟨e, he⟩ := Option.isSome_iff_exists.1 hp
  rw [FileTree.exists, h.entry he]
  rfl

theorem fileAt_eq_some : t.fileAt p = some i ↔ t.entry p = some (.file i) := by
  rw [FileTree.fileAt]
  cases h : t.entry p with
  | none => simp
  | some e => cases e <;> simp

theorem Grows.fileAt (h : Grows t t') (hp : t.fileAt p = some i) : t'.fileAt p = some i :=
  fileAt_eq_some.2 (h.entry (fileAt_eq_some.1 hp))

theorem exists_of_fileAt (h : t.fileAt p = some i) : t.exists p := by
  rw [FileTree.exists, fileAt_eq_some.1 h]
  rfl

@[simp] theorem contents_write_self (t : FileTree) (i : ℕ) (bytes : List UInt8) :
    (t.write i bytes).contents i = bytes := Function.update_self ..

theorem contents_write_ne (t : FileTree) {i k : ℕ} (h : k ≠ i) (bytes : List UInt8) :
    (t.write i bytes).contents k = t.contents k := Function.update_of_ne h ..

theorem grows_write (t : FileTree) (i : ℕ) (bytes : List UInt8) : Grows t (t.write i bytes) :=
  { Grows.refl t with }

theorem grows_addDir (h : t.entries loc = none) : Grows t (t.addDir loc) where
  cwd := rfl
  links := rfl
  kept loc' e he := by
    have hne : loc' ≠ loc := by
      rintro rfl
      rw [h] at he
      cases he
    rw [← he]
    exact Function.update_of_ne hne ..
  le_next := Nat.le_refl _
  new_file loc' i hnone hsome := by
    by_cases hloc : loc' = loc
    · rw [hloc] at hsome
      simp [FileTree.addDir] at hsome
    · have hold : (t.addDir loc).entries loc' = t.entries loc' := Function.update_of_ne hloc ..
      rw [hold, hnone] at hsome
      cases hsome
  one_name loc₁ loc₂ i hi h₁ _ := absurd ((t.addDir loc).fresh loc₁ i h₁) (not_lt.2 hi)

theorem grows_addFile (h : t.entries loc = none) : Grows t (t.addFile loc) := by
  have hother : ∀ loc', loc' ≠ loc → (t.addFile loc).entries loc' = t.entries loc' :=
    fun loc' hne => Function.update_of_ne hne ..
  have hself : (t.addFile loc).entries loc = some (.file t.next) := Function.update_self ..
  constructor
  · rfl
  · rfl
  · intro loc' e he
    rw [hother loc' (by rintro rfl; rw [h] at he; cases he), he]
  · exact Nat.le_succ _
  · intro loc' i hnone hsome
    by_cases hloc : loc' = loc
    · rw [hloc, hself] at hsome
      cases hsome
      exact Nat.le_refl _
    · rw [hother loc' hloc, hnone] at hsome
      cases hsome
  · intro loc₁ loc₂ i hi h₁ h₂
    have hnew : ∀ loc', (t.addFile loc).entries loc' = some (.file i) → loc' = loc := by
      intro loc' h'
      by_contra hne
      rw [hother loc' hne] at h'
      exact absurd (t.fresh loc' i h') (not_lt.2 hi)
    rw [hnew loc₁ h₁, hnew loc₂ h₂]

/-- The location of a path, whatever is there and on the way. -/
def FileTree.place (t : FileTree) (p : Path) : Option Loc := (t.walk p).map Walk.loc

theorem Grows.place (h : Grows t t') (p : Path) : t'.place p = t.place p := by
  rw [FileTree.place, FileTree.place, h.walk]

theorem place_of_reach (h : t.reach p = some loc) : t.place p = some loc := by
  obtain ⟨w, hw, -, hloc⟩ := reach_eq_some.1 h
  rw [FileTree.place, hw, Option.map_some, hloc]

/-- The file at the end of a path, whether or not its way is there. -/
def FileTree.fileAtPlace (t : FileTree) (p : Path) : Option ℕ :=
  match (t.place p).bind t.entries with
  | some (.file i) => some i
  | _ => none

theorem fileAtPlace_eq_some : t.fileAtPlace p = some i ↔
    ∃ loc, t.place p = some loc ∧ t.entries loc = some (.file i) := by
  rw [← Option.bind_eq_some_iff, FileTree.fileAtPlace]
  cases h : (t.place p).bind t.entries with
  | none => simp
  | some e => cases e <;> simp

theorem fileAtPlace_of_fileAt (h : t.fileAt p = some i) : t.fileAtPlace p = some i := by
  obtain ⟨loc, hloc, he⟩ := entry_eq_some.1 (fileAt_eq_some.1 h)
  exact fileAtPlace_eq_some.2 ⟨loc, place_of_reach hloc, he⟩

theorem Grows.isDir (h : Grows t t') (hp : t.isDir p) : t'.isDir p :=
  decide_eq_true (h.entry (of_decide_eq_true hp))

/-- All that making directories for `ps` can do. -/
structure MakesDirs (ps : List Path) (t t' : FileTree) : Prop where
  grows : Grows t t'
  contents : t'.contents = t.contents
  made : ∀ p ∈ ps, t'.isDir p
  new_dir : ∀ loc, t.entries loc = none → t'.entries loc = none ∨
    t'.entries loc = some .dir ∧ ∃ p ∈ ps, t.place p = some loc

theorem makesDirs_mkdir (h : t.mkdir p = some t') : MakesDirs [p] t t' := by
  rw [FileTree.mkdir] at h
  split at h
  · cases h
  rename_i loc hloc
  rw [Option.ite_none_left_eq_some, Option.some.injEq] at h
  obtain ⟨hfree, rfl⟩ := h
  have hnone : t.entries loc = none := by
    rw [Bool.or_eq_true, not_or] at hfree
    simpa using hfree.1
  have hgrows := grows_addDir hnone
  refine ⟨hgrows, rfl, ?_, ?_⟩
  · intro q hq
    rw [List.mem_singleton.1 hq]
    exact decide_eq_true (entry_eq_some.2 ⟨loc, hgrows.reach hloc, Function.update_self ..⟩)
  · intro loc' h'
    by_cases hself : loc' = loc
    · right
      rw [hself]
      exact ⟨Function.update_self .., p, List.mem_singleton_self p, place_of_reach hloc⟩
    · left
      rw [← h']
      exact Function.update_of_ne hself ..

theorem MakesDirs.cons_of_isDir {ps : List Path} (hdir : t.isDir p) (h : MakesDirs ps t t') :
    MakesDirs (p :: ps) t t' := by
  refine ⟨h.grows, h.contents, List.forall_mem_cons.2 ⟨h.grows.isDir hdir, h.made⟩, ?_⟩
  intro loc hloc
  refine (h.new_dir loc hloc).imp_right ?_
  rintro ⟨hmade, q, hq, hplace⟩
  exact ⟨hmade, q, List.mem_cons_of_mem p hq, hplace⟩

theorem MakesDirs.cons {ps : List Path} (h : MakesDirs [p] t t') (h' : MakesDirs ps t' t'') :
    MakesDirs (p :: ps) t t'' := by
  have hdir := h'.grows.isDir (h.made p (List.mem_singleton_self p))
  refine ⟨h.grows.trans h'.grows, h'.contents.trans h.contents,
    List.forall_mem_cons.2 ⟨hdir, h'.made⟩, ?_⟩
  intro loc hloc
  rcases h.new_dir loc hloc with hnone | ⟨hmade, q, hq, hplace⟩
  · refine (h'.new_dir loc hnone).imp_right ?_
    rintro ⟨hmade, q, hq, hplace⟩
    exact ⟨hmade, q, List.mem_cons_of_mem p hq, (h.grows.place q) ▸ hplace⟩
  · right
    rw [List.mem_singleton.1 hq] at hplace
    exact ⟨h'.grows.kept loc _ hmade, p, List.mem_cons_self, hplace⟩

theorem makesDirs_makeDirs {ps : List Path} (h : t.makeDirs ps = (t', some ())) :
    MakesDirs ps t t' := by
  induction ps generalizing t with
  | nil =>
    cases h
    exact ⟨.refl _, rfl, by simp, fun _ hloc => .inl hloc⟩
  | cons p ps ih =>
    rw [FileTree.makeDirs] at h
    split at h
    · rename_i hdir
      exact (ih h).cons_of_isDir hdir
    · split at h
      · cases h
      · rename_i t₁ hmkdir
        exact (makesDirs_mkdir hmkdir).cons (ih h)

theorem makesDirs_createDirAll (h : t.createDirAll p = (t', some ())) :
    MakesDirs p.lineage t t' := makesDirs_makeDirs h

theorem MakesDirs.fileAtPlace {ps : List Path} (h : MakesDirs ps t t') (hp : t'.fileAt p = some i) :
    t.fileAtPlace p = some i := by
  obtain ⟨loc, hloc, he⟩ := fileAtPlace_eq_some.1 (fileAtPlace_of_fileAt hp)
  rw [h.grows.place] at hloc
  refine fileAtPlace_eq_some.2 ⟨loc, hloc, ?_⟩
  cases hold : t.entries loc with
  | some e => rw [← he, h.grows.kept loc e hold]
  | none =>
    rcases h.new_dir loc hold with hnone | ⟨hdir, -⟩
    · rw [he] at hnone
      cases hnone
    · rw [he] at hdir
      cases hdir

/-- All that a file that was created can differ in: its location and its contents. -/
structure Creates (p : Path) (i : ℕ) (t t' : FileTree) : Prop where
  grows : Grows t t'
  fileAt : t'.fileAt p = some i
  empty : t'.contents i = []
  contents : ∀ k, k ≠ i → t'.contents k = t.contents k
  entries : ∀ loc, t.place p ≠ some loc → t'.entries loc = t.entries loc

theorem creates_create (h : t.create p = (t', some i)) : Creates p i t t' := by
  rw [FileTree.create] at h
  split at h
  · cases h
  rename_i loc hloc
  split at h
  · cases h
  · rename_i k hk
    cases h
    refine ⟨grows_write t i [], ?_, contents_write_self t i [], fun j hj => ?_, fun _ _ => rfl⟩
    · exact fileAt_eq_some.2 (entry_eq_some.2 ⟨loc, hloc, hk⟩)
    · exact contents_write_ne t hj []
  · rename_i hnone
    cases h
    have hgrows := grows_addFile hnone
    refine ⟨hgrows, ?_, Function.update_self .., fun j hj => Function.update_of_ne hj .., ?_⟩
    · exact fileAt_eq_some.2 (entry_eq_some.2 ⟨loc, hgrows.reach hloc, Function.update_self ..⟩)
    · intro loc' hloc'
      rw [place_of_reach hloc] at hloc'
      exact Function.update_of_ne (fun h => hloc' (congrArg some h.symm)) ..

/-- A copy creates its target and fills it with what the source holds then. -/
theorem copy_spec (h : t.copy p q = (t', some ())) : ∃ i j t₁, t.fileAt p = some i ∧
    Creates q j t t₁ ∧ t' = t₁.write j (t₁.contents i) := by
  rw [FileTree.copy] at h
  split at h
  · cases h
  rename_i i hi
  split at h
  · cases h
  · rename_i t₁ j hcreate
    cases h
    exact ⟨i, j, t₁, hi, creates_create hcreate, rfl⟩

def Adds (dirs files : List Path) (t t' : FileTree) : Prop :=
  ∀ loc e, t.entries loc = none → t'.entries loc = some e →
    e = .dir ∧ (∃ p ∈ dirs, t.place p = some loc) ∨ ∃ p ∈ files, t.place p = some loc

theorem Adds.refl (dirs files : List Path) (t : FileTree) : Adds dirs files t t := by
  intro loc e hnone hsome
  rw [hnone] at hsome
  cases hsome

theorem Adds.trans {dirs dirs' files files' : List Path} (h : Adds dirs files t t')
    (hgrows : Grows t t') (h' : Adds dirs' files' t' t'') (hgrows' : Grows t' t'') :
    Adds (dirs ++ dirs') (files ++ files') t t'' := by
  intro loc e hnone hsome
  cases hmid : t'.entries loc with
  | none =>
    rcases h' loc e hmid hsome with ⟨hdir, p, hp, hplace⟩ | ⟨p, hp, hplace⟩
    · exact .inl ⟨hdir, p, List.mem_append_right _ hp, (hgrows.place p) ▸ hplace⟩
    · exact .inr ⟨p, List.mem_append_right _ hp, (hgrows.place p) ▸ hplace⟩
  | some e' =>
    have hkept := hgrows'.kept loc e' hmid
    rw [hsome, Option.some.injEq] at hkept
    subst hkept
    rcases h loc e hnone hmid with ⟨hdir, p, hp, hplace⟩ | ⟨p, hp, hplace⟩
    · exact .inl ⟨hdir, p, List.mem_append_left _ hp, hplace⟩
    · exact .inr ⟨p, List.mem_append_left _ hp, hplace⟩

theorem MakesDirs.adds {ps : List Path} (h : MakesDirs ps t t') : Adds ps [] t t' := by
  intro loc e hnone hsome
  rcases h.new_dir loc hnone with hstill | ⟨hdir, hplace⟩
  · rw [hsome] at hstill
    cases hstill
  · rw [hsome, Option.some.injEq] at hdir
    exact .inl ⟨hdir, hplace⟩

theorem Creates.adds (h : Creates p i t t') : Adds [] [p] t t' := by
  intro loc e hnone hsome
  right
  by_contra hno
  have hother : t.place p ≠ some loc := fun hplace => hno ⟨p, List.mem_singleton_self p, hplace⟩
  rw [h.entries loc hother, hnone] at hsome
  cases hsome

/-- A file was created, and then written. -/
structure Fills (p : Path) (i : ℕ) (bytes : List UInt8) (t t' : FileTree) : Prop where
  grows : Grows t t'
  fileAt : t'.fileAt p = some i
  holds : t'.contents i = bytes
  contents : ∀ k, k ≠ i → t'.contents k = t.contents k
  adds : Adds [] [p] t t'

theorem Creates.fills (h : Creates p i t t') (bytes : List UInt8) :
    Fills p i bytes t (t'.write i bytes) where
  grows := h.grows.trans (grows_write t' i bytes)
  fileAt := h.fileAt
  holds := contents_write_self t' i bytes
  contents k hk := (contents_write_ne t' hk bytes).trans (h.contents k hk)
  adds := h.adds

/-- All that a copy with directories for its target can do: the source is the file `i`, the
target the file `j`. -/
structure Copied (source target : Path) (dirs : List Path) (i j : ℕ) (t t' : FileTree) : Prop where
  grows : Grows t t'
  old : t.fileAtPlace source = some i
  sourceFile : t'.fileAt source = some i
  targetFile : t'.fileAt target = some j
  filled : t'.contents j = if i = j then [] else t.contents i
  contents : ∀ k, k ≠ j → t'.contents k = t.contents k
  made : ∀ p ∈ dirs, t'.isDir p
  adds : Adds dirs [target] t t'

theorem copied_of_dirs {source target : Path} {dirs : List Path} (h : MakesDirs dirs t t')
    (hcopy : t'.copy source target = (t'', some ())) : ∃ i j, Copied source target dirs i j t t'' := by
  obtain ⟨i, j, t₁, hsource, hcreates, rfl⟩ := copy_spec hcopy
  have hfills := hcreates.fills (t₁.contents i)
  refine ⟨i, j, h.grows.trans hfills.grows, h.fileAtPlace hsource, hfills.grows.fileAt hsource,
    hfills.fileAt, ?_, fun k hk => ?_, fun q hq => hfills.grows.isDir (h.made q hq), ?_⟩
  · rw [hfills.holds]
    by_cases hij : i = j
    · rw [if_pos hij, hij, hcreates.empty]
    · rw [if_neg hij, hcreates.contents i hij, h.contents]
  · rw [hfills.contents k hk, h.contents]
  · have hboth := h.adds.trans h.grows hfills.adds hfills.grows
    rwa [List.append_nil] at hboth

/-- A path that is missing will be there with `file` and the directories `dirs`. -/
def Brings (dirs : List Path) (file : Path) (t : FileTree) (p : Path) : Prop :=
  ¬ t.exists p ∧ ∃ w, t.walk p = some w ∧
    (∀ d ∈ w.via, t.entries d = some .dir ∨ ∃ q ∈ dirs, t.place q = some d) ∧
      ((t.entries w.loc).isSome ∨ ∃ q ∈ file :: dirs, t.place q = some w.loc)

theorem entries_of_entry {e : Entry} (h : t.entry p = some e) (hloc : t.place p = some loc) :
    t.entries loc = some e := by
  obtain ⟨loc', hreach, he⟩ := entry_eq_some.1 h
  rw [place_of_reach hreach, Option.some.injEq] at hloc
  rwa [← hloc]

theorem exists_iff : t.exists p ↔ ∃ w, t.walk p = some w ∧
    (∀ d ∈ w.via, t.entries d = some .dir) ∧ (t.entries w.loc).isSome := by
  rw [FileTree.exists, Option.isSome_iff_exists]
  constructor
  · rintro ⟨e, he⟩
    obtain ⟨loc, hloc, hentry⟩ := entry_eq_some.1 he
    obtain ⟨w, hw, hvia, rfl⟩ := reach_eq_some.1 hloc
    exact ⟨w, hw, hvia, Option.isSome_of_eq_some hentry⟩
  · rintro ⟨w, hw, hvia, hend⟩
    obtain ⟨e, he⟩ := Option.isSome_iff_exists.1 hend
    exact ⟨e, entry_eq_some.2 ⟨w.loc, reach_eq_some.2 ⟨w, hw, hvia, rfl⟩, he⟩⟩

section copied

variable {source target : Path} {dirs : List Path} {j : ℕ}

theorem Copied.new_dir (h : Copied source target dirs i j t t') (hold : t.entries loc = none)
    (hdir : t'.entries loc = some .dir) : ∃ q ∈ dirs, t.place q = some loc := by
  rcases h.adds loc .dir hold hdir with ⟨-, hmade⟩ | ⟨q, hq, hplace⟩
  · exact hmade
  · -- The target is a file, and no directory.
    rw [List.mem_singleton.1 hq, ← h.grows.place] at hplace
    rw [entries_of_entry (fileAt_eq_some.1 h.targetFile) hplace] at hdir
    cases hdir

theorem Copied.brings (h : Copied source target dirs i j t t') (hp : t'.exists p)
    (hmissing : ¬ t.exists p) : Brings dirs target t p := by
  obtain ⟨w, hw, hvia, hend⟩ := exists_iff.1 hp
  refine ⟨hmissing, w, (h.grows.walk p) ▸ hw, fun d hd => ?_, ?_⟩
  · cases hold : t.entries d with
    | some e => exact .inl ((h.grows.kept d e hold).symm.trans (hvia d hd))
    | none => exact .inr (h.new_dir hold (hvia d hd))
  · cases hold : t.entries w.loc with
    | some e => exact .inl rfl
    | none =>
      obtain ⟨e, he⟩ := Option.isSome_iff_exists.1 hend
      rcases h.adds w.loc e hold he with ⟨-, q, hq, hplace⟩ | ⟨q, hq, hplace⟩
      · exact .inr ⟨q, List.mem_cons_of_mem target hq, hplace⟩
      · exact .inr ⟨q, List.mem_cons.2 (.inl (List.mem_singleton.1 hq)), hplace⟩

theorem Copied.exists_of_brings (h : Copied source target dirs i j t t')
    (hp : Brings dirs target t p) : t'.exists p := by
  obtain ⟨-, w, hw, hvia, hend⟩ := hp
  have hmade : ∀ d, (∃ q ∈ dirs, t.place q = some d) → t'.entries d = some .dir := by
    rintro d ⟨q, hq, hplace⟩
    rw [← h.grows.place] at hplace
    exact entries_of_entry (of_decide_eq_true (h.made q hq)) hplace
  refine exists_iff.2 ⟨w, (h.grows.walk p).trans hw, fun d hd => ?_, ?_⟩
  · exact (hvia d hd).elim (h.grows.kept d .dir) (hmade d)
  · rcases hend with hthere | ⟨q, hq, hplace⟩
    · obtain ⟨e, he⟩ := Option.isSome_iff_exists.1 hthere
      exact Option.isSome_of_eq_some (h.grows.kept w.loc e he)
    · rcases List.mem_cons.1 hq with rfl | hdirs
      · rw [← h.grows.place] at hplace
        have hfile := entries_of_entry (fileAt_eq_some.1 h.targetFile) hplace
        exact Option.isSome_of_eq_some hfile
      · exact Option.isSome_of_eq_some (hmade w.loc ⟨q, hdirs, hplace⟩)

theorem Copied.exists_iff (h : Copied source target dirs i j t t') :
    t'.exists p ↔ t.exists p ∨ Brings dirs target t p := by
  constructor
  · intro hp
    exact (em (t.exists p)).imp_right (h.brings hp)
  · rintro (hold | hbrings)
    · exact h.grows.exists hold
    · exact h.exists_of_brings hbrings

end copied

/-- Two paths lead to one place or to names of one file. -/
def Same (t : FileTree) (p q : Path) : Prop :=
  ∃ loc loc', t.place p = some loc ∧ t.place q = some loc' ∧
    (loc = loc' ∨ ∃ i, t.entries loc = some (.file i) ∧ t.entries loc' = some (.file i))

/-- Paths that have come to be names of one file were so, or led to one place, before. -/
theorem same_of_fileAt (h : Grows t t') (hp : t'.fileAt p = some i) (hq : t'.fileAt q = some i) :
    Same t p q := by
  obtain ⟨loc, hloc, he⟩ := entry_eq_some.1 (fileAt_eq_some.1 hp)
  obtain ⟨loc', hloc', he'⟩ := entry_eq_some.1 (fileAt_eq_some.1 hq)
  refine ⟨loc, loc', ?_, ?_, ?_⟩
  · rw [← h.place, place_of_reach hloc]
  · rw [← h.place, place_of_reach hloc']
  · by_cases hi : i < t.next
    · exact .inr ⟨i, h.old_file hi he, h.old_file hi he'⟩
    · exact .inl (h.one_name loc loc' i (not_lt.1 hi) he he')

theorem fileAt_of_same (h : Grows t t') (hsame : Same t p q) (hp : t'.fileAt p = some i) {j : ℕ}
    (hq : t'.fileAt q = some j) : i = j := by
  obtain ⟨loc, hloc, he⟩ := entry_eq_some.1 (fileAt_eq_some.1 hp)
  obtain ⟨loc', hloc', he'⟩ := entry_eq_some.1 (fileAt_eq_some.1 hq)
  obtain ⟨l, l', hl, hl', hcase⟩ := hsame
  rw [← h.place, place_of_reach hloc, Option.some.injEq] at hl
  rw [← h.place, place_of_reach hloc', Option.some.injEq] at hl'
  subst hl hl'
  rcases hcase with rfl | ⟨k, hk, hk'⟩
  · rw [he, Option.some.injEq] at he'
    exact Entry.file.inj he'
  · have hi := h.kept _ _ hk
    have hj := h.kept _ _ hk'
    rw [he, Option.some.injEq] at hi
    rw [he', Option.some.injEq] at hj
    exact (Entry.file.inj hi).trans (Entry.file.inj hj).symm

theorem not_same {loc' : Loc} (hp : t.place p = some loc) (hq : t.place q = some loc')
    (hne : loc ≠ loc') (hother : t.entries loc ≠ t.entries loc') : ¬ Same t p q := by
  rintro ⟨l, l', hl, hl', hcase⟩
  rw [hp, Option.some.injEq] at hl
  rw [hq, Option.some.injEq] at hl'
  subst hl hl'
  rcases hcase with heq | ⟨i, hi, hi'⟩
  · exact hne heq
  · exact hother (hi.trans hi'.symm)

def namesOf (entries : List (Loc × Entry)) (n : ℕ) : Bool :=
  entries.all fun entry =>
    match entry.2 with
    | .dir => true
    | .file i => i < n

def FileTree.ofTables (links : List (Loc × Path)) (entries : List (Loc × Entry))
    (files : List (List UInt8)) (h : namesOf entries files.length) : FileTree where
  cwd := []
  links loc := links.lookup loc
  entries loc := entries.lookup loc
  contents i := files.getD i []
  next := files.length
  fresh loc i hloc := by
    obtain ⟨before, after, hsplit, -⟩ := List.lookup_eq_some_iff.1 hloc
    have hmem : (loc, Entry.file i) ∈ entries := by simp [hsplit]
    simpa using List.all_eq_true.1 h _ hmem

end FileTrees
