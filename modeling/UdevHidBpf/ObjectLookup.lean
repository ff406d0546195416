import UdevHidBpf.RadixText

/-! # Looking object files up in the BPF directories

A first search runs over the directories, a second one over its results. Paths are UTF-8
texts; a file system tells what stands at a path after its links are followed. -/
namespace ObjectLookup

open RadixText

inductive FileType where
  | file | directory | other
  deriving DecidableEq

/-- `std::fs::metadata`, `none` where it fails. -/
abbrev FileSystem := Text → Option FileType

def FileSystem.exists (fs : FileSystem) (path : Text) : Bool := (fs path).isSome

def FileSystem.isFile (fs : FileSystem) (path : Text) : Bool := fs path = some .file

/-- `Path::join`: an absolute path takes the place of the directory. -/
def join (dir path : Text) : Text :=
  if path.head? = some '/' then path
  else if dir = [] ∨ dir.getLast? = some '/' then dir ++ path
  else dir ++ '/' :: path

def suffix : Text := ".bpf.o".toList

def findFirstMatchingFile (fs : FileSystem) (dirs : List Text) (filename : Text) : Option Text :=
  (dirs.map fun d => join d filename).find? fs.isFile

def findNamedObjfiles (fs : FileSystem) (filenames : List Text) (bpfDirs : List Text) : List Text :=
  (filenames.filter fun filename => suffix.isSuffixOf filename).filterMap fun filename =>
    if fs.exists filename then some filename else findFirstMatchingFile fs bpfDirs filename

/-- `hidBpfProperties` are the values of the properties, in their order. -/
def searchForMatchingObjfiles (fs : FileSystem) (hidBpfProperties : List Text)
    (bpfDirs : List Text) : List Text :=
  let paths := hidBpfProperties.filterMap fun p => findFirstMatchingFile fs bpfDirs p
  findNamedObjfiles fs paths bpfDirs

def earliest (fs : FileSystem) (dirs : List Text) (value : Text) : Option Text :=
  if suffix <:+ value then findFirstMatchingFile fs dirs value else none

def IsEarliest (fs : FileSystem) (dirs : List Text) (value path : Text) : Prop :=
  suffix <:+ value ∧ ∃ before d after, dirs = before ++ d :: after ∧ path = join d value ∧
    fs.isFile path ∧ ∀ d' ∈ before, ¬ fs.isFile (join d' value)

theorem suffix_after_separator {s xs ys : Text} {c : Char} (hc : c ∉ s) :
    s <:+ xs ++ c :: ys ↔ s <:+ ys := by
  constructor
  · intro h
    rcases List.suffix_or_suffix_of_suffix h (List.suffix_append xs (c :: ys)) with hs | hs
    · rcases List.suffix_cons_iff.1 hs with rfl | hs
      · exact absurd List.mem_cons_self hc
      · exact hs
    · exact absurd (hs.subset List.mem_cons_self) hc
  · intro h
    exact List.suffix_append_of_suffix (h.trans (List.suffix_cons c ys))

theorem join_eq (dir path : Text) :
    join dir path = path ∨ ∃ pre, join dir path = pre ++ '/' :: path := by
  rw [join]
  by_cases habs : path.head? = some '/'
  · exact .inl (if_pos habs)
  rw [if_neg habs]
  by_cases hnil : dir = []
  · left
    rw [if_pos (.inl hnil), hnil, List.nil_append]
  right
  by_cases hlast : dir.getLast? = some '/'
  · obtain ⟨pre, rfl⟩ := List.getLast?_eq_some_iff.1 hlast
    exact ⟨pre, by rw [if_pos (.inr hlast), List.append_assoc, List.singleton_append]⟩
  · exact ⟨dir, if_neg (by simp [hnil, hlast])⟩

theorem suffix_join (dir path : Text) : suffix <:+ join dir path ↔ suffix <:+ path := by
  rcases join_eq dir path with h | ⟨pre, h⟩
  · rw [h]
  · rw [h, suffix_after_separator (by decide)]

variable {fs : FileSystem} {dirs : List Text}

theorem exists_of_isFile {path : Text} (h : fs.isFile path) : fs.exists path := by
  have hfile : fs path = some .file := by simpa [FileSystem.isFile] using h
  rw [FileSystem.exists, hfile]
  rfl

/-- What the first search finds is a file whose name still ends as the value does. -/
theorem find_first_spec {value path : Text} (h : findFirstMatchingFile fs dirs value = some path) :
    fs.isFile path ∧ (suffix <:+ path ↔ suffix <:+ value) := by
  obtain ⟨d, -, rfl⟩ := List.mem_map.1 (List.mem_of_find?_eq_some h)
  exact ⟨List.find?_some h, suffix_join d value⟩

theorem find_named_file (paths : List Text) (h : ∀ path ∈ paths, fs.isFile path) :
    findNamedObjfiles fs paths dirs = paths.filter fun path => suffix.isSuffixOf path := by
  rw [findNamedObjfiles]
  have hkept : ∀ path ∈ paths.filter (fun path => suffix.isSuffixOf path),
      (if fs.exists path then some path else findFirstMatchingFile fs dirs path) = some path := by
    intro path hpath
    exact if_pos (exists_of_isFile (h path (List.mem_of_mem_filter hpath)))
  rw [List.filterMap_congr hkept, List.filterMap_some]

theorem earliest_iff (fs : FileSystem) (dirs : List Text) (value path : Text) :
    earliest fs dirs value = some path ↔ IsEarliest fs dirs value path := by
  rw [earliest, Option.ite_none_right_eq_some, IsEarliest]
  apply and_congr_right
  intro _
  rw [findFirstMatchingFile, List.find?_map, Option.map_eq_some_iff]
  simp only [List.find?_eq_some_iff_append, Function.comp]
  constructor
  · rintro ⟨d, ⟨hfile, before, after, hdirs, hnone⟩, rfl⟩
    exact ⟨before, d, after, hdirs, rfl, hfile, fun d' hd' => by simpa using hnone d' hd'⟩
  · rintro ⟨before, d, after, hdirs, rfl, hfile, hnone⟩
    exact ⟨d, ⟨hfile, before, after, hdirs, fun d' hd' => by simpa using hnone d' hd'⟩, rfl⟩

/-- Each value that names an object file gives the file in the first directory that has it,
and no other value gives anything. -/
theorem search_honours_precedence (fs : FileSystem) (values bpfDirs : List Text) :
    searchForMatchingObjfiles fs values bpfDirs = values.filterMap (earliest fs bpfDirs) ∧
      ∀ value path, earliest fs bpfDirs value = some path ↔ IsEarliest fs bpfDirs value path := by
  refine ⟨?_, earliest_iff fs bpfDirs⟩
  have hfiles : ∀ path ∈ values.filterMap (findFirstMatchingFile fs bpfDirs), fs.isFile path := by
    intro path hpath
    obtain ⟨value, -, hfound⟩ := List.mem_filterMap.1 hpath
    exact (find_first_spec hfound).1
  have hone : ∀ value, (findFirstMatchingFile fs bpfDirs value).filter
      (fun path => suffix.isSuffixOf path) = earliest fs bpfDirs value := by
    intro value
    rw [earliest]
    cases hfound : findFirstMatchingFile fs bpfDirs value with
    | none => simp
    | some path =>
      have hsuffix : suffix.isSuffixOf path = true ↔ suffix <:+ value := by
        rw [List.isSuffixOf_iff_suffix, (find_first_spec hfound).2]
      rw [Option.filter_some]
      exact if_congr hsuffix rfl rfl
  rw [searchForMatchingObjfiles, find_named_file _ hfiles, List.filter_filterMap]
  exact List.filterMap_congr fun value _ => hone value

end ObjectLookup
