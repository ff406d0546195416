import UdevHidBpf.BpffsPaths
import UdevHidBpf.ListSplits
import UdevHidBpf.RadixText

/-! # Directories of devices

The name of a device in bpffs and in sysfs, and what the removal of a device removes. -/
namespace BpffsNames

open BpffsPaths ListSplits RadixText

/-- `format!("{bus}:{vendor}:{product}.{instance}")` -/
def joinSysname (bus vendor product instance_ : Text) : String :=
  String.ofList (bus ++ ':' :: (vendor ++ ':' :: (product ++ '.' :: instance_)))

def bpffsToSysname (bpffsName : String) : String :=
  match splitn '_' 4 bpffsName.toList with
  | [bus, vendor, product, instance_] => joinSysname bus vendor product instance_
  | parts => String.ofList ([':'].intercalate parts)

/-- The components of an absolute path; empty ones and dots do not count. -/
def components (path : String) : List String :=
  ((path.toList.splitOn '/').filter fun c => c ≠ [] ∧ c ≠ ['.']).map String.ofList

/-- The directory of `remove_bpf_objects`. -/
def removedDir (sysname : String) : String := getBpffsPath sysname ""

/-- `remove_dir_all` takes every entry below the directory along. -/
def removeDirAll (dir : String) (entries : List String) : List String :=
  entries.filter fun entry => ¬ components dir <+: components entry

def removeBpfObjects (sysname : String) (entries : List String) : List String :=
  removeDirAll (removedDir sysname) entries

/-- `Path::file_name` -/
def lastName (path : String) : Option String := (components path).getLast?.filter (· ≠ "..")

/-- Names with the separators of a device and any text between them. -/
def Shaped (sysname : String) : Prop :=
  '/' ∉ sysname.toList ∧
    ∃ bus vendor product instance_, sysname = joinSysname bus vendor product instance_

def KernelSysname (sysname : String) : Prop :=
  ∃ bus vendor product instance_, sysname = joinSysname bus vendor product instance_ ∧
    ∀ part ∈ [bus, vendor, product, instance_],
      part ≠ [] ∧ ∀ c ∈ part, (digitValue 16 c).isSome

def underscore (c : Char) : Char := if c = ':' ∨ c = '.' then '_' else c

theorem toList_replaceSeparators (s : String) :
    (replaceSeparators s).toList = s.toList.map underscore := by
  rw [replaceSeparators, String.toList_ofList]
  rfl

theorem underscore_of_ne {c : Char} (h : c ≠ ':' ∧ c ≠ '.') : underscore c = c :=
  if_neg (not_or.mpr h)

theorem map_underscore {l : Text} (h : ∀ c ∈ l, c ≠ ':' ∧ c ≠ '.') : l.map underscore = l :=
  (List.map_congr_left fun c hc => underscore_of_ne (h c hc)).trans (List.map_id l)

def Separated (bus vendor product instance_ : Text) : Prop :=
  ∀ part ∈ [bus, vendor, product, instance_], ∀ c ∈ part, c ≠ ':' ∧ c ≠ '.' ∧ c ≠ '_'

section separated

variable {bus vendor product instance_ : Text}

theorem toList_sysnameToBpffs (h : Separated bus vendor product instance_) :
    (sysnameToBpffs (joinSysname bus vendor product instance_)).toList =
      bus ++ '_' :: (vendor ++ '_' :: (product ++ '_' :: instance_)) := by
  have hpart {part : Text} (hp : part ∈ [bus, vendor, product, instance_]) :
      part.map underscore = part := by
    apply map_underscore
    intro c hc
    exact ⟨(h part hp c hc).1, (h part hp c hc).2.1⟩
  have hcolon : underscore ':' = '_' := by decide
  have hdot : underscore '.' = '_' := by decide
  rw [sysnameToBpffs, toList_replaceSeparators, joinSysname, String.toList_ofList]
  simp only [List.map_append, List.map_cons, hcolon, hdot]
  rw [hpart (by simp), hpart (by simp), hpart (by simp), hpart (by simp)]

theorem bpffsToSysname_sysnameToBpffs (h : Separated bus vendor product instance_) :
    bpffsToSysname (sysnameToBpffs (joinSysname bus vendor product instance_)) =
      joinSysname bus vendor product instance_ := by
  have hpart {part : Text} (hp : part ∈ [bus, vendor, product, instance_]) : '_' ∉ part :=
    fun hc => (h part hp '_' hc).2.2 rfl
  rw [bpffsToSysname, toList_sysnameToBpffs h, splitn_append_cons (hpart (by simp)),
    splitn_append_cons (hpart (by simp)), splitn_append_cons (hpart (by simp))]
  rfl

end separated

/-- Colons or underscores between the parts: the encoder makes them the same. -/
theorem map_underscore_intercalate (parts : List Text) :
    ([':'].intercalate parts).map underscore = (['_'].intercalate parts).map underscore := by
  induction parts with
  | nil => rfl
  | cons part parts ih =>
    cases parts with
    | nil => rfl
    | cons next parts =>
      rw [List.intercalate_cons_cons, List.intercalate_cons_cons, List.map_append,
        List.map_append, List.map_append, List.map_append, ih]
      rfl

theorem sysnameToBpffs_bpffsToSysname {name : String}
    (h : ∀ c ∈ name.toList, c ≠ ':' ∧ c ≠ '.') : sysnameToBpffs (bpffsToSysname name) = name := by
  have hjoin : ['_'].intercalate (splitn '_' 4 name.toList) = name.toList :=
    intercalate_splitn '_' 3 name.toList
  apply String.toList_inj.mp
  rw [sysnameToBpffs, toList_replaceSeparators, bpffsToSysname]
  calc (match splitn '_' 4 name.toList with
        | [bus, vendor, product, instance_] => joinSysname bus vendor product instance_
        | parts => String.ofList ([':'].intercalate parts)).toList.map underscore
      = (['_'].intercalate (splitn '_' 4 name.toList)).map underscore := by
        split
        · rename_i bus vendor product instance_ hparts
          rw [hparts, joinSysname, String.toList_ofList]
          simp [List.intercalate_cons_cons, underscore]
        · rw [String.toList_ofList, map_underscore_intercalate]
    _ = name.toList := by rw [hjoin, map_underscore h]

/-- The name and the directory come back from each other, so the name that the listing
shows leads to the directory it was made from. -/
theorem bpffs_names_roundtrip (bus vendor product instance_ : Text) (name : String)
    (hparts : Separated bus vendor product instance_)
    (hname : ∀ c ∈ name.toList, c ≠ ':' ∧ c ≠ '.') :
    bpffsToSysname (sysnameToBpffs (joinSysname bus vendor product instance_)) =
        joinSysname bus vendor product instance_ ∧
      sysnameToBpffs (bpffsToSysname name) = name ∧
      ∀ object, getBpffsPath (bpffsToSysname name) object =
        bpffsRoot ++ "/" ++ name ++ "/" ++ replaceSeparators object := by
  have hback := sysnameToBpffs_bpffsToSysname hname
  refine ⟨bpffsToSysname_sysnameToBpffs hparts, hback, ?_⟩
  intro object
  rw [getBpffsPath, hback]

theorem bpffs_names_roundtrip_touchpad :
    bpffsToSysname (sysnameToBpffs "0018:06CB:CD7A.006F") = "0018:06CB:CD7A.006F" ∧
      sysnameToBpffs (bpffsToSysname "a_b") = "a_b" ∧
      getBpffsPath (bpffsToSysname "a_b") "" = "/sys/fs/bpf/hid/a_b/" := by
  have h := bpffs_names_roundtrip ['0', '0', '1', '8'] ['0', '6', 'C', 'B'] ['C', 'D', '7', 'A']
    ['0', '0', '6', 'F'] "a_b" (by simp [Separated]) (by simp)
  exact ⟨h.1, h.2.1, h.2.2 ""⟩

theorem components_append (a b : String) :
    components (a ++ "/" ++ b) = components a ++ components b := by
  have hlist : (a ++ "/" ++ b).toList = a.toList ++ '/' :: b.toList := by simp
  rw [components, hlist, List.splitOn_append_cons_self, List.filter_append, List.map_append]
  rfl

theorem components_name {name : String} (hne : name ≠ "") (hdot : name ≠ ".")
    (hslash : '/' ∉ name.toList) : components name = [name] := by
  have hnil : name.toList ≠ [] := fun h => hne (String.toList_inj.mp h)
  have hdot' : name.toList ≠ ['.'] := fun h => hdot (String.toList_inj.mp h)
  rw [components, List.splitOn_eq_singleton hslash]
  simp [hnil, hdot']

theorem components_getBpffsPath (sysname object : String) :
    components (getBpffsPath sysname object) = components bpffsRoot ++
      components (sysnameToBpffs sysname) ++ components (replaceSeparators object) := by
  rw [getBpffsPath, components_append, components_append]

theorem components_removedDir (sysname : String) :
    components (removedDir sysname) =
      components bpffsRoot ++ components (sysnameToBpffs sysname) := by
  rw [removedDir, components_getBpffsPath]
  exact List.append_nil _

section kernel

variable {s t : String}

theorem ne_of_isSome_digitValue {c d : Char} (hc : (digitValue 16 c).isSome)
    (hd : digitValue 16 d = none) : c ≠ d := by
  rintro rfl
  simp [hd] at hc

theorem KernelSysname.of_all {bus vendor product instance_ : Text}
    (h : ([bus, vendor, product, instance_].all fun part =>
      !part.isEmpty && part.all fun c => (digitValue 16 c).isSome) = true) :
    KernelSysname (joinSysname bus vendor product instance_) := by
  refine ⟨bus, vendor, product, instance_, rfl, ?_⟩
  intro part hp
  have hpart := List.all_eq_true.mp h part hp
  rw [Bool.and_eq_true, List.all_eq_true] at hpart
  refine ⟨?_, hpart.2⟩
  rintro rfl
  simp at hpart

theorem KernelSysname.parts (h : KernelSysname s) :
    ∃ bus vendor product instance_, s = joinSysname bus vendor product instance_ ∧
      Separated bus vendor product instance_ ∧
      ∀ part ∈ [bus, vendor, product, instance_], '/' ∉ part := by
  obtain ⟨bus, vendor, product, instance_, rfl, hparts⟩ := h
  refine ⟨bus, vendor, product, instance_, rfl, ?_, ?_⟩
  · intro part hp c hc
    have hdigit := (hparts part hp).2 c hc
    exact ⟨ne_of_isSome_digitValue hdigit (by decide), ne_of_isSome_digitValue hdigit (by decide),
      ne_of_isSome_digitValue hdigit (by decide)⟩
  · intro part hp hc
    exact ne_of_isSome_digitValue ((hparts part hp).2 '/' hc) (by decide) rfl

theorem KernelSysname.roundtrip (h : KernelSysname s) :
    bpffsToSysname (sysnameToBpffs s) = s := by
  obtain ⟨bus, vendor, product, instance_, rfl, hsep, -⟩ := h.parts
  exact bpffsToSysname_sysnameToBpffs hsep

theorem KernelSysname.shaped (h : KernelSysname s) : Shaped s := by
  obtain ⟨bus, vendor, product, instance_, rfl, hsep, hslash⟩ := h.parts
  refine ⟨?_, bus, vendor, product, instance_, rfl⟩
  rw [joinSysname, String.toList_ofList]
  simp [hslash]

theorem separated_of_count {bus vendor product instance_ : Text}
    (h : (sysnameToBpffs (joinSysname bus vendor product instance_)).toList.count '_' = 3) :
    Separated bus vendor product instance_ := by
  have hcolon : underscore ':' = '_' := by decide
  have hdot : underscore '.' = '_' := by decide
  rw [sysnameToBpffs, toList_replaceSeparators, joinSysname, String.toList_ofList] at h
  simp only [List.map_append, List.map_cons, hcolon, hdot, List.count_append,
    List.count_cons_self] at h
  have hnone {part : Text} (hcount : (part.map underscore).count '_' = 0) :
      ∀ c ∈ part, c ≠ ':' ∧ c ≠ '.' ∧ c ≠ '_' := by
    intro c hc
    have hne : underscore c ≠ '_' := fun heq =>
      List.count_eq_zero.mp hcount (heq ▸ List.mem_map_of_mem hc)
    refine ⟨?_, ?_, ?_⟩ <;>
    · rintro rfl
      exact hne (by decide)
  intro part hpart
  simp only [List.mem_cons, List.not_mem_nil, or_false] at hpart
  rcases hpart with rfl | rfl | rfl | rfl <;> exact hnone (by omega)

theorem KernelSysname.count_separators (h : KernelSysname s) :
    (sysnameToBpffs s).toList.count '_' = 3 := by
  obtain ⟨bus, vendor, product, instance_, rfl, hsep, -⟩ := h.parts
  have hpart {part : Text} (hp : part ∈ [bus, vendor, product, instance_]) :
      part.count '_' = 0 := List.count_eq_zero.mpr fun hc => (hsep part hp '_' hc).2.2 rfl
  rw [toList_sysnameToBpffs hsep]
  simp only [List.count_append, List.count_cons_self]
  rw [hpart (by simp), hpart (by simp), hpart (by simp), hpart (by simp)]

theorem Shaped.eq_of_bpffs (hs : Shaped s) (ht : KernelSysname t)
    (h : sysnameToBpffs s = sysnameToBpffs t) : s = t := by
  obtain ⟨-, bus, vendor, product, instance_, rfl⟩ := hs
  have hsep := separated_of_count (h ▸ ht.count_separators)
  rw [← bpffsToSysname_sysnameToBpffs hsep, h, ht.roundtrip]

theorem KernelSysname.injective (hs : KernelSysname s) (ht : KernelSysname t)
    (h : sysnameToBpffs s = sysnameToBpffs t) : s = t := hs.shaped.eq_of_bpffs ht h

theorem Shaped.noSlash (h : Shaped s) : '/' ∉ (sysnameToBpffs s).toList := by
  rw [sysnameToBpffs, toList_replaceSeparators]
  intro hmem
  obtain ⟨c, hc, hunder⟩ := List.mem_map.mp hmem
  rw [underscore] at hunder
  split at hunder
  · exact absurd hunder (by decide)
  · exact h.1 (hunder ▸ hc)

theorem Shaped.components (h : Shaped s) :
    components (sysnameToBpffs s) = [sysnameToBpffs s] := by
  have hunder : '_' ∈ (sysnameToBpffs s).toList := by
    obtain ⟨-, bus, vendor, product, instance_, rfl⟩ := h
    rw [sysnameToBpffs, toList_replaceSeparators, joinSysname, String.toList_ofList]
    exact List.mem_map.mpr ⟨':', by simp, by decide⟩
  apply components_name
  · intro he
    simp [he] at hunder
  · intro he
    simp [he] at hunder
  · exact h.noSlash

theorem KernelSysname.components (h : KernelSysname s) :
    components (sysnameToBpffs s) = [sysnameToBpffs s] := h.shaped.components

theorem getBpffsPath_eq_iff {o o' : String} (hs : KernelSysname s) (ht : KernelSysname t) :
    getBpffsPath s o = getBpffsPath t o' ↔ s = t ∧ replaceSeparators o = replaceSeparators o' := by
  constructor
  · intro h
    have hlist : (sysnameToBpffs s).toList ++ '/' :: (replaceSeparators o).toList =
        (sysnameToBpffs t).toList ++ '/' :: (replaceSeparators o').toList := by
      have h := congrArg String.toList h
      simpa [getBpffsPath, String.toList_append] using h
    have hname := ((prefix_field hs.shaped.noSlash ht.shaped.noSlash).mp ⟨[], by rw [List.append_nil, hlist]⟩).1
    rw [hname, List.append_cancel_left_eq, List.cons.injEq] at hlist
    exact ⟨hs.injective ht (String.toList_inj.mp hname), String.toList_inj.mp hlist.2⟩
  · rintro ⟨rfl, h⟩
    rw [getBpffsPath, getBpffsPath, h]

theorem removedDir_prefix_getBpffsPath (s object : String) :
    components (removedDir s) <+: components (getBpffsPath s object) := by
  rw [components_removedDir, components_getBpffsPath]
  exact List.prefix_append _ _

theorem removedDir_ne_getBpffsPath (s : String) {object : String}
    (h : ∃ c ∈ object.toList, c ≠ '/') :
    components (removedDir s) ≠ components (getBpffsPath s object) := by
  obtain ⟨c, hc, hslash⟩ := h
  have hmem : underscore c ∈ (replaceSeparators object).toList := by
    rw [toList_replaceSeparators]
    exact List.mem_map_of_mem hc
  have hne : underscore c ≠ '/' ∧ underscore c ≠ '.' := by
    unfold underscore
    split
    · decide
    · rename_i h
      exact ⟨hslash, fun he => h (.inr he)⟩
  obtain ⟨piece, hpiece, hcp⟩ := exists_mem_splitOn hmem hne.1
  have hcomponent : String.ofList piece ∈ components (replaceSeparators object) := by
    refine List.mem_map_of_mem (List.mem_filter.mpr ⟨hpiece, decide_eq_true ⟨?_, ?_⟩⟩)
    · exact List.ne_nil_of_mem hcp
    · intro he
      rw [he, List.mem_singleton] at hcp
      exact hne.2 hcp
  intro he
  rw [components_removedDir, components_getBpffsPath] at he
  rw [List.self_eq_append_right.mp he] at hcomponent
  simp at hcomponent

theorem not_below_both (hs : Shaped s) (ht : KernelSysname t) (hne : s ≠ t)
    {entry : String} (h : components (removedDir t) <+: components entry) :
    ¬ components (removedDir s) <+: components entry := by
  intro h'
  have hlen : (components (removedDir s)).length = (components (removedDir t)).length := by
    rw [components_removedDir, components_removedDir, hs.components, ht.components]
    simp
  have he := (List.prefix_of_prefix_length_le h' h hlen.le).eq_of_length hlen
  rw [components_removedDir, components_removedDir, hs.components, ht.components,
    List.append_cancel_left_eq, List.singleton_inj] at he
  exact hne (hs.eq_of_bpffs ht he)

/-- The directory of a device is an entry of the root and holds all of the device's entries
and none of another device. -/
theorem remove_bpf_objects_frame (s t : String) (hs : KernelSysname s) (ht : KernelSysname t)
    (hne : s ≠ t) :
    (∃ name, components (removedDir s) = components bpffsRoot ++ [name]) ∧
    (∀ object, ¬ components (removedDir s) <+: components (getBpffsPath t object)) ∧
    (∀ object, components (removedDir s) <+: components (getBpffsPath s object)) ∧
    (∀ object : String, (∃ c ∈ object.toList, c ≠ '/') →
      components (removedDir s) ≠ components (getBpffsPath s object)) ∧
    ∀ entries, ∀ entry ∈ entries, components (removedDir t) <+: components entry →
      entry ∈ removeBpfObjects s entries := by
  refine ⟨⟨sysnameToBpffs s, ?_⟩, ?_, removedDir_prefix_getBpffsPath s,
    fun object => removedDir_ne_getBpffsPath s, ?_⟩
  · rw [components_removedDir, hs.components]
  · intro object
    exact not_below_both hs.shaped ht hne (removedDir_prefix_getBpffsPath t object)
  · intro entries entry hentry hbelow
    exact List.mem_filter.mpr ⟨hentry, decide_eq_true (not_below_both hs.shaped ht hne hbelow)⟩

theorem remove_bpf_objects_frame_instances :
    ¬ components (removedDir "0003:046D:C52B.0001") <+:
      components (getBpffsPath "0003:046D:C52B.00010" "0010-one_bpf") :=
  (remove_bpf_objects_frame
    (joinSysname ['0', '0', '0', '3'] ['0', '4', '6', 'D'] ['C', '5', '2', 'B']
      ['0', '0', '0', '1'])
    (joinSysname ['0', '0', '0', '3'] ['0', '4', '6', 'D'] ['C', '5', '2', 'B']
      ['0', '0', '0', '1', '0'])
    (.of_all (by decide)) (.of_all (by decide)) (by decide)).2.1 _

end kernel

end BpffsNames
