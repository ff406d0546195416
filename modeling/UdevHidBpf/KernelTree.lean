import Mathlib.Data.List.TakeWhile
import UdevHidBpf.RadixText

/-! # Exchange with the kernel tree

A source carries a version in front of its name, the file of the kernel does not. Exporting
strips characters from the left, importing looks for files that end in the kernel's name. -/
namespace KernelTree

open RadixText

/-- `name.lstrip("-0.123456789")` -/
def lstrip (chars name : Text) : Text := name.dropWhile (· ∈ chars)

def versionChars : Text := "-0.123456789".toList

/-- The blobs below `src/bpf/testing`, and the headers below `src/bpf`. -/
def exportedBlobs (testing bpf : List Text) : List Text :=
  testing.filter (· ≠ "meson.build".toList) ++ bpf.filter fun name =>
    ".h".toList.isSuffixOf name &&
      !(["attach.h", "vmlinux.h", "uhid-bpf-test-wrappers.h"].map String.toList).contains name

def exportName (name : Text) : Text := lstrip versionChars name

abbrev KernelDir := Text → Option String

section exporting

variable (read : Text → String) (confirm : Text → Bool)

/-- A file that has not changed is left alone; one without a version asks first. -/
def exportBlob (kernel : KernelDir) (name : Text) : KernelDir :=
  let dest := exportName name
  match kernel dest with
  | none => Function.update kernel dest (some (read name))
  | some content =>
    if content = read name then kernel
    else if dest = name ∧ confirm name = false then kernel
    else Function.update kernel dest (some (read name))

def toKernelTree (testing bpf : List Text) (kernel : KernelDir) : KernelDir :=
  (exportedBlobs testing bpf).foldl (exportBlob read confirm) kernel

end exporting

/-- `b.name.endswith(blob.name)`, the last in the order of names first. -/
def matchesOf (blobs : List Text) (kernelName : Text) : List Text :=
  ((blobs.filter (· ≠ "meson.build".toList)).filter fun name =>
    kernelName.isSuffixOf name).mergeSort fun a b => b ≤ a

def gatherMatches (stable testing bpf : List Text) (kernelName : Text) :
    List Text × List Text × Bool :=
  let stableMatches := matchesOf stable kernelName
  let testingMatches := matchesOf testing kernelName
  let headers := bpf.filter fun name => ".h".toList.isSuffixOf name ∧ name = kernelName
  if stableMatches = [] ∧ testingMatches = [] ∧ ".h".toList.isSuffixOf kernelName ∧
      headers ≠ [] then
    (headers, testingMatches, true)
  else (stableMatches, testingMatches, false)

/-- `int(prev_file.split("-")[0]) + 10`, of a file that begins with digits. -/
def nextVersion (prevFile : Text) : Option ℕ :=
  (readDigits 10 (prevFile.takeWhile (· ≠ '-'))).map (· + 10)

/-- `f"{idx:04}-{blob.name}"` -/
def importName (idx : ℕ) (kernelName : Text) : Text :=
  padded 10 4 idx ++ '-' :: kernelName

/-- Where a file of the kernel is copied to. A header is replaced in its place. -/
def importDest (stableMatches : List Text) (inPlace : Bool) (kernelName : Text) : Option Text :=
  match stableMatches with
  | [] => some (importName 10 kernelName)
  | prevFile :: _ =>
    if inPlace then some prevFile
    else (nextVersion prevFile).map fun idx => importName idx kernelName

/-- `NNNN-Vendor__Product.bpf.c` -/
structure Source where
  version : ℕ
  vendor : Text
  product : Text
  version_lt : version < 10 ^ 4
  vendor_noSlash : '/' ∉ vendor
  product_noSlash : '/' ∉ product

def Source.name (s : Source) : Text :=
  s.vendor ++ "__".toList ++ s.product ++ ".bpf.c".toList

def Source.prefix_ (s : Source) : Text := padded 10 4 s.version ++ ['-']

def Source.fileName (s : Source) : Text := s.prefix_ ++ s.name

theorem Source.fileName_eq (s : Source) : s.fileName = importName s.version s.name := by
  simp [Source.fileName, Source.prefix_, importName]

theorem version_mem_versionChars (idx : ℕ) {c : Char} (hc : c ∈ padded 10 4 idx ++ ['-']) :
    c ∈ versionChars := by
  rcases List.mem_append.mp hc with hc | hc
  · obtain ⟨d, hd, rfl⟩ := mem_padded (by decide) hc
    exact (by decide : ∀ d < 10, upperDigit d ∈ versionChars) d hd
  · rw [List.mem_singleton.mp hc]
    decide

theorem exportName_importName (idx : ℕ) (kernelName : Text) :
    exportName (importName idx kernelName) = exportName kernelName := by
  have hsplit : importName idx kernelName = (padded 10 4 idx ++ ['-']) ++ kernelName := by
    simp [importName]
  rw [exportName, lstrip, hsplit, List.dropWhile_append_of_pos]
  · rfl
  · intro c hc
    exact decide_eq_true (version_mem_versionChars idx hc)

theorem exportName_fileName (s : Source) : exportName s.fileName = exportName s.name := by
  rw [s.fileName_eq, exportName_importName]

theorem nextVersion_fileName (s : Source) : nextVersion s.fileName = some (s.version + 10) := by
  have hdigits : '-' ∉ padded 10 4 s.version :=
    not_mem_padded (by decide) (by decide) (by decide)
  have htake : s.fileName.takeWhile (· ≠ '-') = padded 10 4 s.version := by
    rw [s.fileName_eq, importName, List.takeWhile_append_of_pos]
    · simp
    · intro c hc
      exact decide_eq_true fun he => hdigits (he ▸ hc)
  rw [nextVersion, htake, readDigits_padded (by decide) (by decide), Option.map_some]

theorem importName_injective {idx idx' : ℕ} {kernelName : Text}
    (h : importName idx kernelName = importName idx' kernelName) : idx = idx' :=
  padded_injective (by decide) (by decide) (List.append_cancel_right h)

theorem Source.version_le {s t : Source} (h : t.fileName ≤ s.fileName) :
    t.version ≤ s.version := by
  by_contra hlt
  rw [not_le] at hlt
  rw [s.fileName_eq, t.fileName_eq] at h
  exact absurd h (not_le.mpr (padded_append_lt (by decide) hlt t.version_lt _ _))

theorem Source.name_ne_nil (s : Source) : s.name ≠ [] := by
  simp [Source.name]

theorem exportName_eq_name_iff (s : Source) :
    exportName s.fileName = s.name ↔ ∀ c ∈ s.name.head?, c ∉ versionChars := by
  rw [exportName_fileName, exportName, lstrip, List.dropWhile_eq_self_iff]
  cases h : s.name with
  | nil => exact absurd h s.name_ne_nil
  | cons c cs => simp

theorem exportBlob_source (read : Text → String) (confirm : Text → Bool) (kernel : KernelDir)
    (s : Source) : exportBlob read confirm kernel s.fileName =
      Function.update kernel (exportName s.fileName) (some (read s.fileName)) := by
  have hne : exportName s.fileName ≠ s.fileName := by
    intro he
    have hlen : (exportName s.fileName).length ≤ s.name.length := by
      rw [exportName_fileName]
      exact (List.dropWhile_suffix _).length_le
    rw [he] at hlen
    rw [Source.fileName, Source.prefix_, List.length_append, List.length_append,
      List.length_singleton] at hlen
    omega
  unfold exportBlob
  simp only [hne, false_and, if_false]
  split
  · rfl
  · rename_i content hcontent
    split
    · rename_i heq
      rw [← heq, ← hcontent, Function.update_eq_self]
    · rfl

theorem exportBlob_name_iff (s : Source) : (∀ read confirm dir, exportBlob read confirm dir
    s.fileName = Function.update dir s.name (some (read s.fileName))) ↔
      ∀ c ∈ s.name.head?, c ∉ versionChars := by
  rw [← exportName_eq_name_iff]
  simp only [exportBlob_source]
  constructor
  · intro h
    by_contra hne
    have hat := congrFun (h (fun _ => "") (fun _ => true) fun _ => none) s.name
    simp [Function.update_of_ne (Ne.symm hne)] at hat
  · intro he read confirm dir
    rw [he]

section runs

variable {read : Text → String} {confirm : Text → Bool} {kernel : KernelDir}

theorem exportBlob_frame {name dest : Text} (h : exportName name ≠ dest) :
    exportBlob read confirm kernel name dest = kernel dest := by
  unfold exportBlob
  cases kernel (exportName name) with
  | none => exact Function.update_of_ne h.symm _ _
  | some content =>
    simp only
    split_ifs
    · rfl
    · rfl
    · exact Function.update_of_ne h.symm _ _

theorem foldl_exportBlob_frame {blobs : List Text} {dest : Text}
    (h : ∀ name ∈ blobs, exportName name ≠ dest) :
    blobs.foldl (exportBlob read confirm) kernel dest = kernel dest := by
  induction blobs generalizing kernel with
  | nil => rfl
  | cons name blobs ih =>
    rw [List.foldl_cons, ih fun other hother => h other (List.mem_cons_of_mem _ hother),
      exportBlob_frame (h name List.mem_cons_self)]

theorem toKernelTree_frame {testing bpf : List Text} {dest : Text}
    (h : ∀ name ∈ exportedBlobs testing bpf, exportName name ≠ dest) :
    toKernelTree read confirm testing bpf kernel dest = kernel dest :=
  foldl_exportBlob_frame h

/-- Each source ends up in the kernel when no other blob is exported over it. -/
theorem toKernelTree_source {testing bpf : List Text} {s : Source}
    (hs : s.fileName ∈ exportedBlobs testing bpf)
    (hown : ∀ name ∈ exportedBlobs testing bpf,
      exportName name = exportName s.fileName → name = s.fileName) :
    toKernelTree read confirm testing bpf kernel (exportName s.fileName) =
      some (read s.fileName) := by
  obtain ⟨before, after, hsplit⟩ := List.append_of_mem hs
  rw [toKernelTree, hsplit, List.foldl_append, List.foldl_cons, exportBlob_source]
  have hkeep (dir : KernelDir) (hdir : dir (exportName s.fileName) = some (read s.fileName))
      (blobs : List Text) (hsub : ∀ name ∈ blobs, name ∈ exportedBlobs testing bpf) :
      blobs.foldl (exportBlob read confirm) dir (exportName s.fileName) =
        some (read s.fileName) := by
    induction blobs generalizing dir with
    | nil => exact hdir
    | cons name blobs ih =>
      rw [List.foldl_cons]
      refine ih _ ?_ fun other hother => hsub other (List.mem_cons_of_mem _ hother)
      by_cases he : exportName name = exportName s.fileName
      · rw [hown name (hsub name List.mem_cons_self) he, exportBlob_source, Function.update_self]
      · rw [exportBlob_frame he, hdir]
  apply hkeep _ (Function.update_self ..) after
  intro name hname
  rw [hsplit]
  exact List.mem_append_right _ (List.mem_cons_of_mem _ hname)

end runs

/-- The file of the kernel ends the source without being its name: it is a part of the name,
or the name with a part of the version in front. -/
def Overlaps (s : Source) (kernelName : Text) : Prop :=
  (∃ front, front ≠ [] ∧ s.name = front ++ kernelName) ∨
    ∃ tail, tail ≠ [] ∧ tail <:+ s.prefix_ ∧ kernelName = tail ++ s.name

theorem suffix_fileName_iff (s : Source) (kernelName : Text) :
    kernelName <:+ s.fileName ↔ s.name = kernelName ∨ Overlaps s kernelName := by
  constructor
  · rintro ⟨t, ht⟩
    rcases List.append_eq_append_iff.mp ht with ⟨tail, hprefix, hname⟩ | ⟨front, -, hname⟩
    · by_cases hnil : tail = []
      · exact .inl (by rw [hname, hnil, List.nil_append])
      · exact .inr (.inr ⟨tail, hnil, ⟨t, hprefix.symm⟩, hname⟩)
    · by_cases hnil : front = []
      · exact .inl (by rw [hname, hnil, List.nil_append])
      · exact .inr (.inl ⟨front, hnil, hname⟩)
  · rintro (rfl | ⟨front, -, hname⟩ | ⟨tail, -, ⟨t, ht⟩, rfl⟩)
    · exact List.suffix_append _ _
    · refine ⟨s.prefix_ ++ front, ?_⟩
      rw [Source.fileName, hname, List.append_assoc]
    · exact ⟨t, by rw [Source.fileName, ← ht, List.append_assoc]⟩

theorem Overlaps.ne {s : Source} {kernelName : Text} (h : Overlaps s kernelName) :
    s.name ≠ kernelName := by
  rintro rfl
  rcases h with ⟨front, hne, h⟩ | ⟨tail, hne, -, h⟩
  · exact hne (List.self_eq_append_left.mp h)
  · exact hne (List.self_eq_append_left.mp h)

theorem suffix_iff_name_iff (s : Source) (kernelName : Text) :
    (kernelName <:+ s.fileName ↔ s.name = kernelName) ↔ ¬ Overlaps s kernelName := by
  rw [suffix_fileName_iff]
  constructor
  · intro h ho
    exact ho.ne (h.mp (.inr ho))
  · intro h
    exact or_iff_left h

theorem Source.fileName_ne_meson (s : Source) : s.fileName ≠ "meson.build".toList := by
  intro he
  have hne : s.prefix_ ≠ [] := by simp [Source.prefix_]
  obtain ⟨c, cs, hcs⟩ := List.exists_cons_of_ne_nil hne
  have hc : c ∈ versionChars := version_mem_versionChars s.version (by
    rw [← Source.prefix_, hcs]
    exact List.mem_cons_self)
  rw [Source.fileName, hcs] at he
  obtain rfl : c = 'm' := (List.cons.inj he).1
  exact absurd hc (by decide)

theorem Source.not_header (s : Source) : ¬ ".h".toList <:+ s.fileName := by
  have hend : s.fileName = (s.prefix_ ++ (s.vendor ++ ("__".toList ++ (s.product ++
      ".bpf.".toList)))) ++ ['c'] := by
    simp [Source.fileName, Source.name]
  rintro ⟨t, ht⟩
  have hlast := congrArg List.getLast? ht
  rw [hend, List.getLast?_concat] at hlast
  simp at hlast

theorem mem_matchesOf {blobs : List Source} {s : Source} (hs : s ∈ blobs) (kernelName : Text) :
    s.fileName ∈ matchesOf (blobs.map Source.fileName) kernelName ↔ kernelName <:+ s.fileName := by
  have hmem : s.fileName ∈ blobs.map Source.fileName := List.mem_map_of_mem hs
  have hmeson : decide (s.fileName ≠ "meson.build".toList) = true :=
    decide_eq_true s.fileName_ne_meson
  rw [matchesOf, List.mem_mergeSort, List.mem_filter, List.mem_filter, List.isSuffixOf_iff_suffix]
  exact and_iff_right ⟨hmem, hmeson⟩

theorem mem_gatherMatches {stable testing : List Source} (bpf : List Text) (kernelName : Text) :
    (∀ s ∈ stable, s.fileName ∈ (gatherMatches (stable.map Source.fileName)
        (testing.map Source.fileName) bpf kernelName).1 ↔ kernelName <:+ s.fileName) ∧
      ∀ s ∈ testing, s.fileName ∈ (gatherMatches (stable.map Source.fileName)
        (testing.map Source.fileName) bpf kernelName).2.1 ↔ kernelName <:+ s.fileName := by
  unfold gatherMatches
  simp only
  split
  · rename_i h
    refine ⟨?_, fun s hs => mem_matchesOf hs kernelName⟩
    intro s hs
    rw [← mem_matchesOf hs, h.1]
    simp only [List.not_mem_nil, iff_false, List.mem_filter, not_and]
    intro _ hheader
    rw [decide_eq_true_eq, List.isSuffixOf_iff_suffix] at hheader
    exact s.not_header hheader.1
  · exact ⟨fun s hs => mem_matchesOf hs kernelName, fun s hs => mem_matchesOf hs kernelName⟩

theorem head_matchesOf {blobs : List Text} {kernelName prevFile : Text} {rest : List Text}
    (h : matchesOf blobs kernelName = prevFile :: rest) {name : Text}
    (hname : name ∈ matchesOf blobs kernelName) : name ≤ prevFile := by
  have hsorted : (matchesOf blobs kernelName).Pairwise fun a b => b ≤ a := by
    have htrans (a b c : Text) (hab : decide (b ≤ a) = true) (hbc : decide (c ≤ b) = true) :
        decide (c ≤ a) = true :=
      decide_eq_true ((of_decide_eq_true hbc).trans (of_decide_eq_true hab))
    have htotal (a b : Text) : (decide (b ≤ a) || decide (a ≤ b)) = true := by
      rw [Bool.or_eq_true, decide_eq_true_eq, decide_eq_true_eq]
      exact le_total b a
    exact (List.pairwise_mergeSort htrans htotal _).imp of_decide_eq_true
  rw [h] at hsorted hname
  rcases List.mem_cons.mp hname with rfl | hmem
  · exact le_rfl
  · exact (List.pairwise_cons.mp hsorted).1 name hmem

theorem mem_stable_of_mem_matchesOf {blobs : List Text} {kernelName name : Text}
    (h : name ∈ matchesOf blobs kernelName) : name ∈ blobs := by
  rw [matchesOf, List.mem_mergeSort] at h
  exact (List.mem_filter.mp (List.mem_filter.mp h).1).1

/-- What is imported is a first version, or ten above the last source that the file of the
kernel ends. -/
theorem importDest_matchesOf (stable : List Source) (kernelName : Text) :
    ((∀ s ∈ stable, ¬ kernelName <:+ s.fileName) ∧
      importDest (matchesOf (stable.map Source.fileName) kernelName) false kernelName =
        some (importName 10 kernelName)) ∨
    ∃ s ∈ stable, kernelName <:+ s.fileName ∧
      (∀ t ∈ stable, kernelName <:+ t.fileName → t.version ≤ s.version) ∧
      importDest (matchesOf (stable.map Source.fileName) kernelName) false kernelName =
        some (importName (s.version + 10) kernelName) := by
  cases hmatches : matchesOf (stable.map Source.fileName) kernelName with
  | nil =>
    refine .inl ⟨?_, rfl⟩
    intro s hs hsuffix
    have hmem := (mem_matchesOf hs kernelName).mpr hsuffix
    rw [hmatches] at hmem
    exact absurd hmem List.not_mem_nil
  | cons prevFile rest =>
    have hmem : prevFile ∈ matchesOf (stable.map Source.fileName) kernelName := by
      rw [hmatches]
      exact List.mem_cons_self
    obtain ⟨s, hs, rfl⟩ := List.mem_map.mp (mem_stable_of_mem_matchesOf hmem)
    refine .inr ⟨s, hs, (mem_matchesOf hs kernelName).mp hmem, ?_, ?_⟩
    · intro t ht hsuffix
      exact Source.version_le (head_matchesOf hmatches ((mem_matchesOf ht kernelName).mpr hsuffix))
    · rw [importDest, if_neg (by decide), nextVersion_fileName, Option.map_some]

theorem importDest_fresh (stable : List Source) (kernelName : Text)
    (hno : ∀ s ∈ stable, ¬ Overlaps s kernelName) :
    ∀ s ∈ stable, importDest (matchesOf (stable.map Source.fileName) kernelName) false
      kernelName ≠ some s.fileName := by
  intro s hs hdest
  have hsource {idx : ℕ} (he : importName idx kernelName = s.fileName) :
      kernelName <:+ s.fileName ∧ idx = s.version := by
    have hsuffix : kernelName <:+ s.fileName := by
      rw [← he, importName, List.append_cons]
      exact List.suffix_append _ _
    have hname : s.name = kernelName :=
      ((suffix_fileName_iff s kernelName).mp hsuffix).resolve_right (hno s hs)
    rw [s.fileName_eq, hname] at he
    exact ⟨hsuffix, importName_injective he⟩
  rcases importDest_matchesOf stable kernelName with ⟨hnone, h⟩ | ⟨t, ht, -, hlast, h⟩
  · rw [h] at hdest
    exact hnone s hs (hsource (Option.some.inj hdest)).1
  · rw [h] at hdest
    obtain ⟨hsuffix, hversion⟩ := hsource (Option.some.inj hdest)
    have hle := hlast s hs hsuffix
    omega

/-- Exporting writes a source under its name and importing matches a file of the kernel with
the sources of its name exactly when no name begins with a stripped character and no file of
the kernel ends a source of another name. -/
theorem names_agree_iff (stable testing : List Source) (bpf kernel : List Text) :
    ((∀ s ∈ stable ++ testing, ∀ read confirm dir, exportBlob read confirm dir s.fileName =
        Function.update dir s.name (some (read s.fileName))) ∧
      ∀ kernelName ∈ kernel,
        (∀ s ∈ stable, s.fileName ∈ (gatherMatches (stable.map Source.fileName)
          (testing.map Source.fileName) bpf kernelName).1 ↔ s.name = kernelName) ∧
        ∀ s ∈ testing, s.fileName ∈ (gatherMatches (stable.map Source.fileName)
          (testing.map Source.fileName) bpf kernelName).2.1 ↔ s.name = kernelName) ↔
    ∀ s ∈ stable ++ testing, (∀ c ∈ s.name.head?, c ∉ versionChars) ∧
      ∀ kernelName ∈ kernel, ¬ Overlaps s kernelName := by
  constructor
  · rintro ⟨hwrite, himport⟩ s hs
    refine ⟨(exportBlob_name_iff s).mp (hwrite s hs), ?_⟩
    intro kernelName hk
    apply (suffix_iff_name_iff s kernelName).mp
    rcases List.mem_append.mp hs with hs | hs
    · rw [← (mem_gatherMatches bpf kernelName).1 s hs]
      exact (himport kernelName hk).1 s hs
    · rw [← (mem_gatherMatches bpf kernelName).2 s hs]
      exact (himport kernelName hk).2 s hs
  · intro h
    refine ⟨fun s hs => (exportBlob_name_iff s).mpr (h s hs).1, ?_⟩
    intro kernelName hk
    constructor
    · intro s hs
      rw [(mem_gatherMatches bpf kernelName).1 s hs]
      apply (suffix_iff_name_iff s kernelName).mpr
      exact (h s (List.mem_append_left _ hs)).2 kernelName hk
    · intro s hs
      rw [(mem_gatherMatches bpf kernelName).2 s hs]
      apply (suffix_iff_name_iff s kernelName).mpr
      exact (h s (List.mem_append_right _ hs)).2 kernelName hk

def spaceMouse : Source where
  version := 10
  vendor := "3Dconnexion".toList
  product := "SpaceMouse".toList
  version_lt := by decide
  vendor_noSlash := by decide
  product_noSlash := by decide

def artist24 : Source where
  version := 20
  vendor := "XP-Pen".toList
  product := "Artist24".toList
  version_lt := by decide
  vendor_noSlash := by decide
  product_noSlash := by decide

/-- The name of a vendor loses its first digit on the way out, and a file of the kernel that is
the end of a name is taken for that source on the way in. -/
theorem export_strips_vendor_import_matches_end :
    exportBlob (fun _ => "") (fun _ => true) (fun _ => none) spaceMouse.fileName ≠
      Function.update (fun _ => none) spaceMouse.name (some "") ∧
    artist24.fileName ∈ (gatherMatches [artist24.fileName] [] []
      "Pen__Artist24.bpf.c".toList).1 ∧
    artist24.name ≠ "Pen__Artist24.bpf.c".toList := by
  refine ⟨?_, ?_, by decide⟩
  · intro h
    have hat := congrFun h "Dconnexion__SpaceMouse.bpf.c".toList
    rw [exportBlob_source, show exportName spaceMouse.fileName =
      "Dconnexion__SpaceMouse.bpf.c".toList by decide, Function.update_self,
      Function.update_of_ne (by decide)] at hat
    exact absurd hat (by decide)
  · rw [show [artist24.fileName] = [artist24].map Source.fileName from rfl,
      show ([] : List Text) = ([] : List Source).map Source.fileName from rfl,
      (mem_gatherMatches _ _).1 artist24 List.mem_cons_self]
    exact (List.isSuffixOf_iff_suffix).mp (by decide)

end KernelTree
