import UdevHidBpf.ListSplits
import UdevHidBpf.RadixText
import UdevHidBpf.StemSorting

/-! # The names of the built objects

The loop over `bpf_sources` in `meson.build`, and the order in which the loader tries what
it builds. -/
namespace ObjectNames

open ListSplits RadixText StemSorting

structure BpfSource where
  name : Text
  compileWithTracing : Bool
  deriving DecidableEq, Repr

def bpfSources (useBpfTracing : Bool) (tracingSources sources : List Text) : List BpfSource :=
  tracingSources.flatMap (fun bpf =>
      ⟨bpf, false⟩ :: if useBpfTracing then [⟨bpf, true⟩] else []) ++
    sources.map fun bpf => ⟨bpf, false⟩

def intText : ℤ → Text
  | .ofNat n => digits 10 n
  | .negSucc n => '-' :: digits 10 (n + 1)

def fileId (id : ℤ) : Text :=
  let a := id / 1000
  let b := id / 100
  let c := id / 10
  let d := id % 10
  intText a ++ intText b ++ intText c ++ intText d

/-- `bpf_o_file` of one entry; `none` where `to_int` fails. -/
def bpfOFile (source : BpfSource) : Option Text := do
  let id ← readDigits 10 (source.name.takeWhile (· ≠ '-'))
  let stem := ((trimBy "0123456789".toList.contains source.name).drop 1).rdrop 2
  let id : ℤ := if source.compileWithTracing then id - 1 else id
  some (fileId id ++ '-' :: stem ++ ".o".toList)

structure SourceFile where
  version : ℕ
  stem : Text
  version_pos : 1 ≤ version
  version_le : version ≤ 9999

def SourceFile.name (s : SourceFile) : Text :=
  (versionPrefix s.version).toList ++ '-' :: (s.stem ++ ".bpf.c".toList)

/-- The object of `stem` with the four-digit version `n`. -/
def objectName (n : ℕ) (stem : Text) : Text :=
  (versionPrefix n).toList ++ '-' :: (stem ++ ".bpf.o".toList)

theorem readDigits_versionPrefix {n : ℕ} (hn : n ≤ 9999) :
    readDigits 10 (versionPrefix n).toList = some n := by
  have hdigit : ∀ k, digitValue 10 (digit k) = some (k % 10) := by
    intro k
    have hall : ∀ d < 10, digitValue 10 (Char.ofNat (48 + d)) = some d := by decide
    exact hall _ (Nat.mod_lt _ (by omega))
  simp only [readDigits, versionPrefix, String.toList_ofList, List.isEmpty_cons,
    Bool.false_eq_true, if_false, parseDigits, hdigit, Option.bind_some, Option.some.injEq]
  omega

theorem name_takeWhile (s : SourceFile) :
    s.name.takeWhile (· ≠ '-') = (versionPrefix s.version).toList := by
  have hdash : ∀ c ∈ (versionPrefix s.version).toList, c ≠ '-' := by
    intro c hc heq
    have := versionPrefix_digits s.version c hc
    rw [heq] at this
    exact absurd this (by decide)
  rw [SourceFile.name, List.takeWhile_append_of_pos (by simpa using hdash)]
  simp

theorem strip_name (s : SourceFile) :
    trimBy "0123456789".toList.contains s.name = '-' :: (s.stem ++ ".bpf.c".toList) := by
  have hdigit : ∀ k, "0123456789".toList.contains (digit k) = true := by
    intro k
    have hall : ∀ d < 10, "0123456789".toList.contains (Char.ofNat (48 + d)) = true := by decide
    exact hall _ (Nat.mod_lt _ (by omega))
  have hprefix : ∀ c ∈ (versionPrefix s.version).toList,
      "0123456789".toList.contains c = true := by
    intro c hc
    simp only [versionPrefix, String.toList_ofList, List.mem_cons, List.not_mem_nil,
      or_false] at hc
    rcases hc with rfl | rfl | rfl | rfl <;> exact hdigit _
  have hsplit : s.name = (versionPrefix s.version).toList ++
      '-' :: (s.stem ++ ".bpf.c".toList) ++ [] := by simp [SourceFile.name]
  rw [hsplit]
  refine trimBy_eq hprefix (by simp) ?_ ?_
  · intro c hc
    obtain rfl : '-' = c := by simpa using hc
    decide
  · intro c hc
    have hend : '-' :: (s.stem ++ ".bpf.c".toList)
        = ('-' :: (s.stem ++ ".bpf.".toList)) ++ ['c'] := by simp
    rw [hend, List.getLast?_concat, Option.mem_some_iff] at hc
    rw [← hc]
    decide

theorem bpf_o_file_eq (s : SourceFile) (tracing : Bool) :
    bpfOFile ⟨s.name, tracing⟩ =
      some (fileId (s.version - tracing.toNat : ℕ) ++ '-' :: (s.stem ++ ".bpf.o".toList)) := by
  have hstem : (s.stem ++ ".bpf.c".toList).rdrop 2 = s.stem ++ ".bpf".toList := by
    have hsplit : s.stem ++ ".bpf.c".toList = (s.stem ++ ".bpf".toList) ++ ".c".toList := by simp
    rw [hsplit]
    exact @List.rdrop_append_length _ (s.stem ++ ".bpf".toList) ".c".toList
  have hid : (if tracing then (s.version : ℤ) - 1 else s.version) =
      (s.version - tracing.toNat : ℕ) := by
    have := s.version_pos
    cases tracing
    · simp
    · simp
      omega
  rw [bpfOFile, name_takeWhile, readDigits_versionPrefix s.version_le, strip_name]
  simp only [Option.bind_eq_bind, Option.bind_some, List.drop_succ_cons, List.drop_zero, hstem, hid]
  simp

theorem digits_one {d : ℕ} (hd : d < 10) : digits 10 d = [digit d] := by
  have hall : ∀ d < 10, digits 10 d = [digit d] := by decide
  exact hall d hd

theorem file_id_eq (n : ℕ) : fileId n =
    digits 10 (n / 1000) ++ digits 10 (n / 100) ++ digits 10 (n / 10) ++ digits 10 (n % 10) := rfl

/-- Without a remainder the digits are those of the version up to 99 only. -/
theorem file_id_eq_prefix_iff (n : ℕ) :
    fileId n = (versionPrefix n).toList ↔ n < 100 := by
  rw [file_id_eq]
  constructor
  · intro h
    by_contra hn
    have hpos : ∀ k, 1 ≤ (digits 10 k).length := fun k =>
      List.length_pos_iff.2 (digits_ne_nil 10 k)
    have htens : 2 ≤ (digits 10 (n / 10)).length := by
      rw [digits_eq_if (by decide), if_neg (by omega), List.length_append, List.length_singleton]
      have := hpos (n / 10 / 10)
      omega
    have hlen := congrArg List.length h
    simp only [versionPrefix, String.toList_ofList, List.length_append, List.length_cons,
      List.length_nil] at hlen
    have := hpos (n / 1000)
    have := hpos (n / 100)
    have := hpos (n % 10)
    omega
  · intro hn
    rw [digits_one (by omega), digits_one (by omega), digits_one (by omega),
      digits_one (by omega)]
    simp [versionPrefix, digit_congr (Nat.mod_mod n 10)]

section order

variable {Path : Type*} (cf : CaseFolding) (it : IterationOrder) (fileName : Path → String)

/-- The file at `p` is what the source is built as, with or without tracing. -/
def BuiltFrom (s : SourceFile) (tracing : Bool) (p : Path) : Prop :=
  bpfOFile ⟨s.name, tracing⟩ = some (fileName p).toList

/-- The objects carry the versions of their sources, and the loader tries the struct_ops
object of a version first, its tracing object next, and lower versions after both. -/
structure KeepsVersions (useBpfTracing : Bool) (tracingSources sources : List SourceFile) :
    Prop where
  structOps : ∀ s ∈ tracingSources ++ sources,
    bpfOFile ⟨s.name, false⟩ = some (objectName s.version s.stem)
  tracing : ∀ b ∈ bpfSources useBpfTracing (tracingSources.map SourceFile.name)
    (sources.map SourceFile.name), b.compileWithTracing →
      ∃ s ∈ tracingSources, b.name = s.name ∧ bpfOFile b = some (objectName (s.version - 1) s.stem)
  order : ∀ paths groups, sortByStem cf fileName it paths = some groups →
    ∀ g ∈ groups, ∀ (i j : ℕ) (p q : Path), g[i]? = some p → g[j]? = some q →
      (∀ s ∈ tracingSources, BuiltFrom fileName s false p → BuiltFrom fileName s true q → i < j) ∧
      (∀ s ∈ tracingSources ++ sources, ∀ t ∈ tracingSources ++ sources, t.version + 2 ≤ s.version →
        ∀ tracing, BuiltFrom fileName s tracing p → BuiltFrom fileName t false q → i < j)

variable {cf fileName}

theorem has_version {s : SourceFile} {tracing : Bool} {p : Path} (hlow : s.version < 100)
    (h : BuiltFrom fileName s tracing p) :
    HasVersion fileName p (s.version - tracing.toNat) := by
  refine ⟨by omega, String.ofList (s.stem ++ ".bpf.o".toList), ?_⟩
  rw [BuiltFrom, bpf_o_file_eq, (file_id_eq_prefix_iff _).2 (by omega), Option.some.injEq] at h
  rw [← String.toList_inj, ← h]
  simp

theorem tries_in_order {paths : List Path} {groups : List (List Path)}
    (hgroups : sortByStem cf fileName it paths = some groups) {g : List Path} (hg : g ∈ groups)
    {i j m n : ℕ} {p q : Path} (hi : g[i]? = some p) (hj : g[j]? = some q)
    (hp : HasVersion fileName p m) (hq : HasVersion fileName q n) (hmn : n < m) : i < j := by
  rw [sortByStem_eq, Option.some.injEq] at hgroups
  subst hgroups
  exact higher_version_first cf fileName (GroupedSort.grouped_descending _ _ _ hg) hj hi hq hp hmn

theorem mem_bpf_sources_tracing {useBpfTracing : Bool} {tracingSources sources : List Text}
    {b : BpfSource} (hb : b ∈ bpfSources useBpfTracing tracingSources sources)
    (htracing : b.compileWithTracing) : b.name ∈ tracingSources ∧ b = ⟨b.name, true⟩ := by
  rw [bpfSources, List.mem_append, List.mem_flatMap, List.mem_map] at hb
  rcases hb with ⟨bpf, hbpf, hb⟩ | ⟨bpf, -, rfl⟩
  · rcases List.mem_cons.1 hb with rfl | hb
    · exact absurd htracing (by simp)
    · cases useBpfTracing
      · exact absurd hb (by simp)
      · obtain rfl : b = ⟨bpf, true⟩ := by simpa using hb
        exact ⟨hbpf, rfl⟩
  · exact absurd htracing (by simp)

/-- Versions survive the build exactly when they are below 100. -/
theorem keeps_versions_iff (useBpfTracing : Bool) (tracingSources sources : List SourceFile) :
    KeepsVersions cf it fileName useBpfTracing tracingSources sources ↔
      ∀ s ∈ tracingSources ++ sources, s.version < 100 := by
  constructor
  · intro h s hs
    have hname := h.structOps s hs
    rw [bpf_o_file_eq, objectName, Option.some.injEq, List.append_left_inj] at hname
    exact (file_id_eq_prefix_iff s.version).1 hname
  · intro hlow
    have hname : ∀ s ∈ tracingSources ++ sources, ∀ tracing,
        bpfOFile ⟨s.name, tracing⟩ = some (objectName (s.version - tracing.toNat) s.stem) := by
      intro s hs tracing
      have := hlow s hs
      rw [bpf_o_file_eq, (file_id_eq_prefix_iff _).2 (by omega), objectName]
    constructor
    · intro s hs
      exact hname s hs false
    · intro b hb htracing
      obtain ⟨hmem, heq⟩ := mem_bpf_sources_tracing hb htracing
      obtain ⟨s, hs, hbname⟩ := List.mem_map.1 hmem
      refine ⟨s, hs, hbname.symm, ?_⟩
      rw [heq, ← hbname]
      exact hname s (List.mem_append_left _ hs) true
    · intro paths groups hgroups g hg i j p q hi hj
      constructor
      · intro s hs hp hq
        have hs' := hlow s (List.mem_append_left _ hs)
        have hpos := s.version_pos
        refine tries_in_order it hgroups hg hi hj (has_version hs' hp) (has_version hs' hq) ?_
        simp only [Bool.toNat_true, Bool.toNat_false]
        omega
      · intro s hs t ht hapart tracing hp hq
        refine tries_in_order it hgroups hg hi hj (has_version (hlow s hs) hp)
          (has_version (hlow t ht) hq) ?_
        have := tracing.toNat_le
        simp only [Bool.toNat_false]
        omega

end order

def versionHundred : SourceFile := ⟨100, "Vendor__Stem".toList, by decide, by decide⟩

theorem version_hundred_lost :
    ¬ KeepsVersions asciiCase insertionOrder (id : String → String) false [] [versionHundred] := by
  intro h
  have hname := h.structOps versionHundred (by simp)
  have hbuilt : bpfOFile ⟨versionHundred.name, false⟩ = some "01100-Vendor__Stem.bpf.o".toList := by
    decide
  rw [hbuilt] at hname
  exact absurd hname (by decide)

example : bpfOFile ⟨"0010-Huion__Dial-2.bpf.c".toList, true⟩
    = some "0009-Huion__Dial-2.bpf.o".toList := by decide

end ObjectNames
