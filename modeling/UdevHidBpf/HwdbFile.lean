import UdevHidBpf.Glob
import Mathlib.Data.List.Forall2
import Mathlib.Data.List.Nodup

/-! # Hardware database files

A record is a block of lines: globs from the first column, then properties behind blanks,
then an empty line. A lookup merges the properties of all records with a matching glob, a
later one in place of an earlier one of its name. `none` is a line out of place. -/
namespace HwdbFile

open Glob

abbrev Property := List Char × List Char

structure Record where
  globs : List (List Char)
  properties : List Property
  deriving DecidableEq, Repr

structure Reader where
  records : List Record
  current : Record

def Reader.start : Reader := ⟨[], [], []⟩

/-- `KEY=VALUE` behind blanks. -/
def readProperty (line : List Char) : Option Property :=
  let line := line.dropWhile (· = ' ')
  match line.dropWhile (· ≠ '=') with
  | [] => none
  | _ :: value => some (line.takeWhile (· ≠ '='), value)

def Reader.close (r : Reader) : Reader :=
  if r.current.globs.isEmpty then r else ⟨r.records ++ [r.current], [], []⟩

def readLine (r : Reader) (line : List Char) : Option Reader :=
  if line.isEmpty then some r.close
  else if line.head? = some '#' then some r
  else if line.head? = some ' ' then
    if r.current.globs.isEmpty then none
    else (readProperty line).map fun p =>
      { r with current := { r.current with properties := r.current.properties ++ [p] } }
  else if r.current.properties.isEmpty then
    some { r with current := { r.current with globs := r.current.globs ++ [line] } }
  else none

def readHwdb (lines : List (List Char)) : Option (List Record) :=
  (lines.foldlM readLine .start).map fun r => r.close.records

def Record.accepts (r : Record) (key : List Char) : Bool :=
  r.globs.any fun glob => Glob.accepts (ofText glob) key

/-- Of the properties of one name the last one counts. -/
def merge : List Property → List Property
  | [] => []
  | p :: ps => if p.1 ∈ ps.map Prod.fst then merge ps else p :: merge ps

def lookup (records : List Record) (key : List Char) : List Property :=
  merge ((records.filter (·.accepts key)).flatMap Record.properties)

theorem readProperty_line {key value : List Char} (hkey : '=' ∉ key)
    (hhead : key.head? ≠ some ' ') (hne : key ≠ []) :
    readProperty (' ' :: ' ' :: (key ++ '=' :: value)) = some (key, value) := by
  have hblank : (' ' :: ' ' :: (key ++ '=' :: value)).dropWhile (· = ' ') =
      key ++ '=' :: value := by
    cases key with
    | nil => exact absurd rfl hne
    | cons c key =>
      have hc : c ≠ ' ' := by simpa using hhead
      simp [hc]
  have hall : ∀ c ∈ key, (decide (c ≠ '=')) = true := by
    intro c hc
    exact decide_eq_true fun h => hkey (h ▸ hc)
  simp only [readProperty, hblank]
  rw [List.dropWhile_append_of_pos hall, List.takeWhile_append_of_pos hall]
  simp

/-- The lines of one record in front of the empty line. -/
structure Block (r : Record) (properties : List (List Char)) : Prop where
  globs : r.globs ≠ []
  first_column : ∀ g ∈ r.globs, g ≠ [] ∧ g.head? ≠ some '#' ∧ g.head? ≠ some ' '
  reads : List.Forall₂ (fun line p => line.head? = some ' ' ∧ readProperty line = some p)
    properties r.properties

theorem foldlM_globs (done : List Record) {globs : List (List Char)}
    (h : ∀ g ∈ globs, g ≠ [] ∧ g.head? ≠ some '#' ∧ g.head? ≠ some ' ')
    (before : List (List Char)) :
    globs.foldlM readLine ⟨done, before, []⟩ = some ⟨done, before ++ globs, []⟩ := by
  induction globs generalizing before with
  | nil => simp
  | cons g globs ih =>
    obtain ⟨hne, hcomment, hblank⟩ := h g List.mem_cons_self
    have hread : readLine ⟨done, before, []⟩ g = some ⟨done, before ++ [g], []⟩ := by
      simp [readLine, hne, hcomment, hblank]
    rw [List.foldlM_cons, hread]
    simpa using ih (fun g' hg' => h g' (List.mem_cons_of_mem _ hg')) (before ++ [g])

theorem foldlM_properties (done : List Record) {globs : List (List Char)} (hglobs : globs ≠ [])
    {lines : List (List Char)} {ps : List Property}
    (h : List.Forall₂ (fun line p => line.head? = some ' ' ∧ readProperty line = some p) lines ps)
    (before : List Property) :
    lines.foldlM readLine ⟨done, globs, before⟩ = some ⟨done, globs, before ++ ps⟩ := by
  induction h generalizing before with
  | nil => simp
  | @cons line p lines ps hline _ ih =>
    have hne : line ≠ [] := by
      rintro rfl
      simp at hline
    have hread : readLine ⟨done, globs, before⟩ line = some ⟨done, globs, before ++ [p]⟩ := by
      simp [readLine, hne, hline.1, hline.2, hglobs]
    rw [List.foldlM_cons, hread]
    simpa using ih (before ++ [p])

theorem foldlM_block {r : Record} {properties : List (List Char)} (h : Block r properties)
    (done : List Record) :
    (r.globs ++ properties ++ [[]]).foldlM readLine ⟨done, [], []⟩ =
      some ⟨done ++ [r], [], []⟩ := by
  have hclose : readLine ⟨done, r.globs, r.properties⟩ [] = some ⟨done ++ [r], [], []⟩ := by
    simp [readLine, Reader.close, h.globs]
  rw [List.foldlM_append, List.foldlM_append, foldlM_globs done h.first_column []]
  simp only [List.nil_append, Option.bind_eq_bind, Option.bind_some]
  rw [foldlM_properties done h.globs h.reads []]
  simpa using hclose

theorem foldlM_blocks {ι : Type*} (is : List ι) (record : ι → Record)
    (properties : ι → List (List Char)) (h : ∀ i ∈ is, Block (record i) (properties i))
    (done : List Record) :
    (is.flatMap fun i => (record i).globs ++ properties i ++ [[]]).foldlM readLine ⟨done, [], []⟩ =
      some ⟨done ++ is.map record, [], []⟩ := by
  induction is generalizing done with
  | nil => simp
  | cons i is ih =>
    rw [List.flatMap_cons, List.foldlM_append, foldlM_block (h i List.mem_cons_self)]
    simpa using ih (fun j hj => h j (List.mem_cons_of_mem _ hj)) (done ++ [record i])

theorem merge_filter (P : List Char → Bool) (ps : List Property) :
    (merge ps).filter (fun p => P p.1) = merge (ps.filter fun p => P p.1) := by
  induction ps with
  | nil => rfl
  | cons p ps ih =>
    rw [merge, List.filter_cons]
    by_cases hP : P p.1
    · have hmem : p.1 ∈ (ps.filter fun p => P p.1).map Prod.fst ↔ p.1 ∈ ps.map Prod.fst := by
        simp only [List.mem_map, List.mem_filter]
        constructor
        · rintro ⟨q, ⟨hq, -⟩, heq⟩
          exact ⟨q, hq, heq⟩
        · rintro ⟨q, hq, heq⟩
          exact ⟨q, ⟨hq, heq ▸ hP⟩, heq⟩
      rw [if_pos hP, merge]
      by_cases hlater : p.1 ∈ ps.map Prod.fst
      · rw [if_pos hlater, if_pos (hmem.mpr hlater), ih]
      · rw [if_neg hlater, if_neg (mt hmem.mp hlater), List.filter_cons, if_pos hP, ih]
    · rw [if_neg hP]
      by_cases hlater : p.1 ∈ ps.map Prod.fst
      · rw [if_pos hlater, ih]
      · rw [if_neg hlater, List.filter_cons, if_neg hP, ih]

theorem merge_nodup {ps : List Property} (h : (ps.map Prod.fst).Nodup) : merge ps = ps := by
  induction ps with
  | nil => rfl
  | cons p ps ih =>
    rw [List.map_cons, List.nodup_cons] at h
    rw [merge, if_neg h.1, ih h.2]

theorem merge_subset (ps : List Property) : merge ps ⊆ ps := by
  induction ps with
  | nil => exact List.Subset.refl _
  | cons p ps ih =>
    rw [merge]
    split
    · exact List.subset_cons_of_subset _ ih
    · exact List.cons_subset_cons _ ih

theorem mem_names_merge {ps : List Property} {name : List Char} :
    name ∈ (merge ps).map Prod.fst ↔ name ∈ ps.map Prod.fst := by
  refine ⟨fun h => List.map_subset _ (merge_subset ps) h, ?_⟩
  induction ps with
  | nil => exact id
  | cons p ps ih =>
    intro h
    rw [merge]
    split
    · rename_i hlater
      rcases List.mem_cons.mp h with rfl | h
      · exact ih hlater
      · exact ih h
    · rcases List.mem_cons.mp h with rfl | h
      · exact List.mem_cons_self
      · exact List.mem_cons_of_mem _ (ih h)

theorem nodup_names_merge (ps : List Property) : ((merge ps).map Prod.fst).Nodup := by
  induction ps with
  | nil => exact List.nodup_nil
  | cons p ps ih =>
    rw [merge]
    split
    · exact ih
    · rename_i hlater
      exact List.nodup_cons.mpr ⟨fun h => hlater (mem_names_merge.mp h), ih⟩

theorem merge_append_apart {ps qs : List Property}
    (h : ∀ p ∈ ps, p.1 ∉ qs.map Prod.fst) : merge (ps ++ qs) = merge ps ++ merge qs := by
  induction ps with
  | nil => rfl
  | cons p ps ih =>
    have hp := h p List.mem_cons_self
    rw [List.cons_append, merge, merge, ih fun q hq => h q (List.mem_cons_of_mem _ hq)]
    simp only [List.map_append, List.mem_append, hp, or_false]
    split
    · rfl
    · rfl

end HwdbFile
