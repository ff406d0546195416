import Mathlib.Data.List.TakeWhile
import UdevHidBpf.ListSplice

/-! # Strings in a buffer

A string ends at the first terminator of its buffer. Formatting puts one behind what it
writes, so of texts written one behind the other only the last keeps its own. -/
namespace CStrings

open ListSplice

variable {α : Type*}

section

variable [DecidableEq α]

def cString (nul : α) (buffer : List α) : List α := buffer.takeWhile (· ≠ nul)

theorem cString_of_terminated {nul : α} {text rest : List α} (h : nul ∉ text) :
    cString nul (text ++ nul :: rest) = text := by
  have htext : ∀ c ∈ text, decide (c ≠ nul) = true := by
    intro c hc
    exact decide_eq_true fun heq => h (heq ▸ hc)
  rw [cString, List.takeWhile_append_of_pos htext, List.takeWhile_cons_of_neg (by simp),
    List.append_nil]

end

/-- `snprintf` to a place in the buffer. -/
def snprintf (nul : α) (buffer : List α) (pos size : ℕ) (text : List α) : List α :=
  if size = 0 then buffer else splice buffer pos (text.take (size - 1) ++ [nul])

variable {nul : α}

theorem length_snprintf {buffer text : List α} {pos size : ℕ} (h : pos + size ≤ buffer.length) :
    (snprintf nul buffer pos size text).length = buffer.length := by
  by_cases hsize : size = 0
  · rw [snprintf, if_pos hsize]
  rw [snprintf, if_neg hsize]
  apply length_splice
  rw [List.length_append, List.length_take, List.length_singleton]
  omega

theorem snprintf_append {front rest text : List α} {size : ℕ} (h : text.length < size) :
    snprintf nul (front ++ rest) front.length size text =
      front ++ text ++ nul :: rest.drop (text.length + 1) := by
  have htake : text.take (size - 1) = text := List.take_of_length_le (by omega)
  rw [snprintf, if_neg (by omega), htake, splice, List.take_left', List.length_append,
    List.length_singleton, ← List.drop_drop, List.drop_left']
  · simp
  · rfl
  · rfl

/-- A loop that formats texts of the width `w`, one behind the other. -/
def printCells (nul : α) (w : ℕ) (cell : ℕ → List α) (buffer : List α) (n : ℕ) : List α :=
  (List.range n).foldl (fun buffer i => snprintf nul buffer (i * w) (w + 1) (cell i)) buffer

section cells

variable {w : ℕ} {cell : ℕ → List α} {buffer : List α}

theorem printCells_succ (n : ℕ) : printCells nul w cell buffer (n + 1) =
    snprintf nul (printCells nul w cell buffer n) (n * w) (w + 1) (cell n) := by
  rw [printCells, List.range_succ, List.foldl_append]
  rfl

theorem length_printCells {n : ℕ} (hroom : n * w + 1 ≤ buffer.length) :
    (printCells nul w cell buffer n).length = buffer.length := by
  induction n with
  | zero => rfl
  | succ n ih =>
    rw [Nat.add_one_mul] at hroom
    have hlength := ih (by omega)
    rw [printCells_succ, length_snprintf (by omega), hlength]

/-- Each text overwrites the terminator of the one before it. -/
theorem printCells_eq (hcell : ∀ i, (cell i).length = w) (n : ℕ) :
    ∃ rest, printCells nul w cell buffer n = (List.range n).flatMap cell ++ rest ∧
      (0 < n → rest.head? = some nul) := by
  have hfront : ∀ n, ((List.range n).flatMap cell).length = n * w := by
    intro n
    simp [List.length_flatMap, hcell, List.map_const']
  induction n with
  | zero => exact ⟨buffer, rfl, fun h => absurd h (Nat.lt_irrefl 0)⟩
  | succ n ih =>
    obtain ⟨rest, hrest, -⟩ := ih
    have hfits : (cell n).length < w + 1 := Nat.lt_succ_of_le (hcell n).le
    refine ⟨nul :: rest.drop ((cell n).length + 1), ?_, fun _ => rfl⟩
    rw [printCells_succ, hrest, ← hfront n, snprintf_append hfits, List.range_succ,
      List.flatMap_append, List.flatMap_singleton]

theorem cString_printCells [DecidableEq α] (hcell : ∀ i, (cell i).length = w)
    (hnul : ∀ i, nul ∉ cell i) {n : ℕ} (hn : 0 < n) :
    cString nul (printCells nul w cell buffer n) = (List.range n).flatMap cell := by
  obtain ⟨rest, hrest, hhead⟩ : ∃ rest, printCells nul w cell buffer n =
      (List.range n).flatMap cell ++ rest ∧ (0 < n → rest.head? = some nul) :=
    printCells_eq hcell n
  obtain ⟨tail, rfl⟩ := List.head?_eq_some_iff.1 (hhead hn)
  rw [hrest]
  apply cString_of_terminated
  intro hmem
  obtain ⟨i, -, hi⟩ := List.mem_flatMap.1 hmem
  exact hnul i hi

end cells

end CStrings
