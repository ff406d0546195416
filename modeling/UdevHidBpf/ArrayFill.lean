import Mathlib.Data.List.GetD
import Mathlib.Data.Vector.Basic

/-! # Filling an array from a list

The loop `for (i, a) in l.iter().enumerate() { arr[i] = conv(a) }` on an array of fixed
length. -/
namespace ArrayFill

variable {α β : Type*} {n : ℕ}

/-- `none` when a conversion fails or an index is outside. -/
def fill (conv : α → Option β) : ℕ → List α → Vector β n → Option (Vector β n)
  | _, [], arr => some arr
  | i, a :: as, arr => do
    let b ← conv a
    if h : i < n then fill conv (i + 1) as (arr.set i b h) else none

/-- The elements of `l` from the start, then `d`. -/
def padded (n : ℕ) (d : β) (l : List β) : Vector β n := Vector.ofFn fun i => l.getD i d

theorem fill_getElem? {conv : α → Option β} {g : α → β} {l : List α} {i : ℕ} {arr : Vector β n}
    (hconv : ∀ a ∈ l, conv a = some (g a)) (hn : i + l.length ≤ n) :
    ∃ arr', fill conv i l arr = some arr' ∧
      ∀ j < n, arr'[j]? = if i ≤ j ∧ j < i + l.length then (l.map g)[j - i]? else arr[j]? := by
  induction l generalizing i arr with
  | nil =>
    refine ⟨arr, rfl, fun j _ => ?_⟩
    rw [if_neg (by simp only [List.length_nil]; omega)]
  | cons a l ih =>
    simp only [List.length_cons] at hn ⊢
    have hi : i < n := by omega
    obtain ⟨arr', hfill, hget⟩ := @ih (i + 1) (arr.set i (g a) hi)
      (fun b hb => hconv b (List.mem_cons_of_mem _ hb)) (by omega)
    refine ⟨arr', by simp [fill, hconv a List.mem_cons_self, hi, hfill], fun j hj => ?_⟩
    rw [hget j hj, Vector.getElem?_set]
    rcases Nat.lt_trichotomy j i with h | rfl | h
    · rw [if_neg (by omega), if_neg (by omega), if_neg (by omega)]
    · rw [if_neg (by omega), if_pos rfl, if_pos (by omega)]
      simp
    · rw [if_neg (show i ≠ j by omega)]
      by_cases hlt : j < i + (l.length + 1)
      · obtain ⟨k, rfl⟩ : ∃ k, j = i + 1 + k := ⟨j - (i + 1), by omega⟩
        rw [if_pos (by omega), if_pos (by omega), Nat.add_sub_cancel_left,
          show i + 1 + k - i = k + 1 by omega]
        simp
      · rw [if_neg (by omega), if_neg (by omega)]

theorem fill_eq_padded {conv : α → Option β} {g : α → β} {l : List α} {d : β}
    (hconv : ∀ a ∈ l, conv a = some (g a)) (hn : l.length ≤ n) :
    fill conv 0 l (Vector.replicate n d) = some (padded n d (l.map g)) := by
  obtain ⟨arr', hfill, hget⟩ := @fill_getElem? _ _ n conv g l 0 (Vector.replicate n d) hconv (by omega)
  rw [hfill]
  refine congrArg some (Vector.ext fun j hj => ?_)
  have h := hget j hj
  simp only [Nat.zero_le, true_and, Nat.zero_add, Nat.sub_zero] at h
  rw [Vector.getElem?_eq_getElem hj] at h
  simp only [padded, Vector.getElem_ofFn, List.getD_eq_getElem?_getD]
  by_cases hlt : j < l.length
  · rw [if_pos hlt] at h
    rw [← h, Option.getD_some]
  · rw [if_neg hlt, Vector.getElem?_replicate, if_pos hj] at h
    rw [List.getElem?_eq_none (by simpa using hlt), Option.getD_none]
    exact Option.some.inj h

theorem fill_capped {conv : α → Option β} (g : α → β) {l : List α} {d : β}
    (hconv : ∀ a ∈ l, conv a = some (g a)) :
    fill conv 0 (l.take (min l.length n)) (Vector.replicate n d) =
      some (padded n d ((l.take n).map g)) := by
  rw [Nat.min_comm, ← List.take_eq_take_min]
  exact fill_eq_padded (fun a ha => hconv a (List.mem_of_mem_take ha)) (by simp)

theorem padded_getElem (d : β) (l : List β) {i : ℕ} (hi : i < n) :
    (padded n d l)[i] = l.getD i d := by
  simp [padded]

end ArrayFill
