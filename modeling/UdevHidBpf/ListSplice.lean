import Mathlib.Data.List.TakeDrop

/-! # Overwriting a range of a list

`splice l off b` writes `b` over `l` from position `off` on and `slice l off n` reads
`n` elements from there. The lemmas say what a read sees after a write. -/
namespace ListSplice

variable {α : Type*}

def splice (l : List α) (off : ℕ) (b : List α) : List α :=
  l.take off ++ b ++ l.drop (off + b.length)

def slice (l : List α) (off n : ℕ) : List α := (l.drop off).take n

theorem length_splice {l b : List α} {off : ℕ} (h : off + b.length ≤ l.length) :
    (splice l off b).length = l.length := by
  simp only [splice, List.length_append, List.length_take, List.length_drop]
  omega

theorem getElem?_splice {l b : List α} {off : ℕ} (h : off + b.length ≤ l.length) (i : ℕ) :
    (splice l off b)[i]? = if off ≤ i ∧ i < off + b.length then b[i - off]? else l[i]? := by
  have ht : (l.take off).length = off := by rw [List.length_take]; omega
  rw [splice, List.append_assoc]
  by_cases h1 : i < off
  · rw [List.getElem?_append_left (by omega), List.getElem?_take_of_lt h1, if_neg (by omega)]
  rw [List.getElem?_append_right (by omega), ht]
  by_cases h2 : i < off + b.length
  · rw [List.getElem?_append_left (by omega), if_pos ⟨by omega, h2⟩]
  · rw [List.getElem?_append_right (by omega), List.getElem?_drop, if_neg (by omega)]
    congr 1
    omega

theorem getElem?_slice (l : List α) (off n i : ℕ) :
    (slice l off n)[i]? = if i < n then l[off + i]? else none := by
  by_cases h : i < n
  · rw [slice, List.getElem?_take_of_lt h, List.getElem?_drop, if_pos h]
  · rw [slice, if_neg h]
    exact List.getElem?_eq_none (by rw [List.length_take]; omega)

theorem slice_congr {l m : List α} {off n : ℕ} (h : ∀ i, off ≤ i → i < off + n → l[i]? = m[i]?) :
    slice l off n = slice m off n := by
  apply List.ext_getElem?
  intro i
  rw [getElem?_slice, getElem?_slice]
  split
  · exact h _ (by omega) (by omega)
  · rfl

theorem slice_splice_disjoint {l b : List α} {off i n : ℕ} (hb : off + b.length ≤ l.length)
    (h : i + n ≤ off ∨ off + b.length ≤ i) : slice (splice l off b) i n = slice l i n := by
  refine slice_congr fun j hj hjn => ?_
  rw [getElem?_splice hb, if_neg (by omega)]

theorem slice_splice_self {l b : List α} {off n : ℕ} (hb : off + b.length ≤ l.length)
    (hn : b.length ≤ n) :
    slice (splice l off b) off n = b ++ (slice l off n).drop b.length := by
  apply List.ext_getElem?
  intro i
  rw [getElem?_slice, getElem?_splice hb]
  by_cases hi : i < b.length
  · rw [List.getElem?_append_left hi, if_pos (by omega), if_pos (by omega)]
    congr 1
    omega
  · rw [List.getElem?_append_right (by omega), List.getElem?_drop, getElem?_slice]
    by_cases hin : i < n
    · rw [if_pos hin, if_neg (by omega), if_pos (by omega)]
      congr 1
      omega
    · rw [if_neg hin, if_neg (by omega)]

end ListSplice
