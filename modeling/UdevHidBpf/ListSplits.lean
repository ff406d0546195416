import Mathlib.Data.List.DropRight

/-! # Splitting at a separator

Pieces up to a limit, the last one unsplit, the lines of a text, and its middle without
what is stripped from the ends. -/
namespace ListSplits

theorem mem_intercalate {α : Type*} {sep x : α} {ls : List (List α)}
    (h : x ∈ [sep].intercalate ls) : x = sep ∨ ∃ l ∈ ls, x ∈ l := by
  induction ls with
  | nil => simp at h
  | cons l ls ih =>
    cases ls with
    | nil => exact .inr ⟨l, List.mem_cons_self, by simpa using h⟩
    | cons l' ls =>
      rw [List.intercalate_cons_cons, List.mem_append, List.mem_append, List.mem_singleton] at h
      rcases h with (h | h) | h
      · exact .inr ⟨l, List.mem_cons_self, h⟩
      · exact .inl h
      · rcases ih h with h | ⟨m, hm, h⟩
        · exact .inl h
        · exact .inr ⟨m, List.mem_cons_of_mem _ hm, h⟩

section limited

variable {α : Type*} [DecidableEq α]

/-- At most `n` pieces; the last one is the rest. -/
def splitn (sep : α) : ℕ → List α → List (List α)
  | 0, _ => []
  | 1, l => [l]
  | n + 2, l =>
    match l.dropWhile (· ≠ sep) with
    | [] => [l]
    | _ :: rest => l.takeWhile (· ≠ sep) :: splitn sep (n + 1) rest

theorem forall_ne_sep {sep : α} {a : List α} (h : sep ∉ a) :
    ∀ x ∈ a, (decide (x ≠ sep)) = true := by
  intro x hx
  exact decide_eq_true fun he => h (he ▸ hx)

theorem dropWhile_sep {sep : α} {a : List α} (h : sep ∉ a) (rest : List α) :
    (a ++ sep :: rest).dropWhile (· ≠ sep) = sep :: rest := by
  rw [List.dropWhile_append_of_pos (forall_ne_sep h)]
  simp

theorem takeWhile_sep {sep : α} {a : List α} (h : sep ∉ a) (rest : List α) :
    (a ++ sep :: rest).takeWhile (· ≠ sep) = a := by
  rw [List.takeWhile_append_of_pos (forall_ne_sep h)]
  simp

theorem splitn_append_cons {sep : α} {a : List α} (h : sep ∉ a) (n : ℕ) (rest : List α) :
    splitn sep (n + 2) (a ++ sep :: rest) = a :: splitn sep (n + 1) rest := by
  rw [splitn, dropWhile_sep h, takeWhile_sep h]

theorem splitn_ne_nil (sep : α) (n : ℕ) (l : List α) : splitn sep (n + 1) l ≠ [] := by
  cases n with
  | zero => exact List.cons_ne_nil _ _
  | succ n =>
    rw [splitn]
    split <;> exact List.cons_ne_nil _ _

theorem intercalate_splitn (sep : α) (n : ℕ) (l : List α) :
    [sep].intercalate (splitn sep (n + 1) l) = l := by
  induction n generalizing l with
  | zero => simp [splitn]
  | succ n ih =>
    rw [splitn]
    split
    · simp
    · rename_i x rest hrest
      have hx : x = sep := by
        have hhead := List.head?_dropWhile_not (fun y => decide (y ≠ sep)) l
        rw [hrest] at hhead
        simpa using hhead
      subst hx
      rw [List.intercalate_cons_of_ne_nil (splitn_ne_nil x n rest), ih, List.append_assoc,
        List.singleton_append, ← hrest, List.takeWhile_append_dropWhile]

theorem not_mem_of_mem_splitOn {sep : α} {piece l : List α} (h : piece ∈ l.splitOn sep) :
    sep ∉ piece := by
  induction l generalizing piece with
  | nil =>
    rw [List.splitOn_nil, List.mem_singleton] at h
    exact h ▸ List.not_mem_nil
  | cons x l ih =>
    rw [List.splitOn_cons_eq_if_modifyHead] at h
    split_ifs at h with hx
    · rcases List.mem_cons.mp h with rfl | h
      · exact List.not_mem_nil
      · exact ih h
    · obtain ⟨first, rest, hsplit⟩ := List.exists_cons_of_ne_nil (List.splitOn_ne_nil sep l)
      rw [hsplit, List.modifyHead_cons] at h
      rcases List.mem_cons.mp h with rfl | h
      · rw [List.mem_cons, not_or]
        refine ⟨fun hsep => hx (beq_iff_eq.mpr hsep.symm), ih ?_⟩
        rw [hsplit]
        exact List.mem_cons_self
      · exact ih (hsplit ▸ List.mem_cons_of_mem _ h)

theorem exists_mem_splitOn {sep x : α} {l : List α} (h : x ∈ l) (hx : x ≠ sep) :
    ∃ piece ∈ l.splitOn sep, x ∈ piece := by
  have hjoin : [sep].intercalate (l.splitOn sep) = l := List.intercalate_splitOn sep
  rw [← hjoin] at h
  exact (mem_intercalate h).resolve_left hx

end limited

def stripReturn (line : List Char) : List Char :=
  if line.getLast? = some '\r' then line.dropLast else line

/-- What follows the last newline is a line unless it is empty; `finish` is applied to what
stands in front of a newline. With `stripReturn` this is `str::lines`. -/
def linesBy (finish : List Char → List Char) (text : List Char) : List (List Char) :=
  let pieces := text.splitOn '\n'
  pieces.dropLast.map finish ++ pieces.getLast?.toList.filter (· ≠ [])

variable (finish : List Char → List Char)

theorem linesBy_append_cons (l rest : List Char) :
    linesBy finish (l ++ '\n' :: rest) = (l.splitOn '\n').map finish ++ linesBy finish rest := by
  have hne : rest.splitOn '\n' ≠ [] := List.splitOn_ne_nil _ _
  have hlast : (l.splitOn '\n' ++ rest.splitOn '\n').getLast? = (rest.splitOn '\n').getLast? := by
    rw [List.getLast?_append_of_ne_nil _ hne]
  simp only [linesBy]
  rw [List.splitOn_append_cons_self, List.dropLast_append_of_ne_nil hne, hlast, List.map_append,
    List.append_assoc]

theorem linesBy_flatMap (pieces : List (List Char)) :
    linesBy finish (pieces.flatMap (· ++ ['\n'])) =
      pieces.flatMap fun piece => (piece.splitOn '\n').map finish := by
  induction pieces with
  | nil => rfl
  | cons piece pieces ih =>
    rw [List.flatMap_cons, List.append_assoc, List.singleton_append, linesBy_append_cons, ih,
      List.flatMap_cons]

theorem linesBy_of_not_mem {pieces : List (List Char)} (h : ∀ piece ∈ pieces, '\n' ∉ piece) :
    linesBy finish (pieces.flatMap (· ++ ['\n'])) = pieces.map finish := by
  rw [linesBy_flatMap, List.map_eq_flatMap]
  exact List.flatMap_congr fun piece hp => by rw [List.splitOn_eq_singleton (h piece hp)]; rfl

theorem length_splitOn_pos (l : List Char) : 0 < (l.splitOn '\n').length :=
  List.length_pos_iff.mpr (List.splitOn_ne_nil _ _)

theorem not_mem_of_length_linesBy {pieces : List (List Char)}
    (h : (linesBy finish (pieces.flatMap (· ++ ['\n']))).length ≤ pieces.length) :
    ∀ piece ∈ pieces, '\n' ∉ piece := by
  have hlen (pieces : List (List Char)) :
      pieces.length ≤ (linesBy finish (pieces.flatMap (· ++ ['\n']))).length := by
    rw [linesBy_flatMap]
    induction pieces with
    | nil => exact Nat.zero_le _
    | cons piece pieces ih =>
      have hpos := length_splitOn_pos piece
      rw [List.flatMap_cons, List.length_append, List.length_map, List.length_cons]
      omega
  induction pieces with
  | nil => simp
  | cons piece pieces ih =>
    have hrest := hlen pieces
    rw [linesBy_flatMap, List.flatMap_cons, ← linesBy_flatMap, List.length_append,
      List.length_map, List.length_cons] at h
    have hpos := length_splitOn_pos piece
    refine List.forall_mem_cons.mpr ⟨?_, ih (by omega)⟩
    intro hmem
    obtain ⟨a, b, rfl⟩ := List.append_of_mem hmem
    have ha := length_splitOn_pos a
    have hb := length_splitOn_pos b
    rw [List.splitOn_append_cons_self, List.length_append] at h
    omega

theorem stripReturn_eq_self_iff (line : List Char) :
    stripReturn line = line ↔ line.getLast? ≠ some '\r' := by
  unfold stripReturn
  split
  · rename_i h
    have hne : line ≠ [] := by
      rintro rfl
      cases h
    have hlen : line.dropLast.length ≠ line.length := by
      have hpos := List.length_pos_iff.mpr hne
      rw [List.length_dropLast]
      omega
    simp only [h, ne_eq, not_true_eq_false, iff_false]
    intro he
    exact hlen (congrArg List.length he)
  · rename_i h
    simp [h]

section trimming

variable {α : Type*} {p : α → Bool}

/-- Members that satisfy `p` go from both ends. -/
def trimBy (p : α → Bool) (l : List α) : List α := (l.dropWhile p).rdropWhile p

theorem dropWhile_head {l : List α} (h : ∀ x ∈ l.head?, p x = false) : l.dropWhile p = l := by
  cases l with
  | nil => rfl
  | cons x l => rw [List.dropWhile_cons_of_neg (by simp [h x rfl])]

theorem trimBy_eq {u m v : List α} (hu : ∀ x ∈ u, p x) (hv : ∀ x ∈ v, p x)
    (hhead : ∀ x ∈ m.head?, p x = false) (hlast : ∀ x ∈ m.getLast?, p x = false) :
    trimBy p (u ++ m ++ v) = m := by
  rw [trimBy, List.append_assoc, List.dropWhile_append_of_pos hu, List.rdropWhile]
  cases m with
  | nil =>
    rw [List.nil_append, List.dropWhile_eq_nil_iff.2 hv]
    rfl
  | cons x m =>
    have hkeep : (x :: m ++ v).dropWhile p = x :: m ++ v := dropWhile_head hhead
    rw [hkeep, List.reverse_append, List.dropWhile_append_of_pos (by simpa using hv),
      dropWhile_head (by rwa [List.head?_reverse]), List.reverse_reverse]

theorem trimBy_isInfix (p : α → Bool) (l : List α) : trimBy p l <:+: l :=
  (List.rdropWhile_prefix p _).isInfix.trans (List.dropWhile_suffix p).isInfix

end trimming

theorem filter_of_length_eq {α : Type*} {p q : α → Bool} {l : List α}
    (hpq : ∀ x ∈ l, p x → q x) (hlen : (l.filter p).length = (l.filter q).length) :
    ∀ x ∈ l, q x → p x := by
  have hsub : l.filter p = (l.filter q).filter p := by
    rw [List.filter_filter]
    refine List.filter_congr fun x hx => ?_
    have := hpq x hx
    cases hp : p x <;> simp_all
  rw [hsub, List.length_filter_eq_length_iff] at hlen
  intro x hx hq
  exact hlen x (List.mem_filter.2 ⟨hx, hq⟩)

end ListSplits
