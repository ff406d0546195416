import Mathlib.Data.List.Infix
import Mathlib.Tactic.Common

/-! # Glob patterns

Patterns of literal elements and `*`, which stands for any sequence. Two readings of a
text as fields between separators agree when each separator occurs once. -/
namespace Glob

inductive Piece (α : Type*) where
  | lit (a : α)
  | star
  deriving DecidableEq, Repr

variable {α : Type*} [DecidableEq α]

def accepts : List (Piece α) → List α → Bool
  | [], s => s.isEmpty
  | .star :: p, s => s.tails.any (accepts p)
  | .lit _ :: _, [] => false
  | .lit a :: p, x :: s => x = a && accepts p s

def literal (s : List α) : List (Piece α) := s.map .lit

@[simp] theorem accepts_nil {s : List α} : accepts [] s ↔ s = [] := List.isEmpty_iff

theorem accepts_star {p : List (Piece α)} {s : List α} :
    accepts (.star :: p) s ↔ ∃ u v, s = u ++ v ∧ accepts p v := by
  simp only [accepts, List.any_eq_true, List.mem_tails]
  constructor
  · rintro ⟨v, ⟨u, hu⟩, hv⟩
    exact ⟨u, v, hu.symm, hv⟩
  · rintro ⟨u, v, rfl, hv⟩
    exact ⟨v, List.suffix_append u v, hv⟩

theorem accepts_lit {a : α} {p : List (Piece α)} {s : List α} :
    accepts (.lit a :: p) s ↔ ∃ t, s = a :: t ∧ accepts p t := by
  cases s with
  | nil => simp [accepts]
  | cons x s => simp [accepts]

theorem accepts_append {p q : List (Piece α)} {s : List α} :
    accepts (p ++ q) s ↔ ∃ u v, s = u ++ v ∧ accepts p u ∧ accepts q v := by
  induction p generalizing s with
  | nil => simp
  | cons c p ih =>
    cases c with
    | star =>
      simp only [List.cons_append, accepts_star, ih]
      constructor
      · rintro ⟨t, _, rfl, u, v, rfl, hu, hv⟩
        exact ⟨t ++ u, v, (List.append_assoc ..).symm, ⟨t, u, rfl, hu⟩, hv⟩
      · rintro ⟨_, v, rfl, ⟨t, u, rfl, hu⟩, hv⟩
        exact ⟨t, u ++ v, List.append_assoc .., u, v, rfl, hu, hv⟩
    | lit a =>
      simp only [List.cons_append, accepts_lit, ih]
      constructor
      · rintro ⟨_, rfl, u, v, rfl, hu, hv⟩
        exact ⟨a :: u, v, rfl, ⟨u, rfl, hu⟩, hv⟩
      · rintro ⟨_, v, rfl, ⟨u, rfl, hu⟩, hv⟩
        exact ⟨u ++ v, rfl, u, v, rfl, hu, hv⟩

@[simp] theorem accepts_literal {w s : List α} : accepts (literal w) s ↔ s = w := by
  induction w generalizing s with
  | nil => exact accepts_nil
  | cons a w ih =>
    have hcons : literal (a :: w) = .lit a :: literal w := rfl
    rw [hcons, accepts_lit]
    constructor
    · rintro ⟨t, rfl, ht⟩
      rw [ih.mp ht]
    · rintro rfl
      exact ⟨w, rfl, ih.mpr rfl⟩

theorem accepts_any (s : List α) : accepts [.star] s :=
  accepts_star.mpr ⟨s, [], (List.append_nil s).symm, rfl⟩

theorem accepts_literal_append {w s : List α} {p : List (Piece α)} :
    accepts (literal w ++ p) (w ++ s) ↔ accepts p s := by
  rw [accepts_append]
  constructor
  · rintro ⟨u, v, hs, hu, hv⟩
    rw [accepts_literal.mp hu] at hs
    rwa [List.append_cancel_left hs]
  · intro h
    exact ⟨w, s, rfl, accepts_literal.mpr rfl, h⟩

theorem accepts_prefix {w s : List α} : accepts (literal w ++ [.star]) s ↔ ∃ t, s = w ++ t := by
  constructor
  · intro h
    obtain ⟨u, v, rfl, hu, -⟩ := accepts_append.mp h
    exact ⟨v, by rw [accepts_literal.mp hu]⟩
  · rintro ⟨t, rfl⟩
    exact accepts_literal_append.mpr (accepts_any t)

/-- A separator that occurs once splits pattern and text at the same place. -/
theorem accepts_field {p q : List (Piece α)} {u s : List α} {c : α} (hu : c ∉ u) (hs : c ∉ s) :
    accepts (p ++ .lit c :: q) (u ++ c :: s) ↔ accepts p u ∧ accepts q s := by
  rw [accepts_append]
  constructor
  · rintro ⟨u', v, h, hp, hv⟩
    obtain ⟨s', rfl, hq⟩ := accepts_lit.mp hv
    obtain ⟨rfl, rfl⟩ : u = u' ∧ s = s' := by
      rcases List.append_eq_append_iff.mp h with ⟨t, rfl, ht⟩ | ⟨t, rfl, ht⟩
      · cases t with
        | nil => simpa using ht
        | cons x t =>
          rw [List.cons_append, List.cons.injEq] at ht
          exact absurd (ht.2 ▸ by simp) hs
      · cases t with
        | nil => simpa using ht.symm
        | cons x t =>
          rw [List.cons_append, List.cons.injEq] at ht
          exact absurd (by simp [ht.1]) hu
    exact ⟨hp, hq⟩
  · rintro ⟨hp, hq⟩
    exact ⟨u, c :: s, rfl, hp, accepts_lit.mpr ⟨s, rfl, hq⟩⟩

/-- A pattern as it is written: `*` is the wildcard. -/
def ofText (text : List Char) : List (Piece Char) :=
  text.map fun c => if c = '*' then .star else .lit c

@[simp] theorem ofText_append (s t : List Char) : ofText (s ++ t) = ofText s ++ ofText t :=
  List.map_append

theorem ofText_literal {s : List Char} (h : '*' ∉ s) : ofText s = literal s := by
  apply List.map_congr_left
  intro c hc
  rw [if_neg]
  rintro rfl
  exact h hc

end Glob
