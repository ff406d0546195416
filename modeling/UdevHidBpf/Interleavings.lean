import Mathlib.Data.List.Basic

/-! # Interleavings

The operations of several parties in one order, each under the name of its party. What a
party does is its projection. -/
namespace Interleavings

variable {ι α S V : Type*} [DecidableEq ι]

def projection (i : ι) (trace : List (ι × α)) : List α :=
  (trace.filter fun x => x.1 = i).map Prod.snd

def run (apply : S → α → S) (s : S) (trace : List (ι × α)) : S :=
  trace.foldl (fun s x => apply s x.2) s

@[simp] theorem projection_nil (i : ι) : projection i ([] : List (ι × α)) = [] := rfl

theorem projection_cons_self (i : ι) (a : α) (trace : List (ι × α)) :
    projection i ((i, a) :: trace) = a :: projection i trace := by
  rw [projection, List.filter_cons_of_pos (by simp)]
  rfl

theorem projection_cons_ne {i j : ι} (h : j ≠ i) (a : α) (trace : List (ι × α)) :
    projection i ((j, a) :: trace) = projection i trace := by
  rw [projection, List.filter_cons_of_neg (by simpa using h)]
  rfl

theorem mem_projection {i : ι} {a : α} {trace : List (ι × α)} :
    a ∈ projection i trace ↔ (i, a) ∈ trace := by
  simp only [projection, List.mem_map, List.mem_filter, decide_eq_true_iff]
  constructor
  · rintro ⟨⟨j, a⟩, ⟨hx, rfl⟩, rfl⟩
    exact hx
  · intro h
    exact ⟨(i, a), ⟨h, rfl⟩, rfl⟩

/-- What a party sees of the state is what its own operations make of it, when those of the
others leave its view alone. -/
theorem run_view {apply : S → α → S} {step : V → α → V} {view : S → V} {i : ι}
    {trace : List (ι × α)}
    (hown : ∀ a ∈ projection i trace, ∀ s, view (apply s a) = step (view s) a)
    (hother : ∀ j a, (j, a) ∈ trace → j ≠ i → ∀ s, view (apply s a) = view s) (s : S) :
    view (run apply s trace) = (projection i trace).foldl step (view s) := by
  induction trace generalizing s with
  | nil => rfl
  | cons x trace ih =>
    obtain ⟨j, a⟩ := x
    have hothers : ∀ k b, (k, b) ∈ trace → k ≠ i → ∀ s, view (apply s b) = view s :=
      fun k b hb => hother k b (List.mem_cons_of_mem _ hb)
    by_cases hj : j = i
    · subst hj
      rw [projection_cons_self] at hown ⊢
      have hrest := ih (fun b hb => hown b (List.mem_cons_of_mem _ hb)) hothers (apply s a)
      rw [hown a List.mem_cons_self s] at hrest
      exact hrest
    · rw [projection_cons_ne hj] at hown ⊢
      have hrest := ih hown hothers (apply s a)
      rw [hother j a List.mem_cons_self hj s] at hrest
      exact hrest

end Interleavings
