import Mathlib.Data.List.Basic
import Mathlib.Tactic.TypeStar

/-! # Loops that may fail

A loop over a list in a monad, and what two such loops have to do with each other. -/
namespace FallibleLoops

universe u v

variable {m : Type u → Type v} [Monad m] [LawfulMonad m] {α : Type*} {β γ : Type u}

/-- A loop whose steps agree with those of another on a view of the state agrees with it as
a whole, and fails where the other fails. -/
theorem map_foldlM {f : β → α → m β} {g : γ → α → m γ} {view : β → γ}
    (h : ∀ s a, view <$> f s a = g (view s) a) (l : List α) (s : β) :
    view <$> l.foldlM f s = l.foldlM g (view s) := by
  induction l generalizing s with
  | nil => simp
  | cons a l ih =>
    rw [List.foldlM_cons, List.foldlM_cons, map_bind, ← h, bind_map_left]
    exact bind_congr fun s' => ih s'

theorem foldlM_append {f : List γ → β → m (List γ)} {e : α → β} {g : α → List γ}
    (h : ∀ s a, f s (e a) = pure (s ++ g a)) (l : List α) (s : List γ) :
    (l.map e).foldlM f s = pure (s ++ l.flatMap g) := by
  induction l generalizing s with
  | nil => simp
  | cons a l ih =>
    rw [List.map_cons, List.foldlM_cons, h, pure_bind, ih, List.flatMap_cons, List.append_assoc]

end FallibleLoops
