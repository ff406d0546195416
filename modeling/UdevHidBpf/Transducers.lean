import Mathlib.Data.List.Induction

/-! # Transducers

A machine that answers every input with one output. The output at a place is read off
the state after the inputs before it, and an invariant may speak of those inputs. -/
namespace Transducers

structure Transducer (S X Y : Type*) where
  init : S
  step : S → X → S × Y

theorem forall_of_split {X : Type*} {P : X → Prop} {xs before rest : List X} {x : X}
    (h : ∀ y ∈ xs, P y) (hsplit : xs = before ++ x :: rest) : (∀ y ∈ before, P y) ∧ P x := by
  rw [hsplit] at h
  obtain ⟨hbefore, hrest⟩ := List.forall_mem_append.1 h
  exact ⟨hbefore, hrest x List.mem_cons_self⟩

variable {S X Y : Type*} (m : Transducer S X Y)

namespace Transducer

def afterFrom (s : S) (xs : List X) : S := xs.foldl (fun t x => (m.step t x).1) s

def after (xs : List X) : S := m.afterFrom m.init xs

/-- The output for `x` when `xs` came before it. -/
def output (xs : List X) (x : X) : Y := (m.step (m.after xs) x).2

def outputsFrom : S → List X → List Y
  | _, [] => []
  | s, x :: xs => (m.step s x).2 :: outputsFrom (m.step s x).1 xs

def outputs (xs : List X) : List Y := m.outputsFrom m.init xs

@[simp] theorem afterFrom_nil (s : S) : m.afterFrom s [] = s := rfl

@[simp] theorem afterFrom_cons (s : S) (x : X) (xs : List X) :
    m.afterFrom s (x :: xs) = m.afterFrom (m.step s x).1 xs := rfl

theorem afterFrom_append (s : S) (xs ys : List X) :
    m.afterFrom s (xs ++ ys) = m.afterFrom (m.afterFrom s xs) ys := List.foldl_append

@[simp] theorem after_nil : m.after [] = m.init := rfl

theorem after_append (xs ys : List X) :
    m.after (xs ++ ys) = m.afterFrom (m.after xs) ys := m.afterFrom_append m.init xs ys

theorem after_concat (xs : List X) (x : X) :
    m.after (xs ++ [x]) = (m.step (m.after xs) x).1 := m.after_append xs [x]

@[simp] theorem outputsFrom_nil (s : S) : m.outputsFrom s [] = [] := rfl

@[simp] theorem outputsFrom_cons (s : S) (x : X) (xs : List X) :
    m.outputsFrom s (x :: xs) = (m.step s x).2 :: m.outputsFrom (m.step s x).1 xs := rfl

/-- What holds of the first state, and is kept by every step together with the inputs that
led to it, holds after every run. -/
theorem after_invariant {I : List X → S → Prop} (hinit : I [] m.init)
    (hstep : ∀ xs x s, I xs s → I (xs ++ [x]) (m.step s x).1) (xs : List X) :
    I xs (m.after xs) := by
  induction xs using List.reverseRecOn with
  | nil => exact hinit
  | append_singleton xs x ih =>
    rw [after_concat]
    exact hstep xs x _ ih

theorem afterFrom_invariant {I : S → Prop} {xs : List X}
    (hstep : ∀ x ∈ xs, ∀ s, I s → I (m.step s x).1) {s : S} (hs : I s) : I (m.afterFrom s xs) := by
  induction xs generalizing s with
  | nil => exact hs
  | cons x xs ih =>
    rw [afterFrom_cons]
    exact ih (fun y hy => hstep y (List.mem_cons_of_mem _ hy)) (hstep x List.mem_cons_self s hs)

theorem after_filter (p : X → Bool) (hskip : ∀ s x, p x = false → (m.step s x).1 = s)
    (xs : List X) : m.after (xs.filter p) = m.after xs := by
  induction xs using List.reverseRecOn with
  | nil => rfl
  | append_singleton xs x ih =>
    rw [after_concat, List.filter_append]
    by_cases hx : p x = true
    · rw [List.filter_cons_of_pos hx, List.filter_nil, after_concat, ih]
    · rw [List.filter_cons_of_neg hx, List.filter_nil, List.append_nil, ih,
        hskip _ _ (by simpa using hx)]

def mostRecent (kind : X → Bool) (xs : List X) : Option X := (xs.filter kind).getLast?

theorem mostRecent_concat (kind : X → Bool) (xs : List X) (x : X) :
    mostRecent kind (xs ++ [x]) = if kind x then some x else mostRecent kind xs := by
  rw [mostRecent, List.filter_append]
  by_cases hx : kind x
  · rw [List.filter_cons_of_pos hx, if_pos hx, List.filter_nil, List.getLast?_concat]
  · rw [List.filter_cons_of_neg hx, if_neg hx, List.filter_nil, List.append_nil, mostRecent]

/-- A part of the state that inputs of one kind set, and all others keep, is what the most
recent of that kind set. -/
theorem after_mostRecent {A : Type*} (part : S → A) (kind : X → Bool) (read : X → A)
    (hset : ∀ s x, kind x = true → part (m.step s x).1 = read x)
    (hkeep : ∀ s x, kind x = false → part (m.step s x).1 = part s) (xs : List X) :
    part (m.after xs) = (mostRecent kind xs).elim (part m.init) read := by
  induction xs using List.reverseRecOn with
  | nil => rfl
  | append_singleton xs x ih =>
    rw [after_concat, mostRecent_concat]
    by_cases hx : kind x = true
    · rw [hset _ x hx, if_pos hx, Option.elim_some]
    · rw [hkeep _ x (by simpa using hx), if_neg hx, ih]

def lastOutput (kind : X → Bool) (xs : List X) : Option Y :=
  ((xs.zip (m.outputs xs)).filter fun p => kind p.1).getLast?.map Prod.snd

theorem outputsFrom_append (s : S) (xs ys : List X) :
    m.outputsFrom s (xs ++ ys) = m.outputsFrom s xs ++ m.outputsFrom (m.afterFrom s xs) ys := by
  induction xs generalizing s with
  | nil => rfl
  | cons x xs ih => rw [List.cons_append, outputsFrom_cons, ih, outputsFrom_cons, List.cons_append,
      afterFrom_cons]

theorem length_outputsFrom (s : S) (xs : List X) : (m.outputsFrom s xs).length = xs.length := by
  induction xs generalizing s with
  | nil => rfl
  | cons x xs ih => rw [outputsFrom_cons, List.length_cons, ih, List.length_cons]

theorem getElem?_outputsFrom (s : S) (xs : List X) (x : X) (ys : List X) :
    (m.outputsFrom s (xs ++ x :: ys))[xs.length]? = some (m.step (m.afterFrom s xs) x).2 := by
  have hlen := m.length_outputsFrom s xs
  rw [outputsFrom_append, List.getElem?_append_right (Nat.le_of_eq hlen), hlen, Nat.sub_self,
    outputsFrom_cons]
  rfl

theorem lastOutput_concat (kind : X → Bool) (xs : List X) (x : X) :
    m.lastOutput kind (xs ++ [x]) =
      if kind x then some (m.output xs x) else m.lastOutput kind xs := by
  have hzip : (xs ++ [x]).zip (m.outputs (xs ++ [x])) =
      xs.zip (m.outputs xs) ++ [(x, m.output xs x)] := by
    rw [outputs, outputsFrom_append, List.zip_append (m.length_outputsFrom m.init xs).symm]
    rfl
  rw [lastOutput, hzip, List.filter_append]
  by_cases hx : kind x
  · rw [List.filter_cons_of_pos (by simpa using hx), if_pos hx, List.filter_nil,
      List.getLast?_concat]
    rfl
  · rw [List.filter_cons_of_neg (by simpa using hx), if_neg hx, List.filter_nil, List.append_nil,
      lastOutput]

/-- A run simulates another machine on some of its inputs, when the rest of them leave what
is seen of the state alone. -/
theorem afterFrom_simulates {S' X' Y' : Type*} (n : Transducer S' X' Y') (view : S → S')
    (kind : X → Bool) (read : X → X') {xs : List X}
    (hskip : ∀ x ∈ xs, kind x = false → ∀ s, view (m.step s x).1 = view s)
    (hstep : ∀ x ∈ xs, kind x = true → ∀ s,
      view (m.step s x).1 = (n.step (view s) (read x)).1) (s : S) :
    view (m.afterFrom s xs) = n.afterFrom (view s) ((xs.filter kind).map read) := by
  induction xs generalizing s with
  | nil => rfl
  | cons x xs ih =>
    have hrest := ih (fun y hy => hskip y (List.mem_cons_of_mem _ hy))
      (fun y hy => hstep y (List.mem_cons_of_mem _ hy)) (m.step s x).1
    rw [afterFrom_cons, hrest]
    by_cases hx : kind x = true
    · rw [List.filter_cons_of_pos hx, List.map_cons, afterFrom_cons, hstep x List.mem_cons_self hx]
    · rw [List.filter_cons_of_neg hx, hskip x List.mem_cons_self (by simpa using hx)]

end Transducer

end Transducers
