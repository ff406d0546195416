import Mathlib.Data.List.Basic

/-! # Runs of partial step functions

A machine is given by `next : S → A → Option S`; `none` means that the action is
not enabled. `run` takes a list of actions, `Meets` says that every step of the
run satisfies a condition on the state it is taken from and on its action. -/
namespace StepRuns

variable {S A : Type*}

def run (next : S → A → Option S) : S → List A → Option S
  | s, [] => some s
  | s, a :: as =>
    match next s a with
    | none => none
    | some t => run next t as

/-- Disabled steps end the run, so nothing is asked of the actions after them. -/
def Meets (cond : S → A → Prop) (next : S → A → Option S) : S → List A → Prop
  | _, [] => True
  | s, a :: as =>
    cond s a ∧
      match next s a with
      | none => True
      | some t => Meets cond next t as

theorem run_cons_some {next : S → A → Option S} {s u : S} {a : A} {as : List A}
    (h : run next s (a :: as) = some u) : ∃ t, next s a = some t ∧ run next t as = some u := by
  cases ht : next s a with
  | none => simp [run, ht] at h
  | some t => exact ⟨t, rfl, by simpa [run, ht] using h⟩

theorem meets_of_mem {cond : S → A → Prop} {next : S → A → Option S} {as : List A}
    (h : ∀ a ∈ as, ∀ s, cond s a) (s : S) : Meets cond next s as := by
  induction as generalizing s with
  | nil => trivial
  | cons a as ih =>
    refine ⟨h a List.mem_cons_self s, ?_⟩
    cases next s a with
    | none => trivial
    | some t => exact ih (fun b hb => h b (List.mem_cons_of_mem _ hb)) t

/-- The invariant rule: what one admissible step preserves, a whole run preserves. -/
theorem run_invariant {next : S → A → Option S} {cond : S → A → Prop} {I : S → Prop}
    (hstep : ∀ s a t, I s → cond s a → next s a = some t → I t)
    {s u : S} {as : List A} (hs : I s) (hm : Meets cond next s as)
    (hr : run next s as = some u) : I u := by
  induction as generalizing s with
  | nil => cases hr; exact hs
  | cons a as ih =>
    obtain ⟨t, ht, hr⟩ := run_cons_some hr
    simp only [Meets, ht] at hm
    exact ih (hstep s a t hs hm.1 ht) hm.2 hr

theorem run_preserves {next : S → A → Option S} {I : S → Prop}
    (hstep : ∀ s a t, I s → next s a = some t → I t) {s u : S} {as : List A} (hs : I s)
    (hr : run next s as = some u) : I u := by
  have hmeets : Meets (fun _ _ => True) next s as := meets_of_mem (fun _ _ _ => trivial) s
  exact run_invariant (fun s a t hs _ => hstep s a t hs) hs hmeets hr

theorem meets_at {cond : S → A → Prop} {next : S → A → Option S} {s t : S} {before rest : List A}
    {a : A} (hm : Meets cond next s (before ++ a :: rest)) (hr : run next s before = some t) :
    cond t a := by
  induction before generalizing s with
  | nil =>
    cases hr
    exact hm.1
  | cons b before ih =>
    obtain ⟨u, hu, hrest⟩ := run_cons_some hr
    rw [List.cons_append] at hm
    simp only [Meets, hu] at hm
    exact ih hm.2 hrest

theorem run_append_some {next : S → A → Option S} {s u : S} {before after : List A}
    (h : run next s (before ++ after) = some u) :
    ∃ t, run next s before = some t ∧ run next t after = some u := by
  induction before generalizing s with
  | nil => exact ⟨s, rfl, h⟩
  | cons a before ih =>
    obtain ⟨t, ht, hrest⟩ := run_cons_some h
    obtain ⟨v, hv, hafter⟩ := ih hrest
    exact ⟨v, by rw [run, ht]; exact hv, hafter⟩

theorem meets_before {cond : S → A → Prop} {next : S → A → Option S} {s : S}
    {before after : List A} (h : Meets cond next s (before ++ after)) :
    Meets cond next s before := by
  induction before generalizing s with
  | nil => trivial
  | cons a before ih =>
    refine ⟨h.1, ?_⟩
    have hrest := h.2
    cases ht : next s a with
    | none => trivial
    | some t =>
      rw [ht] at hrest
      exact ih hrest

theorem meets_append {cond : S → A → Prop} {next : S → A → Option S} {s t : S}
    {before after : List A} (h : Meets cond next s (before ++ after))
    (hr : run next s before = some t) : Meets cond next t after := by
  induction before generalizing s with
  | nil =>
    cases hr
    exact h
  | cons a before ih =>
    obtain ⟨u, hu, hrest⟩ := run_cons_some hr
    rw [List.cons_append] at h
    simp only [Meets, hu] at h
    exact ih h.2 hrest

/-- A run as it looks from a part of the state that is a machine of its own: what is none of
its actions leaves it alone. -/
theorem run_part {S' A' : Type*} {next : S → A → Option S} {next' : S' → A' → Option S'}
    {part : S → S'} {action : A → Option A'}
    (hidle : ∀ s a t, next s a = some t → action a = none → part t = part s)
    (hstep : ∀ s a t b, next s a = some t → action a = some b → next' (part s) b = some (part t))
    {s u : S} {as : List A} (hr : run next s as = some u) :
    run next' (part s) (as.filterMap action) = some (part u) := by
  induction as generalizing s with
  | nil =>
    cases hr
    rfl
  | cons a as ih =>
    obtain ⟨t, ht, hrest⟩ := run_cons_some hr
    cases ha : action a with
    | none =>
      rw [List.filterMap_cons_none ha, ← hidle s a t ht ha]
      exact ih hrest
    | some b =>
      rw [List.filterMap_cons_some ha, run, hstep s a t b ht ha]
      exact ih hrest

section changes

variable {B C : Type*} [DecidableEq B] [DecidableEq C]

def changes (part : S → B) (next : S → A → Option S) : S → List A → ℕ
  | _, [] => 0
  | s, a :: as =>
    match next s a with
    | none => 0
    | some t => (if part t = part s then 0 else 1) + changes part next t as

/-- While one part stays as it is, another changes no more often than a measure allows. -/
theorem changes_le {next : S → A → Option S} {steady : S → C} {part : S → B} {measure : S → ℕ}
    (hstep : ∀ s a t, next s a = some t → steady t = steady s →
      (if part t = part s then 0 else 1) + measure t ≤ measure s)
    {s : S} {as : List A} (hs : changes steady next s as = 0) :
    changes part next s as ≤ measure s := by
  induction as generalizing s with
  | nil => exact Nat.zero_le _
  | cons a as ih =>
    cases ht : next s a with
    | none => simp [changes, ht]
    | some t =>
      simp only [changes, ht, Nat.add_eq_zero_iff] at hs
      have hkept : steady t = steady s := by simpa using hs.1
      have hrest := ih hs.2
      have hfirst := hstep s a t ht hkept
      simp only [changes, ht]
      omega

end changes

instance instDecidableMeets {cond : S → A → Prop} [∀ s a, Decidable (cond s a)]
    {next : S → A → Option S} : ∀ s as, Decidable (Meets cond next s as)
  | _, [] => isTrue trivial
  | s, a :: as =>
    have : Decidable (match next s a with
        | none => True
        | some t => Meets cond next t as) :=
      match next s a with
      | none => isTrue trivial
      | some t => instDecidableMeets t as
    inferInstanceAs (Decidable (cond s a ∧ _))

end StepRuns
