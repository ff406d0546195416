import Mathlib.Data.List.Forall2

/-! # Lists of fallible steps

`mapM` in `Option`: it succeeds when every step does, and the results stand at the
positions of their inputs. -/
namespace OptionLists

variable {α β : Type*}

theorem mapM_forall₂ {f : α → Option β} {P : α → β → Prop} {l : List α}
    (h : ∀ a ∈ l, ∃ b, f a = some b ∧ P a b) : ∃ l', l.mapM f = some l' ∧ List.Forall₂ P l l' := by
  induction l with
  | nil => exact ⟨[], rfl, .nil⟩
  | cons a l ih =>
    obtain ⟨b, hb, hp⟩ := h a List.mem_cons_self
    obtain ⟨l', hl', hps⟩ := ih fun c hc => h c (List.mem_cons_of_mem _ hc)
    exact ⟨b :: l', by simp [List.mapM_cons, hb, hl'], .cons hp hps⟩

theorem forall₂_of_mapM {f : α → Option β} {l : List α} {l' : List β} (h : l.mapM f = some l') :
    List.Forall₂ (fun a b => f a = some b) l l' := by
  induction l generalizing l' with
  | nil =>
    rw [List.mapM_nil] at h
    obtain rfl := Option.some.inj h
    exact .nil
  | cons a l ih =>
    rw [List.mapM_cons] at h
    simp only [Option.bind_eq_bind, Option.bind_eq_some_iff, Option.pure_def,
      Option.some.injEq] at h
    obtain ⟨b, hb, bs, hbs, rfl⟩ := h
    exact .cons hb (ih hbs)

theorem mapM_eq_map {f : α → Option β} {g : α → β} {l : List α}
    (h : ∀ a ∈ l, f a = some (g a)) : l.mapM f = some (l.map g) := by
  induction l with
  | nil => rfl
  | cons a l ih =>
    have hl := ih fun c hc => h c (List.mem_cons_of_mem _ hc)
    simp [List.mapM_cons, h a List.mem_cons_self, hl]

theorem map_eq_of_mapM {γ : Type*} {f : α → Option β} {g : α → γ} {g' : β → γ} {l : List α}
    {l' : List β} (h : l.mapM f = some l') (hg : ∀ a b, f a = some b → g' b = g a) :
    l'.map g' = l.map g := by
  have hsteps := forall₂_of_mapM h
  clear h
  induction hsteps with
  | nil => rfl
  | cons hstep _ ih => rw [List.map_cons, List.map_cons, hg _ _ hstep, ih]

theorem forall₂_getElem? {P : α → β → Prop} {l : List α} {l' : List β}
    (h : List.Forall₂ P l l') {i : ℕ} {a : α} (ha : l[i]? = some a) :
    ∃ b, l'[i]? = some b ∧ P a b := by
  induction h generalizing i with
  | nil => simp at ha
  | cons hp _ ih =>
    cases i with
    | zero => exact ⟨_, rfl, by simpa using (Option.some.inj ha) ▸ hp⟩
    | succ i => exact ih ha

theorem forall₂_mem_left {P : α → β → Prop} {l : List α} {l' : List β}
    (h : List.Forall₂ P l l') {a : α} (ha : a ∈ l) : ∃ b ∈ l', P a b := by
  obtain ⟨i, hi⟩ := List.getElem?_of_mem ha
  obtain ⟨b, hb, hp⟩ := forall₂_getElem? h hi
  exact ⟨b, List.mem_of_getElem? hb, hp⟩

theorem forall₂_mem_right {P : α → β → Prop} {l : List α} {l' : List β}
    (h : List.Forall₂ P l l') {b : β} (hb : b ∈ l') : ∃ a ∈ l, P a b := by
  obtain ⟨i, hi⟩ := List.mem_iff_getElem?.mp hb
  obtain ⟨a, ha, hp⟩ := forall₂_getElem? h.flip hi
  exact ⟨a, List.mem_of_getElem? ha, hp⟩

theorem foldlM_eq_foldl {f : β → α → Option β} {g : β → α → β} {l : List α}
    (h : ∀ a ∈ l, ∀ s, f s a = some (g s a)) (s : β) : l.foldlM f s = some (l.foldl g s) := by
  induction l generalizing s with
  | nil => rfl
  | cons a l ih =>
    rw [List.foldlM_cons, List.foldl_cons, h a List.mem_cons_self]
    exact ih (fun b hb => h b (List.mem_cons_of_mem _ hb)) _

theorem isSome_foldlM_iff {f : β → α → Option β} {P : α → Prop} {l : List α}
    (h : ∀ a ∈ l, ∀ s, (f s a).isSome ↔ P a) (s : β) :
    (l.foldlM f s).isSome ↔ ∀ a ∈ l, P a := by
  induction l generalizing s with
  | nil => simp
  | cons a l ih =>
    have ih := ih fun b hb => h b (List.mem_cons_of_mem _ hb)
    rw [List.foldlM_cons, List.forall_mem_cons, ← h a List.mem_cons_self s]
    cases f s a with
    | none => simp
    | some s' => simpa using ih s'

theorem isSome_mapM_iff {f : α → Option β} {l : List α} :
    (l.mapM f).isSome ↔ ∀ a ∈ l, (f a).isSome := by
  induction l with
  | nil => simp
  | cons a l ih =>
    rw [List.mapM_cons, List.forall_mem_cons, ← ih]
    cases f a <;> cases l.mapM f <;> simp

theorem forall₂_filterMap (f : α → Option β) (l : List α) :
    List.Forall₂ (fun a b => f a = some b) (l.filter fun a => (f a).isSome) (l.filterMap f) := by
  induction l with
  | nil => exact .nil
  | cons a l ih =>
    cases h : f a with
    | none => simpa [h] using ih
    | some b => simpa [h] using ih

end OptionLists
