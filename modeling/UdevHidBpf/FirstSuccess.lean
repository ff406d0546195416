import UdevHidBpf.OptionLists

/-! # Trying alternatives group by group

Each group is tried in order until one attempt succeeds, then the next group starts.
What an attempt yields may depend on everything attempted before it. -/
namespace FirstSuccess

structure Attempt (P R : Type*) where
  item : P
  result : R
  deriving DecidableEq, Repr

variable {P R : Type*}

section trying

variable (try_ : List (Attempt P R) → P → R) (ok : R → Bool)

/-- The attempts of one group; `h` is what was attempted before. -/
def tryGroup (h : List (Attempt P R)) : List P → List (Attempt P R)
  | [] => []
  | p :: ps =>
    let a : Attempt P R := ⟨p, try_ h p⟩
    if ok a.result then [a] else a :: tryGroup (h ++ [a]) ps

def tryGroups (h : List (Attempt P R)) : List (List P) → List (Attempt P R)
  | [] => []
  | g :: gs =>
    let as := tryGroup try_ ok h g
    as ++ tryGroups (h ++ as) gs

end trying

/-- The attempts of `g` in order, cut after the first success: failures that end in one
success, or failures throughout and then for all of `g`. -/
def CutAfterSuccess (ok : R → Bool) (g : List P) (as : List (Attempt P R)) : Prop :=
  (∃ failed last, as = failed ++ [last] ∧ (∀ a ∈ failed, ok a.result = false) ∧
    ok last.result = true ∧ (as.map Attempt.item).IsPrefix g) ∨
  ((∀ a ∈ as, ok a.result = false) ∧ as.map Attempt.item = g)

theorem tryGroup_cut (try_ : List (Attempt P R) → P → R) (ok : R → Bool)
    (h : List (Attempt P R)) (g : List P) : CutAfterSuccess ok g (tryGroup try_ ok h g) := by
  induction g generalizing h with
  | nil => exact .inr ⟨by simp [tryGroup], rfl⟩
  | cons p ps ih =>
    by_cases hok : ok (try_ h p)
    · refine .inl ⟨[], ⟨p, try_ h p⟩, by simp [tryGroup, hok], by simp, hok, ?_⟩
      simp [tryGroup, hok]
    · have hfail : ok (try_ h p) = false := by simpa using hok
      simp only [tryGroup, hfail, Bool.false_eq_true, if_false]
      rcases ih (h ++ [⟨p, try_ h p⟩]) with ⟨failed, last, he, hf, hl, hp⟩ | ⟨hf, he⟩
      · refine .inl ⟨⟨p, try_ h p⟩ :: failed, last, by rw [he]; rfl, ?_, hl, ?_⟩
        · intro a ha
          rcases List.mem_cons.mp ha with rfl | ha
          · exact hfail
          · exact hf a ha
        · exact List.cons_prefix_cons.mpr ⟨rfl, hp⟩
      · refine .inr ⟨?_, by simp [he]⟩
        intro a ha
        rcases List.mem_cons.mp ha with rfl | ha
        · exact hfail
        · exact hf a ha

theorem tryGroups_segments (try_ : List (Attempt P R) → P → R) (ok : R → Bool)
    (h : List (Attempt P R)) (gs : List (List P)) :
    ∃ segments, tryGroups try_ ok h gs = segments.flatten ∧
      List.Forall₂ (CutAfterSuccess ok) gs segments := by
  induction gs generalizing h with
  | nil => exact ⟨[], rfl, .nil⟩
  | cons g gs ih =>
    obtain ⟨segments, he, hall⟩ := ih (h ++ tryGroup try_ ok h g)
    exact ⟨tryGroup try_ ok h g :: segments, by simp [tryGroups, he],
      .cons (tryGroup_cut try_ ok h g) hall⟩

theorem CutAfterSuccess.item_mem {ok : R → Bool} {g : List P} {as : List (Attempt P R)}
    (h : CutAfterSuccess ok g as) {a : Attempt P R} (ha : a ∈ as) : a.item ∈ g := by
  have hi : a.item ∈ as.map Attempt.item := List.mem_map_of_mem ha
  rcases h with ⟨-, -, -, -, -, hp⟩ | ⟨-, he⟩
  · exact hp.subset hi
  · exact he ▸ hi

theorem CutAfterSuccess.pairwise {ok : R → Bool} {g : List P} {as : List (Attempt P R)}
    (h : CutAfterSuccess ok g as) : as.Pairwise fun a _ => ok a.result = false := by
  rcases h with ⟨failed, last, rfl, hf, -, -⟩ | ⟨hf, -⟩
  · refine List.pairwise_append.mpr ⟨?_, List.pairwise_singleton _ _, fun a ha _ _ => hf a ha⟩
    exact List.pairwise_iff_forall_sublist.mpr fun hs => hf _ (hs.subset (by simp))
  · exact List.pairwise_iff_forall_sublist.mpr fun hs => hf _ (hs.subset (by simp))

theorem CutAfterSuccess.ne_nil {ok : R → Bool} {g : List P} {as : List (Attempt P R)}
    (h : CutAfterSuccess ok g as) (hg : g ≠ []) : as ≠ [] := by
  rcases h with ⟨failed, last, rfl, -, -, -⟩ | ⟨-, rfl⟩
  · simp
  · simpa using hg

theorem CutAfterSuccess.of_success {ok : R → Bool} {g : List P} {as : List (Attempt P R)}
    (h : CutAfterSuccess ok g as) {a : Attempt P R} (ha : a ∈ as) (hok : ok a.result = true) :
    as.getLast? = some a ∧ as.countP (fun b => ok b.result) = 1 := by
  rcases h with ⟨failed, last, rfl, hf, hl, -⟩ | ⟨hf, -⟩
  · have hlast : a = last := by
      rcases List.mem_append.mp ha with ha | ha
      · simp [hf a ha] at hok
      · exact List.mem_singleton.mp ha
    have hnone : failed.countP (fun b => ok b.result) = 0 := by
      rw [List.countP_eq_zero]
      intro b hb
      simp [hf b hb]
    simp [hlast, hnone, hl]
  · simp [hf a ha] at hok

theorem CutAfterSuccess.of_failure {ok : R → Bool} {g : List P} {as : List (Attempt P R)}
    (h : CutAfterSuccess ok g as) (hf : ∀ a ∈ as, ok a.result = false) :
    as.map Attempt.item = g := by
  rcases h with ⟨failed, last, rfl, -, hl, -⟩ | ⟨-, he⟩
  · simp [hf last (by simp)] at hl
  · exact he

theorem CutAfterSuccess.isPrefix_items {ok : R → Bool} {g : List P} {as : List (Attempt P R)}
    (h : CutAfterSuccess ok g as) : as.map Attempt.item <+: g := by
  rcases h with ⟨-, -, -, -, -, hp⟩ | ⟨-, he⟩
  · exact hp
  · exact he ▸ List.prefix_rfl

/-- An alternative that is not attempted comes behind one that succeeded. -/
theorem CutAfterSuccess.covers {ok : R → Bool} {g : List P} {as : List (Attempt P R)}
    (h : CutAfterSuccess ok g as) {r : P → P → Prop} (hr : g.Pairwise r) {p : P} (hp : p ∈ g) :
    ∃ a ∈ as, a.item = p ∨ (ok a.result = true ∧ r a.item p) := by
  rcases h with ⟨failed, last, rfl, -, hl, later, rfl⟩ | ⟨-, rfl⟩
  · rcases List.mem_append.mp hp with hp | hp
    · obtain ⟨a, ha, rfl⟩ := List.mem_map.mp hp
      exact ⟨a, ha, .inl rfl⟩
    · have hlast : last.item ∈ (failed ++ [last]).map Attempt.item :=
        List.mem_map_of_mem (List.mem_append_right _ (List.mem_singleton.mpr rfl))
      exact ⟨last, List.mem_append_right _ (List.mem_singleton.mpr rfl),
        .inr ⟨hl, (List.pairwise_append.mp hr).2.2 _ hlast _ hp⟩⟩
  · obtain ⟨a, ha, rfl⟩ := List.mem_map.mp hp
    exact ⟨a, ha, .inl rfl⟩

theorem CutAfterSuccess.tried_before {ok : R → Bool} {g : List P} {pre post : List (Attempt P R)}
    {a : Attempt P R} (h : CutAfterSuccess ok g (pre ++ a :: post)) {r : P → P → Prop}
    (hr : g.Pairwise r) {p : P} (hp : p ∈ g) (hne : p ≠ a.item) (hbefore : ¬ r a.item p) :
    ∃ b ∈ pre, b.item = p ∧ ok b.result = false := by
  obtain ⟨later, rfl⟩ := h.isPrefix_items
  rw [List.map_append, List.map_cons, List.append_assoc, List.cons_append] at hr hp
  have hfailed := (List.pairwise_append.mp h.pairwise).2.2
  rcases List.mem_append.mp hp with hp | hp
  · obtain ⟨b, hb, rfl⟩ := List.mem_map.mp hp
    exact ⟨b, hb, rfl, hfailed b hb a List.mem_cons_self⟩
  · have hlater := (List.mem_cons.mp hp).resolve_left hne
    have hafter := List.pairwise_cons.mp (List.pairwise_append.mp hr).2.1
    exact absurd (hafter.1 p hlater) hbefore

theorem flatten_split {α : Type*} {ls : List (List α)} {pre post : List α} {a : α}
    (h : ls.flatten = pre ++ a :: post) :
    ∃ l ∈ ls, ∃ pre' post', l = pre' ++ a :: post' ∧ pre' ⊆ pre := by
  induction ls generalizing pre with
  | nil => simp at h
  | cons l ls ih =>
    rw [List.flatten_cons] at h
    rcases List.append_eq_append_iff.mp h with ⟨later, rfl, hrest⟩ | ⟨more, rfl, hmore⟩
    · obtain ⟨l', hl', pre', post', hsplit, hsub⟩ := ih hrest
      exact ⟨l', List.mem_cons_of_mem _ hl', pre', post', hsplit,
        List.subset_append_of_subset_right _ hsub⟩
    · cases more with
      | nil =>
        have hrest : ls.flatten = [] ++ a :: post := hmore.symm
        obtain ⟨l', hl', pre', post', hsplit, hsub⟩ := ih hrest
        exact ⟨l', List.mem_cons_of_mem _ hl', pre', post', hsplit,
          List.Subset.trans hsub (List.nil_subset _)⟩
      | cons b more =>
        obtain ⟨rfl, -⟩ := List.cons.inj hmore
        exact ⟨_, List.mem_cons_self, pre, more, rfl, List.Subset.refl _⟩

/-- Attempts in groups of disjoint keys: before any attempt, those of its key failed. -/
theorem segments_pairwise {κ : Type*} {key : P → κ} {ok : R → Bool} {gs : List (List P)}
    {segments : List (List (Attempt P R))} (hall : List.Forall₂ (CutAfterSuccess ok) gs segments)
    (hkeys : gs.Pairwise fun g g' => ∀ p ∈ g, ∀ q ∈ g', key p ≠ key q) :
    segments.flatten.Pairwise fun a b => key a.item = key b.item → ok a.result = false := by
  induction hall with
  | nil => exact .nil
  | @cons g as gs segments hcut hall ih =>
    obtain ⟨hg, hgs⟩ := List.pairwise_cons.mp hkeys
    rw [List.flatten_cons]
    have hsame : as.Pairwise fun a b => key a.item = key b.item → ok a.result = false := by
      refine hcut.pairwise.imp ?_
      intro a b hfail _
      exact hfail
    refine List.pairwise_append.mpr ⟨hsame, ih hgs, ?_⟩
    intro a ha b hb hk
    obtain ⟨bs, hbs, hb⟩ := List.mem_flatten.mp hb
    obtain ⟨g', hg', hcut'⟩ := OptionLists.forall₂_mem_right hall hbs
    exact absurd hk (hg g' hg' _ (hcut.item_mem ha) _ (hcut'.item_mem hb))

theorem flatMap_moment {α β : Type*} {f : α → List β} {l : List α} {done rest : List β}
    (h : l.flatMap f = done ++ rest) : done = [] ∨ ∃ pre a post current,
      l = pre ++ a :: post ∧ done = pre.flatMap f ++ current ∧ current.IsPrefix (f a) := by
  induction l generalizing done with
  | nil =>
    simp only [List.flatMap_nil, List.nil_eq_append_iff] at h
    exact .inl h.1
  | cons a l ih =>
    rw [List.flatMap_cons] at h
    rcases List.append_eq_append_iff.mp h with ⟨later, rfl, hl⟩ | ⟨more, hfa, -⟩
    · rcases ih hl with rfl | ⟨pre, b, post, current, rfl, rfl, hc⟩
      · exact .inr ⟨[], a, l, f a, rfl, by simp, List.prefix_refl _⟩
      · exact .inr ⟨a :: pre, b, post, current, rfl, by simp, hc⟩
    · exact .inr ⟨[], a, l, done, rfl, by simp, ⟨more, hfa.symm⟩⟩

section history

variable {try_ : List (Attempt P R) → P → R}

/-- Each result is what the attempt yields after the attempts before it. -/
def Honest (try_ : List (Attempt P R) → P → R) : List (Attempt P R) → List (Attempt P R) → Prop
  | _, [] => True
  | h, a :: as => a.result = try_ h a.item ∧ Honest try_ (h ++ [a]) as

theorem Honest.append {h as bs : List (Attempt P R)} (ha : Honest try_ h as)
    (hb : Honest try_ (h ++ as) bs) : Honest try_ h (as ++ bs) := by
  induction as generalizing h with
  | nil => simpa using hb
  | cons a as ih => exact ⟨ha.1, ih ha.2 (by simpa using hb)⟩

theorem Honest.result {h as : List (Attempt P R)} (hh : Honest try_ h as)
    {pre post : List (Attempt P R)} {a : Attempt P R} (he : as = pre ++ a :: post) :
    a.result = try_ (h ++ pre) a.item := by
  induction pre generalizing h as with
  | nil => subst he; simpa using hh.1
  | cons b pre ih =>
    subst he
    simpa using ih hh.2 rfl

variable (try_)

theorem tryGroup_honest (ok : R → Bool) (h : List (Attempt P R)) (g : List P) :
    Honest try_ h (tryGroup try_ ok h g) := by
  induction g generalizing h with
  | nil => trivial
  | cons p ps ih =>
    simp only [tryGroup]
    split
    · exact ⟨rfl, trivial⟩
    · exact ⟨rfl, ih _⟩

theorem tryGroups_honest (ok : R → Bool) (h : List (Attempt P R)) (gs : List (List P)) :
    Honest try_ h (tryGroups try_ ok h gs) := by
  induction gs generalizing h with
  | nil => trivial
  | cons g gs ih => exact (tryGroup_honest try_ ok h g).append (ih _)

end history

section ending

variable (try_ : List (Attempt P R) → P → Option R) (ok : R → Bool)

def attemptGroup (h : List (Attempt P R)) : List P → Option (List (Attempt P R))
  | [] => some []
  | p :: ps =>
    (try_ h p).bind fun r =>
      if ok r then some [⟨p, r⟩]
      else (attemptGroup (h ++ [⟨p, r⟩]) ps).map (⟨p, r⟩ :: ·)

def attemptGroups (h : List (Attempt P R)) : List (List P) → Option (List (Attempt P R))
  | [] => some []
  | g :: gs =>
    (attemptGroup try_ ok h g).bind fun as => (attemptGroups (h ++ as) gs).map (as ++ ·)

end ending

section comparing

variable {ok : R → Bool} {total : List (Attempt P R) → P → R}
  {try_ : ℕ → List (Attempt P R) → P → Option R}

theorem attemptGroup_eventually {g : List P}
    (hback : ∀ h, ∀ p ∈ g, ∃ N, ∀ fuel ≥ N, try_ fuel h p = some (total h p))
    (h : List (Attempt P R)) :
    ∃ N, ∀ fuel ≥ N, attemptGroup (try_ fuel) ok h g = some (tryGroup total ok h g) := by
  induction g generalizing h with
  | nil => exact ⟨0, fun fuel _ => rfl⟩
  | cons p ps ih =>
    obtain ⟨N, hN⟩ := hback h p List.mem_cons_self
    obtain ⟨M, hM⟩ := ih (fun h q hq => hback h q (List.mem_cons_of_mem _ hq))
      (h ++ [⟨p, total h p⟩])
    refine ⟨max N M, ?_⟩
    intro fuel hfuel
    have hhead := hN fuel (by omega)
    have hrest := hM fuel (by omega)
    rw [attemptGroup, hhead, Option.bind_some, tryGroup]
    by_cases hok : ok (total h p)
    · rw [if_pos hok, if_pos hok]
    · rw [if_neg hok, if_neg hok, hrest]
      rfl

theorem attemptGroups_eventually {gs : List (List P)}
    (hback : ∀ h, ∀ g ∈ gs, ∀ p ∈ g, ∃ N, ∀ fuel ≥ N, try_ fuel h p = some (total h p))
    (h : List (Attempt P R)) :
    ∃ N, ∀ fuel ≥ N, attemptGroups (try_ fuel) ok h gs = some (tryGroups total ok h gs) := by
  induction gs generalizing h with
  | nil => exact ⟨0, fun fuel _ => rfl⟩
  | cons g gs ih =>
    have hgroup : ∃ N, ∀ fuel ≥ N,
        attemptGroup (try_ fuel) ok h g = some (tryGroup total ok h g) :=
      attemptGroup_eventually (fun h p hp => hback h g List.mem_cons_self p hp) h
    obtain ⟨N, hN⟩ := hgroup
    obtain ⟨M, hM⟩ := ih (fun h g hg => hback h g (List.mem_cons_of_mem _ hg))
      (h ++ tryGroup total ok h g)
    refine ⟨max N M, ?_⟩
    intro fuel hfuel
    have hhead := hN fuel (by omega)
    have hrest := hM fuel (by omega)
    rw [attemptGroups, hhead, Option.bind_some, hrest]
    rfl

end comparing

section came

variable {try_ : List (Attempt P R) → P → Option R} {ok : R → Bool}

theorem attemptGroup_came {g : List P} {h as : List (Attempt P R)}
    (hrun : attemptGroup try_ ok h g = some as) :
    ∀ pre a post, as = pre ++ a :: post → try_ (h ++ pre) a.item = some a.result := by
  induction g generalizing h as with
  | nil =>
    intro pre a post hsplit
    obtain rfl : [] = as := Option.some.inj hrun
    simp at hsplit
  | cons p ps ih =>
    obtain ⟨r, hr, hrun⟩ := Option.bind_eq_some_iff.1 hrun
    by_cases hok : ok r
    · rw [if_pos hok] at hrun
      obtain rfl := Option.some.inj hrun
      intro pre a post hsplit
      rcases List.cons_eq_append_iff.1 hsplit with ⟨rfl, h1⟩ | ⟨c, h1, h2⟩
      · obtain ⟨rfl, -⟩ := List.cons.inj h1
        simpa using hr
      · simp at h2
    · rw [if_neg hok] at hrun
      obtain ⟨as, has, rfl⟩ := Option.map_eq_some_iff.1 hrun
      intro pre a post hsplit
      rcases List.cons_eq_append_iff.1 hsplit with ⟨rfl, h1⟩ | ⟨c, rfl, h2⟩
      · obtain ⟨rfl, -⟩ := List.cons.inj h1
        simpa using hr
      · simpa using ih has c a post h2

theorem attemptGroups_came {gs : List (List P)} {h as : List (Attempt P R)}
    (hrun : attemptGroups try_ ok h gs = some as) :
    ∀ pre a post, as = pre ++ a :: post → try_ (h ++ pre) a.item = some a.result := by
  induction gs generalizing h as with
  | nil =>
    intro pre a post hsplit
    obtain rfl : [] = as := Option.some.inj hrun
    simp at hsplit
  | cons g gs ih =>
    obtain ⟨as, has, hrun⟩ := Option.bind_eq_some_iff.1 hrun
    obtain ⟨bs, hbs, rfl⟩ := Option.map_eq_some_iff.1 hrun
    intro pre a post hsplit
    rcases List.append_eq_append_iff.1 hsplit with ⟨later, rfl, hl⟩ | ⟨more, rfl, hm⟩
    · simpa using ih hbs later a post hl
    · cases more with
      | nil => simpa using ih hbs [] a post hm.symm
      | cons b more =>
        obtain ⟨rfl, -⟩ := List.cons.inj hm
        exact attemptGroup_came has pre a more rfl

end came

end FirstSuccess
