import UdevHidBpf.ListSplits

/-! # `split_paths`

The arguments of `add` are devices and object files, with a `-` between them. -/
namespace SplitPaths

open ListSplits

def divider : String := "-"

/-- The last arm of the match: `position`, then `remove` or `split_off`. -/
def splitAtDivider (paths : List String) : List String × List String :=
  match paths.findIdx? (· == divider) with
  | some 0 => ([], paths.eraseIdx 0)
  | some idx => (paths.take idx, (paths.drop idx).eraseIdx 0)
  | none => (paths, [])

def invalid (path : String) : Bool := path.isEmpty || path == divider

def parts : List String → Except String (List String × List String)
  | [] => .error "At least one device path is required"
  | [d] => .ok ([d], [])
  | [d, o] => if d ≠ "-" then .ok ([d], [o]) else .ok (splitAtDivider [d, o])
  | paths => .ok (splitAtDivider paths)

def splitPaths (paths : List String) : Except String (List String × List String) :=
  match parts paths with
  | .error e => .error e
  | .ok (devices, objects) =>
    if devices.any invalid || objects.any invalid then .error "Invalid device or object path"
    else .ok (devices, objects)

def grammar (paths : List String) : List String × List String :=
  if divider ∈ paths then
    (paths.takeWhile (· ≠ divider), (paths.dropWhile (· ≠ divider)).tail)
  else if paths.length = 2 then (paths.take 1, paths.drop 1)
  else (paths, [])

/-- The two lists that the match takes for a device and no grammar does. -/
def Dangling (paths : List String) : Prop := paths = [divider] ∨ ∃ d, paths = [d, divider]

def Refused (paths : List String) : Prop :=
  paths = [] ∨ (∃ path ∈ (grammar paths).1 ++ (grammar paths).2, path = "" ∨ path = divider) ∨
    Dangling paths

/-- The grammar for the list `paths`. Of the elements nothing but one `-` is lost. -/
structure Implemented (paths : List String) : Prop where
  refused : (∃ e, splitPaths paths = .error e) ↔ Refused paths
  accepted : ∀ devices objects, splitPaths paths = .ok (devices, objects) →
    (devices, objects) = grammar paths
  kept : ∀ devices objects, splitPaths paths = .ok (devices, objects) →
    devices ++ objects = paths.erase divider

theorem grammar_split {pre : List String} (h : divider ∉ pre) (post : List String) :
    grammar (pre ++ divider :: post) = (pre, post) := by
  rw [grammar, if_pos (by simp), takeWhile_sep h, dropWhile_sep h, List.tail_cons]

theorem splitAtDivider_split {pre : List String} (h : divider ∉ pre) (post : List String) :
    splitAtDivider (pre ++ divider :: post) = (pre, post) := by
  have hfind : (pre ++ divider :: post).findIdx? (· == divider) = some pre.length := by
    have hpre : pre.findIdx? (· == divider) = none := by
      rw [List.findIdx?_eq_none_iff]
      intro x hx
      exact beq_false_of_ne fun he => h (he ▸ hx)
    rw [List.findIdx?_append, hpre, List.findIdx?_cons]
    simp
  rw [splitAtDivider, hfind]
  cases pre with
  | nil => rfl
  | cons x pre => simp

theorem splitAtDivider_none {paths : List String} (h : divider ∉ paths) :
    splitAtDivider paths = (paths, []) := by
  have hfind : paths.findIdx? (· == divider) = none := by
    rw [List.findIdx?_eq_none_iff]
    intro x hx
    exact beq_false_of_ne fun he => h (he ▸ hx)
  rw [splitAtDivider, hfind]

theorem splitAtDivider_eq {paths : List String} (h : divider ∈ paths ∨ paths.length ≠ 2) :
    splitAtDivider paths = grammar paths := by
  by_cases hmem : divider ∈ paths
  · obtain ⟨pre, post, rfl, hpre⟩ := List.eq_append_cons_of_mem hmem
    rw [splitAtDivider_split hpre, grammar_split hpre]
  · rw [splitAtDivider_none hmem, grammar, if_neg hmem, if_neg (h.resolve_left hmem)]

theorem grammar_append (paths : List String) :
    (grammar paths).1 ++ (grammar paths).2 = paths.erase divider := by
  by_cases hmem : divider ∈ paths
  · obtain ⟨pre, post, rfl, hpre⟩ := List.eq_append_cons_of_mem hmem
    rw [grammar_split hpre, List.erase_append_right _ hpre, List.erase_cons_head]
  · rw [List.erase_of_not_mem hmem, grammar, if_neg hmem]
    split_ifs
    · exact List.take_append_drop 1 paths
    · exact List.append_nil paths

theorem invalid_iff (path : String) : invalid path ↔ path = "" ∨ path = divider := by
  simp [invalid]

/-- The first arms of the match differ from the grammar only where they keep a `-`. -/
theorem parts_of_grammar {paths : List String} (h : paths ≠ []) (hplain : ¬ Dangling paths) :
    parts paths = .ok (grammar paths) := by
  rw [Dangling, not_or, not_exists] at hplain
  rcases paths with _ | ⟨d, _ | ⟨o, _ | ⟨x, paths⟩⟩⟩
  · exact absurd rfl h
  · have hd : d ≠ divider := fun hd => hplain.1 (by rw [hd])
    rw [grammar, if_neg (by simpa using hd.symm), if_neg (by simp)]
    rfl
  · by_cases hd : d = divider
    · rw [← splitAtDivider_eq (.inl (by simp [hd]))]
      exact if_neg (not_not.2 hd)
    · have ho : o ≠ divider := fun ho => hplain.2 d (by rw [ho])
      rw [grammar, if_neg (by simp [Ne.symm hd, ho.symm])]
      exact if_pos hd
  · rw [← splitAtDivider_eq (.inr (by simp))]
    rfl

theorem parts_of_dangling {paths : List String} (h : Dangling paths) :
    ∃ p, parts paths = .ok p ∧ divider ∈ p.1 ++ p.2 := by
  rcases h with rfl | ⟨d, rfl⟩
  · exact ⟨([divider], []), rfl, by simp⟩
  · by_cases hd : d = divider
    · rw [hd]
      exact ⟨([], [divider]), by decide, by simp⟩
    · exact ⟨([d], [divider]), if_pos hd, by simp⟩

theorem splitPaths_of_parts {paths : List String} {p : List String × List String}
    (h : parts paths = .ok p) : splitPaths paths =
      if ∃ path ∈ p.1 ++ p.2, path = "" ∨ path = divider then .error "Invalid device or object path"
      else .ok p := by
  have hany : (p.1.any invalid || p.2.any invalid) = true ↔
      ∃ path ∈ p.1 ++ p.2, path = "" ∨ path = divider := by
    simp only [Bool.or_eq_true, List.any_eq_true, invalid_iff, List.mem_append, or_and_right,
      exists_or]
  rw [splitPaths, h]
  exact if_congr hany rfl rfl

theorem splitPaths_refused {paths : List String} (h : Refused paths) :
    ∃ e, splitPaths paths = .error e := by
  by_cases hnil : paths = []
  · rw [hnil]
    exact ⟨_, rfl⟩
  have hbad : ∃ p, parts paths = .ok p ∧ ∃ path ∈ p.1 ++ p.2, path = "" ∨ path = divider := by
    by_cases hplain : Dangling paths
    · obtain ⟨p, hparts, hkept⟩ := parts_of_dangling hplain
      exact ⟨p, hparts, divider, hkept, .inr rfl⟩
    · have hgrammar := (h.resolve_left hnil).resolve_right hplain
      exact ⟨grammar paths, parts_of_grammar hnil hplain, hgrammar⟩
  obtain ⟨p, hparts, hbad⟩ := hbad
  rw [splitPaths_of_parts hparts, if_pos hbad]
  exact ⟨_, rfl⟩

theorem splitPaths_accepted {paths : List String} (h : ¬ Refused paths) :
    splitPaths paths = .ok (grammar paths) := by
  rw [Refused, not_or, not_or] at h
  obtain ⟨hnil, hgood, hplain⟩ := h
  rw [splitPaths_of_parts (parts_of_grammar hnil hplain), if_neg hgood]

/-- Whatever the arguments, they are split by the grammar or refused. -/
theorem split_paths_implements (paths : List String) : Implemented paths := by
  have hok : ∀ p, splitPaths paths = .ok p → p = grammar paths := by
    intro p hp
    by_cases h : Refused paths
    · obtain ⟨e, he⟩ := splitPaths_refused h
      rw [he] at hp
      cases hp
    · rw [splitPaths_accepted h] at hp
      exact (Except.ok.inj hp).symm
  constructor
  · constructor
    · rintro ⟨e, he⟩
      by_contra h
      rw [splitPaths_accepted h] at he
      cases he
    · exact splitPaths_refused
  · intro devices objects h
    exact hok _ h
  · intro devices objects h
    rw [← grammar_append, ← hok _ h]

end SplitPaths
