import Mathlib.Data.List.Sort
import Mathlib.Data.List.Dedup

/-! # Grouping by a key and sorting inside the groups

`grouped key rank l` lists, in ascending key order, the elements of each key in
descending rank order, ties in the order of `l`. Everything is over linear orders and
says nothing about how the groups are collected. -/
namespace GroupedSort

variable {α κ ν : Type*} [LinearOrder κ] [LinearOrder ν]

def sortDesc (rank : α → ν) (l : List α) : List α :=
  l.insertionSort fun a b => rank b ≤ rank a

private instance totalLe (rank : α → ν) : Std.Total fun a b => rank b ≤ rank a :=
  ⟨fun a b => le_total (rank b) (rank a)⟩

private instance transLe (rank : α → ν) : IsTrans α fun a b => rank b ≤ rank a :=
  ⟨fun _ _ _ h k => le_trans k h⟩

theorem sortDesc_perm (rank : α → ν) (l : List α) : (sortDesc rank l).Perm l :=
  List.perm_insertionSort _ l

theorem sortDesc_pairwise (rank : α → ν) (l : List α) :
    (sortDesc rank l).Pairwise fun a b => rank b ≤ rank a :=
  List.pairwise_insertionSort _ l

/-- Elements of one rank are already in order, so they survive as a sublist. -/
theorem sortDesc_stable (rank : α → ν) (l : List α) (n : ν) :
    (sortDesc rank l).filter (fun a => rank a = n) = l.filter fun a => rank a = n := by
  have hsub : (l.filter fun a => rank a = n).Sublist (sortDesc rank l) := by
    refine List.sublist_insertionSort ?_ List.filter_sublist
    refine List.Pairwise.imp_of_mem ?_ (List.pairwise_of_forall (fun _ _ => trivial))
    intro a b ha hb _
    have ha := of_decide_eq_true (List.mem_filter.mp ha).2
    have hb := of_decide_eq_true (List.mem_filter.mp hb).2
    exact le_of_eq (hb.trans ha.symm)
  have hfil := hsub.filter fun a => decide (rank a = n)
  rw [List.filter_filter, List.filter_congr (q := fun a => decide (rank a = n)) (by simp)] at hfil
  exact (hfil.eq_of_length ((sortDesc_perm rank l).symm.filter _).length_eq).symm

theorem sortDesc_eq_of_perm {rank : α → ν} {l m : List α} (h : l.Perm m)
    (hinj : ∀ a ∈ l, ∀ b ∈ l, rank a = rank b → a = b) : sortDesc rank l = sortDesc rank m := by
  refine List.Perm.eq_of_pairwise ?_ (sortDesc_pairwise rank l) (sortDesc_pairwise rank m)
    ((sortDesc_perm rank l).trans (h.trans (sortDesc_perm rank m).symm))
  intro a b ha hb hab hba
  have ha := (sortDesc_perm rank l).mem_iff.mp ha
  have hb := h.mem_iff.mpr ((sortDesc_perm rank m).mem_iff.mp hb)
  exact hinj a ha b hb (le_antisymm hba hab)

def keys (key : α → κ) (l : List α) : List κ := (l.map key).dedup.insertionSort (· ≤ ·)

theorem mem_keys {key : α → κ} {l : List α} {k : κ} : k ∈ keys key l ↔ ∃ a ∈ l, key a = k := by
  simp [keys]

theorem keys_ascending (key : α → κ) (l : List α) : (keys key l).Pairwise (· < ·) := by
  have hn : (keys key l).Nodup :=
    (List.perm_insertionSort _ _).nodup_iff.mpr (List.nodup_dedup _)
  exact (List.pairwise_insertionSort (· ≤ ·) _).imp₂ (fun _ _ h hne => lt_of_le_of_ne h hne) hn

/-- Any list without duplicates that has the same members sorts to the same keys. -/
theorem insertionSort_eq_keys {key : α → κ} {l : List α} {ks : List κ} (hn : ks.Nodup)
    (hm : ∀ k, k ∈ ks ↔ ∃ a ∈ l, key a = k) : ks.insertionSort (· ≤ ·) = keys key l := by
  have hp : ks.Perm (l.map key).dedup := by
    refine (List.perm_ext_iff_of_nodup hn (List.nodup_dedup _)).mpr fun k => ?_
    simp [hm k]
  refine List.Perm.eq_of_pairwise (fun a b _ _ => le_antisymm)
    (List.pairwise_insertionSort _ _) (List.pairwise_insertionSort _ _) ?_
  exact (List.perm_insertionSort _ _).trans (hp.trans (List.perm_insertionSort _ _).symm)

def group (key : α → κ) (rank : α → ν) (l : List α) (k : κ) : List α :=
  sortDesc rank (l.filter fun a => key a = k)

theorem mem_group {key : α → κ} {rank : α → ν} {l : List α} {k : κ} {a : α} :
    a ∈ group key rank l k ↔ a ∈ l ∧ key a = k := by
  simp [group, (sortDesc_perm rank _).mem_iff]

theorem group_stable (key : α → κ) (rank : α → ν) (l : List α) (k : κ) (n : ν) :
    (group key rank l k).filter (fun a => rank a = n) =
      l.filter fun a => key a = k ∧ rank a = n := by
  rw [group, sortDesc_stable, List.filter_filter]
  exact List.filter_congr fun a _ => by rw [Bool.decide_and, Bool.and_comm]

def grouped (key : α → κ) (rank : α → ν) (l : List α) : List (List α) :=
  (keys key l).map (group key rank l)

section laws

variable (key : α → κ) (rank : α → ν) (l : List α)

theorem mem_grouped {g : List α} :
    g ∈ grouped key rank l ↔ ∃ k, (∃ a ∈ l, key a = k) ∧ group key rank l k = g := by
  simp only [grouped, List.mem_map, mem_keys]

theorem grouped_ne_nil {g : List α} (hg : g ∈ grouped key rank l) : g ≠ [] := by
  obtain ⟨k, ⟨a, ha, hk⟩, rfl⟩ := (mem_grouped key rank l).mp hg
  exact List.ne_nil_of_mem (mem_group.mpr ⟨ha, hk⟩)

theorem same_group_iff {a b : α} (ha : a ∈ l) (hb : b ∈ l) :
    (∃ g ∈ grouped key rank l, a ∈ g ∧ b ∈ g) ↔ key a = key b := by
  constructor
  · rintro ⟨g, hg, hag, hbg⟩
    obtain ⟨k, -, rfl⟩ := (mem_grouped key rank l).mp hg
    exact (mem_group.mp hag).2.trans (mem_group.mp hbg).2.symm
  · intro h
    exact ⟨_, (mem_grouped key rank l).mpr ⟨key a, ⟨a, ha, rfl⟩, rfl⟩,
      mem_group.mpr ⟨ha, rfl⟩, mem_group.mpr ⟨hb, h.symm⟩⟩

theorem mem_group_of_key {g : List α} (hg : g ∈ grouped key rank l) {a b : α} (ha : a ∈ g)
    (hb : b ∈ l) (h : key b = key a) : b ∈ g := by
  obtain ⟨k, -, rfl⟩ := (mem_grouped key rank l).mp hg
  exact mem_group.mpr ⟨hb, h.trans (mem_group.mp ha).2⟩

theorem grouped_ascending :
    (grouped key rank l).Pairwise fun g h => ∀ a ∈ g, ∀ b ∈ h, key a < key b := by
  refine List.pairwise_map.mpr ((keys_ascending key l).imp ?_)
  intro j k hjk a ha b hb
  rw [(mem_group.mp ha).2, (mem_group.mp hb).2]
  exact hjk

theorem grouped_descending {g : List α} (hg : g ∈ grouped key rank l) :
    g.Pairwise fun a b => rank b ≤ rank a := by
  obtain ⟨k, -, rfl⟩ := (mem_grouped key rank l).mp hg
  exact sortDesc_pairwise rank _

theorem grouped_stable {g : List α} (hg : g ∈ grouped key rank l) {a : α} (ha : a ∈ g) :
    g.filter (fun b => rank b = rank a) = l.filter fun b => key b = key a ∧ rank b = rank a := by
  obtain ⟨k, -, rfl⟩ := (mem_grouped key rank l).mp hg
  rw [group_stable, (mem_group.mp ha).2]

theorem grouped_flatten_perm [DecidableEq α] : (grouped key rank l).flatten.Perm l := by
  refine List.perm_iff_count.mpr fun a => ?_
  have hc : ∀ k, (group key rank l k).count a = if key a = k then l.count a else 0 := by
    intro k
    rw [group, (sortDesc_perm rank _).count_eq]
    by_cases hk : key a = k
    · rw [if_pos hk, List.count_filter (by simpa using hk)]
    · rw [if_neg hk, List.count_eq_zero]
      simp [hk]
  have hsum : ∀ ks : List κ, ks.Nodup → (key a ∈ ks ∨ l.count a = 0) →
      ((ks.map (group key rank l)).flatten).count a = l.count a := by
    intro ks hn hmem
    induction ks with
    | nil => simpa using (hmem.resolve_left (by simp)).symm
    | cons k ks ih =>
      rw [List.map_cons, List.flatten_cons, List.count_append, hc]
      obtain ⟨hk, hn⟩ := List.nodup_cons.mp hn
      by_cases hak : key a = k
      · have hz : ((ks.map (group key rank l)).flatten).count a = 0 := by
          refine List.count_eq_zero.mpr fun hin => ?_
          obtain ⟨g, hg, hag⟩ := List.mem_flatten.mp hin
          obtain ⟨j, hj, rfl⟩ := List.mem_map.mp hg
          exact hk (hak ▸ (mem_group.mp hag).2 ▸ hj)
        rw [if_pos hak, hz, Nat.add_zero]
      · rw [if_neg hak, Nat.zero_add]
        exact ih hn (hmem.imp (fun h => (List.mem_cons.mp h).resolve_left hak) id)
  refine hsum _ (keys_ascending key l).nodup ?_
  by_cases ha : a ∈ l
  · exact .inl (mem_keys.mpr ⟨a, ha, rfl⟩)
  · exact .inr (List.count_eq_zero.mpr ha)

end laws

theorem grouped_eq_of_perm (key : α → κ) {rank : α → ν} {l m : List α} (h : l.Perm m)
    (hinj : ∀ a ∈ l, ∀ b ∈ l, rank a = rank b → a = b) :
    grouped key rank l = grouped key rank m := by
  have hk : keys key l = keys key m :=
    insertionSort_eq_keys (List.nodup_dedup _) fun k => by simp [h.mem_iff]
  rw [grouped, grouped, hk]
  refine List.map_congr_left fun k _ => sortDesc_eq_of_perm (h.filter _) ?_
  intro a ha b hb
  exact hinj a (List.mem_filter.mp ha).1 b (List.mem_filter.mp hb).1

end GroupedSort
