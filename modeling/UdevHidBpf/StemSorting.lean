import Mathlib.Data.List.AList
import Mathlib.Data.String.Basic
import UdevHidBpf.GroupedSort

/-! # `HidUdev::sort_by_stem`

Paths are of any type that has a file name (`to_string_lossy` of it). The two things
the function takes from outside are parameters: `str::to_lowercase`, of which only the
treatment of a digit prefix matters, and the iteration order of the `HashMap`. -/
namespace StemSorting

open GroupedSort

/-- `str::to_lowercase`. ASCII digits and `-` map to themselves and are not cased, so
they do not influence how the rest of the name is lowered. -/
structure CaseFolding where
  toLowercase : String → String
  digits_dash : ∀ d r : String, (∀ c ∈ d.toList, c.isDigit) →
    toLowercase (d ++ "-" ++ r) = d ++ "-" ++ toLowercase r

/-- The order in which a `HashMap` hands out its keys: any permutation of them. -/
structure IterationOrder where
  order : List String → List String
  perm : ∀ ks, (order ks).Perm ks

def insertionOrder : IterationOrder := ⟨id, List.Perm.refl⟩

theorem toLower_digit {c : Char} (h : c.isDigit) : c.toLower = c := by
  simp only [Char.isDigit, Bool.and_eq_true, decide_eq_true_eq] at h
  have hu : ¬ (c.val ≥ 'A'.val ∧ c.val ≤ 'Z'.val) := by
    intro hu
    have h1 := UInt32.le_iff_toNat_le.mp hu.1
    have h2 := UInt32.le_iff_toNat_le.mp h.2
    exact absurd (le_trans h1 h2) (by decide)
  exact dif_neg hu

/-- Lowering of ASCII letters only: what `to_lowercase` does on ASCII names. -/
def asciiCase : CaseFolding where
  toLowercase s := String.ofList (s.toList.map Char.toLower)
  digits_dash d r h := by
    have hd : d.toList.map Char.toLower = d.toList :=
      (List.map_congr_left fun c hc => toLower_digit (h c hc)).trans (List.map_id _)
    simp [String.ofList_append, hd, String.append_assoc]

/-- `str::split_once`. -/
def splitOnce (s : String) (sep : Char) : Option (String × String) :=
  match s.toList.dropWhile (· ≠ sep) with
  | [] => none
  | _ :: rest => some (String.ofList (s.toList.takeWhile (· ≠ sep)), String.ofList rest)

section model

variable {Path : Type*} (cf : CaseFolding) (fileName : Path → String)

def stem (path : Path) : String :=
  match splitOnce (fileName path) '-' with
  | some (_, rest) => cf.toLowercase rest
  | none => cf.toLowercase (fileName path)

/-- The file name as the comparison of `sort_by` sees it. -/
def loweredName (path : Path) : String := cf.toLowercase (fileName path)

/-- `HashMap<String, Vec<PathBuf>>` -/
abbrev Buckets (Path : Type*) := AList fun _ : String => List Path

def pushPath (ht : Buckets Path) (path : Path) : Buckets Path :=
  match ht.lookup (stem cf fileName path) with
  | some v => ht.insert (stem cf fileName path) (v ++ [path])
  | none => ht.insert (stem cf fileName path) [path]

/-- The loop over `values_mut`. -/
def sortValues (it : IterationOrder) (ht : Buckets Path) : Buckets Path :=
  (it.order ht.keys).foldl
    (fun m k =>
      match m.lookup k with
      | some v => m.insert k (sortDesc (loweredName cf fileName) v)
      | none => m)
    ht

/-- `keys.iter().map(|k| ht.remove(k).unwrap())`; `none` is the panic of `unwrap`. -/
def removeGroups : List String → Buckets Path → Option (List (List Path))
  | [], _ => some []
  | k :: ks, ht =>
    match ht.lookup k with
    | none => none
    | some v => (removeGroups ks (ht.erase k)).map (v :: ·)

def sortByStem (it : IterationOrder) (paths : List Path) : Option (List (List Path)) :=
  let ht := paths.foldl (pushPath cf fileName) ∅
  let ht := sortValues cf fileName it ht
  let keys := (it.order ht.keys).insertionSort (· ≤ ·)
  removeGroups keys ht

end model

section refinement

variable {Path : Type*} {cf : CaseFolding} {fileName : Path → String}

/-- The map holds, for the stem of every path of `l`, the paths of that stem in order. -/
def Collects (cf : CaseFolding) (fileName : Path → String) (ht : Buckets Path)
    (l : List Path) : Prop :=
  ∀ k, ht.lookup k =
    if ∃ p ∈ l, stem cf fileName p = k then some (l.filter fun p => stem cf fileName p = k)
    else none

theorem pushPath_collects {ht : Buckets Path} {l : List Path}
    (h : Collects cf fileName ht l) (p : Path) :
    Collects cf fileName (pushPath cf fileName ht p) (l ++ [p]) := by
  intro k
  have hp := h (stem cf fileName p)
  by_cases hk : k = stem cf fileName p
  · subst hk
    rw [if_pos ⟨p, by simp, rfl⟩]
    by_cases hex : ∃ q ∈ l, stem cf fileName q = stem cf fileName p
    · rw [if_pos hex] at hp
      simp [pushPath, hp, AList.lookup_insert, List.filter_append]
    · rw [if_neg hex] at hp
      have hnil : l.filter (fun q => stem cf fileName q = stem cf fileName p) = [] := by
        simpa using hex
      simp [pushPath, hp, AList.lookup_insert, List.filter_append, hnil]
  · have hl : (pushPath cf fileName ht p).lookup k = ht.lookup k := by
      unfold pushPath
      split <;> exact AList.lookup_insert_ne hk
    have hex : (∃ q ∈ l ++ [p], stem cf fileName q = k) ↔ ∃ q ∈ l, stem cf fileName q = k := by
      simp [eq_comm (a := stem cf fileName p), hk]
    have hf : (l ++ [p]).filter (fun q => stem cf fileName q = k) =
        l.filter fun q => stem cf fileName q = k := by
      simp [List.filter_append, eq_comm (a := stem cf fileName p), hk]
    rw [hl, h k, hf]
    simp only [hex]

theorem foldl_collects (paths l : List Path) {ht : Buckets Path}
    (h : Collects cf fileName ht l) :
    Collects cf fileName (paths.foldl (pushPath cf fileName) ht) (l ++ paths) := by
  induction paths generalizing ht l with
  | nil => simpa using h
  | cons p ps ih => simpa using ih (l ++ [p]) (pushPath_collects h p)

theorem collected (cf : CaseFolding) (fileName : Path → String) (paths : List Path) :
    Collects cf fileName (paths.foldl (pushPath cf fileName) ∅) paths := by
  have h0 : Collects cf fileName (∅ : Buckets Path) [] := fun k => by simp
  simpa using foldl_collects paths [] h0

theorem sortValues_fold (ks : List String) (hn : ks.Nodup) (ht : Buckets Path) (k : String) :
    (ks.foldl (fun m k =>
      match m.lookup k with
      | some v => m.insert k (sortDesc (loweredName cf fileName) v)
      | none => m) ht).lookup k =
      if k ∈ ks then (ht.lookup k).map (sortDesc (loweredName cf fileName)) else ht.lookup k := by
  induction ks generalizing ht with
  | nil => simp
  | cons j ks ih =>
    obtain ⟨hj, hn⟩ := List.nodup_cons.mp hn
    rw [List.foldl_cons, ih hn]
    cases hl : ht.lookup j with
    | none =>
      by_cases hk : k = j
      · subst hk; simp [hj, hl]
      · simp [hk]
    | some v =>
      by_cases hk : k = j
      · subst hk; simp [hj, hl, AList.lookup_insert]
      · simp [hk, AList.lookup_insert_ne hk]

theorem sortValues_lookup (it : IterationOrder) (ht : Buckets Path) (k : String) :
    (sortValues cf fileName it ht).lookup k =
      (ht.lookup k).map (sortDesc (loweredName cf fileName)) := by
  have hn : (it.order ht.keys).Nodup := (it.perm _).nodup_iff.mpr ht.keys_nodup
  rw [sortValues, sortValues_fold _ hn]
  split
  · rfl
  · rename_i hk
    have hk : k ∉ ht := fun hm => hk ((it.perm _).mem_iff.mpr (AList.mem_keys.mp hm))
    rw [AList.lookup_eq_none.mpr hk]
    rfl

/-- No `unwrap` of the removing loop panics as long as no key comes twice. -/
theorem removeGroups_eq (f : String → List Path) (ks : List String) (hn : ks.Nodup)
    (ht : Buckets Path) (h : ∀ k ∈ ks, ht.lookup k = some (f k)) :
    removeGroups ks ht = some (ks.map f) := by
  induction ks generalizing ht with
  | nil => rfl
  | cons k ks ih =>
    obtain ⟨hk, hn⟩ := List.nodup_cons.mp hn
    have hrest : removeGroups ks (ht.erase k) = some (ks.map f) := by
      refine ih hn _ fun j hj => ?_
      rw [AList.lookup_erase_ne (show j ≠ k from fun e => hk (e ▸ hj))]
      exact h j (List.mem_cons_of_mem _ hj)
    simp [removeGroups, h k List.mem_cons_self, hrest]

/-- The hash map computes the grouping, whatever order it iterates in. -/
theorem sortByStem_eq (it : IterationOrder) (paths : List Path) :
    sortByStem cf fileName it paths =
      some (grouped (stem cf fileName) (loweredName cf fileName) paths) := by
  have hl : ∀ k, (sortValues cf fileName it
      (paths.foldl (pushPath cf fileName) ∅)).lookup k =
        if ∃ p ∈ paths, stem cf fileName p = k then
          some (group (stem cf fileName) (loweredName cf fileName) paths k)
        else none := by
    intro k
    rw [sortValues_lookup, collected cf fileName paths k]
    split <;> rfl
  have hm : ∀ k, k ∈ (sortValues cf fileName it (paths.foldl (pushPath cf fileName) ∅)).keys ↔
      ∃ p ∈ paths, stem cf fileName p = k := by
    intro k
    rw [← AList.mem_keys, ← AList.lookup_isSome, hl]
    split <;> simp_all
  have hkeys : ((it.order (sortValues cf fileName it
      (paths.foldl (pushPath cf fileName) ∅)).keys).insertionSort (· ≤ ·)) =
        keys (stem cf fileName) paths :=
    insertionSort_eq_keys ((it.perm _).nodup_iff.mpr (AList.keys_nodup _))
      fun k => ((it.perm _).mem_iff).trans (hm k)
  simp only [sortByStem, hkeys]
  refine removeGroups_eq _ _ (keys_ascending _ paths).nodup _ fun k hk => ?_
  rw [hl, if_pos (mem_keys.mp hk)]

end refinement

def digit (n : ℕ) : Char := Char.ofNat (48 + n % 10)

/-- The four-digit prefix of version `n`. -/
def versionPrefix (n : ℕ) : String :=
  String.ofList [digit (n / 1000), digit (n / 100), digit (n / 10), digit n]

theorem digit_isDigit (n : ℕ) : (digit n).isDigit := by
  have h : ∀ m < 10, (Char.ofNat (48 + m)).isDigit := by decide
  exact h _ (Nat.mod_lt _ (by omega))

theorem digit_lt {m n : ℕ} (h : m % 10 < n % 10) : digit m < digit n := by
  have hd : ∀ b < 10, ∀ a < b, Char.ofNat (48 + a) < Char.ofNat (48 + b) := by decide
  exact hd _ (Nat.mod_lt _ (by omega)) _ h

theorem digit_congr {m n : ℕ} (h : m % 10 = n % 10) : digit m = digit n := by
  rw [digit, digit, h]

theorem versionPrefix_digits (n : ℕ) : ∀ c ∈ (versionPrefix n).toList, c.isDigit := by
  simp [versionPrefix, digit_isDigit]

theorem versionPrefix_lt {m n : ℕ} (hmn : m < n) (hn : n < 10000) (r s : String) :
    versionPrefix m ++ "-" ++ r < versionPrefix n ++ "-" ++ s := by
  rw [String.lt_iff_toList_lt]
  simp only [versionPrefix, String.toList_append, String.toList_ofList, List.cons_append,
    List.nil_append, List.cons_lt_cons_iff]
  rcases Nat.lt_trichotomy (m / 1000 % 10) (n / 1000 % 10) with h | h | h
  · exact .inl (digit_lt h)
  · refine .inr ⟨digit_congr h, ?_⟩
    rcases Nat.lt_trichotomy (m / 100 % 10) (n / 100 % 10) with h | h | h
    · exact .inl (digit_lt h)
    · refine .inr ⟨digit_congr h, ?_⟩
      rcases Nat.lt_trichotomy (m / 10 % 10) (n / 10 % 10) with h | h | h
      · exact .inl (digit_lt h)
      · exact .inr ⟨digit_congr h, .inl (digit_lt (by omega))⟩
      · omega
    · omega
  · omega

section versions

variable {Path : Type*} (cf : CaseFolding) (fileName : Path → String)

/-- The file name is `NNNN-rest` with version `n`. -/
def HasVersion (path : Path) (n : ℕ) : Prop :=
  n < 10000 ∧ ∃ rest, fileName path = versionPrefix n ++ "-" ++ rest

theorem loweredName_lt {p q : Path} {m n : ℕ} (hp : HasVersion fileName p m)
    (hq : HasVersion fileName q n) (hmn : m < n) :
    loweredName cf fileName p < loweredName cf fileName q := by
  obtain ⟨-, r, hr⟩ := hp
  obtain ⟨hn, s, hs⟩ := hq
  rw [loweredName, loweredName, hr, hs, cf.digits_dash _ _ (versionPrefix_digits m),
    cf.digits_dash _ _ (versionPrefix_digits n)]
  exact versionPrefix_lt hmn hn _ _

theorem higher_version_first {g : List Path} {p q : Path} {i j m n : ℕ}
    (hg : g.Pairwise fun a b => loweredName cf fileName b ≤ loweredName cf fileName a)
    (hi : g[i]? = some p) (hj : g[j]? = some q) (hp : HasVersion fileName p m)
    (hq : HasVersion fileName q n) (hmn : m < n) : j < i := by
  have hlt := loweredName_lt cf fileName hp hq hmn
  obtain ⟨hil, rfl⟩ := List.getElem?_eq_some_iff.mp hi
  obtain ⟨hjl, rfl⟩ := List.getElem?_eq_some_iff.mp hj
  rcases Nat.lt_trichotomy i j with h | rfl | h
  · exact absurd (List.pairwise_iff_getElem.mp hg i j hil hjl h) (not_le.mpr hlt)
  · exact absurd hlt (lt_irrefl _)
  · exact h

/-- `sort_by_stem` returns a complete partition by stem, in ascending stem order and
inside a group in descending order of the lowered names, stable and independent of the
hash map and, for distinct names, of the order of the input. -/
theorem sort_by_stem_spec [DecidableEq Path] (it : IterationOrder) (paths : List Path) :
    ∃ groups, sortByStem cf fileName it paths = some groups ∧
      groups.flatten.Perm paths ∧
      (∀ g ∈ groups, g ≠ []) ∧
      (∀ p ∈ paths, ∀ q ∈ paths, (∃ g ∈ groups, p ∈ g ∧ q ∈ g) ↔
        stem cf fileName p = stem cf fileName q) ∧
      (groups.Pairwise fun g h => ∀ p ∈ g, ∀ q ∈ h, stem cf fileName p < stem cf fileName q) ∧
      (∀ g ∈ groups, g.Pairwise fun p q => loweredName cf fileName q ≤ loweredName cf fileName p) ∧
      (∀ g ∈ groups, ∀ p ∈ g,
        g.filter (fun q => loweredName cf fileName q = loweredName cf fileName p) =
          paths.filter fun q => stem cf fileName q = stem cf fileName p ∧
            loweredName cf fileName q = loweredName cf fileName p) ∧
      (∀ g ∈ groups, ∀ (i j m n : ℕ) (p q : Path), g[i]? = some p → g[j]? = some q →
        HasVersion fileName p m → HasVersion fileName q n → m < n → j < i) ∧
      (∀ it', sortByStem cf fileName it' paths = some groups) ∧
      ∀ it' (paths' : List Path), paths'.Perm paths →
        (paths.map (loweredName cf fileName)).Nodup →
        sortByStem cf fileName it' paths' = some groups := by
  have hdesc : ∀ g ∈ grouped (stem cf fileName) (loweredName cf fileName) paths,
      g.Pairwise fun p q => loweredName cf fileName q ≤ loweredName cf fileName p :=
    fun g hg => grouped_descending _ _ _ hg
  refine ⟨_, sortByStem_eq it paths, grouped_flatten_perm _ _ _,
    fun g hg => grouped_ne_nil _ _ _ hg, fun p hp q hq => same_group_iff _ _ _ hp hq,
    grouped_ascending _ _ _, hdesc, fun g hg p hp => grouped_stable _ _ _ hg hp,
    fun g hg i j m n p q hi hj hp hq hmn =>
      higher_version_first cf fileName (hdesc g hg) hi hj hp hq hmn,
    fun it' => sortByStem_eq it' paths, ?_⟩
  intro it' paths' hperm hnodup
  rw [sortByStem_eq, grouped_eq_of_perm _ hperm]
  intro a ha b hb
  exact List.inj_on_of_nodup_map hnodup (hperm.mem_iff.mp ha) (hperm.mem_iff.mp hb)

end versions

example :
    sortByStem asciiCase id insertionOrder
      ["0010-one.bpf.o", "0020-ONE.bpf.o", "0010-two.bpf.o", "0010-three.bpf.o",
        "0020-three.bpf.o", "0030-THREE.bpf.o"] =
    some [["0020-ONE.bpf.o", "0010-one.bpf.o"],
      ["0030-THREE.bpf.o", "0020-three.bpf.o", "0010-three.bpf.o"], ["0010-two.bpf.o"]] := by
  decide +kernel

end StemSorting
