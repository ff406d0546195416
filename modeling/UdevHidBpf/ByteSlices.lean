import Mathlib.Data.String.Basic

/-! # Texts cut by bytes

A text is a list of characters; an index counts the bytes of its UTF-8 form. Off a
character boundary or behind the end there is no slice. -/
namespace ByteSlices

open String (utf8Len)

def dropBytes : ℕ → List Char → Option (List Char)
  | n, [] => if n = 0 then some [] else none
  | n, c :: cs =>
    if n = 0 then some (c :: cs)
    else if c.utf8Size ≤ n then dropBytes (n - c.utf8Size) cs
    else none

def takeBytes : ℕ → List Char → Option (List Char)
  | n, [] => if n = 0 then some [] else none
  | n, c :: cs =>
    if n = 0 then some []
    else if c.utf8Size ≤ n then (takeBytes (n - c.utf8Size) cs).map (c :: ·)
    else none

/-- The bytes from `i` up to `j`. -/
def byteSlice (t : List Char) (i j : ℕ) : Option (List Char) :=
  (dropBytes i t).bind (takeBytes (j - i))

theorem dropBytes_zero (t : List Char) : dropBytes 0 t = some t := by
  cases t <;> rfl

theorem takeBytes_zero (t : List Char) : takeBytes 0 t = some [] := by
  cases t <;> rfl

theorem dropBytes_add (a b : List Char) (n : ℕ) :
    dropBytes (utf8Len a + n) (a ++ b) = dropBytes n b := by
  induction a with
  | nil => rw [String.utf8Len_nil, Nat.zero_add, List.nil_append]
  | cons c a ih =>
    have hpos := c.utf8Size_pos
    have hsub : utf8Len a + c.utf8Size + n - c.utf8Size = utf8Len a + n := by omega
    rw [List.cons_append, String.utf8Len_cons, dropBytes, if_neg (by omega), if_pos (by omega),
      hsub, ih]

@[simp] theorem dropBytes_utf8Len (a b : List Char) : dropBytes (utf8Len a) (a ++ b) = some b := by
  rw [← Nat.add_zero (utf8Len a), dropBytes_add, dropBytes_zero]

@[simp] theorem takeBytes_utf8Len (a b : List Char) : takeBytes (utf8Len a) (a ++ b) = some a := by
  induction a with
  | nil => exact takeBytes_zero b
  | cons c a ih =>
    have hpos := c.utf8Size_pos
    rw [List.cons_append, String.utf8Len_cons, takeBytes, if_neg (by omega), if_pos (by omega),
      Nat.add_sub_cancel, ih]
    rfl

theorem dropBytes_append {n : ℕ} {a : List Char} (h : n ≤ utf8Len a) (b : List Char) :
    dropBytes n (a ++ b) = (dropBytes n a).map (· ++ b) := by
  induction a generalizing n with
  | nil =>
    obtain rfl : n = 0 := Nat.le_zero.mp h
    rw [dropBytes_zero, dropBytes_zero]
    rfl
  | cons c a ih =>
    rw [String.utf8Len_cons] at h
    rw [List.cons_append, dropBytes, dropBytes]
    split
    · rfl
    · split
      · exact ih (by omega)
      · rfl

theorem dropBytes_eq_some_iff {n : ℕ} {t b : List Char} :
    dropBytes n t = some b ↔ ∃ a, t = a ++ b ∧ utf8Len a = n := by
  constructor
  · intro h
    induction t generalizing n with
    | nil =>
      unfold dropBytes at h
      split at h
      · rename_i hn
        cases h
        exact ⟨[], rfl, hn.symm⟩
      · cases h
    | cons c t ih =>
      unfold dropBytes at h
      split at h
      · rename_i hn
        cases h
        exact ⟨[], rfl, hn.symm⟩
      · split at h
        · obtain ⟨a, rfl, ha⟩ := ih h
          refine ⟨c :: a, rfl, ?_⟩
          rw [String.utf8Len_cons, ha]
          omega
        · cases h
  · rintro ⟨a, rfl, rfl⟩
    exact dropBytes_utf8Len a b

theorem takeBytes_eq_some_iff {n : ℕ} {t a : List Char} :
    takeBytes n t = some a ↔ a <+: t ∧ utf8Len a = n := by
  constructor
  · intro h
    induction t generalizing n a with
    | nil =>
      unfold takeBytes at h
      split at h
      · rename_i hn
        cases h
        exact ⟨List.nil_prefix, hn.symm⟩
      · cases h
    | cons c t ih =>
      unfold takeBytes at h
      split at h
      · rename_i hn
        cases h
        exact ⟨List.nil_prefix, hn.symm⟩
      · split at h
        · obtain ⟨a, ha, rfl⟩ := Option.map_eq_some_iff.mp h
          obtain ⟨hpre, hlen⟩ := ih ha
          refine ⟨(List.prefix_cons_inj c).mpr hpre, ?_⟩
          rw [String.utf8Len_cons, hlen]
          omega
        · cases h
  · rintro ⟨⟨b, rfl⟩, rfl⟩
    exact takeBytes_utf8Len a b

theorem byteSlice_eq_some_iff {t s : List Char} {i j : ℕ} :
    byteSlice t i j = some s ↔
      ∃ a b, t = a ++ (s ++ b) ∧ utf8Len a = i ∧ utf8Len s = j - i := by
  rw [byteSlice, Option.bind_eq_some_iff]
  constructor
  · rintro ⟨rest, hdrop, htake⟩
    obtain ⟨a, rfl, ha⟩ := dropBytes_eq_some_iff.mp hdrop
    obtain ⟨⟨b, rfl⟩, hs⟩ := takeBytes_eq_some_iff.mp htake
    exact ⟨a, b, rfl, ha, hs⟩
  · rintro ⟨a, b, rfl, rfl, hs⟩
    exact ⟨s ++ b, dropBytes_utf8Len a _, hs ▸ takeBytes_utf8Len s b⟩

theorem byteSlice_add (a b : List Char) (i j : ℕ) :
    byteSlice (a ++ b) (utf8Len a + i) (utf8Len a + j) = byteSlice b i j := by
  rw [byteSlice, byteSlice, dropBytes_add, Nat.add_sub_add_left]

theorem utf8Len_eq_one_iff {t : List Char} : utf8Len t = 1 ↔ ∃ c, t = [c] ∧ c.utf8Size = 1 := by
  constructor
  · intro h
    cases t with
    | nil => cases h
    | cons c t =>
      have hpos := c.utf8Size_pos
      rw [String.utf8Len_cons] at h
      obtain rfl : t = [] := String.utf8Len_eq_zero.mp (by omega)
      exact ⟨c, rfl, by simpa using h⟩
  · rintro ⟨c, rfl, hc⟩
    simpa using hc

theorem byteSlice_one_eq_some_iff {t s : List Char} {n : ℕ} :
    byteSlice t 1 (n + 1) = some s ↔
      ∃ c rest, t = c :: (s ++ rest) ∧ c.utf8Size = 1 ∧ utf8Len s = n := by
  rw [byteSlice_eq_some_iff, Nat.add_sub_cancel]
  constructor
  · rintro ⟨a, rest, rfl, ha, hs⟩
    obtain ⟨c, rfl, hc⟩ := utf8Len_eq_one_iff.mp ha
    exact ⟨c, rest, rfl, hc, hs⟩
  · rintro ⟨c, rest, rfl, hc, hs⟩
    exact ⟨[c], rest, rfl, utf8Len_eq_one_iff.mpr ⟨c, rfl, hc⟩, hs⟩

theorem utf8Size_of_lt {c : Char} (h : c.toNat < 128) : c.utf8Size = 1 := by
  have hn : c.val.toNat = c.toNat := rfl
  have hmax : (127 : UInt32).toNat = 127 := rfl
  rw [Char.utf8Size_eq_one_iff, UInt32.le_iff_toNat_le, hn, hmax]
  omega

theorem utf8Len_of_ascii {t : List Char} (h : ∀ c ∈ t, c.utf8Size = 1) : utf8Len t = t.length := by
  induction t with
  | nil => rfl
  | cons c t ih =>
    rw [String.utf8Len_cons, ih fun d hd => h d (List.mem_cons_of_mem _ hd),
      h c List.mem_cons_self, List.length_cons]

end ByteSlices
