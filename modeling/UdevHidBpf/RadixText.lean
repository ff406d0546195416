import Mathlib.Data.Char
import Mathlib.Data.List.Lex
import Mathlib.Tactic.Ring

/-! # Numbers as text

Zero-padded upper-case numbers, as the format strings of C, Python and Rust write them,
and reading a number back in the same radix. -/
namespace RadixText

abbrev Text := List Char

def upperDigit (d : ℕ) : Char := (Nat.digitChar d).toUpper

def digits (b n : ℕ) : Text := (Nat.toDigits b n).map Char.toUpper

/-- `{:0w}` in radix ten, `{:0wX}` and `%0wX` in radix sixteen. -/
def padded (b w n : ℕ) : Text := (digits b n).leftpad w '0'

def digitValue (b : ℕ) (c : Char) : Option ℕ :=
  let value :=
    if '0' ≤ c ∧ c ≤ '9' then some (c.toNat - 48)
    else if 'a' ≤ c ∧ c ≤ 'z' then some (c.toNat - 87)
    else if 'A' ≤ c ∧ c ≤ 'Z' then some (c.toNat - 55)
    else none
  value.filter (· < b)

def parseDigits (b : ℕ) : ℕ → Text → Option ℕ
  | acc, [] => some acc
  | acc, c :: cs => (digitValue b c).bind fun d => parseDigits b (acc * b + d) cs

def readDigits (b : ℕ) (text : Text) : Option ℕ :=
  if text.isEmpty then none else parseDigits b 0 text

/-- `from_str_radix` of an unsigned type, before its bound: one plus sign may stand in front. -/
def fromStrRadix (b : ℕ) (text : Text) : Option ℕ :=
  readDigits b (if text.head? = some '+' then text.tail else text)

variable {b : ℕ}

theorem digitValue_upperDigit {d : ℕ} (hb : b ≤ 16) (hd : d < b) :
    digitValue b (upperDigit d) = some d := by
  have hany : ∀ d < 16, digitValue 16 (upperDigit d) = some d := by decide
  have h := hany d (by omega)
  rw [digitValue, Option.filter_eq_some_iff] at h
  rw [digitValue, h.1, Option.filter_some_pos]
  exact decide_eq_true hd

theorem digits_eq_if (hb : 1 < b) (n : ℕ) :
    digits b n = if n < b then [upperDigit n] else digits b (n / b) ++ [upperDigit (n % b)] := by
  rw [digits, Nat.toDigits_eq_if hb]
  split
  · rfl
  · rw [List.map_append]
    rfl

theorem parseDigits_digits (hb : 1 < b) (hb' : b ≤ 16) (n acc : ℕ) (cs : Text) :
    parseDigits b acc (digits b n ++ cs) =
      parseDigits b (acc * b ^ (digits b n).length + n) cs := by
  induction n using Nat.strongRecOn generalizing cs with
  | ind n ih =>
    rw [digits_eq_if hb]
    by_cases hn : n < b
    · simp [hn, parseDigits, digitValue_upperDigit hb' hn]
    · have hdiv : n / b < n := Nat.div_lt_self (by omega) hb
      have hmod : n % b < b := Nat.mod_lt _ (by omega)
      have hvalue (k : ℕ) : (acc * b ^ k + n / b) * b + n % b = acc * b ^ (k + 1) + n := by
        rw [Nat.add_mul, Nat.add_assoc, Nat.mul_comm (n / b) b, Nat.div_add_mod]
        ring
      rw [if_neg hn, List.append_assoc, ih _ hdiv, List.length_append, List.length_singleton,
        List.singleton_append, parseDigits, digitValue_upperDigit hb' hmod, Option.bind_some,
        hvalue]

theorem parseDigits_lt {acc n : ℕ} {cs : Text} (h : parseDigits b acc cs = some n) :
    n < (acc + 1) * b ^ cs.length := by
  induction cs generalizing acc with
  | nil =>
    rw [parseDigits, Option.some.injEq] at h
    simp [h]
  | cons c cs ih =>
    rw [parseDigits, Option.bind_eq_some_iff] at h
    obtain ⟨d, hd, h⟩ := h
    have hlt : d < b := by simpa using (Option.filter_eq_some_iff.mp hd).2
    calc n < (acc * b + d + 1) * b ^ cs.length := ih h
      _ ≤ ((acc + 1) * b) * b ^ cs.length := Nat.mul_le_mul_right _ (by rw [Nat.add_mul]; omega)
      _ = (acc + 1) * b ^ (c :: cs).length := by rw [List.length_cons]; ring

theorem isSome_of_parseDigits {acc n : ℕ} {cs : Text} (h : parseDigits b acc cs = some n) :
    ∀ c ∈ cs, (digitValue b c).isSome := by
  induction cs generalizing acc with
  | nil => simp
  | cons c cs ih =>
    rw [parseDigits, Option.bind_eq_some_iff] at h
    obtain ⟨d, hd, h⟩ := h
    exact List.forall_mem_cons.mpr ⟨by rw [hd]; rfl, ih h⟩

theorem parseDigits_of_readDigits {n : ℕ} {cs : Text} (h : readDigits b cs = some n) :
    parseDigits b 0 cs = some n := by
  unfold readDigits at h
  split at h
  · cases h
  · exact h

theorem isSome_of_fromStrRadix {n : ℕ} {cs : Text} (h : fromStrRadix b cs = some n) :
    ∀ c ∈ cs, c ≠ '+' → (digitValue b c).isSome := by
  have hread {cs : Text} (h : readDigits b cs = some n) : ∀ c ∈ cs, (digitValue b c).isSome :=
    isSome_of_parseDigits (parseDigits_of_readDigits h)
  intro c hc hplus
  unfold fromStrRadix at h
  split at h
  · rename_i hhead
    cases cs with
    | nil => cases hhead
    | cons d cs =>
      obtain rfl : d = '+' := Option.some.inj hhead
      exact hread h c ((List.mem_cons.mp hc).resolve_left hplus)
  · exact hread h c hc

theorem digitValue_plus (b : ℕ) : digitValue b '+' = none := rfl

theorem fromStrRadix_lt (hb : 0 < b) {n : ℕ} {cs : Text} (h : fromStrRadix b cs = some n) :
    n < b ^ cs.length := by
  have hread {cs : Text} (h : readDigits b cs = some n) : n < b ^ cs.length := by
    simpa using parseDigits_lt (parseDigits_of_readDigits h)
  unfold fromStrRadix at h
  split at h
  · refine (hread h).trans_le (Nat.pow_le_pow_right hb ?_)
    rw [List.length_tail]
    exact Nat.sub_le _ _
  · exact hread h

theorem readDigits_eq_some_iff {n : ℕ} {cs : Text} :
    readDigits b cs = some n ↔ fromStrRadix b cs = some n ∧ '+' ∉ cs := by
  have heq (hplus : '+' ∉ cs) : fromStrRadix b cs = readDigits b cs := by
    rw [fromStrRadix, if_neg fun hhead => hplus (List.mem_of_head? hhead)]
  constructor
  · intro h
    have hplus : '+' ∉ cs := by
      intro hmem
      have hdigit := isSome_of_parseDigits (parseDigits_of_readDigits h) '+' hmem
      rw [digitValue_plus] at hdigit
      cases hdigit
    exact ⟨(heq hplus).trans h, hplus⟩
  · rintro ⟨h, hplus⟩
    exact (heq hplus).symm.trans h

theorem parseDigits_zeros (hb : 0 < b) (k : ℕ) (cs : Text) :
    parseDigits b 0 (List.replicate k '0' ++ cs) = parseDigits b 0 cs := by
  have hzero : digitValue b '0' = some 0 := by simp [digitValue, hb]
  induction k with
  | zero => rfl
  | succ k ih => simpa [List.replicate_succ, parseDigits, hzero] using ih

theorem parseDigits_padded (hb : 1 < b) (hb' : b ≤ 16) (w n : ℕ) :
    parseDigits b 0 (padded b w n) = some n := by
  rw [padded, List.leftpad, parseDigits_zeros (by omega), ← List.append_nil (digits b n),
    parseDigits_digits hb hb']
  simp [parseDigits]

theorem digits_ne_nil (b n : ℕ) : digits b n ≠ [] := by
  simp [digits, Nat.toDigits_ne_nil]

theorem padded_ne_nil (b w n : ℕ) : padded b w n ≠ [] := by
  simp [padded, List.leftpad, digits_ne_nil]

theorem mem_digits (hb : 1 < b) {n : ℕ} {c : Char} (hc : c ∈ digits b n) :
    ∃ d < b, c = upperDigit d := by
  induction n using Nat.strongRecOn with
  | ind n ih =>
    rw [digits_eq_if hb] at hc
    by_cases hn : n < b
    · rw [if_pos hn, List.mem_singleton] at hc
      exact ⟨n, hn, hc⟩
    · rw [if_neg hn, List.mem_append, List.mem_singleton] at hc
      rcases hc with hc | hc
      · exact ih _ (Nat.div_lt_self (by omega) hb) hc
      · exact ⟨n % b, Nat.mod_lt _ (by omega), hc⟩

theorem mem_padded (hb : 1 < b) {w n : ℕ} {c : Char} (hc : c ∈ padded b w n) :
    ∃ d < b, c = upperDigit d := by
  rw [padded, List.leftpad, List.mem_append] at hc
  rcases hc with hc | hc
  · exact ⟨0, by omega, List.eq_of_mem_replicate hc⟩
  · exact mem_digits hb hc

theorem not_mem_padded (hb : 1 < b) (hb' : b ≤ 16) {w n : ℕ} {c : Char}
    (hc : ∀ d < 16, upperDigit d ≠ c) : c ∉ padded b w n := by
  intro h
  obtain ⟨d, hd, rfl⟩ := mem_padded hb h
  exact hc d (hd.trans_le hb') rfl

theorem readDigits_padded (hb : 1 < b) (hb' : b ≤ 16) (w n : ℕ) :
    readDigits b (padded b w n) = some n := by
  simp [readDigits, padded_ne_nil, parseDigits_padded hb hb']

theorem fromStrRadix_padded (hb : 1 < b) (hb' : b ≤ 16) (w n : ℕ) :
    fromStrRadix b (padded b w n) = some n := by
  have hsign : (padded b w n).head? ≠ some '+' := by
    intro h
    exact not_mem_padded hb hb' (by decide) (List.mem_of_head? h)
  rw [fromStrRadix, if_neg hsign, readDigits_padded hb hb']

theorem padded_injective (hb : 1 < b) (hb' : b ≤ 16) {w w' m n : ℕ}
    (h : padded b w m = padded b w' n) : m = n := by
  have hm := parseDigits_padded hb hb' w m
  rw [h, parseDigits_padded hb hb'] at hm
  exact (Option.some.inj hm).symm

theorem length_padded_iff (hb : 1 < b) {w n : ℕ} (hw : 0 < w) :
    (padded b w n).length = w ↔ n < b ^ w := by
  rw [← Nat.length_toDigits_le_iff hb hw, padded, List.length_leftpad, digits, List.length_map]
  omega

theorem padded_add {v w n : ℕ} (hb : 1 < b) (hw : 0 < w) (hn : n < b ^ w) :
    padded b (v + w) n = List.replicate v '0' ++ padded b w n := by
  have hlen : (digits b n).length ≤ w := by
    rwa [digits, List.length_map, Nat.length_toDigits_le_iff hb hw]
  rw [padded, padded, List.leftpad, List.leftpad, ← List.append_assoc,
    List.replicate_append_replicate, Nat.add_sub_assoc hlen]

theorem zeros_prefix_padded (hb : 1 < b) (hb' : b ≤ 16) {v w n : ℕ} (hw : 0 < w)
    (hn : n < b ^ (v + w)) :
    (∃ t, padded b (v + w) n = List.replicate v '0' ++ t) ↔ n < b ^ w := by
  constructor
  · rintro ⟨t, ht⟩
    have hlen := (length_padded_iff hb (by omega)).mpr hn
    have hparse := parseDigits_padded hb hb' (v + w) n
    rw [ht, List.length_append, List.length_replicate] at hlen
    rw [ht, parseDigits_zeros (by omega)] at hparse
    have hlt := parseDigits_lt hparse
    rwa [Nat.zero_add, Nat.one_mul, Nat.add_left_cancel hlen] at hlt
  · intro h
    exact ⟨_, padded_add hb hw h⟩

theorem zeros_padded_eq (hb : 1 < b) (hb' : b ≤ 16) {v w m n : ℕ} (hw : 0 < w)
    (hn : n < b ^ (v + w)) :
    padded b (v + w) n = List.replicate v '0' ++ padded b w m ↔ n = m ∧ n < b ^ w := by
  constructor
  · intro h
    have hn' := (zeros_prefix_padded hb hb' hw hn).mp ⟨_, h⟩
    rw [padded_add hb hw hn', List.append_cancel_left_eq] at h
    exact ⟨padded_injective hb hb' h, hn'⟩
  · rintro ⟨rfl, h⟩
    exact padded_add hb hw h

/-- Texts agree on a prefix that ends a field only if they agree on the field. -/
theorem prefix_field {c : Char} {u v s t : Text} (hu : c ∉ u) (hv : c ∉ v) :
    u ++ c :: s <+: v ++ c :: t ↔ u = v ∧ s <+: t := by
  induction u generalizing v with
  | nil =>
    cases v with
    | nil => simp
    | cons y v =>
      have hy : c ≠ y := fun h => hv (h ▸ List.mem_cons_self)
      simp [hy]
  | cons x u ih =>
    cases v with
    | nil =>
      have hx : x ≠ c := fun h => hu (h ▸ List.mem_cons_self)
      simp [hx]
    | cons y v =>
      rw [List.cons_append, List.cons_append, List.cons_prefix_cons,
        ih (fun h => hu (List.mem_cons_of_mem _ h)) (fun h => hv (List.mem_cons_of_mem _ h)),
        List.cons.injEq, and_assoc]

theorem digitValue_eq_some_iff {c : Char} {d : ℕ} :
    digitValue b c = some d ↔ d < b ∧ ((c.toNat = 48 + d ∧ d < 10) ∨
      (10 ≤ d ∧ d < 36 ∧ (c.toNat = 87 + d ∨ c.toNat = 55 + d))) := by
  have hn : c.val.toNat = c.toNat := rfl
  simp only [digitValue, Char.le_def, UInt32.le_iff_toNat_le, Char.reduceVal, UInt32.reduceToNat,
    hn, Option.filter_eq_some_iff, decide_eq_true_eq]
  rw [and_comm]
  refine and_congr_right fun _ => ?_
  split
  · simp only [Option.some.injEq]
    omega
  · split
    · simp only [Option.some.injEq]
      omega
    · split
      · simp only [Option.some.injEq]
        omega
      · simp only [reduceCtorEq, false_iff]
        omega

theorem toNat_toLower (c : Char) :
    c.toLower.toNat = if 65 ≤ c.toNat ∧ c.toNat ≤ 90 then c.toNat + 32 else c.toNat := by
  have hn : c.val.toNat = c.toNat := rfl
  have hupper : (c.val ≥ 'A'.val ∧ c.val ≤ 'Z'.val) ↔ 65 ≤ c.toNat ∧ c.toNat ≤ 90 := by
    simp only [ge_iff_le, UInt32.le_iff_toNat_le, Char.reduceVal, UInt32.reduceToNat, hn]
  by_cases h : c.val ≥ 'A'.val ∧ c.val ≤ 'Z'.val
  · have hle := hupper.mp h
    have hlower : c.toLower.val = c.val + ('a'.val - 'A'.val) := congrArg Char.val (dif_pos h)
    have hdist : ('a'.val - 'A'.val).toNat = 32 := rfl
    have hsum : (c.val + ('a'.val - 'A'.val)).toNat = c.toNat + 32 := by
      rw [UInt32.toNat_add, hn, hdist]
      omega
    rw [if_pos hle, ← hsum, ← hlower]
    rfl
  · have hlower : c.toLower = c := dif_neg h
    rw [if_neg fun h' => h (hupper.mpr h'), hlower]

theorem digitValue_toLower (c : Char) : digitValue b c.toLower = digitValue b c := by
  refine Option.ext fun d => ?_
  rw [digitValue_eq_some_iff, digitValue_eq_some_iff, toNat_toLower]
  split <;> omega

theorem toLower_eq_of_digitValue {c c' : Char} {d : ℕ} (h : digitValue b c = some d)
    (h' : digitValue b c' = some d) : c.toLower = c'.toLower := by
  have hnat : c.toLower.toNat = c'.toLower.toNat := by
    rw [digitValue_eq_some_iff] at h h'
    rw [toNat_toLower, toNat_toLower]
    split <;> split <;> omega
  exact Char.ext (UInt32.toNat_inj.mp hnat)

theorem parseDigits_map_toLower (acc : ℕ) (cs : Text) :
    parseDigits b acc (cs.map Char.toLower) = parseDigits b acc cs := by
  induction cs generalizing acc with
  | nil => rfl
  | cons c cs ih => simp only [List.map_cons, parseDigits, digitValue_toLower, ih]

theorem readDigits_of_toLower_eq {cs ds : Text} (h : cs.map Char.toLower = ds.map Char.toLower) :
    readDigits b cs = readDigits b ds := by
  have hread (cs : Text) : readDigits b (cs.map Char.toLower) = readDigits b cs := by
    rw [readDigits, readDigits, List.isEmpty_map, parseDigits_map_toLower]
  rw [← hread cs, h, hread]

theorem le_parseDigits {acc n : ℕ} {cs : Text} (h : parseDigits b acc cs = some n) :
    acc * b ^ cs.length ≤ n := by
  induction cs generalizing acc with
  | nil =>
    rw [parseDigits, Option.some.injEq] at h
    simp [h]
  | cons c cs ih =>
    rw [parseDigits, Option.bind_eq_some_iff] at h
    obtain ⟨d, -, h⟩ := h
    calc acc * b ^ (c :: cs).length = acc * b * b ^ cs.length := by
          rw [List.length_cons]
          ring
      _ ≤ (acc * b + d) * b ^ cs.length := Nat.mul_le_mul_right _ (Nat.le_add_right _ _)
      _ ≤ n := ih h

/-- The digits of a number are known from their count, up to their case. -/
theorem map_toLower_of_parseDigits {acc n : ℕ} {cs ds : Text} (hlen : cs.length = ds.length)
    (h : parseDigits b acc cs = some n) (h' : parseDigits b acc ds = some n) :
    cs.map Char.toLower = ds.map Char.toLower := by
  induction cs generalizing acc ds with
  | nil =>
    obtain rfl := List.length_eq_zero_iff.mp hlen.symm
    rfl
  | cons c cs ih =>
    cases ds with
    | nil => cases hlen
    | cons d ds =>
      rw [List.length_cons, List.length_cons, Nat.add_right_cancel_iff] at hlen
      rw [parseDigits, Option.bind_eq_some_iff] at h h'
      obtain ⟨x, hx, h⟩ := h
      obtain ⟨y, hy, h'⟩ := h'
      -- the first digits are the quotient of the number by a power of the radix
      have hxy : acc * b + x = acc * b + y := by
        have hxlo := le_parseDigits h
        have hxhi := parseDigits_lt h
        have hylo := le_parseDigits h'
        have hyhi := parseDigits_lt h'
        rw [← hlen] at hylo hyhi
        have h1 := Nat.lt_of_mul_lt_mul_right (hxlo.trans_lt hyhi)
        have h2 := Nat.lt_of_mul_lt_mul_right (hylo.trans_lt hxhi)
        omega
      obtain rfl : x = y := Nat.add_left_cancel hxy
      rw [List.map_cons, List.map_cons, ih hlen h h', toLower_eq_of_digitValue hx hy]

theorem lt_of_digitValue_lt (hb : b ≤ 10) {c d : Char} {x y : ℕ} (hx : digitValue b c = some x)
    (hy : digitValue b d = some y) (hxy : x < y) : c < d := by
  rw [digitValue_eq_some_iff] at hx hy
  have hlt : c.val.toNat < d.val.toNat := by
    have hc : c.val.toNat = c.toNat := rfl
    have hd : d.val.toNat = d.toNat := rfl
    omega
  exact UInt32.lt_iff_toNat_lt.mpr hlt

theorem eq_of_digitValue (hb : b ≤ 10) {c d : Char} {x : ℕ} (hc : digitValue b c = some x)
    (hd : digitValue b d = some x) : c = d := by
  rw [digitValue_eq_some_iff] at hc hd
  apply Char.toNat_inj.mp
  omega

theorem append_lt_append_of_parseDigits (hb : b ≤ 10) {acc m n : ℕ} {cs ds : Text} (u v : Text)
    (hlen : cs.length = ds.length) (h : parseDigits b acc cs = some m)
    (h' : parseDigits b acc ds = some n) (hmn : m < n) : cs ++ u < ds ++ v := by
  induction cs generalizing acc ds with
  | nil =>
    obtain rfl := List.length_eq_zero_iff.mp hlen.symm
    rw [parseDigits, Option.some.injEq] at h h'
    omega
  | cons c cs ih =>
    cases ds with
    | nil => cases hlen
    | cons d ds =>
      rw [List.length_cons, List.length_cons, Nat.add_right_cancel_iff] at hlen
      rw [parseDigits, Option.bind_eq_some_iff] at h h'
      obtain ⟨x, hx, h⟩ := h
      obtain ⟨y, hy, h'⟩ := h'
      rw [List.cons_append, List.cons_append, List.cons_lt_cons_iff]
      rcases lt_trichotomy x y with hxy | rfl | hyx
      · exact .inl (lt_of_digitValue_lt hb hx hy hxy)
      · exact .inr ⟨eq_of_digitValue hb hx hy, ih hlen h h'⟩
      · -- a smaller first digit makes the smaller number
        have hlo := le_parseDigits h
        have hhi := parseDigits_lt h'
        rw [← hlen] at hhi
        have hle : (acc * b + y + 1) * b ^ cs.length ≤ (acc * b + x) * b ^ cs.length :=
          Nat.mul_le_mul_right _ (by omega)
        omega

theorem padded_append_lt {w m n : ℕ} (hw : 0 < w) (hmn : m < n) (hn : n < 10 ^ w) (u v : Text) :
    padded 10 w m ++ u < padded 10 w n ++ v := by
  have hm := (length_padded_iff (by decide) hw).mpr (hmn.trans hn)
  have hn := (length_padded_iff (by decide) hw).mpr hn
  exact append_lt_append_of_parseDigits le_rfl u v (hm.trans hn.symm)
    (parseDigits_padded (by decide) (by decide) w m)
    (parseDigits_padded (by decide) (by decide) w n) hmn

end RadixText
