import Mathlib.Algebra.BigOperators.Group.Finset.Basic
import Mathlib.Data.Nat.Bitwise
import Mathlib.Tactic.Ring

/-! # Little-endian numbers

A list of bytes as a number, the least significant byte first, and the number in a range
of its bits. -/
namespace LittleEndian

def value : List UInt8 → ℕ
  | [] => 0
  | b :: bs => b.toNat + 256 * value bs

/-- The low `w` bytes of a number. -/
def bytes : ℕ → ℕ → List UInt8
  | 0, _ => []
  | w + 1, n => UInt8.ofNat n :: bytes w (n / 256)

/-- The number in the bits `start..end_`. -/
def bitRange (bytes : List UInt8) (start end_ : ℕ) : ℕ :=
  value bytes / 2 ^ start % 2 ^ (end_ - start)

@[simp] theorem length_bytes (w n : ℕ) : (bytes w n).length = w := by
  induction w generalizing n with
  | zero => rfl
  | succ w ih => rw [bytes, List.length_cons, ih]

theorem value_bytes (w n : ℕ) : value (bytes w n) = n % 2 ^ (8 * w) := by
  induction w generalizing n with
  | zero => simp [bytes, value, Nat.mod_one]
  | succ w ih =>
    rw [bytes, value, ih, UInt8.toNat_ofNat', Nat.mul_succ, Nat.add_comm (8 * w) 8, pow_add,
      Nat.mod_mul]
    rfl

theorem value_cons_or (b : UInt8) (bs : List UInt8) :
    value (b :: bs) = b.toNat ||| value bs <<< 8 := by
  rw [Nat.or_comm, ← Nat.shiftLeft_add_eq_or_of_lt b.toNat_lt, Nat.shiftLeft_eq, value]
  ring

theorem value_pair (a b : UInt8) : value [a, b] = a.toNat ||| b.toNat <<< 8 := by
  rw [value_cons_or]
  rfl

theorem value_triple (a b c : UInt8) :
    value [a, b, c] = a.toNat ||| b.toNat <<< 8 ||| c.toNat <<< 16 := by
  rw [value_cons_or, value_pair, Nat.shiftLeft_or_distrib, ← Nat.shiftLeft_add, Nat.lor_assoc]

theorem value_append (l m : List UInt8) :
    value (l ++ m) = value l + 2 ^ (8 * l.length) * value m := by
  induction l with
  | nil => simp [value]
  | cons b l ih =>
    rw [List.cons_append, value, value, ih, List.length_cons, Nat.mul_succ, pow_add]
    ring

theorem value_replicate_zero (n : ℕ) : value (List.replicate n 0) = 0 := by
  induction n with
  | zero => rfl
  | succ n ih => simp [List.replicate_succ, value, ih]

theorem value_byte (l : List UInt8) (i : ℕ) :
    value l / 2 ^ (8 * i) % 256 = (l[i]?.map UInt8.toNat).getD 0 := by
  induction l generalizing i with
  | nil => simp [value]
  | cons b l ih =>
    have hb : b.toNat < 256 := b.toNat_lt
    cases i with
    | zero => simp only [value, Nat.mul_zero, pow_zero, Nat.div_one, List.getElem?_cons_zero,
        Option.map_some, Option.getD_some]; omega
    | succ i =>
      rw [List.getElem?_cons_succ, ← ih i, value, Nat.mul_succ, Nat.add_comm (8 * i) 8, pow_add,
        ← Nat.div_div_eq_div_mul, show (2 : ℕ) ^ 8 = 256 from rfl,
        Nat.add_mul_div_left _ _ (by decide), Nat.div_eq_of_lt hb, Nat.zero_add]

theorem mod_or_byte (x n : ℕ) :
    x % 2 ^ (8 * n) ||| (x / 2 ^ (8 * n) % 256) * 2 ^ (8 * n) = x % 2 ^ (8 * (n + 1)) := by
  have hlt : x % 2 ^ (8 * n) < 2 ^ (8 * n) := Nat.mod_lt _ (Nat.two_pow_pos _)
  rw [Nat.or_comm, ← Nat.shiftLeft_eq, ← Nat.shiftLeft_add_eq_or_of_lt hlt, Nat.shiftLeft_eq,
    Nat.mul_succ, pow_add, show (2 : ℕ) ^ 8 = 256 from rfl, Nat.mod_mul]
  ring

/-- A range inside a window is the same range of the window. -/
theorem window_shift_mod {x s k b n : ℕ} (h : b + n ≤ k) :
    x / 2 ^ s % 2 ^ k / 2 ^ b % 2 ^ n = x / 2 ^ (s + b) % 2 ^ n := by
  obtain ⟨c, rfl⟩ : ∃ c, k = b + c := ⟨k - b, by omega⟩
  rw [pow_add 2 b c, Nat.mod_mul_right_div_self, Nat.div_div_eq_div_mul, ← pow_add,
    Nat.mod_mod_of_dvd _ (pow_dvd_pow 2 (by omega))]

theorem value_take (l : List UInt8) (n : ℕ) : value (l.take n) = value l % 2 ^ (8 * n) := by
  induction l generalizing n with
  | nil => simp [value]
  | cons b l ih =>
    have hb : b.toNat < 256 := b.toNat_lt
    cases n with
    | zero => simp [value, Nat.mod_one]
    | succ n =>
      rw [List.take_succ_cons, value, value, ih, Nat.mul_succ, Nat.add_comm (8 * n) 8, pow_add,
        show (2 : ℕ) ^ 8 = 256 from rfl, Nat.mod_mul, Nat.add_mul_mod_self_left,
        Nat.mod_eq_of_lt hb, Nat.add_mul_div_left _ _ (by decide), Nat.div_eq_of_lt hb,
        Nat.zero_add]

theorem value_drop (l : List UInt8) (n : ℕ) : value (l.drop n) = value l / 2 ^ (8 * n) := by
  rcases Nat.lt_or_ge l.length n with hlen | hlen
  · have hlt : value l < 2 ^ (8 * n) := by
      rw [← List.take_of_length_le hlen.le, value_take]
      exact Nat.mod_lt _ (Nat.two_pow_pos _)
    rw [List.drop_eq_nil_of_le hlen.le, Nat.div_eq_of_lt hlt]
    rfl
  · have hlt : value (l.take n) < 2 ^ (8 * n) := by
      rw [value_take]
      exact Nat.mod_lt _ (Nat.two_pow_pos _)
    conv_rhs =>
      rw [← List.take_append_drop n l, value_append, List.length_take, Nat.min_eq_left hlen]
    rw [Nat.add_mul_div_left _ _ (Nat.two_pow_pos _), Nat.div_eq_of_lt hlt, Nat.zero_add]

theorem bitRange_bytes (l : List UInt8) (i n : ℕ) :
    bitRange l (8 * i) (8 * (i + n)) = value ((l.drop i).take n) := by
  rw [bitRange, value_take, value_drop, ← Nat.mul_sub, Nat.add_sub_cancel_left]

theorem range_mod {x s e k : ℕ} (hse : s ≤ e) (hk : e ≤ k) :
    x % 2 ^ k / 2 ^ s % 2 ^ (e - s) = x / 2 ^ s % 2 ^ (e - s) := by
  have := window_shift_mod (x := x) (s := 0) (k := k) (b := s) (n := e - s) (by omega)
  simpa using this

theorem range_cons {b : UInt8} {l : List UInt8} {s e : ℕ} (hs : 8 ≤ s) :
    value (b :: l) / 2 ^ s % 2 ^ (e - s) = bitRange l (s - 8) (e - 8) := by
  have hb : b.toNat < 256 := b.toNat_lt
  obtain ⟨t, rfl⟩ : ∃ t, s = 8 + t := ⟨s - 8, by omega⟩
  rw [bitRange, value, pow_add, ← Nat.div_div_eq_div_mul, show (2 : ℕ) ^ 8 = 256 from rfl,
    Nat.add_mul_div_left _ _ (by decide), Nat.div_eq_of_lt hb, Nat.zero_add,
    Nat.add_sub_cancel_left, Nat.sub_add_eq]

theorem mod_two_pow_eq_sum (x n : ℕ) :
    x % 2 ^ n = ∑ i ∈ Finset.range n, (x.testBit i).toNat * 2 ^ i := by
  induction n with
  | zero => simp [Nat.mod_one]
  | succ n ih =>
    rw [Finset.sum_range_succ, ← ih, pow_succ, Nat.mod_mul, Nat.toNat_testBit, Nat.mul_comm]

theorem value_testBit (l : List UInt8) (k : ℕ) :
    (value l).testBit k = (l.getD (k / 8) 0).toNat.testBit (k % 8) := by
  have hbyte := value_byte l (k / 8)
  have hget : (l[k / 8]?.map UInt8.toNat).getD 0 = (l.getD (k / 8) 0).toNat := by
    rw [List.getD_eq_getElem?_getD]
    cases l[k / 8]? <;> rfl
  rw [← hget, ← hbyte, show (256 : ℕ) = 2 ^ 8 from rfl, Nat.testBit_mod_two_pow,
    Nat.testBit_div_two_pow, Nat.mod_add_div]
  simp [Nat.mod_lt]

theorem bitRange_eq_sum (l : List UInt8) (start end_ : ℕ) :
    bitRange l start end_ = ∑ i ∈ Finset.range (end_ - start),
      ((l.getD ((start + i) / 8) 0).toNat.testBit ((start + i) % 8)).toNat * 2 ^ i := by
  rw [bitRange, mod_two_pow_eq_sum]
  refine Finset.sum_congr rfl fun i _ => ?_
  rw [Nat.testBit_div_two_pow, Nat.add_comm i start, value_testBit]

end LittleEndian
