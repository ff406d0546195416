import UdevHidBpf.LittleEndian
import UdevHidBpf.RdescHelpers

/-! # `extract_bits`

The reader of a field's bits out of a report, with every buffer access and every shift
checked: `none` is an access outside the buffer or an undefined shift. -/
namespace ExtractBits

open LittleEndian RdescHelpers
open RdescStructs (Field Report)

def HID_MAX_BUFFER_SIZE : ℕ := 16384

def readByte (buffer : List UInt8) (i : ℕ) : Option ℕ := buffer[i]?.map UInt8.toNat

/-- `x << s` and `x >> s` on unsigned numbers of `w` bits. -/
def shl (w x : ℕ) (s : ℤ) : Option ℕ :=
  if 0 ≤ s ∧ s < w then some (x * 2 ^ s.toNat % 2 ^ w) else none

def shr (w x : ℕ) (s : ℤ) : Option ℕ :=
  if 0 ≤ s ∧ s < w then some (x / 2 ^ s.toNat) else none

/-- The conversion of an `unsigned int` to `int`. -/
def toInt (x : ℕ) : ℤ := if x < 2 ^ 31 then x else x - 2 ^ 32

def toU64 (x : ℤ) : ℕ := (x % 2 ^ 64).toNat

def fieldStartByte (field : HidRdescField) : ℕ := field.bitsStart.toNat / 8

def fieldEndByte (field : HidRdescField) : ℕ :=
  if field.bitsEnd = 0 then 0 else (field.bitsEnd.toNat - 1) / 8

/-- The first `n` rounds of the loop over the bytes from `start` on. -/
def gather (buffer : List UInt8) (start : ℕ) : ℕ → Option ℕ
  | 0 => some 0
  | n + 1 => do
    let value ← gather buffer start n
    let byte ← readByte buffer (start + n)
    let shifted ← shl 64 byte (n * 8)
    some (value ||| shifted)

def extractBits (buffer : List UInt8) (size : ℕ) (field : HidRdescField) : Option UInt32 :=
  let nbits : ℤ := field.bitsEnd.toNat - field.bitsStart.toNat
  let start := fieldStartByte field
  let end_ := fieldEndByte field
  let baseShift := field.bitsStart.toNat % 8
  if nbits ≤ 0 ∨ nbits > 32 ∨ start ≥ size ∨ end_ ≥ size then some 0
  else if baseShift = 0 ∧ nbits = 8 ∧ start < size then do
    let b0 ← readByte buffer start
    some (UInt32.ofNat b0)
  else if baseShift = 0 ∧ nbits = 16 ∧ start < size ∧ start + 1 < size then do
    let b0 ← readByte buffer start
    let b1 ← (readByte buffer (start + 1)).bind (shl 32 · 8)
    some (UInt32.ofNat (b0 ||| b1))
  else if baseShift = 0 ∧ nbits = 32 ∧ start < size ∧ start + 1 < size ∧ start + 2 < size ∧
      start + 3 < size then do
    let b0 ← readByte buffer start
    let b1 ← (readByte buffer (start + 1)).bind (shl 32 · 8)
    let b2 ← (readByte buffer (start + 2)).bind (shl 32 · 16)
    let b3 ← (readByte buffer (start + 3)).bind (shl 32 · 24)
    some (UInt32.ofNat (b0 ||| b1 ||| b2 ||| b3))
  else do
    let mask ← shr 32 0xffffffff (32 - nbits)
    let value ← gather buffer start (end_ + 1 - start)
    let shifted ← shr 64 value baseShift
    some (UInt32.ofNat (shifted &&& toU64 (toInt mask)))

theorem readByte_eq {buffer : List UInt8} {start n : ℕ} (h : start + n < buffer.length) :
    readByte buffer (start + n) = some (value buffer / 2 ^ (8 * start) / 2 ^ (8 * n) % 256) := by
  rw [Nat.div_div_eq_div_mul, ← pow_add, ← Nat.mul_add, value_byte, readByte,
    List.getElem?_eq_getElem h]
  rfl

theorem shl_byte {w b n : ℕ} (hb : b < 256) (hw : 8 * n + 8 ≤ w) :
    shl w b ((8 * n : ℕ) : ℤ) = some (b * 2 ^ (8 * n)) := by
  have hlt : b * 2 ^ (8 * n) < 2 ^ w := by
    calc b * 2 ^ (8 * n) < 2 ^ 8 * 2 ^ (8 * n) := Nat.mul_lt_mul_of_pos_right hb (by positivity)
      _ = 2 ^ (8 + 8 * n) := (pow_add 2 8 (8 * n)).symm
      _ ≤ 2 ^ w := Nat.pow_le_pow_right (by decide) (by omega)
  rw [shl, if_pos ⟨by omega, by omega⟩, Int.toNat_natCast, Nat.mod_eq_of_lt hlt]

theorem gather_eq {buffer : List UInt8} {start n : ℕ} (hlen : start + n ≤ buffer.length)
    (hn : n ≤ 8) :
    gather buffer start n = some (value buffer / 2 ^ (8 * start) % 2 ^ (8 * n)) := by
  induction n with
  | zero => simp [gather, Nat.mod_one]
  | succ n ih =>
    have hb : value buffer / 2 ^ (8 * start) / 2 ^ (8 * n) % 256 < 256 := Nat.mod_lt _ (by decide)
    rw [gather, ih (by omega) (by omega), readByte_eq (by omega), ← mod_or_byte,
      show ((n : ℤ) * 8) = ((8 * n : ℕ) : ℤ) by push_cast; ring]
    simp only [Option.bind_eq_bind, Option.bind_some]
    rw [shl_byte hb (by omega), Option.bind_some]

theorem readShifted_eq {buffer : List UInt8} {start n : ℕ} (h : start + n < buffer.length)
    (hn : 8 * n + 8 ≤ 32) :
    (readByte buffer (start + n)).bind (shl 32 · ((8 * n : ℕ) : ℤ)) =
      some (value buffer / 2 ^ (8 * start) / 2 ^ (8 * n) % 256 * 2 ^ (8 * n)) := by
  rw [readByte_eq h, Option.bind_some, shl_byte (Nat.mod_lt _ (by decide)) hn]

theorem masked_eq {n : ℕ} (h0 : 0 < n) (hn : n ≤ 32) {x : ℕ} (hx : x < 2 ^ 64) :
    ∃ mask, shr 32 0xffffffff (32 - (n : ℤ)) = some mask ∧
      UInt32.ofNat (x &&& toU64 (toInt mask)) = UInt32.ofNat (x % 2 ^ n) := by
  have hmask : ∀ m ≤ 32, 0xffffffff / 2 ^ (32 - m) = 2 ^ m - 1 := by decide
  refine ⟨2 ^ n - 1, ?_, ?_⟩
  · rw [shr, if_pos ⟨by omega, by push_cast; omega⟩, show (32 - (n : ℤ)).toNat = 32 - n by omega,
      hmask n hn]
  · rcases Nat.lt_or_ge n 32 with h | h
    · have hsmall : 2 ^ n - 1 < 2 ^ 31 := by
        have := Nat.pow_le_pow_right (show 0 < 2 by decide) (show n ≤ 31 by omega)
        have := Nat.two_pow_pos n
        omega
      have hcast : toU64 (toInt (2 ^ n - 1)) = 2 ^ n - 1 := by
        rw [toInt, if_pos hsmall, toU64]
        omega
      rw [hcast, Nat.and_two_pow_sub_one_eq_mod]
    · obtain rfl : n = 32 := by omega
      have hcast : toU64 (toInt (2 ^ 32 - 1)) = 2 ^ 64 - 1 := by decide
      rw [hcast, Nat.and_two_pow_sub_one_eq_mod, Nat.mod_eq_of_lt hx]
      refine UInt32.toNat_inj.mp ?_
      simp [UInt32.toNat_ofNat']

theorem fieldEndByte_eq {field : HidRdescField} (h : field.bitsStart.toNat < field.bitsEnd.toNat) :
    fieldEndByte field = (field.bitsEnd.toNat - 1) / 8 := by
  have hne : field.bitsEnd ≠ 0 := by
    intro h0
    rw [h0] at h
    exact absurd h (Nat.not_lt_zero _)
  rw [fieldEndByte, if_neg hne]

theorem gatherMasked_eq {buffer : List UInt8} {size s n : ℕ} (hsize : size ≤ buffer.length)
    (hpos : 0 < n) (h32 : n ≤ 32) (hlast : (s + n - 1) / 8 < size) :
    (do let mask ← shr 32 0xffffffff (32 - (n : ℤ))
        let value ← gather buffer (s / 8) ((s + n - 1) / 8 + 1 - s / 8)
        let shifted ← shr 64 value ((s % 8 : ℕ) : ℤ)
        some (UInt32.ofNat (shifted &&& toU64 (toInt mask)))) =
      some (UInt32.ofNat (value buffer / 2 ^ s % 2 ^ n)) := by
  obtain ⟨x, hx⟩ : ∃ x, x = value buffer / 2 ^ (8 * (s / 8)) := ⟨_, rfl⟩
  obtain ⟨count, hc⟩ : ∃ count, count = (s + n - 1) / 8 + 1 - s / 8 := ⟨_, rfl⟩
  have hcount : s % 8 + n ≤ 8 * count := by omega
  have hwindow : x % 2 ^ (8 * count) / 2 ^ (s % 8) < 2 ^ 64 := by
    refine lt_of_le_of_lt (Nat.div_le_self _ _) ?_
    refine lt_of_lt_of_le (Nat.mod_lt _ (Nat.two_pow_pos _)) ?_
    exact Nat.pow_le_pow_right (by decide) (by omega)
  obtain ⟨mask, hmask, hmasked⟩ := masked_eq hpos h32 hwindow
  have hgather : gather buffer (s / 8) count = some (x % 2 ^ (8 * count)) := by
    rw [hx]
    exact gather_eq (by omega) (by omega)
  have hshift : shr 64 (x % 2 ^ (8 * count)) ((s % 8 : ℕ) : ℤ) =
      some (x % 2 ^ (8 * count) / 2 ^ (s % 8)) := by
    rw [shr, if_pos ⟨by omega, by push_cast; omega⟩, Int.toNat_natCast]
  rw [hmask, ← hc, hgather]
  simp only [Option.bind_eq_bind, Option.bind_some, hshift]
  rw [hmasked, hx, window_shift_mod hcount, show 8 * (s / 8) + s % 8 = s by omega]

theorem extractBits_eq {buffer : List UInt8} {size : ℕ} {field : HidRdescField}
    (hsize : size ≤ buffer.length) (hpos : field.bitsStart.toNat < field.bitsEnd.toNat)
    (h32 : field.bitsEnd.toNat ≤ field.bitsStart.toNat + 32)
    (hlast : (field.bitsEnd.toNat - 1) / 8 < size) :
    extractBits buffer size field =
      some (UInt32.ofNat (bitRange buffer field.bitsStart.toNat field.bitsEnd.toNat)) := by
  obtain ⟨n, hn⟩ : ∃ n, field.bitsEnd.toNat = field.bitsStart.toNat + n :=
    ⟨field.bitsEnd.toNat - field.bitsStart.toNat, by omega⟩
  have hend := fieldEndByte_eq hpos
  unfold extractBits fieldStartByte
  simp only [hend, bitRange]
  generalize field.bitsStart.toNat = s at *
  generalize field.bitsEnd.toNat = e at *
  subst hn
  have hsub : ((s + n : ℕ) : ℤ) - (s : ℤ) = n := by omega
  rw [hsub, Nat.add_sub_cancel_left]
  have hguard : ¬ ((n : ℤ) ≤ 0 ∨ (n : ℤ) > 32 ∨ s / 8 ≥ size ∨ (s + n - 1) / 8 ≥ size) := by omega
  rw [if_neg hguard]
  -- the fast paths read whole bytes, where `s` is a multiple of 8
  obtain ⟨x, hx⟩ : ∃ x, x = value buffer / 2 ^ (8 * (s / 8)) := ⟨_, rfl⟩
  have hfirst (h0 : s / 8 < size) : readByte buffer (s / 8) = some (x % 2 ^ (8 * 1)) := by
    have h := readByte_eq (show s / 8 + 0 < buffer.length by omega)
    simpa [hx] using h
  have hnext (k : ℕ) (hk : s / 8 + k < size) (h3 : k ≤ 3) :
      (readByte buffer (s / 8 + k)).bind (shl 32 · ((8 * k : ℕ) : ℤ)) =
        some (x / 2 ^ (8 * k) % 256 * 2 ^ (8 * k)) := by
    rw [hx]
    exact readShifted_eq (by omega) (by omega)
  have hor (k : ℕ) := mod_or_byte x k
  have hwhole (h0 : s % 8 = 0) : x = value buffer / 2 ^ s := by
    rw [hx, show 8 * (s / 8) = s by omega]
  split_ifs with h8 h16 h32'
  · obtain rfl : n = 8 := by omega
    rw [hfirst h8.2.2, ← hwhole h8.1]
    rfl
  · obtain ⟨ha, hb, h0, h1⟩ := h16
    obtain rfl : n = 16 := by omega
    have h1 : (readByte buffer (s / 8 + 1)).bind (shl 32 · 8) = _ := hnext 1 h1 (by decide)
    rw [hfirst h0, h1, ← hwhole ha]
    simp only [Option.bind_eq_bind, Option.bind_some, hor]
  · obtain ⟨ha, hb, h0, h1, h2, h3⟩ := h32'
    obtain rfl : n = 32 := by omega
    have h1 : (readByte buffer (s / 8 + 1)).bind (shl 32 · 8) = _ := hnext 1 h1 (by decide)
    have h2 : (readByte buffer (s / 8 + 2)).bind (shl 32 · 16) = _ := hnext 2 h2 (by decide)
    have h3 : (readByte buffer (s / 8 + 3)).bind (shl 32 · 24) = _ := hnext 3 h3 (by decide)
    rw [hfirst h0, h1, h2, h3, ← hwhole ha]
    simp only [Option.bind_eq_bind, Option.bind_some, hor]
  · exact gatherMasked_eq hsize (by omega) (by omega) hlast

theorem extractBits_empty {buffer : List UInt8} {size : ℕ} {field : HidRdescField}
    (h : field.bitsEnd.toNat ≤ field.bitsStart.toNat) : extractBits buffer size field = some 0 := by
  unfold extractBits
  simp only
  rw [if_pos (Or.inl (by omega))]

/-- A report with nothing but bit `i` set. -/
def oneHot (i len : ℕ) : List UInt8 :=
  List.replicate (i / 8) 0 ++ UInt8.ofNat (2 ^ (i % 8)) :: List.replicate (len - i / 8 - 1) 0

theorem length_oneHot {i len : ℕ} (h : i < 8 * len) : (oneHot i len).length = len := by
  simp only [oneHot, List.length_append, List.length_replicate, List.length_cons]
  omega

theorem value_oneHot (i len : ℕ) : value (oneHot i len) = 2 ^ i := by
  have hbyte : (UInt8.ofNat (2 ^ (i % 8))).toNat = 2 ^ (i % 8) := by
    rw [UInt8.toNat_ofNat']
    exact Nat.mod_eq_of_lt (Nat.pow_lt_pow_right (by decide) (Nat.mod_lt _ (by decide)))
  rw [oneHot, value_append, value_replicate_zero, List.length_replicate, value, hbyte,
    value_replicate_zero, Nat.mul_zero, Nat.add_zero, Nat.zero_add, ← pow_add, Nat.div_add_mod]

theorem bitRange_oneHot {i len e : ℕ} (h : i < e) : bitRange (oneHot i len) i e = 1 := by
  rw [bitRange, value_oneHot, Nat.div_self (Nat.two_pow_pos i)]
  exact Nat.mod_eq_of_lt (Nat.one_lt_two_pow (by omega))

theorem bitRange_oneHot_below {i len s e : ℕ} (he : e ≤ i) (hs : s ≤ e) :
    bitRange (oneHot i len) s e = 0 := by
  rw [bitRange, value_oneHot, Nat.pow_div (by omega) (by decide)]
  exact Nat.mod_eq_zero_of_dvd (pow_dvd_pow 2 (by omega))

/-- The truncated range of a field that ends at or after bit 65536 misses its first bit. -/
theorem extractBits_truncated {s e len : ℕ} {field : HidRdescField}
    (hstart : field.bitsStart = UInt16.ofNat s) (hend : field.bitsEnd = UInt16.ofNat e)
    (hse : s < e) (h32 : e ≤ s + 32) (hover : 65536 ≤ e) (hlen : e ≤ 8 * len) (hmax : len ≤ 16384) :
    extractBits (oneHot s len) len field = some 0 := by
  have hs : field.bitsStart.toNat = s % 65536 := by rw [hstart, UInt16.toNat_ofNat']
  have he : field.bitsEnd.toNat = e % 65536 := by rw [hend, UInt16.toNat_ofNat']
  by_cases hin : field.bitsStart.toNat < field.bitsEnd.toNat
  · rw [extractBits_eq (length_oneHot (by omega)).ge hin (by omega) (by omega), hs, he,
      bitRange_oneHot_below (by omega) (by omega)]
    rfl
  · exact extractBits_empty (by omega)

/-- The range survives exactly for the fields that end before bit 65536, and the size
exactly for the reports below 65536 bits. -/
theorem bit_range_survives_iff (report : Report) (field : Field)
    (hfit : field.bits.end_ ≤ report.sizeInBits)
    (hlimit : report.sizeInBits ≤ 8 * HID_MAX_BUFFER_SIZE)
    (hpos : field.bits.start < field.bits.end_) (h32 : field.bits.end_ ≤ field.bits.start + 32) :
    ((∃ c, RdescStructs.HidRdescField.fromField field = some c ∧ ∀ buffer : List UInt8,
        buffer.length ≤ HID_MAX_BUFFER_SIZE → field.bits.end_ ≤ 8 * buffer.length →
        ∃ v, extractBits buffer buffer.length (viewField c) = some v ∧
          v.toNat = bitRange buffer field.bits.start field.bits.end_) ↔
      field.bits.end_ < 65536) ∧
    ((∃ r, RdescStructs.HidRdescReport.fromReport report = some r ∧
        (viewReport r).sizeInBits.toNat = report.sizeInBits) ↔ report.sizeInBits < 65536) := by
  obtain ⟨c, hc, hstart, hend, -, -⟩ := RdescStructs.fromField_spec field
  constructor
  · constructor
    · rintro ⟨c', hc', hall⟩
      obtain rfl : c = c' := Option.some.inj (hc.symm.trans hc')
      by_contra hover
      simp only [HID_MAX_BUFFER_SIZE] at hlimit hall
      obtain ⟨len, hlen⟩ : ∃ len, len = (field.bits.end_ + 7) / 8 := ⟨_, rfl⟩
      have hlength : (oneHot field.bits.start len).length = len := length_oneHot (by omega)
      obtain ⟨v, hv, hval⟩ := hall (oneHot field.bits.start len) (by omega) (by omega)
      have hread : extractBits (oneHot field.bits.start len) len (viewField c) = some 0 :=
        extractBits_truncated hstart hend hpos h32 (by omega) (by omega) (by omega)
      rw [hlength, hread] at hv
      rw [← Option.some.inj hv, bitRange_oneHot hpos] at hval
      exact absurd hval (by decide)
    · intro hsmall
      refine ⟨c, hc, fun buffer hmax hin => ?_⟩
      have hs : (viewField c).bitsStart.toNat = field.bits.start := by
        rw [viewField, hstart, UInt16.toNat_ofNat']
        exact Nat.mod_eq_of_lt (by omega)
      have he : (viewField c).bitsEnd.toNat = field.bits.end_ := by
        rw [viewField, hend, UInt16.toNat_ofNat']
        exact Nat.mod_eq_of_lt (by omega)
      refine ⟨_, extractBits_eq le_rfl (by omega) (by omega) (by omega), ?_⟩
      rw [UInt32.toNat_ofNat', hs, he]
      refine Nat.mod_eq_of_lt (lt_of_lt_of_le (Nat.mod_lt _ (Nat.two_pow_pos _)) ?_)
      exact Nat.pow_le_pow_right (by decide) (by omega)
  · rw [RdescStructs.fromReport_eq]
    simp only [Option.some.injEq, exists_eq_left', viewReport, UInt16.toNat_ofNat']
    omega

/-- A byte-wide axis at bit `start`. -/
def axisField (start : ℕ) : Field := .variableField
  { bits := ⟨start, start + 8⟩
    usage := ⟨1, 0x30⟩
    logicalMinimum := 0
    logicalMaximum := 255
    attributes := ⟨false, false, false, false, false, none, false⟩
    collections := [] }

def axisReport (start : ℕ) : Report := ⟨none, start + 8, [axisField start]⟩

theorem bit_range_survives_last_low_byte :
    (∃ c, RdescStructs.HidRdescField.fromField (axisField 65520) = some c ∧
      ∀ buffer : List UInt8, buffer.length ≤ HID_MAX_BUFFER_SIZE → 65528 ≤ 8 * buffer.length →
        ∃ v, extractBits buffer buffer.length (viewField c) = some v ∧
          v.toNat = bitRange buffer 65520 65528) ∧
    ∃ r, RdescStructs.HidRdescReport.fromReport (axisReport 65520) = some r ∧
      (viewReport r).sizeInBits.toNat = 65528 := by
  obtain ⟨hfield, hreport⟩ := bit_range_survives_iff (axisReport 65520) (axisField 65520)
    (by decide) (by decide) (by decide) (by decide)
  exact ⟨hfield.mpr (by decide), hreport.mpr (by decide)⟩

/-- The byte at bit 65536 is injected as the byte at bit 0. -/
theorem axis_misread_at_65536 :
    ¬ ∀ (report : Report) (field : Field), field ∈ report.fields →
      field.bits.end_ ≤ report.sizeInBits → report.sizeInBits ≤ 8 * HID_MAX_BUFFER_SIZE →
      field.bits.start < field.bits.end_ → field.bits.end_ ≤ field.bits.start + 32 →
      ∃ c, RdescStructs.HidRdescField.fromField field = some c ∧ ∀ buffer : List UInt8,
        buffer.length ≤ HID_MAX_BUFFER_SIZE → field.bits.end_ ≤ 8 * buffer.length →
        ∃ v, extractBits buffer buffer.length (viewField c) = some v ∧
          v.toNat = bitRange buffer field.bits.start field.bits.end_ := by
  intro h
  obtain ⟨c, hc, hall⟩ := h (axisReport 65536) (axisField 65536) (by simp [axisReport])
    (by decide) (by decide) (by decide) (by decide)
  obtain ⟨c', hc', hstart, hend, -⟩ := RdescStructs.fromField_spec (axisField 65536)
  obtain rfl : c = c' := Option.some.inj (hc.symm.trans hc')
  have hlen : (oneHot 65536 8193).length = 8193 := length_oneHot (by decide)
  obtain ⟨v, hv, hval⟩ := hall (oneHot 65536 8193) (by rw [hlen]; decide) (by rw [hlen]; decide)
  have hread : extractBits (oneHot 65536 8193) 8193 (viewField c) = some 0 :=
    extractBits_truncated (s := 65536) (e := 65544) hstart hend (by decide) (by decide)
      (by decide) (by decide) (by decide)
  rw [hlen, hread] at hv
  rw [← Option.some.inj hv, show (axisField 65536).bits = ⟨65536, 65544⟩ from rfl,
    bitRange_oneHot (by decide)] at hval
  exact absurd hval (by decide)

/-- Bit `k` of a buffer: bit `k % 8` of byte `k / 8`. -/
def bitAt (buffer : List UInt8) (k : ℕ) : ℕ :=
  ((buffer.getD (k / 8) 0).toNat.testBit (k % 8)).toNat

/-- A field of 1 to 32 bits whose last bit lies inside the first `size` bytes. -/
def Readable (size : ℕ) (field : HidRdescField) : Prop :=
  field.bitsStart.toNat < field.bitsEnd.toNat ∧
    field.bitsEnd.toNat ≤ field.bitsStart.toNat + 32 ∧ field.bitsEnd.toNat ≤ 8 * size

def generalLoop (buffer : List UInt8) (field : HidRdescField) : Option UInt32 :=
  let nbits : ℤ := field.bitsEnd.toNat - field.bitsStart.toNat
  let start := fieldStartByte field
  let end_ := fieldEndByte field
  let baseShift := field.bitsStart.toNat % 8
  do
    let mask ← shr 32 0xffffffff (32 - nbits)
    let value ← gather buffer start (end_ + 1 - start)
    let shifted ← shr 64 value baseShift
    some (UInt32.ofNat (shifted &&& toU64 (toInt mask)))

theorem generalLoop_eq {buffer : List UInt8} {size : ℕ} {field : HidRdescField}
    (hsize : size ≤ buffer.length) (h : Readable size field) :
    generalLoop buffer field =
      some (UInt32.ofNat (bitRange buffer field.bitsStart.toNat field.bitsEnd.toNat)) := by
  obtain ⟨hpos, h32, hlast⟩ := h
  have hend := fieldEndByte_eq hpos
  obtain ⟨n, hn⟩ : ∃ n, field.bitsEnd.toNat = field.bitsStart.toNat + n :=
    ⟨field.bitsEnd.toNat - field.bitsStart.toNat, by omega⟩
  have hnbits : (field.bitsEnd.toNat : ℤ) - field.bitsStart.toNat = n := by omega
  have hloop := gatherMasked_eq (s := field.bitsStart.toNat) (n := n) hsize (by omega) (by omega)
    (by omega)
  rw [generalLoop, fieldStartByte, hend, hnbits, bitRange, hn, Nat.add_sub_cancel_left]
  exact hloop

theorem bitRange_lt {buffer : List UInt8} {start end_ : ℕ} (h : end_ ≤ start + 32) :
    bitRange buffer start end_ < 2 ^ 32 := by
  refine lt_of_lt_of_le (Nat.mod_lt _ (Nat.two_pow_pos _)) ?_
  exact Nat.pow_le_pow_right (by decide) (by omega)

theorem extractBits_unreadable {buffer : List UInt8} {size : ℕ} {field : HidRdescField}
    (h : ¬ Readable size field) : extractBits buffer size field = some 0 := by
  by_cases hpos : field.bitsStart.toNat < field.bitsEnd.toNat
  · have hend := fieldEndByte_eq hpos
    unfold extractBits
    simp only [hend]
    refine if_pos ?_
    by_contra hguard
    refine h ⟨hpos, ?_, ?_⟩ <;> omega
  · exact extractBits_empty (by omega)

/-- What is read is the little-endian slice, on the fast paths as in the loop. -/
theorem extract_bits_slice (buffer : List UInt8) (size : ℕ) (field : HidRdescField)
    (hsize : size ≤ buffer.length) :
    (Readable size field → ∃ v, extractBits buffer size field = some v ∧
      v.toNat = ∑ i ∈ Finset.range (field.bitsEnd.toNat - field.bitsStart.toNat),
        bitAt buffer (field.bitsStart.toNat + i) * 2 ^ i ∧
      generalLoop buffer field = some v) ∧
    (¬ Readable size field → extractBits buffer size field = some 0) := by
  refine ⟨fun h => ?_, extractBits_unreadable⟩
  obtain ⟨hpos, h32, hlast⟩ := h
  refine ⟨_, extractBits_eq hsize hpos h32 (by omega), ?_, generalLoop_eq hsize ⟨hpos, h32, hlast⟩⟩
  rw [UInt32.toNat_ofNat', Nat.mod_eq_of_lt (bitRange_lt h32), bitRange_eq_sum]
  rfl

def rangeField (start end_ : UInt16) : HidRdescField where
  fieldType := 0
  numCollections := 0
  bitsStart := start
  bitsEnd := end_
  usagePage := 0
  usageId := 0
  usageMinimum := 0
  usageMaximum := none
  logicalMinimum := 0
  logicalMaximum := 0
  flags := ⟨false, false, false, false, false, false, false, false⟩
  collections := Vector.replicate _ ⟨0, 0, 0⟩

/-- Twelve bits from bit 4 on, and a range that ends behind the buffer. -/
theorem extract_bits_slice_unaligned :
    (∃ v, extractBits [0xc0, 0xab] 2 (rangeField 4 16) = some v ∧ v.toNat = 0xabc) ∧
      extractBits [0xc0, 0xab] 2 (rangeField 4 17) = some 0 := by
  constructor
  · obtain ⟨v, hv, hsum, -⟩ := (extract_bits_slice [0xc0, 0xab] 2 (rangeField 4 16) le_rfl).1
      (by unfold Readable; decide)
    exact ⟨v, hv, hsum.trans (by decide)⟩
  · exact (extract_bits_slice [0xc0, 0xab] 2 (rangeField 4 17) le_rfl).2 (by unfold Readable; decide)

end ExtractBits
