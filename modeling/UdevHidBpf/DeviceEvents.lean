import Mathlib.Tactic.NormNum
import UdevHidBpf.Transducers

/-! # `hid_bpf_device_event` programs

A program is called with each input report of a device, may rewrite it in place and
answers with a return value. Its file-scope variables outlive the call. -/
namespace DeviceEvents

open Transducers

def HID_IGNORE_EVENT : ℤ := -1

/-- The event data of `struct hid_bpf_ctx`: the buffer with its `allocated_size` bytes, of
which the first `size` are the report. Buffers come in chunks of 64 bytes. -/
structure Report where
  data : List UInt8
  size : ℕ
  size_le : size ≤ data.length
  chunked : 64 ∣ data.length
  nonempty : data ≠ []

/-- `hid_bpf_get_data`; `none` is NULL. -/
def hidBpfGetData (data : List UInt8) (offset size : ℕ) : Option (List UInt8) :=
  if offset + size ≤ data.length then some (data.drop offset) else none

def byte (data : List UInt8) (i : ℕ) : UInt8 := data.getD i 0

/-- What a call leaves behind: the variables, the buffer and the return value. -/
structure Called (S : Type*) where
  vars : S
  data : List UInt8
  ret : ℤ

/-- The report that is passed on: none after an error, the one in the buffer at its old size
for 0, else the first `ret` bytes. -/
def passedOn {S : Type*} (size : ℕ) (c : Called S) : Option (List UInt8) :=
  if c.ret < 0 then none
  else if c.ret = 0 then some (c.data.take size)
  else some (c.data.take c.ret.toNat)

def Report.bytes (r : Report) : List UInt8 := r.data.take r.size

/-- A report in the smallest buffer with room to spare, as the tests allocate it. -/
def Report.ofBytes (bytes : List UInt8) : Report where
  data := bytes ++ List.replicate (64 * (bytes.length / 64 + 1) - bytes.length) 0
  size := bytes.length
  size_le := by simp
  chunked := by
    refine ⟨bytes.length / 64 + 1, ?_⟩
    rw [List.length_append, List.length_replicate]
    omega
  nonempty := by
    intro hnil
    have hlen := congrArg List.length hnil
    rw [List.length_append, List.length_replicate, List.length_nil] at hlen
    omega

def device {S : Type*} (init : S) (event : S → List UInt8 → Called S) :
    Transducer S Report (Option (List UInt8)) where
  init := init
  step s r := ((event s r.data).vars, passedOn r.size (event s r.data))

def sizedDevice {S : Type*} (init : S) (event : S → ℕ → List UInt8 → Called S) :
    Transducer S Report (Option (List UInt8)) where
  init := init
  step s r := ((event s r.size r.data).vars, passedOn r.size (event s r.size r.data))

/-- A `__u16` in the buffer. -/
def getU16 (data : List UInt8) (i : ℕ) : UInt16 :=
  UInt16.ofNat ((byte data i).toNat + 256 * (byte data (i + 1)).toNat)

def setU16 (data : List UInt8) (i : ℕ) (v : UInt16) : List UInt8 :=
  (data.set i (UInt8.ofNat v.toNat)).set (i + 1) (UInt8.ofNat (v.toNat / 256))

def stores (data : List UInt8) (writes : List (ℕ × UInt8)) : List UInt8 :=
  writes.foldl (fun d w => d.set w.1 w.2) data

theorem Report.length_data (r : Report) : 64 ≤ r.data.length :=
  Nat.le_of_dvd (List.length_pos_iff.2 r.nonempty) r.chunked

theorem get_data_report (r : Report) {n : ℕ} (hn : n ≤ 64) :
    hidBpfGetData r.data 0 n = some r.data := by
  have hlen : 0 + n ≤ r.data.length := by
    have := r.length_data
    omega
  rw [hidBpfGetData, if_pos hlen, List.drop_zero]

theorem byte_set_self {data : List UInt8} {i : ℕ} (hi : i < data.length) (v : UInt8) :
    byte (data.set i v) i = v := by
  simp [byte, hi]

theorem set_byte_self {data : List UInt8} {i : ℕ} (hi : i < data.length) :
    data.set i (byte data i) = data := by
  simp [byte, hi]

theorem byte_take {data : List UInt8} {i n : ℕ} (hi : i < n) :
    byte (data.take n) i = byte data i := by
  simp [byte, List.getElem?_take_of_lt hi]

theorem byte_set_ne {data : List UInt8} {i j : ℕ} (h : i ≠ j) (v : UInt8) :
    byte (data.set i v) j = byte data j := by
  simp [byte, List.getElem?_set_ne h]

theorem bytes_at {data : List UInt8} {k n : ℕ} (h : k + n ≤ data.length) :
    (data.drop k).take n = (List.range' k n).map (byte data) := by
  apply List.ext_getElem
  · simp only [List.length_take, List.length_drop, List.length_map, List.length_range']
    omega
  · intro i hi _
    rw [List.length_take, List.length_drop] at hi
    have hlt : k + i < data.length := by omega
    simp [byte, hlt]

theorem length_setU16 (data : List UInt8) (i : ℕ) (v : UInt16) :
    (setU16 data i v).length = data.length := by
  simp [setU16]

theorem getU16_setU16 {data : List UInt8} {i : ℕ} (hi : i + 1 < data.length) (v : UInt16) :
    getU16 (setU16 data i v) i = v := by
  have hv : v.toNat < 65536 := v.toNat_lt
  have hlow : byte (setU16 data i v) i = UInt8.ofNat v.toNat := by
    rw [setU16, byte_set_ne (by omega), byte_set_self (by omega)]
  have hhigh : byte (setU16 data i v) (i + 1) = UInt8.ofNat (v.toNat / 256) := by
    rw [setU16, byte_set_self (by simpa using hi)]
  have hsum : v.toNat % 256 + 256 * (v.toNat / 256 % 256) = v.toNat := by omega
  rw [getU16, hlow, hhigh, UInt8.toNat_ofNat', UInt8.toNat_ofNat', hsum, UInt16.ofNat_toNat]

theorem or_shift_eq (a b : UInt8) :
    a.toUInt16 ||| b.toUInt16 <<< 8 = UInt16.ofNat (a.toNat + 256 * b.toNat) := by
  have ha := a.toNat_lt
  have hb := b.toNat_lt
  have hshift : (b.toUInt16 <<< 8).toNat = b.toNat * 2 ^ 8 := by
    rw [UInt16.toNat_shiftLeft, UInt8.toNat_toUInt16, Nat.shiftLeft_eq]
    exact Nat.mod_eq_of_lt (by simp; omega)
  apply UInt16.toNat_inj.1
  rw [UInt16.toNat_or, hshift, UInt8.toNat_toUInt16, UInt16.toNat_ofNat',
    Nat.mod_eq_of_lt (by omega), Nat.or_comm, Nat.mul_comm b.toNat,
    ← Nat.two_pow_add_eq_or_of_lt ha, Nat.add_comm]

theorem set_shift_eq (data : List UInt8) (i : ℕ) (v : UInt16) :
    (data.set i v.toUInt8).set (i + 1) (v >>> 8).toUInt8 = setU16 data i v := by
  have hlow : v.toUInt8 = UInt8.ofNat v.toNat := by
    apply UInt8.toNat_inj.1
    simp
  have hhigh : (v >>> 8).toUInt8 = UInt8.ofNat (v.toNat / 256) := by
    apply UInt8.toNat_inj.1
    simp [Nat.shiftRight_eq_div_pow]
  rw [hlow, hhigh, setU16]

theorem getElem?_setU16 {data : List UInt8} {i j : ℕ} (hlow : j ≠ i) (hhigh : j ≠ i + 1)
    (v : UInt16) : (setU16 data i v)[j]? = data[j]? := by
  rw [setU16, List.getElem?_set_ne hhigh.symm, List.getElem?_set_ne hlow.symm]

theorem take_setU16 (data : List UInt8) (i n : ℕ) (v : UInt16) :
    (setU16 data i v).take n = setU16 (data.take n) i v := by
  rw [setU16, setU16, List.take_set, List.take_set]

theorem stores_range (data bytes : List UInt8) {k : ℕ} (h : k + bytes.length ≤ data.length) :
    stores data ((List.range' k bytes.length).zip bytes) =
      data.take k ++ bytes ++ data.drop (k + bytes.length) := by
  induction bytes generalizing data k with
  | nil => simp [stores]
  | cons b bytes ih =>
    rw [List.length_cons] at h
    have hrest := ih (data.set k b) (k := k + 1) (by rw [List.length_set]; omega)
    have htake : (data.set k b).take (k + 1) = data.take k ++ [b] := by
      rw [List.take_add_one, List.take_set_of_le (Nat.le_refl k), List.getElem?_set_self (by omega)]
      rfl
    have hdrop : (data.set k b).drop (k + 1 + bytes.length) =
        data.drop (k + (bytes.length + 1)) := by
      rw [List.drop_set_of_lt (by omega)]
      congr 1
      omega
    rw [List.length_cons, List.range'_succ, List.zip_cons_cons, stores, List.foldl_cons, ← stores,
      hrest, htake, hdrop]
    simp

theorem take_stores {data bytes : List UInt8} (h : bytes.length ≤ data.length) :
    (stores data ((List.range' 0 bytes.length).zip bytes)).take bytes.length = bytes := by
  rw [stores_range data bytes (by omega)]
  simp

section calls

variable {S : Type*} {init s s' : S} {event : S → List UInt8 → Called S} {r : Report}
  {data : List UInt8}

theorem device_step : (device init event).step s r =
    ((event s r.data).vars, passedOn r.size (event s r.data)) := rfl

theorem device_ignores (h : event s r.data = ⟨s', data, HID_IGNORE_EVENT⟩) :
    (device init event).step s r = (s', none) := by
  rw [device_step, h]
  rfl

theorem device_passes (h : event s r.data = ⟨s', data, 0⟩) :
    (device init event).step s r = (s', some (data.take r.size)) := by
  rw [device_step, h]
  rfl

theorem device_resizes {n : ℕ} (hn : 0 < n) (h : event s r.data = ⟨s', data, n⟩) :
    (device init event).step s r = (s', some (data.take n)) := by
  have hpos : (0 : ℤ) < n := by exact_mod_cast hn
  rw [device_step, h, passedOn, if_neg (by simp), if_neg hpos.ne', Int.toNat_natCast]

theorem device_sends {bytes : List UInt8} (hpos : bytes ≠ []) (hlen : bytes.length ≤ 64)
    (h : event s r.data = ⟨s', stores r.data ((List.range' 0 bytes.length).zip bytes),
      bytes.length⟩) : (device init event).step s r = (s', some bytes) := by
  rw [device_resizes (List.length_pos_iff.2 hpos) h, take_stores (le_trans hlen r.length_data)]

theorem device_copies {bytes rest : List UInt8} (hpos : bytes ≠ [])
    (h : event s r.data = ⟨s', bytes ++ rest, bytes.length⟩) :
    (device init event).step s r = (s', some bytes) := by
  rw [device_resizes (List.length_pos_iff.2 hpos) h, List.take_left]

variable {sized : S → ℕ → List UInt8 → Called S}

theorem sizedDevice_step : (sizedDevice init sized).step s r =
    (device init fun s => sized s r.size).step s r := rfl

theorem sizedDevice_passes (h : sized s r.size r.data = ⟨s', data, 0⟩) :
    (sizedDevice init sized).step s r = (s', some (data.take r.size)) := by
  rw [sizedDevice_step]
  exact device_passes h

theorem sizedDevice_sends {bytes : List UInt8} (hpos : bytes ≠ []) (hlen : bytes.length ≤ 64)
    (h : sized s r.size r.data = ⟨s', stores r.data ((List.range' 0 bytes.length).zip bytes),
      bytes.length⟩) : (sizedDevice init sized).step s r = (s', some bytes) := by
  rw [sizedDevice_step]
  exact device_sends hpos hlen h

end calls

instance instDecidableForallByte {p : UInt8 → Prop} [DecidablePred p] :
    Decidable (∀ b, p b) :=
  decidable_of_iff (∀ v : BitVec 8, p ⟨v⟩) ⟨fun h b => h b.toBitVec, fun h v => h ⟨v⟩⟩

def hasBits (b mask : UInt8) : Bool := b &&& mask != 0

theorem and_eq_and_iff {mask : UInt8} (hone : ∀ b : UInt8, b &&& mask = 0 ∨ b &&& mask = mask)
    (b c : UInt8) : b &&& mask = c &&& mask ↔ hasBits b mask = hasBits c mask := by
  rcases eq_or_ne mask 0 with rfl | hzero
  · simp [hasBits]
  rcases hone b with hb | hb <;> rcases hone c with hc | hc <;>
    simp [hasBits, hb, hc, hzero, hzero.symm]

theorem hasBits_xor {mask : UInt8} (hone : ∀ b : UInt8, b &&& mask = 0 ∨ b &&& mask = mask)
    (b c : UInt8) : hasBits (b ^^^ c) mask = (hasBits b mask != hasBits c mask) := by
  have hand : (b ^^^ c) &&& mask = (b &&& mask) ^^^ (c &&& mask) := by
    apply UInt8.eq_of_toBitVec_eq
    ext i hi
    simp [Bool.and_xor_distrib_right]
  rcases eq_or_ne mask 0 with rfl | hzero
  · simp [hasBits]
  rcases hone b with hb | hb <;> rcases hone c with hc | hc <;>
    simp [hasBits, hand, hb, hc]

end DeviceEvents
