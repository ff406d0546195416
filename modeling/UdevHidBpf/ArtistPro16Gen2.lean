import UdevHidBpf.DeviceEvents

/-! # Tilt compensation of the XP-Pen Artist Pro 14, 16 and 19 (Gen 2)

The coil of the pen is not at its tip. A tilted pen is seen beside the place it touches, by
an offset that a table gives for each angle. -/
namespace ArtistPro16Gen2

open Transducers DeviceEvents

def PID_ARTIST_PRO14_GEN2 : UInt32 := 0x095a
def PID_ARTIST_PRO16_GEN2 : UInt32 := 0x095b
def PID_ARTIST_PRO19_GEN2 : UInt32 := 0x096a

def angleOffsetsHorizontal14 : Vector UInt16 128 :=
  #v[0, 3, 5, 8, 11, 13, 16, 19, 21, 24, 27, 29, 32, 35, 37, 40, 42, 45, 47, 50, 53, 55, 58, 60,
    62, 65, 67, 70, 72, 74, 77, 79, 81, 84, 86, 88, 90, 92, 95, 97, 99, 101, 103, 105, 107, 109,
    111, 112, 114, 116, 118, 119, 121, 123, 124, 126, 127, 129, 130, 132, 133, 134, 136, 137, 138,
    139, 140, 141, 142, 143, 144, 145, 146, 147, 148, 148, 149, 150, 150, 151, 151, 152, 152, 153,
    153, 153, 153, 153, 154, 154, 154, 154, 154, 153, 153, 153, 153, 153, 152, 152, 151, 151, 150,
    150, 149, 148, 148, 147, 146, 145, 144, 143, 142, 141, 140, 139, 138, 137, 136, 134, 133, 132,
    130, 129, 127, 126, 124, 123]

def angleOffsetsVertical14 : Vector UInt16 128 :=
  #v[0, 4, 9, 13, 17, 21, 26, 30, 34, 38, 43, 47, 51, 55, 59, 64, 68, 72, 76, 80, 84, 88, 92, 96,
    100, 104, 108, 112, 115, 119, 123, 127, 130, 134, 137, 141, 145, 148, 151, 155, 158, 161, 165,
    168, 171, 174, 177, 180, 183, 186, 188, 191, 194, 196, 199, 201, 204, 206, 208, 211, 213, 215,
    217, 219, 221, 223, 225, 226, 228, 230, 231, 232, 234, 235, 236, 237, 239, 240, 240, 241, 242,
    243, 243, 244, 244, 245, 245, 246, 246, 246, 246, 246, 246, 246, 245, 245, 244, 244, 243, 243,
    242, 241, 240, 240, 239, 237, 236, 235, 234, 232, 231, 230, 228, 226, 225, 223, 221, 219, 217,
    215, 213, 211, 208, 206, 204, 201, 199, 196]

def angleOffsetsHorizontal16 : Vector UInt16 128 :=
  #v[0, 2, 5, 7, 9, 12, 14, 16, 19, 21, 23, 26, 28, 30, 33, 35, 37, 39, 42, 44, 46, 48, 50, 53,
    55, 57, 59, 61, 63, 65, 67, 69, 71, 73, 75, 77, 79, 81, 83, 85, 86, 88, 90, 92, 93, 95, 97,
    98, 100, 101, 103, 105, 106, 107, 109, 110, 111, 113, 114, 115, 116, 118, 119, 120, 121, 122,
    123, 124, 125, 126, 126, 127, 128, 129, 129, 130, 130, 131, 132, 132, 132, 133, 133, 133, 134,
    134, 134, 134, 134, 134, 134, 134, 134, 134, 134, 134, 134, 133, 133, 133, 132, 132, 132, 131,
    130, 130, 129, 129, 128, 127, 126, 126, 125, 124, 123, 122, 121, 120, 119, 118, 116, 115, 114,
    113, 111, 110, 109, 107]

def angleOffsetsVertical16 : Vector UInt16 128 :=
  #v[0, 4, 8, 11, 15, 19, 22, 26, 30, 34, 37, 41, 45, 48, 52, 56, 59, 63, 66, 70, 74, 77, 81, 84,
    88, 91, 94, 98, 101, 104, 108, 111, 114, 117, 120, 123, 126, 129, 132, 135, 138, 141, 144,
    147, 149, 152, 155, 157, 160, 162, 165, 167, 170, 172, 174, 176, 178, 180, 182, 184, 186, 188,
    190, 192, 193, 195, 197, 198, 199, 201, 202, 203, 205, 206, 207, 208, 209, 210, 210, 211, 212,
    212, 213, 214, 214, 214, 215, 215, 215, 215, 215, 215, 215, 215, 215, 214, 214, 214, 213, 212,
    212, 211, 210, 210, 209, 208, 207, 206, 205, 203, 202, 201, 199, 198, 197, 195, 193, 192, 190,
    188, 186, 184, 182, 180, 178, 176, 174, 172]

def angleOffsetsHorizontal19 : Vector UInt16 128 :=
  #v[0, 2, 4, 6, 8, 10, 12, 14, 16, 18, 20, 22, 24, 25, 27, 29, 31, 33, 35, 37, 39, 41, 42, 44,
    46, 48, 50, 51, 53, 55, 57, 58, 60, 62, 63, 65, 67, 68, 70, 71, 73, 74, 76, 77, 79, 80, 82,
    83, 84, 86, 87, 88, 89, 90, 92, 93, 94, 95, 96, 97, 98, 99, 100, 101, 102, 103, 104, 104, 105,
    106, 106, 107, 108, 108, 109, 109, 110, 110, 111, 111, 112, 112, 112, 112, 113, 113, 113, 113,
    113, 113, 113, 113, 113, 113, 113, 113, 113, 112, 112, 112, 112, 111, 111, 110, 110, 109, 109,
    108, 108, 107, 106, 106, 105, 104, 104, 103, 102, 101, 100, 99, 98, 97, 96, 95, 94, 93, 92,
    90]

def angleOffsetsVertical19 : Vector UInt16 128 :=
  #v[0, 4, 7, 11, 14, 18, 21, 25, 28, 32, 35, 38, 42, 45, 49, 52, 56, 59, 62, 66, 69, 72, 75, 79,
    82, 85, 88, 91, 95, 98, 101, 104, 107, 110, 113, 116, 118, 121, 124, 127, 129, 132, 135, 137,
    140, 142, 145, 147, 150, 152, 154, 157, 159, 161, 163, 165, 167, 169, 171, 173, 174, 176, 178,
    179, 181, 183, 184, 185, 187, 188, 189, 190, 192, 193, 194, 195, 195, 196, 197, 198, 198, 199,
    199, 200, 200, 201, 201, 201, 201, 201, 201, 201, 201, 201, 201, 201, 200, 200, 199, 199, 198,
    198, 197, 196, 195, 195, 194, 193, 192, 190, 189, 188, 187, 185, 184, 183, 181, 179, 178, 176,
    174, 173, 171, 169, 167, 165, 163, 161]

/-- `compensate_coordinates_by_tilt`; the angle is at most 127 where the table is read. -/
def compensateCoordinatesByTilt (data : List UInt8) (idx : ℕ) (tilt : Int8)
    (compensationTable : Vector UInt16 128) : List UInt8 :=
  let coords := ((byte data (idx + 1)).toUInt16 <<< 8) + (byte data idx).toUInt16
  let direction : UInt8 := if tilt > 0 then 0 else 1
  let angle := if tilt > 0 then UInt8.ofInt tilt.toInt else UInt8.ofInt (-tilt.toInt)
  if h : angle.toNat > 127 then data
  else
    let compensation := compensationTable.get ⟨angle.toNat, by omega⟩
    let coords :=
      if direction = 0 then
        if coords > compensation then coords - compensation else 0
      else
        let logicalMaximum : UInt16 := 32767
        let max := logicalMaximum - compensation
        if coords < max then coords + compensation else logicalMaximum
    (data.set idx (coords &&& 0xff).toUInt8).set (idx + 1) (coords >>> 8).toUInt8

def xppen16FixAngleOffset (product : UInt32) (buffer : List UInt8) : List UInt8 × ℤ :=
  match hidBpfGetData buffer 0 10 with
  | none => (buffer, 0)
  | some data =>
    let tiltX := (byte data 8).toInt8
    let tiltY := (byte data 9).toInt8
    let both (horizontal vertical : Vector UInt16 128) :=
      compensateCoordinatesByTilt (compensateCoordinatesByTilt data 2 tiltX horizontal) 4 tiltY
        vertical
    if product = PID_ARTIST_PRO14_GEN2 then
      (both angleOffsetsHorizontal14 angleOffsetsVertical14, 0)
    else if product = PID_ARTIST_PRO16_GEN2 then
      (both angleOffsetsHorizontal16 angleOffsetsVertical16, 0)
    else if product = PID_ARTIST_PRO19_GEN2 then
      (both angleOffsetsHorizontal19 angleOffsetsVertical19, 0)
    else (data, 0)

def xppen16FixEraser (buffer : List UInt8) : List UInt8 × ℤ :=
  match hidBpfGetData buffer 0 10 with
  | none => (buffer, 0)
  | some data =>
    if byte data 1 &&& 0x29 ≠ 0x29 then (data, 0) else (data.set 1 (byte data 1 ^^^ 0x19), 0)

def xppenArtistPro16DeviceEvent (product : UInt32) (_ : Unit) (buffer : List UInt8) :
    Called Unit :=
  let fixed := xppen16FixAngleOffset product buffer
  if fixed.2 ≠ 0 then ⟨(), fixed.1, fixed.2⟩
  else ⟨(), (xppen16FixEraser fixed.1).1, (xppen16FixEraser fixed.1).2⟩

def xppenArtistPro16 (product : UInt32) : Transducer Unit Report (Option (List UInt8)) :=
  device () (xppenArtistPro16DeviceEvent product)

def clamp (x : ℤ) : ℤ := max 0 (min x 32767)

def entry (table : Vector UInt16 128) (angle : ℤ) : ℤ := (table[angle.toNat]?.getD 0).toNat

/-- The coordinate `c` under the tilt `tilt`, in exact numbers. -/
def compensated (table : Vector UInt16 128) (tilt c : ℤ) : ℤ :=
  if 0 < tilt then clamp (c - entry table tilt)
  else if -127 ≤ tilt then clamp (c + entry table (-tilt))
  else c

def subSat (coords compensation : UInt16) : UInt16 :=
  if coords > compensation then coords - compensation else 0

def addSat (coords compensation : UInt16) : UInt16 :=
  if coords < 32767 - compensation then coords + compensation else 32767

theorem toNat_subSat (c k : UInt16) : (subSat c k).toNat = c.toNat - k.toNat := by
  rw [subSat]
  split_ifs with h
  · exact UInt16.toNat_sub_of_le c k (UInt16.le_of_lt h)
  · have hle := Nat.le_of_not_lt (mt UInt16.lt_iff_toNat_lt.2 h)
    exact (Nat.sub_eq_zero_of_le hle).symm

theorem toNat_addSat (c : UInt16) {k : UInt16} (hk : k ≤ 32767) :
    (addSat c k).toNat = min (c.toNat + k.toNat) 32767 := by
  have hk' : k.toNat ≤ 32767 := UInt16.le_iff_toNat_le.1 hk
  have hmax : (32767 - k).toNat = 32767 - k.toNat := UInt16.toNat_sub_of_le _ _ hk
  rw [addSat]
  split_ifs with h
  · have hlt : c.toNat < 32767 - k.toNat := hmax ▸ UInt16.lt_iff_toNat_lt.1 h
    rw [UInt16.toNat_add, Nat.mod_eq_of_lt (by omega), Nat.min_eq_left (by omega)]
  · have hge : 32767 - k.toNat ≤ c.toNat :=
      hmax ▸ Nat.le_of_not_lt (mt UInt16.lt_iff_toNat_lt.2 h)
    rw [Nat.min_eq_right (by omega)]
    rfl

variable {data : List UInt8} {idx : ℕ} {tilt : Int8} {table : Vector UInt16 128}

theorem coords_eq (data : List UInt8) (idx : ℕ) :
    ((byte data (idx + 1)).toUInt16 <<< 8) + (byte data idx).toUInt16 = getU16 data idx := by
  have hlow := (byte data idx).toNat_lt
  have hhigh := (byte data (idx + 1)).toNat_lt
  apply UInt16.toNat_inj.1
  have hshift : 2 ^ (UInt16.toNat 8 % 16) = 256 := by decide
  simp only [getU16, UInt16.toNat_add, UInt16.toNat_shiftLeft, UInt8.toNat_toUInt16,
    UInt16.toNat_ofNat', Nat.shiftLeft_eq, hshift]
  omega

theorem stored_eq (data : List UInt8) (idx : ℕ) (v : UInt16) :
    (data.set idx (v &&& 0xff).toUInt8).set (idx + 1) (v >>> 8).toUInt8 = setU16 data idx v := by
  have hlow : (v &&& 0xff).toUInt8 = v.toUInt8 := by
    apply UInt8.toNat_inj.1
    simp only [UInt16.toNat_toUInt8, UInt16.toNat_and]
    rw [show (0xff : UInt16).toNat = 2 ^ 8 - 1 from rfl, Nat.and_two_pow_sub_one_eq_mod,
      Nat.mod_mod]
  rw [hlow, set_shift_eq]

theorem toNat_angle {x : ℤ} (h0 : 0 ≤ x) (hx : x < 256) : (UInt8.ofInt x).toNat = x.toNat := by
  rw [UInt8.ofInt, UInt8.toNat_ofNat']
  omega

theorem entry_get {a : ℕ} (ha : a < 128) : entry table a = (table.get ⟨a, ha⟩).toNat := by
  rw [entry, Int.toNat_natCast, Vector.getElem?_eq_getElem ha]
  rfl

theorem compensate_cases (data : List UInt8) (idx : ℕ) (tilt : Int8)
    (table : Vector UInt16 128) :
    (∃ k ∈ table.toList, 0 < tilt.toInt ∧ entry table tilt.toInt = k.toNat ∧
      compensateCoordinatesByTilt data idx tilt table =
        setU16 data idx (subSat (getU16 data idx) k)) ∨
    (∃ k ∈ table.toList, tilt.toInt ≤ 0 ∧ -127 ≤ tilt.toInt ∧
      entry table (-tilt.toInt) = k.toNat ∧
      compensateCoordinatesByTilt data idx tilt table =
        setU16 data idx (addSat (getU16 data idx) k)) ∨
    tilt.toInt = -128 ∧ compensateCoordinatesByTilt data idx tilt table = data := by
  have hlow := tilt.le_toInt
  have hhigh := tilt.toInt_lt
  have hpos : tilt > 0 ↔ 0 < tilt.toInt := Int8.lt_iff_toInt_lt
  simp only [compensateCoordinatesByTilt, coords_eq, stored_eq, hpos]
  by_cases h : 0 < tilt.toInt
  · obtain ⟨a, ha⟩ := Int.eq_ofNat_of_zero_le h.le
    have ha' : a < 128 := by omega
    have hangle : (UInt8.ofInt tilt.toInt).toNat = a := by
      rw [toNat_angle h.le (by omega), ha, Int.toNat_natCast]
    refine Or.inl ⟨table.get ⟨a, ha'⟩, Vector.mem_toList_iff.2 (Vector.getElem_mem ha'), h, ?_, ?_⟩
    · rw [ha, entry_get ha']
    · simp only [if_pos h, hangle]
      rw [dif_neg (by omega), if_true, subSat]
  by_cases hmin : -127 ≤ tilt.toInt
  · obtain ⟨a, ha⟩ := Int.eq_ofNat_of_zero_le (show 0 ≤ -tilt.toInt by omega)
    have ha' : a < 128 := by omega
    have hangle : (UInt8.ofInt (-tilt.toInt)).toNat = a := by
      rw [toNat_angle (by omega) (by omega), ha, Int.toNat_natCast]
    refine Or.inr (Or.inl ⟨table.get ⟨a, ha'⟩, Vector.mem_toList_iff.2 (Vector.getElem_mem ha'),
      by omega, hmin, ?_, ?_⟩)
    · rw [ha, entry_get ha']
    · simp only [if_neg h, hangle]
      rw [dif_neg (by omega), if_neg (by decide), addSat]
  · have hangle : (UInt8.ofInt (-tilt.toInt)).toNat = 128 := by
      rw [toNat_angle (by omega) (by omega)]
      omega
    refine Or.inr (Or.inr ⟨by omega, ?_⟩)
    simp only [if_neg h, hangle]
    rw [dif_pos (by decide)]

theorem compensate_frame {j : ℕ} (hlow : j ≠ idx) (hhigh : j ≠ idx + 1) :
    (compensateCoordinatesByTilt data idx tilt table)[j]? = data[j]? := by
  rcases compensate_cases data idx tilt table with ⟨k, -, -, -, h⟩ | ⟨k, -, -, -, -, h⟩ | ⟨-, h⟩
  · rw [h, getElem?_setU16 hlow hhigh]
  · rw [h, getElem?_setU16 hlow hhigh]
  · rw [h]

theorem length_compensate :
    (compensateCoordinatesByTilt data idx tilt table).length = data.length := by
  rcases compensate_cases data idx tilt table with ⟨k, -, -, -, h⟩ | ⟨k, -, -, -, -, h⟩ | ⟨-, h⟩
  · rw [h, length_setU16]
  · rw [h, length_setU16]
  · rw [h]

/-- The stored coordinate is the compensated one, cut off at the edges and never wrapped. -/
theorem compensate_value (htable : ∀ k ∈ table.toList, k ≤ 32767) (hidx : idx + 1 < data.length)
    (hcoords : getU16 data idx ≤ 32767) :
    ((getU16 (compensateCoordinatesByTilt data idx tilt table) idx).toNat : ℤ) =
      compensated table tilt.toInt (getU16 data idx).toNat := by
  have hc : (getU16 data idx).toNat ≤ 32767 := UInt16.le_iff_toNat_le.1 hcoords
  rcases compensate_cases data idx tilt table with
    ⟨k, -, hpos, hentry, h⟩ | ⟨k, hk, hneg, hmin, hentry, h⟩ | ⟨hmin, h⟩
  · rw [h, getU16_setU16 hidx, toNat_subSat, compensated, if_pos hpos, hentry, clamp]
    omega
  · rw [h, getU16_setU16 hidx, toNat_addSat _ (htable k hk), compensated, if_neg (by omega),
      if_pos hmin, hentry, clamp]
    omega
  · rw [h, compensated, if_neg (by omega), if_neg (by omega)]

theorem compensated_mono (table : Vector UInt16 128) (tilt : ℤ) {c c' : ℤ} (h : c ≤ c') :
    compensated table tilt c ≤ compensated table tilt c' := by
  simp only [compensated, clamp]
  split_ifs <;> omega

theorem compensate_congr {data' : List UInt8} (hidx : idx + 1 < data.length)
    (hidx' : idx + 1 < data'.length) (h : getU16 data idx = getU16 data' idx) :
    getU16 (compensateCoordinatesByTilt data idx tilt table) idx =
      getU16 (compensateCoordinatesByTilt data' idx tilt table) idx := by
  simp only [compensateCoordinatesByTilt, coords_eq, stored_eq, h]
  split_ifs <;> first | exact h | rw [getU16_setU16 hidx, getU16_setU16 hidx']

def offsetTables (product : UInt32) : Option (Vector UInt16 128 × Vector UInt16 128) :=
  if product = PID_ARTIST_PRO14_GEN2 then
    some (angleOffsetsHorizontal14, angleOffsetsVertical14)
  else if product = PID_ARTIST_PRO16_GEN2 then
    some (angleOffsetsHorizontal16, angleOffsetsVertical16)
  else if product = PID_ARTIST_PRO19_GEN2 then
    some (angleOffsetsHorizontal19, angleOffsetsVertical19)
  else none

def compensateBoth (data : List UInt8) (tables : Vector UInt16 128 × Vector UInt16 128) :
    List UInt8 :=
  compensateCoordinatesByTilt
    (compensateCoordinatesByTilt data 2 (byte data 8).toInt8 tables.1) 4 (byte data 9).toInt8
    tables.2

theorem fix_angle_offset_eq (product : UInt32) (r : Report) :
    xppen16FixAngleOffset product r.data =
      ((offsetTables product).elim r.data (compensateBoth r.data), 0) := by
  simp only [xppen16FixAngleOffset, get_data_report r (by decide : 10 ≤ 64), offsetTables]
  split_ifs <;> rfl

theorem bounded_of_all {table : Vector UInt16 128}
    (h : (table.toList.all fun k => decide (k ≤ 32767)) = true) :
    ∀ k ∈ table.toList, k ≤ 32767 := by
  intro k hk
  exact of_decide_eq_true (List.all_eq_true.1 h k hk)

theorem tables_bounded {product : UInt32} {tables : Vector UInt16 128 × Vector UInt16 128}
    (h : offsetTables product = some tables) :
    (∀ k ∈ tables.1.toList, k ≤ 32767) ∧ ∀ k ∈ tables.2.toList, k ≤ 32767 := by
  simp only [offsetTables] at h
  split_ifs at h <;> obtain rfl := Option.some.inj h <;> constructor <;>
    exact bounded_of_all (by decide +kernel)

theorem getU16_congr {data' : List UInt8} (hlow : data'[idx]? = data[idx]?)
    (hhigh : data'[idx + 1]? = data[idx + 1]?) : getU16 data' idx = getU16 data idx := by
  simp [getU16, byte, hlow, hhigh]

theorem both_frame (tables : Vector UInt16 128 × Vector UInt16 128) {j : ℕ}
    (hj : j ∉ [2, 3, 4, 5]) : (compensateBoth data tables)[j]? = data[j]? := by
  simp only [List.mem_cons, List.not_mem_nil, or_false, not_or] at hj
  obtain ⟨h2, h3, h4, h5⟩ := hj
  rw [compensateBoth, compensate_frame h4 h5, compensate_frame h2 h3]

theorem both_x (tables : Vector UInt16 128 × Vector UInt16 128) :
    getU16 (compensateBoth data tables) 2 =
      getU16 (compensateCoordinatesByTilt data 2 (byte data 8).toInt8 tables.1) 2 :=
  getU16_congr (compensate_frame (by decide) (by decide)) (compensate_frame (by decide) (by decide))

theorem both_y (tables : Vector UInt16 128 × Vector UInt16 128) (hlen : 10 ≤ data.length) :
    getU16 (compensateBoth data tables) 4 =
      getU16 (compensateCoordinatesByTilt data 4 (byte data 9).toInt8 tables.2) 4 := by
  refine compensate_congr ?_ (by omega) ?_
  · rw [length_compensate]
    omega
  · exact getU16_congr (compensate_frame (by decide) (by decide))
      (compensate_frame (by decide) (by decide))

def fixed (product : UInt32) (r : Report) : List UInt8 := (xppen16FixAngleOffset product r.data).1

theorem fixed_frame (product : UInt32) (r : Report) {j : ℕ} (hj : j ∉ [2, 3, 4, 5]) :
    (fixed product r)[j]? = r.data[j]? := by
  rw [fixed, fix_angle_offset_eq]
  cases offsetTables product with
  | none => rfl
  | some tables => exact both_frame tables hj

theorem fixed_x {product : UInt32} {r r' : Report} (hx : getU16 r.data 2 = getU16 r'.data 2)
    (htilt : byte r.data 8 = byte r'.data 8) :
    getU16 (fixed product r) 2 = getU16 (fixed product r') 2 := by
  rw [fixed, fixed, fix_angle_offset_eq, fix_angle_offset_eq]
  cases offsetTables product with
  | none => exact hx
  | some tables =>
    have hlen := r.length_data
    have hlen' := r'.length_data
    simp only [Option.elim_some]
    rw [both_x, both_x, htilt, compensate_congr (by omega) (by omega) hx]

theorem fixed_y {product : UInt32} {r r' : Report} (hy : getU16 r.data 4 = getU16 r'.data 4)
    (htilt : byte r.data 9 = byte r'.data 9) :
    getU16 (fixed product r) 4 = getU16 (fixed product r') 4 := by
  rw [fixed, fixed, fix_angle_offset_eq, fix_angle_offset_eq]
  cases offsetTables product with
  | none => exact hy
  | some tables =>
    have hlen := r.length_data
    have hlen' := r'.length_data
    simp only [Option.elim_some]
    rw [both_y tables (by omega), both_y tables (by omega), htilt,
      compensate_congr (by omega) (by omega) hy]

theorem fixed_coordinates {product : UInt32} {tables : Vector UInt16 128 × Vector UInt16 128}
    (h : offsetTables product = some tables) (r : Report) :
    (getU16 r.data 2 ≤ 32767 → ((getU16 (fixed product r) 2).toNat : ℤ) =
      compensated tables.1 (byte r.data 8).toInt8.toInt (getU16 r.data 2).toNat) ∧
    (getU16 r.data 4 ≤ 32767 → ((getU16 (fixed product r) 4).toNat : ℤ) =
      compensated tables.2 (byte r.data 9).toInt8.toInt (getU16 r.data 4).toNat) := by
  have hlen := r.length_data
  obtain ⟨hhorizontal, hvertical⟩ := tables_bounded h
  rw [fixed, fix_angle_offset_eq, h, Option.elim_some]
  constructor
  · intro hx
    rw [both_x, compensate_value hhorizontal (by omega) hx]
  · intro hy
    rw [both_y tables (by omega), compensate_value hvertical (by omega) hy]

theorem eraser_frame (data : List UInt8) {j : ℕ} (hj : j ≠ 1) :
    (xppen16FixEraser data).1[j]? = data[j]? := by
  rw [xppen16FixEraser]
  by_cases hlen : 0 + 10 ≤ data.length
  · rw [hidBpfGetData, if_pos hlen, List.drop_zero]
    simp only []
    split_ifs
    · rfl
    · exact List.getElem?_set_ne hj.symm
  · rw [hidBpfGetData, if_neg hlen]

theorem device_frame (product : UInt32) (before : List Report) (r : Report) :
    ∃ out, (xppenArtistPro16 product).output before r = some out ∧
      ∀ j ∉ [1, 2, 3, 4, 5], out[j]? = r.bytes[j]? := by
  have hevent : xppenArtistPro16DeviceEvent product () r.data =
      ⟨(), (xppen16FixEraser (fixed product r)).1, 0⟩ := by
    have hret : (xppen16FixAngleOffset product r.data).2 = 0 := by rw [fix_angle_offset_eq]
    have heraser (data : List UInt8) : (xppen16FixEraser data).2 = 0 := by
      rw [xppen16FixEraser]
      split
      · rfl
      · split_ifs <;> rfl
    rw [xppenArtistPro16DeviceEvent, if_neg (not_not_intro hret), heraser, fixed]
  have hstep : (xppenArtistPro16 product).step ((xppenArtistPro16 product).after before) r = _ :=
    device_passes hevent
  refine ⟨_, by rw [Transducer.output, hstep], ?_⟩
  intro j hj
  obtain ⟨h1, hrest⟩ : j ≠ 1 ∧ j ∉ [2, 3, 4, 5] := by simpa using hj
  by_cases hin : j < r.size
  · rw [List.getElem?_take_of_lt hin, eraser_frame _ h1, fixed_frame product r hrest,
      Report.bytes, List.getElem?_take_of_lt hin]
  · rw [List.getElem?_take_eq_none (Nat.le_of_not_lt hin), Report.bytes,
      List.getElem?_take_eq_none (Nat.le_of_not_lt hin)]

/-- A coordinate is cut off at the edges of the screen, never wrapped; it is monotone in the
raw one, and the two of a report do not touch each other. -/
theorem tilt_never_wraps :
    (∀ (data : List UInt8) (idx : ℕ) (tilt : Int8) (table : Vector UInt16 128),
      idx + 1 < data.length → (∀ k ∈ table.toList, k ≤ 32767) → getU16 data idx ≤ 32767 →
      ((getU16 (compensateCoordinatesByTilt data idx tilt table) idx).toNat : ℤ) =
        compensated table tilt.toInt (getU16 data idx).toNat) ∧
    (∀ (data data' : List UInt8) (idx : ℕ) (tilt : Int8) (table : Vector UInt16 128),
      idx + 1 < data.length → idx + 1 < data'.length → (∀ k ∈ table.toList, k ≤ 32767) →
      getU16 data idx ≤ getU16 data' idx → getU16 data' idx ≤ 32767 →
      getU16 (compensateCoordinatesByTilt data idx tilt table) idx ≤
        getU16 (compensateCoordinatesByTilt data' idx tilt table) idx) ∧
    (∀ (product : UInt32) (r : Report), ∀ j ∉ [2, 3, 4, 5],
      (fixed product r)[j]? = r.data[j]?) ∧
    (∀ (product : UInt32) (tables : Vector UInt16 128 × Vector UInt16 128) (r : Report),
      offsetTables product = some tables →
      (getU16 r.data 2 ≤ 32767 → ((getU16 (fixed product r) 2).toNat : ℤ) =
        compensated tables.1 (byte r.data 8).toInt8.toInt (getU16 r.data 2).toNat) ∧
      (getU16 r.data 4 ≤ 32767 → ((getU16 (fixed product r) 4).toNat : ℤ) =
        compensated tables.2 (byte r.data 9).toInt8.toInt (getU16 r.data 4).toNat)) ∧
    ∀ (product : UInt32) (r r' : Report),
      (getU16 r.data 2 = getU16 r'.data 2 → byte r.data 8 = byte r'.data 8 →
        getU16 (fixed product r) 2 = getU16 (fixed product r') 2) ∧
      (getU16 r.data 4 = getU16 r'.data 4 → byte r.data 9 = byte r'.data 9 →
        getU16 (fixed product r) 4 = getU16 (fixed product r') 4) := by
  refine ⟨?_, ?_, ?_, ?_, ?_⟩
  · intro data idx tilt table hidx htable hcoords
    exact compensate_value htable hidx hcoords
  · intro data data' idx tilt table hidx hidx' htable hle hcoords
    have hle' : ((getU16 data idx).toNat : ℤ) ≤ (getU16 data' idx).toNat := by
      exact_mod_cast UInt16.le_iff_toNat_le.1 hle
    have hmono := compensated_mono table tilt.toInt hle'
    rw [← compensate_value htable hidx (UInt16.le_trans hle hcoords),
      ← compensate_value htable hidx' hcoords] at hmono
    exact UInt16.le_iff_toNat_le.2 (by exact_mod_cast hmono)
  · intro product r j hj
    exact fixed_frame product r hj
  · intro product tables r h
    exact fixed_coordinates h r
  · intro product r r'
    exact ⟨fixed_x, fixed_y⟩

/-- At the left edge, tilted away from it, and at the right edge, tilted the other way. -/
theorem tilt_never_wraps_at_edges :
    ((getU16 (compensateCoordinatesByTilt [7, 0] 0 30 angleOffsetsHorizontal14) 0).toNat : ℤ) =
      0 ∧
    ((getU16 (compensateCoordinatesByTilt [0xf0, 0x7f] 0 (-30) angleOffsetsHorizontal14) 0).toNat
      : ℤ) = 32767 := by
  have hbound : ∀ k ∈ angleOffsetsHorizontal14.toList, k ≤ 32767 :=
    bounded_of_all (by decide +kernel)
  constructor
  · rw [tilt_never_wraps.1 [7, 0] 0 30 _ (by decide) hbound (by decide)]
    decide +kernel
  · rw [tilt_never_wraps.1 [0xf0, 0x7f] 0 (-30) _ (by decide) hbound (by decide)]
    decide +kernel

end ArtistPro16Gen2
