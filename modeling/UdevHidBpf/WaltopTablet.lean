import UdevHidBpf.DeviceEvents
import UdevHidBpf.FixedLog

/-! # The WALTOP batteryless tablet

The filter tells the secondary barrel switch from tip and barrel, and stretches the pressure
of the pen over the whole range. -/
namespace WaltopTablet

open Transducers DeviceEvents FixedLog

def PEN_REPORT_ID : UInt8 := 16
def TIP_SWITCH : UInt8 := 0x01
def BARREL_SWITCH : UInt8 := 0x02
def SECONDARY_BARREL_SWITCH : UInt8 := 0x20

/-- `__builtin_clzg(x, 32)`. -/
def clzg (x : UInt32) : UInt32 := if x = 0 then 32 else UInt32.ofNat (31 - x.toNat.log2)

def bitwidth32 (x : UInt32) : UInt32 := 32 - clzg x

def floorLog2 (x : UInt32) : UInt32 := bitwidth32 x - 1

def XMAX : UInt32 := 2047
def YMAX : UInt32 := 11

def scaledLog2 (v : UInt16) : UInt32 :=
  let x := v.toUInt32 + 1
  let n := floorLog2 x
  let b := 1 <<< n
  let frac := (x - b) <<< YMAX
  let lerp := frac / b
  let log2 := (n <<< YMAX) + lerp
  ((log2 * XMAX) / YMAX) >>> YMAX

def scaledPressure (pressure : UInt16) : UInt16 :=
  if pressure ≤ 102 then pressure * 12 else (scaledLog2 pressure).toUInt16

/-- The variable is `last_button_state`. -/
def waltopFixEvents (lastButtonState : UInt8) (buffer : List UInt8) : Called UInt8 :=
  match hidBpfGetData buffer 0 10 with
  | none => ⟨lastButtonState, buffer, 0⟩
  | some data =>
    if byte data 0 ≠ PEN_REPORT_ID then ⟨lastButtonState, data, 0⟩
    else
      let tipSwitch := byte data 1 &&& TIP_SWITCH
      let barrelSwitch := byte data 1 &&& BARREL_SWITCH
      let tipHeld := lastButtonState &&& TIP_SWITCH
      let barrelHeld := lastButtonState &&& BARREL_SWITCH
      let data :=
        if tipSwitch ≠ 0 ∧ barrelSwitch ≠ 0 ∧ tipHeld = 0 ∧ barrelHeld = 0 then
          data.set 1 (byte data 1 &&& ~~~(TIP_SWITCH ||| BARREL_SWITCH) |||
            SECONDARY_BARREL_SWITCH)
        else data
      let lastButtonState := byte data 1
      let pressure := (byte data 6).toUInt16 <<< 0 ||| (byte data 7).toUInt16 <<< 8
      let pressure := scaledPressure pressure
      ⟨lastButtonState,
        (data.set 6 (pressure >>> 0).toUInt8).set 7 (pressure >>> 8).toUInt8, 0⟩

def waltop : Transducer UInt8 Report (Option (List UInt8)) := device 0 waltopFixEvents

/-- Every value on the way through `scaled_log2`, without a limit on its size. -/
structure LogSteps where
  x : ℤ
  leadingZeros : ℤ
  bitwidth : ℤ
  n : ℤ
  b : ℤ
  difference : ℤ
  frac : ℤ
  lerp : ℤ
  whole : ℤ
  log2 : ℤ
  product : ℤ
  quotient : ℤ
  result : ℤ

def logSteps (v : ℕ) : LogSteps :=
  let x : ℤ := v + 1
  let leadingZeros : ℤ := 31 - (v + 1).log2
  let bitwidth := 32 - leadingZeros
  let n := bitwidth - 1
  let b : ℤ := 2 ^ n.toNat
  let difference := x - b
  let frac := difference * 2 ^ 11
  let lerp := frac / b
  let whole := n * 2 ^ 11
  let log2 := whole + lerp
  let product := log2 * 2047
  let quotient := product / 11
  ⟨x, leadingZeros, bitwidth, n, b, difference, frac, lerp, whole, log2, product, quotient,
    quotient / 2 ^ 11⟩

def LogSteps.values (s : LogSteps) : List ℤ :=
  [s.x, s.leadingZeros, s.bitwidth, s.n, s.b, s.difference, s.frac, s.lerp, s.whole, s.log2,
    s.product, s.quotient, s.result]

def exactLog2 (v : ℕ) : ℕ := fixedLog2 11 (v + 1) * 2047 / 11 / 2 ^ 11

def curve (p : ℕ) : ℕ := if p ≤ 102 then p * 12 else exactLog2 p

theorem log2_le {v : ℕ} (hv : v < 2 ^ 16) : (v + 1).log2 ≤ 16 :=
  Nat.lt_succ_iff.1 ((Nat.log2_lt (Nat.succ_ne_zero v)).2 (by omega))

theorem exactLog2_mono {v w : ℕ} (h : v ≤ w) : exactLog2 v ≤ exactLog2 w := by
  have hlog := fixedLog2_mono (f := 11) (Nat.succ_ne_zero v) (Nat.succ_le_succ h)
  exact Nat.div_le_div_right (Nat.div_le_div_right (Nat.mul_le_mul_right 2047 hlog))

theorem curve_mono {p q : ℕ} (h : p ≤ q) : curve p ≤ curve q := by
  have hjoint : 102 * 12 ≤ exactLog2 103 := by decide
  rw [curve, curve]
  split_ifs with hp hq
  · exact Nat.mul_le_mul_right 12 h
  · calc p * 12 ≤ 102 * 12 := Nat.mul_le_mul_right 12 hp
      _ ≤ exactLog2 103 := hjoint
      _ ≤ exactLog2 q := exactLog2_mono (by omega)
  · omega
  · exact exactLog2_mono h

theorem toNat_floorLog2 {x : UInt32} (hx : x ≠ 0) : (floorLog2 x).toNat = x.toNat.log2 := by
  have hne : x.toNat ≠ 0 := fun h => hx (UInt32.toNat_inj.1 h)
  have hlog : x.toNat.log2 < 32 := (Nat.log2_lt hne).2 x.toNat_lt
  have hclz : (clzg x).toNat = 31 - x.toNat.log2 := by
    rw [clzg, if_neg hx, UInt32.toNat_ofNat', Nat.mod_eq_of_lt (by omega)]
  have hwidth : (bitwidth32 x).toNat = x.toNat.log2 + 1 := by
    rw [bitwidth32,
      UInt32.toNat_sub_of_le _ _ (UInt32.le_iff_toNat_le.2 (by rw [hclz]; simp; omega)),
      hclz]
    simp
    omega
  rw [floorLog2, UInt32.toNat_sub_of_le _ _ (UInt32.le_iff_toNat_le.2 (by rw [hwidth]; simp)),
    hwidth]
  simp

theorem toNat_shl {x s : UInt32} (hs : s.toNat < 32) (h : x.toNat * 2 ^ s.toNat < 2 ^ 32) :
    (x <<< s).toNat = x.toNat * 2 ^ s.toNat := by
  rw [UInt32.toNat_shiftLeft, Nat.mod_eq_of_lt hs, Nat.shiftLeft_eq, Nat.mod_eq_of_lt h]

theorem log2_bounds {v : ℕ} (hv : v < 2 ^ 16) :
    2 ^ (v + 1).log2 ≤ v + 1 ∧ v + 1 < 2 ^ (v + 1).log2 + 2 ^ 16 ∧ 2 ^ (v + 1).log2 ≤ 2 ^ 16 ∧
      fixedLog2 11 (v + 1) < 17 * 2 ^ 11 := by
  have hlog := log2_le hv
  have hpos := Nat.two_pow_pos (v + 1).log2
  refine ⟨Nat.log2_self_le (Nat.succ_ne_zero v), by omega,
    Nat.pow_le_pow_right (by decide) hlog, ?_⟩
  exact lt_of_lt_of_le (fixedLog2_lt (Nat.succ_ne_zero v)) (Nat.mul_le_mul_right _ (by omega))

/-- No step of the machine wraps. -/
theorem toNat_scaledLog2 (v : UInt16) : (scaledLog2 v).toNat = exactLog2 v.toNat := by
  have hv : v.toNat < 2 ^ 16 := v.toNat_lt
  obtain ⟨hlow, hhigh, hpow, hlog⟩ := log2_bounds hv
  have hN := log2_le hv
  simp only [scaledLog2]
  generalize hx : v.toUInt32 + 1 = x
  have hxv : x.toNat = v.toNat + 1 := by
    rw [← hx, UInt32.toNat_add, UInt16.toNat_toUInt32]
    exact Nat.mod_eq_of_lt (by simp; omega)
  have hne : x ≠ 0 := by
    rintro rfl
    exact absurd hxv (by simp)
  generalize hn : floorLog2 x = n
  have hnv : n.toNat = (v.toNat + 1).log2 := by rw [← hn, toNat_floorLog2 hne, hxv]
  generalize hb : 1 <<< n = b
  have hbv : b.toNat = 2 ^ (v.toNat + 1).log2 := by
    rw [← hb, toNat_shl (by omega) (by rw [hnv]; simp; omega), hnv]
    simp
  have hdiff : (x - b).toNat = v.toNat + 1 - 2 ^ (v.toNat + 1).log2 := by
    rw [UInt32.toNat_sub_of_le _ _ (UInt32.le_iff_toNat_le.2 (by omega)), hbv, hxv]
  have hfrac : ((x - b) <<< YMAX).toNat = (v.toNat + 1 - 2 ^ (v.toNat + 1).log2) * 2 ^ 11 := by
    rw [toNat_shl (by decide) (by rw [hdiff]; simp [YMAX]; omega), hdiff]
    rfl
  have hwhole : (n <<< YMAX).toNat = (v.toNat + 1).log2 * 2 ^ 11 := by
    rw [toNat_shl (by decide) (by rw [hnv]; simp [YMAX]; omega), hnv]
    rfl
  have hsum : (n <<< YMAX + (x - b) <<< YMAX / b).toNat = fixedLog2 11 (v.toNat + 1) := by
    rw [UInt32.toNat_add, UInt32.toNat_div, hwhole, hfrac, hbv, ← fixedLog2]
    exact Nat.mod_eq_of_lt (by omega)
  have hproduct : ((n <<< YMAX + (x - b) <<< YMAX / b) * XMAX).toNat =
      fixedLog2 11 (v.toNat + 1) * 2047 := by
    rw [UInt32.toNat_mul, hsum]
    exact Nat.mod_eq_of_lt (by simp [XMAX]; omega)
  rw [UInt32.toNat_shiftRight, UInt32.toNat_div, hproduct, Nat.shiftRight_eq_div_pow]
  rfl

theorem logSteps_eq {v : ℕ} (hv : v < 2 ^ 16) :
    let n := (v + 1).log2
    let difference := v + 1 - 2 ^ n
    logSteps v = ⟨(v + 1 : ℕ), (31 - n : ℕ), (n + 1 : ℕ), n, (2 ^ n : ℕ), difference,
      (difference * 2 ^ 11 : ℕ), (difference * 2 ^ 11 / 2 ^ n : ℕ), (n * 2 ^ 11 : ℕ),
      fixedLog2 11 (v + 1), (fixedLog2 11 (v + 1) * 2047 : ℕ),
      (fixedLog2 11 (v + 1) * 2047 / 11 : ℕ), exactLog2 v⟩ := by
  intro n difference
  obtain ⟨hlow, -⟩ := log2_bounds hv
  have hle : n ≤ 16 := log2_le hv
  have hn : (32 - (31 - n) - 1 : ℤ) = n := by omega
  have hdiff : ((v : ℤ) + 1 - 2 ^ n) = difference := by
    rw [show difference = v + 1 - 2 ^ n from rfl, Nat.cast_sub hlow]
    push_cast
    rfl
  have hlog : (n * 2 ^ 11 + difference * 2 ^ 11 / 2 ^ n : ℤ) = fixedLog2 11 (v + 1) := by
    rw [fixedLog2]
    push_cast
    rfl
  simp only [logSteps]
  rw [show ((v + 1).log2 : ℤ) = n from rfl, hn, Int.toNat_natCast, hdiff, hlog, exactLog2]
  congr 1
  · omega
  · omega

theorem steps_fit {v : ℕ} (hv : v < 2 ^ 16) :
    (logSteps v).b ≠ 0 ∧ ∀ i ∈ (logSteps v).values, 0 ≤ i ∧ i < 2 ^ 32 := by
  obtain ⟨hlow, hhigh, hpow, hlog⟩ := log2_bounds hv
  have hle := log2_le hv
  have hlerp : (v + 1 - 2 ^ (v + 1).log2) * 2 ^ 11 / 2 ^ (v + 1).log2 < 2 ^ 32 :=
    (fraction_lt (f := 11) (Nat.succ_ne_zero v)).trans (by decide)
  have hresult : exactLog2 v ≤ fixedLog2 11 (v + 1) * 2047 / 11 := Nat.div_le_self _ _
  have hfits {a : ℕ} (ha : a < 2 ^ 32) : (0 : ℤ) ≤ a ∧ (a : ℤ) < 2 ^ 32 := by
    exact ⟨Int.natCast_nonneg a, by exact_mod_cast ha⟩
  rw [logSteps_eq hv]
  refine ⟨by simp, ?_⟩
  simp only [LogSteps.values, List.forall_mem_cons, List.not_mem_nil, false_imp_iff, implies_true,
    and_true]
  refine ⟨?_, ?_, ?_, ?_, ?_, ?_, ?_, hfits hlerp, ?_, ?_, ?_, ?_, ?_⟩
  all_goals
    clear hlerp
    apply hfits
    omega

theorem exactLog2_lt {v : ℕ} (hv : v < 2 ^ 16) : exactLog2 v < 2 ^ 16 := by
  obtain ⟨-, -, -, hlog⟩ := log2_bounds hv
  rw [exactLog2]
  omega

theorem toNat_scaledPressure (raw : UInt16) : (scaledPressure raw).toNat = curve raw.toNat := by
  have hle : raw ≤ 102 ↔ raw.toNat ≤ 102 := UInt16.le_iff_toNat_le
  rw [scaledPressure, curve]
  by_cases h : raw.toNat ≤ 102
  · rw [if_pos (hle.2 h), if_pos h, UInt16.toNat_mul]
    exact Nat.mod_eq_of_lt (by simp; omega)
  · rw [if_neg (mt hle.1 h), if_neg h, UInt32.toNat_toUInt16, toNat_scaledLog2]
    exact Nat.mod_eq_of_lt (exactLog2_lt raw.toNat_lt)

def isPen (r : Report) : Bool := byte r.data 0 == PEN_REPORT_ID

/-- The buttons that are written, and remembered. -/
def fixedButtons (lastButtonState buttons : UInt8) : UInt8 :=
  if hasBits buttons TIP_SWITCH && hasBits buttons BARREL_SWITCH &&
      !hasBits lastButtonState TIP_SWITCH && !hasBits lastButtonState BARREL_SWITCH then
    buttons &&& ~~~(TIP_SWITCH ||| BARREL_SWITCH) ||| SECONDARY_BARREL_SWITCH
  else buttons

def filtered (data : List UInt8) (buttons : UInt8) : List UInt8 :=
  setU16 (data.set 1 buttons) 6 (scaledPressure (getU16 data 6))

variable {s : UInt8} {r : Report}

theorem pressure_eq (data : List UInt8) (i : ℕ) :
    (byte data i).toUInt16 <<< 0 ||| (byte data (i + 1)).toUInt16 <<< 8 = getU16 data i := by
  rw [UInt16.shiftLeft_zero, or_shift_eq, getU16]

theorem stored_eq (data : List UInt8) (v : UInt16) :
    (data.set 6 (v >>> 0).toUInt8).set 7 (v >>> 8).toUInt8 = setU16 data 6 v := by
  rw [UInt16.shiftRight_zero, set_shift_eq]

theorem step_other (hpen : isPen r = false) : waltop.step s r = (s, some r.bytes) := by
  have hid : byte r.data 0 ≠ PEN_REPORT_ID := by simpa [isPen] using hpen
  have hevent : waltopFixEvents s r.data = ⟨s, r.data, 0⟩ := by
    simp only [waltopFixEvents, get_data_report r (by decide : 10 ≤ 64), if_pos hid]
  exact device_passes hevent

theorem step_pen (hpen : isPen r) :
    waltop.step s r = (fixedButtons s (byte r.data 1),
      some ((filtered r.data (fixedButtons s (byte r.data 1))).take r.size)) := by
  have hlen := r.length_data
  have hid : byte r.data 0 = PEN_REPORT_ID := by simpa [isPen] using hpen
  have hevent : waltopFixEvents s r.data = ⟨fixedButtons s (byte r.data 1),
      filtered r.data (fixedButtons s (byte r.data 1)), 0⟩ := by
    have hcond : (byte r.data 1 &&& TIP_SWITCH ≠ 0 ∧ byte r.data 1 &&& BARREL_SWITCH ≠ 0 ∧
        s &&& TIP_SWITCH = 0 ∧ s &&& BARREL_SWITCH = 0) ↔
        (hasBits (byte r.data 1) TIP_SWITCH && hasBits (byte r.data 1) BARREL_SWITCH &&
          !hasBits s TIP_SWITCH && !hasBits s BARREL_SWITCH) = true := by
      simp [hasBits, and_assoc]
    have hbuttons : (if byte r.data 1 &&& TIP_SWITCH ≠ 0 ∧ byte r.data 1 &&& BARREL_SWITCH ≠ 0 ∧
        s &&& TIP_SWITCH = 0 ∧ s &&& BARREL_SWITCH = 0 then
          r.data.set 1 (byte r.data 1 &&& ~~~(TIP_SWITCH ||| BARREL_SWITCH) |||
            SECONDARY_BARREL_SWITCH)
        else r.data) = r.data.set 1 (fixedButtons s (byte r.data 1)) := by
      simp only [hcond, fixedButtons]
      split_ifs
      · rfl
      · exact (set_byte_self (by omega)).symm
    have hpressure (v : UInt8) : getU16 (r.data.set 1 v) 6 = getU16 r.data 6 := by
      rw [getU16, getU16, byte_set_ne (by decide), byte_set_ne (by decide)]
    simp only [waltopFixEvents, get_data_report r (by decide : 10 ≤ 64), stored_eq]
    rw [if_neg (not_not_intro hid), hbuttons, pressure_eq, byte_set_self (by omega), hpressure,
      filtered]
  exact device_passes hevent

theorem pressure_filtered (data : List UInt8) (buttons : UInt8) {n : ℕ} (hn : 8 ≤ n)
    (hlen : n ≤ data.length) :
    getU16 ((filtered data buttons).take n) 6 = scaledPressure (getU16 data 6) := by
  rw [filtered, take_setU16, getU16_setU16]
  rw [List.length_take, List.length_set]
  omega

theorem scaledPressure_mono {p q : UInt16} (h : p ≤ q) : scaledPressure p ≤ scaledPressure q := by
  rw [UInt16.le_iff_toNat_le, toNat_scaledPressure, toNat_scaledPressure]
  exact curve_mono (UInt16.le_iff_toNat_le.1 h)

/-- The curve is computed without a wrap, rises with the raw pressure and maps the range of
the device to itself. -/
theorem pressure_curve_exact :
    (∀ raw : UInt16, (logSteps raw.toNat).b ≠ 0 ∧
      (∀ i ∈ (logSteps raw.toNat).values, 0 ≤ i ∧ i < 2 ^ 32) ∧
      (logSteps raw.toNat).result = (scaledLog2 raw).toNat ∧
      (raw ≤ 102 → raw.toNat * 12 = (raw * 12).toNat) ∧
      (scaledLog2 raw).toUInt16.toNat = (scaledLog2 raw).toNat) ∧
    (∀ raw raw' : UInt16, raw ≤ raw' → scaledPressure raw ≤ scaledPressure raw') ∧
    (∀ raw : UInt16, raw ≤ 2047 → scaledPressure raw ≤ 2047) ∧
    scaledPressure 0 = 0 ∧ scaledPressure 2047 = 2047 ∧
    ∀ (before : List Report) (r : Report), isPen r → 8 ≤ r.size →
      ∃ out, waltop.output before r = some out ∧
        getU16 out 6 = scaledPressure (getU16 r.data 6) := by
  have hmax : scaledPressure 2047 = 2047 := by decide +kernel
  refine ⟨?_, fun raw raw' h => scaledPressure_mono h, ?_, by decide, hmax, ?_⟩
  · intro raw
    have hraw : raw.toNat < 2 ^ 16 := raw.toNat_lt
    obtain ⟨hb, hfit⟩ := steps_fit hraw
    refine ⟨hb, hfit, ?_, ?_, ?_⟩
    · rw [logSteps_eq hraw, toNat_scaledLog2]
    · intro hle
      have hle' : raw.toNat ≤ 102 := UInt16.le_iff_toNat_le.1 hle
      rw [UInt16.toNat_mul]
      exact (Nat.mod_eq_of_lt (by simp; omega)).symm
    · rw [UInt32.toNat_toUInt16, toNat_scaledLog2]
      exact Nat.mod_eq_of_lt (exactLog2_lt hraw)
  · intro raw hle
    have hmono := scaledPressure_mono hle
    rwa [hmax] at hmono
  · intro before r hpen hsize
    refine ⟨_, ?_, pressure_filtered r.data (fixedButtons (waltop.after before) (byte r.data 1))
      hsize r.size_le⟩
    rw [Transducer.output, step_pen hpen]

/-- A pen report with raw pressure 103, the first one on the logarithm. -/
theorem pressure_curve_exact_joint :
    ∃ out, waltop.output [] (.ofBytes [16, 0x11, 0, 0, 0, 0, 103, 0, 0, 0]) = some out ∧
      getU16 out 6 = 1232 ∧ scaledPressure 102 ≤ scaledPressure 103 := by
  obtain ⟨-, hmono, -, -, -, hreport⟩ := pressure_curve_exact
  obtain ⟨out, hout, hpressure⟩ := hreport [] (.ofBytes [16, 0x11, 0, 0, 0, 0, 103, 0, 0, 0])
    (by decide) (by decide)
  exact ⟨out, hout, hpressure.trans (by decide +kernel), hmono 102 103 (by decide)⟩

def held (buttons : UInt8) : Bool := hasBits buttons TIP_SWITCH || hasBits buttons BARREL_SWITCH

def both (buttons : UInt8) : Bool := hasBits buttons TIP_SWITCH && hasBits buttons BARREL_SWITCH

def OTHER_BITS : UInt8 := ~~~(TIP_SWITCH ||| BARREL_SWITCH ||| SECONDARY_BARREL_SWITCH)

def rawButtons (r : Report) : UInt8 := byte r.data 1

def outButtons (out : Option (List UInt8)) : UInt8 := byte (out.getD []) 1

/-- The buttons of the previous pen output, none before the first. -/
def previous (before : List Report) : UInt8 := (waltop.lastOutput isPen before).elim 0 outButtons

theorem fixed_held {s : UInt8} (h : held s) (b : UInt8) : fixedButtons s b = b := by
  have hs : hasBits s TIP_SWITCH = true ∨ hasBits s BARREL_SWITCH = true := by
    simpa [held] using h
  rw [fixedButtons]
  rcases hs with hs | hs <;> simp [hs]

theorem fixed_free {s : UInt8} (h : held s = false) {b : UInt8} (hb : both b) :
    fixedButtons s b = b &&& ~~~(TIP_SWITCH ||| BARREL_SWITCH) ||| SECONDARY_BARREL_SWITCH := by
  obtain ⟨hbt, hbb⟩ : hasBits b TIP_SWITCH = true ∧ hasBits b BARREL_SWITCH = true := by
    simpa [both] using hb
  obtain ⟨hst, hsb⟩ : hasBits s TIP_SWITCH = false ∧ hasBits s BARREL_SWITCH = false := by
    simpa [held] using h
  rw [fixedButtons]
  simp [hbt, hbb, hst, hsb]

theorem fixed_kept {s b : UInt8} (hb : both b = false) : fixedButtons s b = b := by
  rw [fixedButtons]
  have hcond : ¬ (hasBits b TIP_SWITCH && hasBits b BARREL_SWITCH && !hasBits s TIP_SWITCH &&
      !hasBits s BARREL_SWITCH) = true := by
    intro h
    simp only [Bool.and_eq_true] at h
    exact absurd (by simp [both, h.1.1.1, h.1.1.2]) (ne_of_eq_of_ne hb Bool.false_ne_true)
  rw [if_neg hcond]

theorem replaced_bits (b : UInt8) :
    let v := b &&& ~~~(TIP_SWITCH ||| BARREL_SWITCH) ||| SECONDARY_BARREL_SWITCH
    hasBits v TIP_SWITCH = false ∧ hasBits v BARREL_SWITCH = false ∧
      hasBits v SECONDARY_BARREL_SWITCH = true ∧ v &&& OTHER_BITS = b &&& OTHER_BITS := by
  revert b
  decide +kernel

theorem fixed_other_bits (s b : UInt8) : fixedButtons s b &&& OTHER_BITS = b &&& OTHER_BITS := by
  cases hs : held s with
  | true => rw [fixed_held hs]
  | false =>
    cases hb : both b with
    | true => rw [fixed_free hs hb, (replaced_bits b).2.2.2]
    | false => rw [fixed_kept hb]

theorem held_of_both {s b : UInt8} (h : both (fixedButtons s b)) : held s := by
  cases hs : held s with
  | true => rfl
  | false =>
    cases hb : both b with
    | true =>
      obtain ⟨htip, -⟩ := replaced_bits b
      rw [fixed_free hs hb, both, htip] at h
      exact absurd h (by simp)
    | false =>
      rw [fixed_kept hb, hb] at h
      exact absurd h (by simp)

theorem out_filtered (data : List UInt8) (buttons : UInt8) {n : ℕ} (hn : 2 ≤ n)
    (hlen : 1 < data.length) : outButtons (some ((filtered data buttons).take n)) = buttons := by
  rw [outButtons, Option.getD_some, byte_take (by omega), filtered, setU16,
    byte_set_ne (by decide), byte_set_ne (by decide), byte_set_self hlen]

theorem out_pen {before : List Report} {x : Report} (hpen : isPen x) (hsize : 2 ≤ x.size) :
    outButtons (waltop.output before x) =
      fixedButtons (waltop.after before) (rawButtons x) := by
  have hlen := x.length_data
  rw [Transducer.output, step_pen hpen, out_filtered _ _ hsize (by omega), rawButtons]

theorem after_previous {before : List Report} (hbefore : ∀ r ∈ before, isPen r → 2 ≤ r.size) :
    waltop.after before = previous before := by
  induction before using List.reverseRecOn with
  | nil => rfl
  | append_singleton xs x ih =>
    have hxs := ih fun r hr => hbefore r (List.mem_append_left _ hr)
    rw [Transducer.after_concat, previous, Transducer.lastOutput_concat]
    by_cases hpen : isPen x
    · rw [if_pos hpen, Option.elim_some, out_pen hpen (hbefore x (by simp) hpen), step_pen hpen,
        rawButtons]
    · rw [if_neg hpen, step_other (by simpa using hpen), hxs, previous]

/-- In a stretch of raw tip and barrel the decision of its first report stays. -/
theorem held_stretch {stretch : List Report} (hraw : ∀ r ∈ stretch, isPen r → both (rawButtons r))
    (s : UInt8) : held (waltop.afterFrom s stretch) = held s := by
  refine waltop.afterFrom_invariant (I := fun t => held t = held s) ?_ rfl
  intro x hx t ht
  by_cases hpen : isPen x
  · have hb : both (byte x.data 1) := hraw x hx hpen
    rw [step_pen hpen]
    cases hheld : held t with
    | true =>
      obtain ⟨htip, -⟩ : hasBits (byte x.data 1) TIP_SWITCH = true ∧ _ := by
        simpa [both] using hb
      rw [← ht, hheld, fixed_held hheld, held, htip, Bool.true_or]
    | false =>
      obtain ⟨htip, hbarrel, -⟩ := replaced_bits (byte x.data 1)
      rw [← ht, hheld, fixed_free hheld hb, held, htip, hbarrel, Bool.or_false]
  · rw [step_other (by simpa using hpen)]
    exact ht

theorem out_stretch {before mid : List Report} {x : Report}
    (hbefore : ∀ r ∈ before, isPen r → 2 ≤ r.size) (hpen : isPen x) (hsize : 2 ≤ x.size)
    (hraw : ∀ r ∈ mid, isPen r → both (rawButtons r)) :
    ∃ s, held s = held (previous before) ∧
      outButtons (waltop.output (before ++ mid) x) = fixedButtons s (rawButtons x) := by
  refine ⟨waltop.after (before ++ mid), ?_, out_pen hpen hsize⟩
  rw [Transducer.after_append, held_stretch hraw, after_previous hbefore]

theorem out_in_stretch {run before stretch rest mid post : List Report} {x : Report}
    (hrun : ∀ r ∈ run, isPen r → 2 ≤ r.size) (hsplit : run = before ++ stretch ++ rest)
    (hraw : ∀ r ∈ stretch, isPen r → both (rawButtons r)) (hstretch : stretch = mid ++ x :: post)
    (hpen : isPen x) : both (rawButtons x) ∧ ∃ s, held s = held (previous before) ∧
      outButtons (waltop.output (before ++ mid) x) = fixedButtons s (rawButtons x) := by
  obtain ⟨hmid, hx⟩ := forall_of_split hraw hstretch
  rw [hsplit, List.append_assoc] at hrun
  obtain ⟨hbefore, hrest⟩ := List.forall_mem_append.1 hrun
  have hsize : 2 ≤ x.size := hrest x (by simp [hstretch]) hpen
  exact ⟨hx hpen, out_stretch hbefore hpen hsize hmid⟩

theorem out_frame (before : List Report) {x : Report} (hpen : isPen x) :
    ∃ out, waltop.output before x = some out ∧ out.length = x.bytes.length ∧
      ∀ j ∉ [1, 6, 7], out[j]? = x.bytes[j]? := by
  refine ⟨_, by rw [Transducer.output, step_pen hpen], ?_, ?_⟩
  · rw [filtered, List.length_take, length_setU16, List.length_set, Report.bytes, List.length_take]
  · intro j hj
    obtain ⟨h1, h6, h7⟩ : j ≠ 1 ∧ j ≠ 6 ∧ j ≠ 7 := by simpa using hj
    rw [filtered, take_setU16, getElem?_setU16 h6 h7, List.take_set,
      List.getElem?_set_ne h1.symm, Report.bytes]

/-- A stretch of tip and barrel together is read as one of the two, by what the output showed
before it, and for as long as it lasts. -/
theorem secondary_button_stable (run : List Report)
    (hrun : ∀ r ∈ run, isPen r → 2 ≤ r.size) :
    (∀ before x rest, run = before ++ x :: rest → isPen x →
      both (outButtons (waltop.output before x)) → held (previous before)) ∧
    (∀ before stretch rest, run = before ++ stretch ++ rest →
      (∀ r ∈ stretch, isPen r → both (rawButtons r)) → held (previous before) = false →
      ∀ mid x post, stretch = mid ++ x :: post → isPen x →
        let out := outButtons (waltop.output (before ++ mid) x)
        hasBits out TIP_SWITCH = false ∧ hasBits out BARREL_SWITCH = false ∧
          hasBits out SECONDARY_BARREL_SWITCH = true) ∧
    (∀ before stretch rest, run = before ++ stretch ++ rest →
      (∀ r ∈ stretch, isPen r → both (rawButtons r)) → held (previous before) = true →
      ∀ mid x post, stretch = mid ++ x :: post → isPen x →
        outButtons (waltop.output (before ++ mid) x) = rawButtons x) ∧
    ∀ before x rest, run = before ++ x :: rest →
      (isPen x → ∃ out, waltop.output before x = some out ∧ out.length = x.bytes.length ∧
        byte out 1 &&& OTHER_BITS = rawButtons x &&& OTHER_BITS ∧
        ∀ j ∉ [1, 6, 7], out[j]? = x.bytes[j]?) ∧
      (isPen x = false → waltop.output before x = some x.bytes) := by
  refine ⟨?_, ?_, ?_, ?_⟩
  · intro before x rest hsplit hpen hboth
    obtain ⟨hbefore, hx⟩ := forall_of_split hrun hsplit
    rw [out_pen hpen (hx hpen), after_previous hbefore] at hboth
    exact held_of_both hboth
  · intro before stretch rest hsplit hraw hfree mid x post hstretch hpen
    obtain ⟨hboth, s, hs, hout⟩ := out_in_stretch hrun hsplit hraw hstretch hpen
    obtain ⟨htip, hbarrel, hsecondary, -⟩ := replaced_bits (rawButtons x)
    rw [hout, fixed_free (hs.trans hfree) hboth]
    exact ⟨htip, hbarrel, hsecondary⟩
  · intro before stretch rest hsplit hraw hheld mid x post hstretch hpen
    obtain ⟨-, s, hs, hout⟩ := out_in_stretch hrun hsplit hraw hstretch hpen
    rw [hout, fixed_held (hs.trans hheld)]
  · intro before x rest hsplit
    refine ⟨fun hpen => ?_, fun hpen => by rw [Transducer.output, step_other hpen]⟩
    obtain ⟨out, hout, hlen, hframe⟩ := out_frame before hpen
    obtain ⟨-, hsize⟩ := forall_of_split hrun hsplit
    have hbuttons : outButtons (waltop.output before x) = _ := out_pen hpen (hsize hpen)
    rw [hout] at hbuttons
    refine ⟨out, hout, hlen, ?_, hframe⟩
    rw [show byte out 1 = outButtons (some out) from rfl, hbuttons, fixed_other_bits]

/-- The secondary button held for two reports, with a report of the mouse in between. -/
theorem secondary_button_stable_press :
    let press := Report.ofBytes [16, 0x13, 0, 0, 0, 0, 0, 0, 0, 0]
    let mouse := Report.ofBytes [1, 0, 0, 0, 0, 0]
    let out := outButtons (waltop.output ([] ++ [press, mouse]) press)
    hasBits out TIP_SWITCH = false ∧ hasBits out BARREL_SWITCH = false ∧
      hasBits out SECONDARY_BARREL_SWITCH = true := by
  intro press mouse
  have hrun : ∀ r ∈ [press, mouse, press], isPen r → 2 ≤ r.size := by decide
  obtain ⟨-, hsecondary, -⟩ := secondary_button_stable [press, mouse, press] hrun
  exact hsecondary [] [press, mouse, press] [] rfl (by decide) rfl [press, mouse] press [] rfl
    (by decide)

end WaltopTablet
