import Mathlib.Data.List.Basic
import UdevHidBpf.BpfErrors
import UdevHidBpf.DeviceEvents

/-! # Smooth pressure for the Wacom Art Pen

The pen reports each pressure twice. The filter replaces the first of the two by the mean
with what it wrote before. -/
namespace ArtPen

open BpfErrors Transducers DeviceEvents

def ART_PEN_ID : UInt16 := 0x0804
def PID_INTUOS_PRO_2_M : UInt16 := 0x0357
def PEN_REPORT_LEN : ℕ := 64

structure Offsets where
  tipSwitch : UInt8
  pressure : UInt8
  toolType : UInt8
  deriving DecidableEq, Repr

structure WacomParams where
  pid : UInt16
  rdescLen : UInt16
  reportId : UInt8
  reportLen : UInt8
  offsets : Offsets
  deriving DecidableEq, Repr

def devices : List WacomParams := [⟨PID_INTUOS_PRO_2_M, 949, 16, 27, ⟨1, 8, 25⟩⟩]

/-- `probe`: the parameters it leaves behind and `retval`. No product is a device without a
context. -/
def probe (params : WacomParams) (product : Option UInt32) (rdescSize : ℕ) : WacomParams × ℤ :=
  match product with
  | none => (params, -ENODEV)
  | some product =>
    devices.foldl (fun found device =>
      if device.pid = product.toUInt16 ∧ device.rdescLen.toNat = rdescSize then (device, 0)
      else found) (params, -EINVAL)

structure Vars where
  odd : Bool
  prevPressure : UInt16
  deriving DecidableEq, Repr

/-- The sum in `artpen_pressure_interpolate`, an `int`. -/
def pressureSum (pressure prevPressure : UInt16) : ℕ := pressure.toNat + prevPressure.toNat

def artpenPressureInterpolate (params : WacomParams) (s : Vars) (buffer : List UInt8) :
    Called Vars :=
  match hidBpfGetData buffer 0 PEN_REPORT_LEN with
  | none => ⟨s, buffer, 0⟩
  | some data =>
    let offsets := params.offsets
    if byte data 0 ≠ params.reportId ∨ offsets.tipSwitch.toNat ≥ PEN_REPORT_LEN ∨
        offsets.pressure.toNat ≥ PEN_REPORT_LEN - 1 ∨
        offsets.toolType.toNat ≥ PEN_REPORT_LEN - 1 then ⟨s, data, 0⟩
    else if getU16 data offsets.toolType.toNat ≠ ART_PEN_ID then ⟨s, data, 0⟩
    else if byte data offsets.tipSwitch.toNat &&& 0x01 = 0 then ⟨⟨true, 0⟩, data, 0⟩
    else
      let pressure := getU16 data offsets.pressure.toNat
      if s.odd then
        let mean := UInt16.ofNat (pressureSum pressure s.prevPressure / 2)
        ⟨⟨!s.odd, mean⟩, setU16 data offsets.pressure.toNat mean, 0⟩
      else ⟨⟨!s.odd, pressure⟩, data, 0⟩

/-- The program once `probe` has found the device. -/
def artpen (params : WacomParams) : Transducer Vars Report (Option (List UInt8)) :=
  device ⟨false, 0⟩ (artpenPressureInterpolate params)

/-- One pressure in, one out; the flag says that the next one is the first of a pair. -/
def smoother : Transducer (Bool × ℕ) ℕ ℕ where
  init := (true, 0)
  step s p := if s.1 then ((false, (p + s.2) / 2), (p + s.2) / 2) else ((true, p), p)

def doubled (ps : List ℕ) : List ℕ := ps.flatMap fun p => [p, p]

def interpolated : ℕ → List ℕ → List ℕ
  | _, [] => []
  | prev, p :: ps => (p + prev) / 2 :: p :: interpolated p ps

theorem smoother_doubled (prev : ℕ) (ps : List ℕ) :
    smoother.outputsFrom (true, prev) (doubled ps) = interpolated prev ps := by
  induction ps generalizing prev with
  | nil => rfl
  | cons p ps ih =>
    have hcons : doubled (p :: ps) = p :: p :: doubled ps := rfl
    rw [hcons, Transducer.outputsFrom_cons, Transducer.outputsFrom_cons, interpolated, ← ih p]
    rfl

variable (params : WacomParams)

def isArtPen (r : Report) : Bool :=
  byte r.data 0 == params.reportId && getU16 r.data params.offsets.toolType.toNat == ART_PEN_ID

def tipDown (r : Report) : Bool := hasBits (byte r.data params.offsets.tipSwitch.toNat) 0x01

def pressure (r : Report) : ℕ := (getU16 r.data params.offsets.pressure.toNat).toNat

/-- The report `r` with the pressure `p`, all other bytes as they were. -/
def WithPressure (r : Report) (p : ℕ) (out : List UInt8) : Prop :=
  (params.offsets.pressure.toNat + 1 < r.size →
    (getU16 out params.offsets.pressure.toNat).toNat = p) ∧
  out.length = r.bytes.length ∧
  ∀ i, i ≠ params.offsets.pressure.toNat → i ≠ params.offsets.pressure.toNat + 1 →
    out[i]? = r.bytes[i]?

def view (s : Vars) : Bool × ℕ := (s.odd, s.prevPressure.toNat)

theorem probe_found {old : WacomParams} {product : Option UInt32} {rdescSize : ℕ}
    (h : (probe old product rdescSize).2 = 0) : (probe old product rdescSize).1 ∈ devices := by
  revert h
  cases product with
  | none => simp [probe, ENODEV]
  | some product =>
    simp only [probe, devices, List.foldl_cons, List.foldl_nil]
    split_ifs
    · exact fun _ => List.mem_singleton.2 rfl
    · exact fun h => absurd h (by simp [EINVAL])

variable {params} {s : Vars} {r : Report}

theorem offsets_in_range (h : params ∈ devices) : params.offsets.tipSwitch.toNat < 64 ∧
    params.offsets.pressure.toNat < 63 ∧ params.offsets.toolType.toNat < 63 := by
  revert h params
  decide

theorem step_other (hpen : isArtPen params r = false) :
    (artpen params).step s r = (s, some r.bytes) := by
  have hevent : artpenPressureInterpolate params s r.data = ⟨s, r.data, 0⟩ := by
    simp only [artpenPressureInterpolate, get_data_report r (by decide : PEN_REPORT_LEN ≤ 64)]
    by_cases hid : byte r.data 0 = params.reportId
    · have htool : getU16 r.data params.offsets.toolType.toNat ≠ ART_PEN_ID := by
        simpa [isArtPen, hid] using hpen
      rw [if_pos htool, ite_self]
    · rw [if_pos (Or.inl hid)]
  exact device_passes hevent

theorem event_art_pen (hparams : params ∈ devices) (hpen : isArtPen params r) :
    artpenPressureInterpolate params s r.data =
      if tipDown params r then
        if s.odd then
          let mean := UInt16.ofNat (pressureSum (getU16 r.data params.offsets.pressure.toNat)
            s.prevPressure / 2)
          ⟨⟨!s.odd, mean⟩, setU16 r.data params.offsets.pressure.toNat mean, 0⟩
        else ⟨⟨!s.odd, getU16 r.data params.offsets.pressure.toNat⟩, r.data, 0⟩
      else ⟨⟨true, 0⟩, r.data, 0⟩ := by
  obtain ⟨htip, hpressure, htool⟩ := offsets_in_range hparams
  obtain ⟨hid, hart⟩ : byte r.data 0 = params.reportId ∧
      getU16 r.data params.offsets.toolType.toNat = ART_PEN_ID := by
    simpa [isArtPen] using hpen
  simp only [artpenPressureInterpolate, get_data_report r (by decide : PEN_REPORT_LEN ≤ 64)]
  rw [if_neg, if_neg (not_not_intro hart)]
  · by_cases hdown : byte r.data params.offsets.tipSwitch.toNat &&& 0x01 = 0
    · simp [tipDown, hasBits, hdown]
    · simp [tipDown, hasBits, hdown]
  · rw [PEN_REPORT_LEN]
    simp only [hid, ne_eq, not_true_eq_false, false_or]
    omega

theorem step_up (hparams : params ∈ devices) (hpen : isArtPen params r)
    (hup : tipDown params r = false) : (artpen params).step s r = (⟨true, 0⟩, some r.bytes) := by
  have hevent := event_art_pen (s := s) hparams hpen
  rw [hup, if_neg Bool.false_ne_true] at hevent
  exact device_passes hevent

theorem mean_fits (p q : UInt16) :
    (UInt16.ofNat (pressureSum p q / 2)).toNat = (p.toNat + q.toNat) / 2 := by
  have hp := p.toNat_lt
  have hq := q.toNat_lt
  rw [UInt16.toNat_ofNat', pressureSum]
  exact Nat.mod_eq_of_lt (by omega)

theorem with_pressure_set (hparams : params ∈ devices) (v : UInt16) :
    WithPressure params r v.toNat
      ((setU16 r.data params.offsets.pressure.toNat v).take r.size) := by
  obtain ⟨-, hpressure, -⟩ := offsets_in_range hparams
  have hlen := r.length_data
  rw [take_setU16]
  refine ⟨fun hin => ?_, length_setU16 _ _ _, fun i hlow hhigh => getElem?_setU16 hlow hhigh v⟩
  rw [getU16_setU16]
  have := r.size_le
  rw [List.length_take]
  omega

theorem with_pressure_self : WithPressure params r (pressure params r) r.bytes := by
  refine ⟨fun hin => ?_, rfl, fun _ _ _ => rfl⟩
  rw [pressure, getU16, getU16, Report.bytes, byte_take (by omega), byte_take hin]

theorem step_down (hparams : params ∈ devices) (hpen : isArtPen params r)
    (hdown : tipDown params r) :
    view ((artpen params).step s r).1 = (smoother.step (view s) (pressure params r)).1 ∧
      ∃ out, ((artpen params).step s r).2 = some out ∧
        WithPressure params r (smoother.step (view s) (pressure params r)).2 out := by
  have hevent := event_art_pen (s := s) hparams hpen
  rw [if_pos hdown] at hevent
  by_cases hodd : s.odd
  · rw [if_pos hodd] at hevent
    have hstep : (artpen params).step s r = _ := device_passes hevent
    have hmean := mean_fits (getU16 r.data params.offsets.pressure.toNat) s.prevPressure
    simp only [hstep, smoother, view, hodd, if_true, pressure, ← hmean]
    exact ⟨rfl, _, rfl, with_pressure_set hparams _⟩
  · rw [if_neg hodd] at hevent
    have hstep : (artpen params).step s r = _ := device_passes hevent
    simp only [hstep, smoother, view, hodd, if_neg Bool.false_ne_true]
    exact ⟨rfl, _, rfl, with_pressure_self⟩

theorem after_up (hparams : params ∈ devices) (before : List Report) {up : Report}
    (hpen : isArtPen params up) (hup : tipDown params up = false) :
    (artpen params).after (before ++ [up]) = ⟨true, 0⟩ := by
  rw [Transducer.after_concat, step_up hparams hpen hup]

/-- During a contact the filter follows the ideal one on the reports of the pen. -/
theorem view_contact (hparams : params ∈ devices) {mid : List Report}
    (hdown : ∀ r ∈ mid, isArtPen params r → tipDown params r) (s : Vars) :
    view ((artpen params).afterFrom s mid) =
      smoother.afterFrom (view s) ((mid.filter (isArtPen params)).map (pressure params)) := by
  refine Transducer.afterFrom_simulates _ smoother view _ _ ?_ ?_ s
  · intro r _ hpen s
    rw [step_other hpen]
  · intro r hr hpen s
    exact (step_down hparams hpen (hdown r hr hpen)).1

/-- Between two reports with the tip up, the pressures come out as means and values in turn,
whatever other reports come in between. -/
theorem artpen_interpolates (hparams : params ∈ devices) (before contact : List Report)
    (up : Report) (ps : List ℕ) (hpen : isArtPen params up) (hup : tipDown params up = false)
    (hdown : ∀ r ∈ contact, isArtPen params r → tipDown params r)
    (hpressures : (contact.filter (isArtPen params)).map (pressure params) <+: doubled ps) :
    (artpen params).output before up = some up.bytes ∧
    (∀ mid x rest, contact = mid ++ x :: rest →
      (isArtPen params x → ∃ p out,
        (interpolated 0 ps)[(mid.filter (isArtPen params)).length]? = some p ∧
        (artpen params).output (before ++ [up] ++ mid) x = some out ∧
        WithPressure params x p out ∧
        pressureSum (getU16 x.data params.offsets.pressure.toNat)
          ((artpen params).after (before ++ [up] ++ mid)).prevPressure < 2 ^ 31) ∧
      (isArtPen params x = false →
        (artpen params).output (before ++ [up] ++ mid) x = some x.bytes)) ∧
    ∀ next, isArtPen params next → tipDown params next = false →
      (artpen params).output (before ++ [up] ++ contact) next = some next.bytes ∧
      (artpen params).after (before ++ [up] ++ contact ++ [next]) =
        (artpen params).after (before ++ [up]) := by
  refine ⟨?_, ?_, ?_⟩
  · rw [Transducer.output, step_up hparams hpen hup]
  · intro mid x rest hcontact
    refine ⟨fun hx => ?_, fun hx => ?_⟩
    · obtain ⟨hmid, htip⟩ := forall_of_split hdown hcontact
      have hstate := view_contact hparams hmid ⟨true, 0⟩
      obtain ⟨-, out, hout, hwith⟩ := step_down
        (s := (artpen params).after (before ++ [up] ++ mid)) hparams hx (htip hx)
      rw [Transducer.after_append, after_up hparams before hpen hup, hstate] at hwith
      obtain ⟨tail, htail⟩ := hpressures
      rw [hcontact, List.filter_append, List.filter_cons_of_pos hx, List.map_append, List.map_cons,
        List.append_assoc, List.cons_append] at htail
      have hget := smoother.getElem?_outputsFrom (true, 0)
        ((mid.filter (isArtPen params)).map (pressure params)) (pressure params x)
        ((rest.filter (isArtPen params)).map (pressure params) ++ tail)
      rw [htail, smoother_doubled, List.length_map] at hget
      refine ⟨_, out, hget, hout, hwith, ?_⟩
      have hp := (getU16 x.data params.offsets.pressure.toNat).toNat_lt
      have hq := ((artpen params).after (before ++ [up] ++ mid)).prevPressure.toNat_lt
      rw [pressureSum]
      omega
    · rw [Transducer.output, step_other hx]
  · intro next hnext htip
    rw [Transducer.output, step_up hparams hnext htip, after_up hparams _ hnext htip,
      after_up hparams before hpen hup]
    exact ⟨rfl, rfl⟩

def penReport (tip : UInt8) (p : UInt16) (toolLow : UInt8) : Report :=
  .ofBytes ((setU16 ([16, tip] ++ List.replicate 23 0) 8 p) ++ [toolLow, 0x08])

/-- The example of the source, with a report of another pen in mid-stroke. -/
theorem artpen_interpolates_doubles :
    let params : WacomParams := ⟨PID_INTUOS_PRO_2_M, 949, 16, 27, ⟨1, 8, 25⟩⟩
    let up := penReport 0 0 0x04
    let mid := [penReport 1 100 0x04, penReport 1 100 0x04, penReport 1 7 0x02]
    ∃ out, (artpen params).output ([] ++ [up] ++ mid) (penReport 1 200 0x04) = some out ∧
      WithPressure params (penReport 1 200 0x04) 150 out := by
  intro params up mid
  obtain ⟨-, hrun, -⟩ := @artpen_interpolates params (by decide) []
    (mid ++ [penReport 1 200 0x04]) up [100, 200] (by decide) (by decide) (by decide) (by decide)
  obtain ⟨p, out, hp, hout, hwith, -⟩ := (hrun mid (penReport 1 200 0x04) [] rfl).1 (by decide)
  have hmean : p = 150 := Option.some.inj (hp.symm.trans (by decide))
  exact ⟨out, hout, hmean ▸ hwith⟩

end ArtPen
