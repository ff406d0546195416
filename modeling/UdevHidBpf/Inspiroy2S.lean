import Mathlib.Data.List.Basic
import UdevHidBpf.DeviceEvents

/-! # False tip releases of the Huion Inspiroy 2 S -/
namespace Inspiroy2S

open Transducers DeviceEvents

def PAD_REPORT_ID : UInt8 := 3
def VENDOR_REPORT_ID : UInt8 := 8

/-- The file-scope variables, all zero at load. -/
structure Vars where
  lastButtonState : UInt8
  lastTipState : UInt8
  lastSecBarrelState : UInt8
  forceTipDownCount : UInt8
  deriving DecidableEq, Repr

def defaultModeKey : ℕ → UInt8 × UInt8
  | 0x0005 => (1, 0)
  | 0x000c => (2, 0)
  | 0x0008 => (3, 0)
  | 0x0116 => (4, 0)
  | 0x002c => (5, 0)
  | 0x051d => (6, 0)
  | 0x012d => (0, -1)
  | 0x012e => (0, 1)
  | _ => (0, 0)

/-- A pad report in raw mode, `struct pad_report` over the start of the buffer. -/
def padEvent (s : Vars) (data : List UInt8) : Called Vars :=
  let wheelReport := byte data 1 = 0xf1
  let wheel := if wheelReport then (if byte data 5 = 2 then 0xff else byte data 5) else 0
  let lastButtonState := if wheelReport then s.lastButtonState else byte data 4
  ⟨{ s with lastButtonState },
    [PAD_REPORT_ID, 0, 0, 0, lastButtonState, wheel] ++ data.drop 6, 6⟩

/-- The two ways to force the tip down, in the order of the source: a running countdown first,
then a toggle, which starts it again. -/
def penEvent (s : Vars) (data : List UInt8) : Called Vars :=
  let tipState := byte data 1 &&& 0x1
  let secBarrelState := byte data 1 &&& 0x4
  let counted : UInt8 × UInt8 :=
    if s.forceTipDownCount > 0 then
      (byte data 1 ||| 0x1, if tipState ≠ 0 then 0 else s.forceTipDownCount - 1)
    else (byte data 1, s.forceTipDownCount)
  let forced : UInt8 × UInt8 :=
    if s.lastTipState ≠ 0 ∧ s.lastSecBarrelState ≠ secBarrelState then
      (counted.1 ||| 0x1, 4)
    else counted
  ⟨⟨s.lastButtonState, tipState, secBarrelState, forced.2⟩, data.set 1 forced.1, 0⟩

def inspiroy2FixEvents (s : Vars) (buffer : List UInt8) : Called Vars :=
  match hidBpfGetData buffer 0 10 with
  | none => ⟨s, buffer, 0⟩
  | some data =>
    if byte data 0 = PAD_REPORT_ID then
      let key := defaultModeKey ((byte data 1).toNat <<< 8 ||| (byte data 2).toNat)
      ⟨s, [PAD_REPORT_ID, 0, 0, 0, key.2, key.1] ++ data.drop 6, 6⟩
    else if byte data 0 = VENDOR_REPORT_ID then
      if byte data 1 &&& 0x20 ≠ 0 then padEvent s data
      else if byte data 1 &&& 0x80 ≠ 0 then penEvent s data
      else ⟨s, data, 0⟩
    else ⟨s, data, 0⟩

def inspiroy2 : Transducer Vars Report (Option (List UInt8)) :=
  device ⟨0, 0, 0, 0⟩ inspiroy2FixEvents

def isVendor (r : Report) : Bool := byte r.data 0 == VENDOR_REPORT_ID && decide (2 ≤ r.size)

def isPad (r : Report) : Bool := hasBits (byte r.data 1) 0x20

def inRangePen (r : Report) : Bool :=
  isVendor r && !isPad r && hasBits (byte r.data 1) 0x80

def outOfRangePen (r : Report) : Bool :=
  isVendor r && !isPad r && !hasBits (byte r.data 1) 0x80

def rawTip (r : Report) : Bool := hasBits (byte r.data 1) 0x1

def secBarrel (r : Report) : Bool := hasBits (byte r.data 1) 0x4

def outTip : Option (List UInt8) → Bool
  | none => false
  | some bytes => hasBits (byte bytes 1) 0x1

def pens (run : List Report) : List Report := run.filter inRangePen

def Toggle (before : List Report) (x : Report) : Prop :=
  ∃ last, before.getLast? = some last ∧ rawTip last ∧ secBarrel x ≠ secBarrel last

/-- `n` reports may still be forced down after the last of `before`: a toggle is `4 - n`
reports back, and the tip was up since. -/
def Armed (before : List Report) (n : ℕ) : Prop :=
  ∃ earlier t later, before = earlier ++ t :: later ∧ Toggle earlier t ∧
    later.length + n = 4 ∧ ∀ r ∈ later, ¬ rawTip r

/-- The most recent toggle is at most four reports back, with no tip-down report since. -/
def HeldByToggle (before : List Report) : Prop :=
  ∃ earlier t later, before = earlier ++ t :: later ∧ Toggle earlier t ∧
    (∀ mid y rest, later = mid ++ y :: rest → ¬ Toggle (earlier ++ t :: mid) y) ∧
    later.length < 4 ∧ ∀ r ∈ later, ¬ rawTip r

theorem armed_concat (before : List Report) (x : Report) (n : ℕ) :
    Armed (before ++ [x]) n ↔
      Toggle before x ∧ n = 4 ∨ ¬ rawTip x ∧ Armed before (n + 1) := by
  constructor
  · rintro ⟨earlier, t, later, hsplit, htoggle, hlen, hup⟩
    rcases List.eq_nil_or_concat later with rfl | ⟨init, last, rfl⟩
    · obtain ⟨rfl, rfl⟩ : before = earlier ∧ x = t := by
        simpa using List.append_inj' hsplit rfl
      exact Or.inl ⟨htoggle, by simpa using hlen⟩
    · rw [List.concat_eq_append] at *
      obtain ⟨rfl, rfl⟩ : before = earlier ++ t :: init ∧ x = last := by
        have hsame : before ++ [x] = (earlier ++ t :: init) ++ [last] := by simpa using hsplit
        simpa using List.append_inj' hsame rfl
      refine Or.inr ⟨hup x (by simp), earlier, t, init, rfl, htoggle, ?_, ?_⟩
      · simp only [List.length_append, List.length_singleton] at hlen
        omega
      · intro r hr
        exact hup r (List.mem_append_left _ hr)
  · rintro (⟨htoggle, rfl⟩ | ⟨hx, earlier, t, later, rfl, htoggle, hlen, hup⟩)
    · exact ⟨before, x, [], rfl, htoggle, rfl, by simp⟩
    · refine ⟨earlier, t, later ++ [x], by simp, htoggle, ?_, ?_⟩
      · simp only [List.length_append, List.length_singleton]
        omega
      · intro r hr
        rcases List.mem_append.1 hr with h | h
        · exact hup r h
        · rw [List.mem_singleton.1 h]
          exact hx

theorem held_of_armed {before : List Report} {n : ℕ} (hn : n ≠ 0) (h : Armed before n) :
    HeldByToggle before := by
  obtain ⟨earlier, t, later, hsplit, htoggle, hlen, hup⟩ := h
  -- on the way to the most recent toggle the stretch after it only gets shorter
  induction hk : later.length using Nat.strong_induction_on generalizing earlier t later n with
  | _ k ih =>
    by_cases hlast : ∃ mid y rest, later = mid ++ y :: rest ∧ Toggle (earlier ++ t :: mid) y
    · obtain ⟨mid, y, rest, rfl, hy⟩ := hlast
      rw [List.length_append, List.length_cons] at hlen hk
      refine ih rest.length (by omega) (n := 4 - rest.length) (by omega)
        (earlier ++ t :: mid) y rest (by simp [hsplit]) hy (by omega) ?_ rfl
      intro r hr
      exact hup r (by simp [hr])
    · refine ⟨earlier, t, later, hsplit, htoggle, ?_, by omega, hup⟩
      intro mid y rest heq hy
      exact hlast ⟨mid, y, rest, heq, hy⟩

theorem held_iff_armed {before : List Report} :
    HeldByToggle before ↔ ∃ n, n ≠ 0 ∧ Armed before n := by
  constructor
  · rintro ⟨earlier, t, later, hsplit, htoggle, -, hlen, hup⟩
    exact ⟨4 - later.length, by omega, earlier, t, later, hsplit, htoggle, by omega, hup⟩
  · rintro ⟨n, hn, h⟩
    exact held_of_armed hn h

variable {s : Vars} {r : Report}

def toggles (s : Vars) (r : Report) : Bool :=
  s.lastTipState != 0 && s.lastSecBarrelState != byte r.data 1 &&& 0x4

def nextCount (s : Vars) (r : Report) : UInt8 :=
  if toggles s r then 4
  else if rawTip r || s.forceTipDownCount == 0 then 0
  else s.forceTipDownCount - 1

def forces (s : Vars) (r : Report) : Bool := toggles s r || s.forceTipDownCount != 0

theorem pen_event (s : Vars) (r : Report) :
    penEvent s r.data = ⟨⟨s.lastButtonState, byte r.data 1 &&& 0x1,
      byte r.data 1 &&& 0x4, nextCount s r⟩,
      r.data.set 1 (if forces s r then byte r.data 1 ||| 0x1 else byte r.data 1), 0⟩ := by
  have htip : byte r.data 1 &&& 0x1 ≠ 0 ↔ rawTip r := by simp [rawTip, hasBits]
  have hpos : s.forceTipDownCount > 0 ↔ s.forceTipDownCount ≠ 0 := UInt8.pos_iff_ne_zero
  have htoggle : s.lastTipState ≠ 0 ∧ s.lastSecBarrelState ≠ byte r.data 1 &&& 0x4 ↔
      toggles s r := by simp [toggles]
  have hor : byte r.data 1 ||| 0x1 ||| 0x1 = byte r.data 1 ||| 0x1 := by
    rw [UInt8.or_assoc, UInt8.or_self]
  simp only [penEvent, htip, hpos, htoggle, nextCount, forces]
  by_cases ht : toggles s r
  · by_cases hc : s.forceTipDownCount = 0 <;> simp [ht, hc, hor]
  · by_cases hc : s.forceTipDownCount = 0
    · simp [ht, hc]
    · by_cases hraw : rawTip r <;> simp [ht, hc, hraw]

theorem step_pen (hpen : inRangePen r) :
    inspiroy2.step s r = (⟨s.lastButtonState, byte r.data 1 &&& 0x1, byte r.data 1 &&& 0x4,
      nextCount s r⟩,
      some (r.bytes.set 1 (if forces s r then byte r.data 1 ||| 0x1 else byte r.data 1))) := by
  obtain ⟨⟨hid, -⟩, hpad, hrange⟩ : (byte r.data 0 = VENDOR_REPORT_ID ∧ 2 ≤ r.size) ∧
      byte r.data 1 &&& 0x20 = 0 ∧ byte r.data 1 &&& 0x80 ≠ 0 := by
    simpa [inRangePen, isVendor, isPad, hasBits, and_assoc] using hpen
  have hevent : inspiroy2FixEvents s r.data = penEvent s r.data := by
    simp only [inspiroy2FixEvents, get_data_report r (by decide : 10 ≤ 64), hid, hpad, ne_eq,
      not_true_eq_false, if_false, if_pos hrange, if_true]
    rw [if_neg (by decide)]
  rw [pen_event] at hevent
  have hstep : inspiroy2.step s r = _ := device_passes hevent
  rw [hstep, List.take_set]
  rfl

theorem step_not_pen (hvendor : isVendor r) (hpen : ¬ inRangePen r) :
    ∃ button, (inspiroy2.step s r).1 = { s with lastButtonState := button } := by
  obtain ⟨hid, -⟩ : byte r.data 0 = VENDOR_REPORT_ID ∧ 2 ≤ r.size := by
    simpa [isVendor] using hvendor
  simp only [inspiroy2, device, inspiroy2FixEvents, get_data_report r (by decide : 10 ≤ 64), hid,
    if_true]
  rw [if_neg (by decide)]
  by_cases hpad : byte r.data 1 &&& 0x20 = 0
  · have hrange : byte r.data 1 &&& 0x80 = 0 := by
      simpa [inRangePen, hvendor, isPad, hasBits, hpad] using hpen
    exact ⟨s.lastButtonState, by simp [hpad, hrange]⟩
  · exact ⟨_, by rw [if_pos hpad]; rfl⟩

structure Tracks (before : List Report) (s : Vars) : Prop where
  toggle : ∀ x, toggles s x ↔ Toggle before x
  count_le : s.forceTipDownCount.toNat ≤ 4
  armed : s.forceTipDownCount ≠ 0 → Armed before s.forceTipDownCount.toNat
  longest : ∀ n, n ≠ 0 → Armed before n → n ≤ s.forceTipDownCount.toNat

theorem tracks_init : Tracks [] ⟨0, 0, 0, 0⟩ := by
  constructor
  · intro x
    simp [toggles, Toggle]
  · decide
  · intro h
    exact absurd rfl h
  · rintro n - ⟨earlier, t, later, hsplit, -⟩
    exact absurd hsplit (by simp)

theorem toggle_concat (before : List Report) (x y : Report) :
    Toggle (before ++ [x]) y ↔ rawTip x ∧ secBarrel y ≠ secBarrel x := by
  simp [Toggle]

theorem next_count_toggle (h : toggles s r) : nextCount s r = 4 := by
  rw [nextCount, if_pos h]

theorem next_count_tip (h : ¬ toggles s r) (hraw : rawTip r) : nextCount s r = 0 := by
  rw [nextCount, if_neg h, if_pos (by simp [hraw])]

theorem next_count_zero (h : ¬ toggles s r) (hcount : s.forceTipDownCount = 0) :
    nextCount s r = 0 := by
  rw [nextCount, if_neg h, if_pos (by simp [hcount])]

theorem next_count_up (h : ¬ toggles s r) (hraw : ¬ rawTip r)
    (hcount : s.forceTipDownCount ≠ 0) :
    (nextCount s r).toNat + 1 = s.forceTipDownCount.toNat := by
  have hpred : ∀ c : UInt8, c ≠ 0 → (c - 1).toNat + 1 = c.toNat := by decide +kernel
  rw [nextCount, if_neg h, if_neg (by simp [hraw, hcount]), hpred _ hcount]

theorem next_count_le (hcount : s.forceTipDownCount.toNat ≤ 4) : (nextCount s r).toNat ≤ 4 := by
  by_cases ht : toggles s r
  · rw [next_count_toggle ht]
    decide
  by_cases hraw : rawTip r
  · rw [next_count_tip ht hraw]
    decide
  by_cases hc : s.forceTipDownCount = 0
  · rw [next_count_zero ht hc]
    decide
  · have := next_count_up ht hraw hc
    omega

theorem tracks_armed {before : List Report} {x : Report} (h : Tracks before s)
    (hnext : nextCount s x ≠ 0) : Armed (before ++ [x]) (nextCount s x).toNat := by
  rw [armed_concat]
  by_cases ht : toggles s x
  · rw [next_count_toggle ht]
    exact Or.inl ⟨(h.toggle x).1 ht, rfl⟩
  by_cases hraw : rawTip x
  · exact absurd (next_count_tip ht hraw) hnext
  by_cases hc : s.forceTipDownCount = 0
  · exact absurd (next_count_zero ht hc) hnext
  · rw [next_count_up ht hraw hc]
    exact Or.inr ⟨hraw, h.armed hc⟩

theorem tracks_longest {before : List Report} {x : Report} (h : Tracks before s) {n : ℕ}
    (hn : n ≠ 0) (harmed : Armed (before ++ [x]) n) : n ≤ (nextCount s x).toNat := by
  rw [armed_concat] at harmed
  have hle : n ≤ 4 := by
    rcases harmed with ⟨-, rfl⟩ | ⟨-, earlier, t, later, -, -, hlen, -⟩ <;> omega
  by_cases ht : toggles s x
  · rw [next_count_toggle ht]
    exact hle
  rcases harmed with ⟨htoggle, -⟩ | ⟨hraw, hbefore⟩
  · exact absurd ((h.toggle x).2 htoggle) ht
  · have hlong := h.longest (n + 1) (by omega) hbefore
    have hc : s.forceTipDownCount ≠ 0 := by
      intro hzero
      rw [hzero] at hlong
      exact absurd hlong (by simp)
    have := next_count_up ht hraw hc
    omega

theorem tracks_pen {before : List Report} {x : Report} (h : Tracks before s)
    (hpen : inRangePen x) : Tracks (before ++ [x]) (inspiroy2.step s x).1 := by
  rw [step_pen hpen]
  refine ⟨?_, next_count_le h.count_le, tracks_armed h, fun n => tracks_longest h⟩
  intro y
  have hsec : byte x.data 1 &&& 0x4 = byte y.data 1 &&& 0x4 ↔ secBarrel x = secBarrel y :=
    and_eq_and_iff (by decide +kernel) _ _
  have hraw : ¬ byte x.data 1 &&& 0x1 = 0 ↔ rawTip x := by simp [rawTip, hasBits]
  rw [toggle_concat]
  simp only [toggles, Bool.and_eq_true, bne_iff_ne, ne_eq, hsec, hraw]
  exact and_congr_right fun _ => not_congr eq_comm

theorem tracks_run (run : List Report) (hrun : ∀ r ∈ run, isVendor r) :
    Tracks (pens run) (inspiroy2.after run) := by
  refine inspiroy2.after_invariant (I := fun run s => (∀ r ∈ run, isVendor r) →
    Tracks (pens run) s) ?_ ?_ run hrun
  · intro _
    exact tracks_init
  · intro xs x s ih hall
    have hs := ih fun r hr => hall r (List.mem_append_left _ hr)
    rw [pens, List.filter_append]
    by_cases hpen : inRangePen x
    · rw [List.filter_cons_of_pos hpen]
      exact tracks_pen hs hpen
    · rw [List.filter_cons_of_neg hpen, List.filter_nil, List.append_nil]
      obtain ⟨button, hstep⟩ := step_not_pen (s := s) (hall x (by simp)) hpen
      rw [hstep]
      exact ⟨hs.toggle, hs.count_le, hs.armed, hs.longest⟩

theorem forces_iff {before : List Report} (h : Tracks before s) :
    forces s r ↔ Toggle before r ∨ HeldByToggle before := by
  rw [forces, Bool.or_eq_true, h.toggle, held_iff_armed, bne_iff_ne]
  refine or_congr_right ⟨fun hc => ⟨_, ?_, h.armed hc⟩, ?_⟩
  · intro hzero
    exact hc (UInt8.toNat.inj hzero)
  · rintro ⟨n, hn, harmed⟩ hzero
    have := h.longest n hn harmed
    rw [hzero] at this
    exact hn (Nat.le_zero.1 this)

/-- `out` is the report, but for Tip Switch, which may have been set. -/
def SetsTipOnly (x : Report) (out : Option (List UInt8)) : Prop :=
  out = some x.bytes ∨ out = some (x.bytes.set 1 (byte x.data 1 ||| 0x1))

theorem pen_bytes (hpen : inRangePen r) : 1 < r.bytes.length := by
  have hsize : 2 ≤ r.size := by
    simp only [inRangePen, isVendor, Bool.and_eq_true, decide_eq_true_eq] at hpen
    exact hpen.1.1.2
  have := r.length_data
  rw [Report.bytes, List.length_take]
  omega

theorem step_sets_tip (hpen : inRangePen r) : SetsTipOnly r (inspiroy2.step s r).2 := by
  rw [step_pen hpen]
  by_cases hforce : forces s r
  · exact Or.inr (by rw [if_pos hforce])
  · have hbyte : byte r.data 1 = byte r.bytes 1 := by
      have hsize : 1 < r.size := lt_of_lt_of_le (pen_bytes hpen) (List.length_take_le r.size _)
      rw [Report.bytes, byte_take hsize]
    refine Or.inl ?_
    rw [if_neg hforce, hbyte, set_byte_self (pen_bytes hpen)]

theorem step_tip (hpen : inRangePen r) :
    outTip (inspiroy2.step s r).2 = (rawTip r || forces s r) := by
  have hset : ∀ v : UInt8, hasBits (v ||| 0x1) 0x1 = true := by decide +kernel
  rw [step_pen hpen]
  simp only [outTip, byte_set_self (pen_bytes hpen)]
  by_cases hforce : forces s r
  · simp [hforce, hset]
  · simp [hforce, rawTip]

/-- With the tip up the countdown only runs down. -/
theorem countdown {mid : List Report} (hpen : ∀ r ∈ mid, inRangePen r)
    (hup : ∀ r ∈ mid, ¬ rawTip r) (htip : s.lastTipState = 0) :
    (inspiroy2.afterFrom s mid).lastTipState = 0 ∧
      (inspiroy2.afterFrom s mid).forceTipDownCount.toNat
        = s.forceTipDownCount.toNat - mid.length := by
  induction mid using List.reverseRecOn with
  | nil => exact ⟨htip, rfl⟩
  | append_singleton xs x ih =>
    obtain ⟨hlast, hcount⟩ := ih (fun r hr => hpen r (List.mem_append_left _ hr))
      (fun r hr => hup r (List.mem_append_left _ hr))
    have hx : ¬ rawTip x := hup x (by simp)
    rw [Transducer.afterFrom_append, Transducer.afterFrom_cons, Transducer.afterFrom_nil,
      step_pen (hpen x (by simp))]
    refine ⟨by simpa [rawTip, hasBits] using hx, ?_⟩
    have ht : ¬ toggles (inspiroy2.afterFrom s xs) x := by simp [toggles, hlast]
    rw [List.length_append, List.length_singleton]
    by_cases hc : (inspiroy2.afterFrom s xs).forceTipDownCount = 0
    · rw [next_count_zero ht hc]
      rw [hc] at hcount
      simp at hcount ⊢
      omega
    · have := next_count_up ht hx hc
      dsimp only
      omega

theorem forces_up (htip : s.lastTipState = 0) :
    forces s r ↔ s.forceTipDownCount.toNat ≠ 0 := by
  have hzero : s.forceTipDownCount.toNat = 0 ↔ s.forceTipDownCount = 0 :=
    ⟨fun h => UInt8.toNat.inj h, fun h => by rw [h]; rfl⟩
  rw [ne_eq, hzero]
  simp [forces, toggles, htip]

theorem stretch_forced {stretch : List Report} (hpen : ∀ r ∈ stretch, inRangePen r)
    (hup : ∀ r ∈ stretch, ¬ rawTip r) (hcount : s.forceTipDownCount.toNat ≤ 4) :
    ∃ k ≤ 5, ∀ mid x rest, stretch = mid ++ x :: rest →
      (outTip (inspiroy2.step (inspiroy2.afterFrom s mid) x).2 ↔ mid.length < k) := by
  cases stretch with
  | nil => exact ⟨0, by omega, fun mid x rest h => absurd h (by simp)⟩
  | cons first stretch =>
    have hfirst : inRangePen first := hpen first List.mem_cons_self
    have hraw : ¬ rawTip first := hup first List.mem_cons_self
    refine ⟨if forces s first then (nextCount s first).toNat + 1 else 0, ?_, ?_⟩
    · have := next_count_le (r := first) hcount
      split_ifs <;> omega
    intro mid x rest hsplit
    cases mid with
    | nil =>
      obtain ⟨rfl, rfl⟩ := List.cons.inj hsplit
      rw [Transducer.afterFrom_nil, step_tip hfirst, Bool.or_eq_true, or_iff_right hraw]
      by_cases hforce : forces s first <;> simp [hforce]
    | cons y mid =>
      obtain ⟨rfl, rfl⟩ := List.cons.inj hsplit
      have hx : ¬ rawTip x := hup x (by simp)
      have hmid : ∀ r ∈ mid, inRangePen r := fun r hr => hpen r (by simp [hr])
      obtain ⟨htip, hleft⟩ := countdown (s := (inspiroy2.step s first).1) hmid
        (fun r hr => hup r (by simp [hr]))
        (by rw [step_pen hfirst]; simpa [rawTip, hasBits] using hraw)
      rw [Transducer.afterFrom_cons, step_tip (hpen x (by simp)), Bool.or_eq_true,
        or_iff_right hx, forces_up htip, hleft, step_pen hfirst, List.length_cons]
      dsimp only
      by_cases hforce : forces s first
      · rw [if_pos hforce]
        omega
      · obtain ⟨ht, hc⟩ : ¬ toggles s first ∧ s.forceTipDownCount = 0 := by
          simpa [forces] using hforce
        rw [if_neg hforce, next_count_zero ht hc]
        simp

/-- A filter for false releases: it only ever sets the tip, no longer than five reports at a
time, and for a report with the tip up exactly around a toggle. -/
theorem hides_false_releases {run : List Report} (hrun : ∀ r ∈ run, inRangePen r) :
    (∀ before x rest, run = before ++ x :: rest →
      SetsTipOnly x (inspiroy2.output before x) ∧
        (¬ rawTip x →
          (outTip (inspiroy2.output before x) ↔ Toggle before x ∨ HeldByToggle before))) ∧
    (∀ before rest, run = before ++ rest → (inspiroy2.after before).forceTipDownCount ≤ 4) ∧
    (∀ before stretch rest, run = before ++ stretch ++ rest → (∀ r ∈ stretch, ¬ rawTip r) →
      ∃ k ≤ 5, ∀ mid x post, stretch = mid ++ x :: post →
        (outTip (inspiroy2.output (before ++ mid) x) ↔ mid.length < k)) := by
  have htracks : ∀ before rest, run = before ++ rest → Tracks before (inspiroy2.after before) := by
    intro before rest hsplit
    have hbefore : ∀ r ∈ before, inRangePen r := fun r hr =>
      hrun r (by rw [hsplit]; exact List.mem_append_left _ hr)
    have hvendor : ∀ r ∈ before, isVendor r := by
      intro r hr
      have := hbefore r hr
      simp only [inRangePen, Bool.and_eq_true] at this
      exact this.1.1
    have h := tracks_run before hvendor
    rwa [pens, List.filter_eq_self.2 hbefore] at h
  refine ⟨?_, ?_, ?_⟩
  · intro before x rest hsplit
    obtain ⟨-, hpen⟩ := forall_of_split hrun hsplit
    refine ⟨step_sets_tip hpen, ?_⟩
    intro hraw
    rw [Transducer.output, step_tip hpen, Bool.or_eq_true, or_iff_right hraw,
      forces_iff (htracks before _ hsplit)]
  · intro before rest hsplit
    exact (htracks before rest hsplit).count_le
  · intro before stretch rest hsplit hup
    have hpen : ∀ r ∈ stretch, inRangePen r := fun r hr => hrun r (by simp [hsplit, hr])
    obtain ⟨k, hk, hforced⟩ := stretch_forced (s := inspiroy2.after before) hpen hup
      (htracks before (stretch ++ rest) (by simpa using hsplit)).count_le
    refine ⟨k, hk, ?_⟩
    intro mid x post hmid
    rw [Transducer.output, Transducer.after_append]
    exact hforced mid x post hmid

def vendorReport (flags : UInt8) : Report :=
  .ofBytes [VENDOR_REPORT_ID, flags, 0x59, 0x44, 0x47, 0x28, 0, 0, 0, 0, 0, 0]

/-- The button is pressed with the tip down, and the release that comes with it is hidden. -/
theorem hides_release_on_press :
    outTip (inspiroy2.output [vendorReport 0x81] (vendorReport 0x84)) := by
  have hrun : ∀ r ∈ [vendorReport 0x81, vendorReport 0x84], inRangePen r := by decide
  have htoggle : Toggle [vendorReport 0x81] (vendorReport 0x84) :=
    ⟨vendorReport 0x81, rfl, by decide, by decide⟩
  exact (((hides_false_releases hrun).1 [vendorReport 0x81] (vendorReport 0x84) [] rfl).2
    (by decide)).2 (Or.inl htoggle)

/-- No report with the tip up is passed on with the tip down between leaving the range and
the first real contact after it. -/
def NeverInventsContact (run : List Report) : Prop :=
  ∀ before gone mid x rest, run = before ++ gone :: mid ++ x :: rest → outOfRangePen gone →
    (∀ r ∈ mid, inRangePen r → ¬ rawTip r) → inRangePen x → ¬ rawTip x →
    ¬ outTip (inspiroy2.output (before ++ gone :: mid) x)

/-- The first report in range, if its tip is up, is no toggle of the session before, and
comes no less than five reports after the last one of it. -/
def SessionsApart (run : List Report) : Prop :=
  ∀ before gone mid x rest, run = before ++ gone :: mid ++ x :: rest → outOfRangePen gone →
    (∀ r ∈ mid, ¬ inRangePen r) → inRangePen x → ¬ rawTip x →
    ¬ Toggle (pens before) x ∧ ¬ HeldByToggle (pens before)

/-- A report with the tip up is forced down when something is armed through it. -/
theorem forced_iff_armed {before : List Report} {x : Report} (hraw : ¬ rawTip x) :
    Toggle before x ∨ HeldByToggle before ↔ ∃ n, Armed (before ++ [x]) n := by
  rw [held_iff_armed]
  constructor
  · rintro (htoggle | ⟨n, hn, h⟩)
    · exact ⟨4, (armed_concat before x 4).2 (Or.inl ⟨htoggle, rfl⟩)⟩
    · obtain ⟨m, rfl⟩ := Nat.exists_eq_succ_of_ne_zero hn
      exact ⟨m, (armed_concat before x m).2 (Or.inr ⟨hraw, h⟩)⟩
  · rintro ⟨n, h⟩
    rcases (armed_concat before x n).1 h with ⟨htoggle, -⟩ | ⟨-, h⟩
    · exact Or.inl htoggle
    · exact Or.inr ⟨n + 1, by omega, h⟩

theorem armed_first {before stretch : List Report} {y : Report} {n : ℕ} (hy : ¬ rawTip y)
    (hup : ∀ r ∈ stretch, ¬ rawTip r) (h : Armed (before ++ y :: stretch) n) :
    ∃ m, Armed (before ++ [y]) m := by
  induction stretch using List.reverseRecOn generalizing n with
  | nil => exact ⟨n, h⟩
  | append_singleton xs x ih =>
    have hxs : ∀ r ∈ xs, ¬ rawTip r := fun r hr => hup r (List.mem_append_left _ hr)
    have hsplit : before ++ y :: (xs ++ [x]) = (before ++ y :: xs) ++ [x] := by simp
    rw [hsplit, armed_concat] at h
    rcases h with ⟨⟨last, hlast, hdown, -⟩, -⟩ | ⟨-, h⟩
    · -- a toggle needs the tip down right before it
      have hmem : last ∈ y :: xs := by
        rw [List.getLast?_append_of_ne_nil _ (by simp)] at hlast
        exact List.mem_of_getLast? hlast
      rcases List.mem_cons.1 hmem with rfl | hmem
      · exact absurd hdown hy
      · exact absurd hdown (hxs last hmem)
    · exact ih hxs h

theorem pens_gone {before mid : List Report} {gone : Report} (hgone : outOfRangePen gone) :
    pens (before ++ gone :: mid) = pens before ++ pens mid := by
  have hnot : ¬ inRangePen gone := by
    intro hin
    simp only [outOfRangePen, inRangePen, Bool.and_eq_true, Bool.not_eq_true'] at hgone hin
    rw [hgone.2] at hin
    exact absurd hin.2 (by simp)
  rw [pens, List.filter_append, List.filter_cons_of_neg hnot]
  rfl

theorem output_tip {before rest : List Report} {x : Report} {run : List Report}
    (hrun : ∀ r ∈ run, isVendor r) (hsplit : run = before ++ x :: rest) (hpen : inRangePen x)
    (hraw : ¬ rawTip x) :
    outTip (inspiroy2.output before x) ↔ Toggle (pens before) x ∨ HeldByToggle (pens before) := by
  obtain ⟨hbefore, -⟩ := forall_of_split hrun hsplit
  rw [Transducer.output, step_tip hpen, Bool.or_eq_true, or_iff_right hraw,
    forces_iff (tracks_run before hbefore)]

/-- Contacts are invented exactly where a session opens too close to a toggle of the one
before. -/
theorem never_invents_contact_iff {run : List Report} (hrun : ∀ r ∈ run, isVendor r) :
    NeverInventsContact run ↔ SessionsApart run := by
  constructor
  · intro h before gone mid x rest hsplit hgone hmid hin hraw
    have hforce := h before gone mid x rest hsplit hgone
      (fun r hr hr' => absurd hr' (hmid r hr)) hin hraw
    rw [output_tip hrun hsplit hin hraw, pens_gone hgone, pens, pens,
      List.filter_eq_nil_iff.2 hmid, List.append_nil] at hforce
    exact not_or.1 hforce
  · intro h before gone mid x rest hsplit hgone hmid hin hraw htip
    rw [output_tip hrun hsplit hin hraw, pens_gone hgone, forced_iff_armed hraw,
      List.append_assoc] at htip
    obtain ⟨n, harmed⟩ := htip
    cases hpens : pens mid with
    | nil =>
      rw [hpens, List.nil_append] at harmed
      have hnone : ∀ r ∈ mid, ¬ inRangePen r := List.filter_eq_nil_iff.1 hpens
      have := h before gone mid x rest hsplit hgone hnone hin hraw
      exact not_or.2 this ((forced_iff_armed hraw).2 ⟨n, harmed⟩)
    | cons y ys =>
      obtain ⟨mid₀, mid₁, rfl, hnone, hy, hys⟩ := List.filter_eq_cons_iff.1 hpens
      have hyraw : ¬ rawTip y := hmid y (by simp) hy
      have hup : ∀ r ∈ ys ++ [x], ¬ rawTip r := by
        intro r hr
        rcases List.mem_append.1 hr with hr | hr
        · rw [← hys] at hr
          obtain ⟨hr, hpen⟩ := List.mem_filter.1 hr
          exact hmid r (by simp [hr]) hpen
        · rw [List.mem_singleton.1 hr]
          exact hraw
      rw [hpens, List.cons_append] at harmed
      have hfirst := armed_first hyraw hup harmed
      have := h before gone mid₀ y (mid₁ ++ x :: rest) (by simp [hsplit]) hgone hnone hy hyraw
      exact not_or.2 this ((forced_iff_armed hyraw).2 hfirst)

/-- The pen leaves in contact and comes back with the button pressed. -/
theorem invents_contact_on_return :
    ¬ NeverInventsContact [vendorReport 0x81, vendorReport 0x00, vendorReport 0x84] := by
  intro h
  refine h [vendorReport 0x81] (vendorReport 0x00) [] (vendorReport 0x84) [] rfl (by decide)
    (by simp) (by decide) (by decide) ?_
  decide

/-- With the button left alone the next session opens with the tip up. -/
theorem never_invents_contact_return :
    NeverInventsContact [vendorReport 0x81, vendorReport 0x00, vendorReport 0x80] := by
  have hrun : ∀ r ∈ [vendorReport 0x81, vendorReport 0x00, vendorReport 0x80],
      isVendor r := by decide
  rw [never_invents_contact_iff hrun]
  intro before gone mid x rest hsplit hgone hmid hin hraw
  rcases before with _ | ⟨first, before⟩
  · simp only [List.nil_append, List.cons_append, List.cons.injEq] at hsplit
    rw [← hsplit.1] at hgone
    exact absurd hgone (by decide)
  obtain ⟨rfl, rfl, rfl⟩ : before = [] ∧ mid = [] ∧ x = vendorReport 0x80 := by
    have hlen := congrArg List.length hsplit
    simp only [List.length_append, List.length_cons, List.length_nil] at hlen
    obtain rfl := List.eq_nil_of_length_eq_zero (show before.length = 0 by omega)
    obtain rfl := List.eq_nil_of_length_eq_zero (show mid.length = 0 by omega)
    simp only [List.nil_append, List.cons_append, List.cons.injEq] at hsplit
    exact ⟨rfl, rfl, hsplit.2.2.1.symm⟩
  obtain rfl : vendorReport 0x81 = first := by
    simp only [List.cons_append, List.cons.injEq] at hsplit
    exact hsplit.1
  constructor
  · rintro ⟨last, hlast, -, hsec⟩
    obtain rfl : vendorReport 0x81 = last := Option.some.inj hlast
    exact hsec (by decide)
  · rintro ⟨earlier, t, later, hpens, ⟨last, hlast, -⟩, -⟩
    rcases earlier with _ | ⟨y, earlier⟩
    · exact absurd hlast (by simp)
    · have hone : (pens [vendorReport 0x81]).length = 1 := by decide
      rw [hpens, List.length_append, List.length_cons, List.length_cons] at hone
      omega

end Inspiroy2S
