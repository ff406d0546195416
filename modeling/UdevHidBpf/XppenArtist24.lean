import Mathlib.Data.List.ReduceOption
import UdevHidBpf.DeviceEvents

/-! # The second button of the XPPen Artist 24

The filter against the false releases that the firmware sends around its emulated eraser,
and the ideal pen it is to bring back. -/
namespace XppenArtist24

open Transducers DeviceEvents

def TIP_SWITCH : UInt8 := 0x01
def ERASER : UInt8 := 0x04
def IN_RANGE : UInt8 := 0x20

def xppen24FixEraser (prevState : UInt8) (buffer : List UInt8) : Called UInt8 :=
  match hidBpfGetData buffer 0 10 with
  | none => ⟨prevState, buffer, 0⟩
  | some data =>
    let currentState := byte data 1
    if currentState = prevState then ⟨prevState, buffer, 0⟩
    else
      let prevTip := hasBits prevState TIP_SWITCH
      if currentState &&& IN_RANGE = 0 then
        if prevTip then ⟨prevState, buffer, HID_IGNORE_EVENT⟩ else ⟨prevState, buffer, 0⟩
      else
        let changedState := prevState ^^^ currentState
        if changedState &&& (TIP_SWITCH ||| ERASER) = TIP_SWITCH ||| ERASER then
          ⟨currentState, buffer, HID_IGNORE_EVENT⟩
        else ⟨currentState, buffer, 0⟩

def artist24 : Transducer UInt8 Report (Option (List UInt8)) := device 0 xppen24FixEraser

def forwarded (reports : List Report) : List (List UInt8) :=
  (artist24.outputs reports).reduceOption

/-- The flag is the second button. -/
inductive PenState where
  | out
  | hover (second : Bool)
  | contact (second : Bool)
  deriving DecidableEq, Repr

/-- What byte 1 of a report says about the pen; its other bits are free. -/
def PenState.Shown : PenState → UInt8 → Prop
  | .out, v => hasBits v IN_RANGE = false
  | .hover b, v => hasBits v IN_RANGE ∧ hasBits v TIP_SWITCH = false ∧ hasBits v ERASER = b
  | .contact b, v => hasBits v IN_RANGE ∧ hasBits v TIP_SWITCH ∧ hasBits v ERASER = b

instance (s : PenState) (v : UInt8) : Decidable (s.Shown v) := by
  cases s <;> unfold PenState.Shown <;> infer_instance

structure Sample where
  state : PenState
  report : Report
  shown : state.Shown (byte report.data 1)

/-- An ideal pen touches down from, and lifts to, a hover with the same button. -/
def PenState.Follows : PenState → PenState → Prop
  | .out, .contact _ => False
  | .contact _, .out => False
  | .hover b, .contact c => c = b
  | .contact b, .hover c => c = b
  | _, _ => True

def IdealRun : PenState → List Sample → Prop
  | _, [] => True
  | s, x :: xs => s.Follows x.state ∧ IdealRun x.state xs

def PenState.ButtonChange : PenState → PenState → Prop
  | .hover b, .hover c => c ≠ b
  | .contact b, .contact c => c ≠ b
  | _, _ => False

/-- The stream of the firmware for an ideal run, and with it the reports to keep: those of
the run and the out-of-range reports of button changes in hover. -/
inductive Sent : PenState → List Sample → List Report → List Report → Prop where
  | done (s) : Sent s [] [] []
  | asIs {s x xs stream keep} (hsame : ¬ s.ButtonChange x.state)
      (rest : Sent x.state xs stream keep) :
      Sent s (x :: xs) (x.report :: stream) (x.report :: keep)
  | hoverChange {b c x xs stream keep} (gone : Sample) (hgone : gone.state = .out)
      (hx : x.state = .hover c) (hchange : c ≠ b) (rest : Sent x.state xs stream keep) :
      Sent (.hover b) (x :: xs) (gone.report :: x.report :: stream)
        (gone.report :: x.report :: keep)
  | contactChange {b c x xs stream keep} (gone lifted : Sample) (hgone : gone.state = .out)
      (hlifted : lifted.state = .hover c) (hx : x.state = .contact c) (hchange : c ≠ b)
      (rest : Sent x.state xs stream keep) :
      Sent (.contact b) (x :: xs) (gone.report :: lifted.report :: x.report :: stream)
        (x.report :: keep)

theorem changed_both (p c : UInt8) :
    (p ^^^ c) &&& (TIP_SWITCH ||| ERASER) = TIP_SWITCH ||| ERASER ↔
      hasBits p TIP_SWITCH ≠ hasBits c TIP_SWITCH ∧ hasBits p ERASER ≠ hasBits c ERASER := by
  have hboth : ∀ v : UInt8, v &&& (TIP_SWITCH ||| ERASER) = TIP_SWITCH ||| ERASER ↔
      hasBits v TIP_SWITCH ∧ hasBits v ERASER := by decide +kernel
  rw [hboth, hasBits_xor (by decide +kernel), hasBits_xor (by decide +kernel)]
  simp

theorem not_in_range {v : UInt8} : v &&& IN_RANGE = 0 ↔ hasBits v IN_RANGE = false := by
  simp [hasBits]

theorem event_report (prev : UInt8) (r : Report) :
    xppen24FixEraser prev r.data =
      if byte r.data 1 = prev then ⟨prev, r.data, 0⟩
      else if hasBits (byte r.data 1) IN_RANGE = false then
        if hasBits prev TIP_SWITCH then ⟨prev, r.data, HID_IGNORE_EVENT⟩ else ⟨prev, r.data, 0⟩
      else if hasBits prev TIP_SWITCH ≠ hasBits (byte r.data 1) TIP_SWITCH ∧
          hasBits prev ERASER ≠ hasBits (byte r.data 1) ERASER then
        ⟨byte r.data 1, r.data, HID_IGNORE_EVENT⟩
      else ⟨byte r.data 1, r.data, 0⟩ := by
  simp only [xppen24FixEraser, get_data_report r (by decide : 10 ≤ 64), not_in_range, changed_both]

variable {prev : UInt8} {r : Report}

theorem step_out (hcur : hasBits (byte r.data 1) IN_RANGE = false)
    (htip : hasBits prev TIP_SWITCH = false) : artist24.step prev r = (prev, some r.bytes) := by
  have hevent : xppen24FixEraser prev r.data = ⟨prev, r.data, 0⟩ := by
    rw [event_report]
    by_cases heq : byte r.data 1 = prev
    · rw [if_pos heq]
    · rw [if_neg heq, if_pos hcur, if_neg (by simp [htip])]
  exact device_passes hevent

/-- Leaving the range straight from contact is a false release. -/
theorem step_out_of_contact (hcur : hasBits (byte r.data 1) IN_RANGE = false)
    (hprev : hasBits prev IN_RANGE) (htip : hasBits prev TIP_SWITCH) :
    artist24.step prev r = (prev, none) := by
  have hne : byte r.data 1 ≠ prev := by
    intro heq
    rw [heq, hprev] at hcur
    cases hcur
  have hevent : xppen24FixEraser prev r.data = ⟨prev, r.data, HID_IGNORE_EVENT⟩ := by
    rw [event_report, if_neg hne, if_pos hcur, if_pos htip]
  exact device_ignores hevent

theorem step_in_range (hcur : hasBits (byte r.data 1) IN_RANGE)
    (hkeep : hasBits prev TIP_SWITCH = hasBits (byte r.data 1) TIP_SWITCH ∨
      hasBits prev ERASER = hasBits (byte r.data 1) ERASER) :
    artist24.step prev r = (byte r.data 1, some r.bytes) := by
  have hevent : xppen24FixEraser prev r.data = ⟨byte r.data 1, r.data, 0⟩ := by
    rw [event_report]
    by_cases heq : byte r.data 1 = prev
    · rw [if_pos heq, heq]
    · rw [if_neg heq, if_neg (by simp [hcur]), if_neg]
      rintro ⟨htip, hera⟩
      rcases hkeep with h | h
      · exact htip h
      · exact hera h
  exact device_passes hevent

/-- Tip and eraser swapped in one report is the other half of a false release. -/
theorem step_swapped (hcur : hasBits (byte r.data 1) IN_RANGE)
    (htip : hasBits prev TIP_SWITCH ≠ hasBits (byte r.data 1) TIP_SWITCH)
    (hera : hasBits prev ERASER ≠ hasBits (byte r.data 1) ERASER) :
    artist24.step prev r = (byte r.data 1, none) := by
  have hne : byte r.data 1 ≠ prev := by
    intro heq
    exact htip (by rw [heq])
  have hevent : xppen24FixEraser prev r.data = ⟨byte r.data 1, r.data, HID_IGNORE_EVENT⟩ := by
    rw [event_report, if_neg hne, if_neg (by simp [hcur]), if_pos ⟨htip, hera⟩]
  exact device_ignores hevent

/-- `prev_state` against the ideal pen: out of range it is only known to be up. -/
def Tracks (prev : UInt8) : PenState → Prop
  | .out => hasBits prev TIP_SWITCH = false
  | s => s.Shown prev

theorem step_as_is {s : PenState} {x : Sample} (htrack : Tracks prev s)
    (hfollows : s.Follows x.state) (hsame : ¬ s.ButtonChange x.state) :
    ∃ next, artist24.step prev x.report = (next, some x.report.bytes) ∧
      Tracks next x.state := by
  rcases x with ⟨t, r, hshown⟩
  dsimp only at hfollows hsame ⊢
  cases t with
  | out =>
    have htip : hasBits prev TIP_SWITCH = false := by
      cases s with
      | out => exact htrack
      | hover b => exact htrack.2.1
      | contact b => exact hfollows.elim
    exact ⟨prev, step_out hshown htip, htip⟩
  | hover c =>
    refine ⟨byte r.data 1, step_in_range hshown.1 ?_, hshown⟩
    rw [hshown.2.1, hshown.2.2]
    cases s with
    | out => exact Or.inl htrack
    | hover b => exact Or.inl htrack.2.1
    | contact b => exact Or.inr (htrack.2.2.trans (show c = b from hfollows).symm)
  | contact c =>
    refine ⟨byte r.data 1, step_in_range hshown.1 ?_, hshown⟩
    rw [hshown.2.1, hshown.2.2]
    cases s with
    | out => exact hfollows.elim
    | hover b => exact Or.inr (htrack.2.2.trans (show c = b from hfollows).symm)
    | contact b => exact Or.inl htrack.2.1

theorem Sample.shows (x : Sample) {s : PenState} (h : x.state = s) :
    s.Shown (byte x.report.data 1) := h ▸ x.shown

theorem outputs_hover_change {b c : Bool} {gone x : Sample} (hgone : gone.state = .out)
    (hx : x.state = .hover c) (htrack : Tracks prev (.hover b)) (stream : List Report) :
    artist24.outputsFrom prev (gone.report :: x.report :: stream) =
      some gone.report.bytes :: some x.report.bytes ::
        artist24.outputsFrom (byte x.report.data 1) stream := by
  have hshown := x.shows hx
  have hkeep : hasBits prev TIP_SWITCH = hasBits (byte x.report.data 1) TIP_SWITCH := by
    rw [htrack.2.1, hshown.2.1]
  rw [Transducer.outputsFrom_cons, step_out (gone.shows hgone) htrack.2.1,
    Transducer.outputsFrom_cons, step_in_range hshown.1 (Or.inl hkeep)]

theorem outputs_contact_change {b c : Bool} {gone lifted x : Sample} (hgone : gone.state = .out)
    (hlifted : lifted.state = .hover c) (hx : x.state = .contact c) (hchange : c ≠ b)
    (htrack : Tracks prev (.contact b)) (stream : List Report) :
    artist24.outputsFrom prev (gone.report :: lifted.report :: x.report :: stream) =
      none :: none :: some x.report.bytes ::
        artist24.outputsFrom (byte x.report.data 1) stream := by
  have hup := lifted.shows hlifted
  have hdown := x.shows hx
  have htip : hasBits prev TIP_SWITCH ≠ hasBits (byte lifted.report.data 1) TIP_SWITCH := by
    rw [htrack.2.1, hup.2.1]
    decide
  have hera : hasBits prev ERASER ≠ hasBits (byte lifted.report.data 1) ERASER := by
    rw [htrack.2.2, hup.2.2]
    exact hchange.symm
  have hkeep : hasBits (byte lifted.report.data 1) ERASER
      = hasBits (byte x.report.data 1) ERASER := by
    rw [hup.2.2, hdown.2.2]
  rw [Transducer.outputsFrom_cons, step_out_of_contact (gone.shows hgone) htrack.1 htrack.2.1,
    Transducer.outputsFrom_cons, step_swapped hup.1 htip hera, Transducer.outputsFrom_cons,
    step_in_range hdown.1 (Or.inr hkeep)]

theorem sent_forwarded {s : PenState} {run : List Sample} {stream keep : List Report}
    (hsent : Sent s run stream keep) (hrun : IdealRun s run) (htrack : Tracks prev s) :
    (artist24.outputsFrom prev stream).reduceOption = keep.map Report.bytes := by
  induction hsent generalizing prev with
  | done s => rfl
  | asIs hsame rest ih =>
    obtain ⟨next, hstep, hnext⟩ := step_as_is htrack hrun.1 hsame
    rw [Transducer.outputsFrom_cons, hstep, List.reduceOption_cons_of_some, List.map_cons,
      ih hrun.2 hnext]
  | @hoverChange b c x xs stream keep gone hgone hx hchange rest ih =>
    have hnext : Tracks (byte x.report.data 1) x.state := hx ▸ x.shows hx
    rw [outputs_hover_change hgone hx htrack, List.reduceOption_cons_of_some,
      List.reduceOption_cons_of_some, List.map_cons, List.map_cons, ih hrun.2 hnext]
  | @contactChange b c x xs stream keep gone lifted hgone hlifted hx hchange rest ih =>
    have hnext : Tracks (byte x.report.data 1) x.state := hx ▸ x.shows hx
    rw [outputs_contact_change hgone hlifted hx hchange htrack, List.reduceOption_cons_of_none,
      List.reduceOption_cons_of_none, List.reduceOption_cons_of_some, List.map_cons,
      ih hrun.2 hnext]

/-- The events that come through are the ideal run, with the out-of-range reports of hover
changes. -/
theorem artist24_forwards_ideal {run : List Sample} {stream keep : List Report}
    (hrun : IdealRun .out run) (hsent : Sent .out run stream keep) :
    forwarded stream = keep.map Report.bytes := by
  have hinit : Tracks 0 .out := rfl
  exact sent_forwarded hsent hrun hinit

def penSample (s : PenState) (flags : UInt8) (hshown : s.Shown flags) : Sample :=
  ⟨s, .ofBytes [0x07, flags, 0, 0, 0, 0, 0, 0, 0, 0], hshown⟩

/-- The button is pressed in contact and let go in hover. -/
theorem artist24_forwards_press :
    let gone := penSample .out 0x00 rfl
    let hover := penSample (.hover false) 0x20 (by decide)
    let touch := penSample (.contact false) 0x21 (by decide)
    let erase := penSample (.contact true) 0x25 (by decide)
    let lift := penSample (.hover true) 0x24 (by decide)
    forwarded ([hover, touch, gone, lift, erase, lift, gone, hover].map Sample.report)
      = [hover, touch, erase, lift, gone, hover].map (Sample.report · |>.bytes) := by
  intro gone hover touch erase lift
  have hrun : IdealRun .out [hover, touch, erase, lift, hover] := by
    simp [IdealRun, PenState.Follows, hover, touch, erase, lift, penSample]
  have hsent : Sent .out [hover, touch, erase, lift, hover]
      ([hover, touch, gone, lift, erase, lift, gone, hover].map Sample.report)
      ([hover, touch, erase, lift, gone, hover].map Sample.report) := by
    refine .asIs id (.asIs id (.contactChange gone lift rfl rfl rfl (by decide) ?_))
    exact .asIs id (.hoverChange gone rfl rfl (by decide) (.done _))
  rw [artist24_forwards_ideal hrun hsent, List.map_map]
  rfl

end XppenArtist24
