import UdevHidBpf.DeviceEvents

/-! # The third button of the Huion Kamvas Pro 19

Invert stands for the eraser or for the third button; the first report of a proximity
session tells which. -/
namespace KamvasPro19

open Transducers DeviceEvents

structure Vars where
  prevWasOutOfRange : Bool
  inEraserMode : Bool
  deriving DecidableEq, Repr

def kamvasPro19Fix3rdButton (s : Vars) (buffer : List UInt8) : Called Vars :=
  match hidBpfGetData buffer 0 10 with
  | none => ⟨s, buffer, 0⟩
  | some data =>
    if byte data 0 ≠ 0x0a then ⟨s, buffer, 0⟩
    else if byte data 1 &&& 0x40 = 0 then ⟨⟨true, false⟩, buffer, 0⟩
    else
      let inEraserMode :=
        if s.prevWasOutOfRange && hasBits (byte data 1) 0x18 then true else s.inEraserMode
      if inEraserMode then ⟨{ s with inEraserMode }, buffer, 0⟩
      else
        let copied := if hasBits (byte data 1) 0x08 then byte data 1 ||| 0x20 else byte data 1
        ⟨⟨false, inEraserMode⟩, buffer.set 1 (copied &&& 0xf7), 0⟩

def kamvasPro19 : Transducer Vars Report (Option (List UInt8)) :=
  device ⟨false, false⟩ kamvasPro19Fix3rdButton

def isPen (r : Report) : Bool := byte r.data 0 == 0x0a

def inRange (r : Report) : Bool := isPen r && hasBits (byte r.data 1) 0x40

def outOfRange (r : Report) : Bool := isPen r && !hasBits (byte r.data 1) 0x40

def seesEraser (r : Report) : Bool := hasBits (byte r.data 1) 0x18

/-- The output for `r` with Invert moved to the bit of the third button. -/
def ThirdButton (r : Report) (out : Option (List UInt8)) : Prop :=
  ∃ v, out = some (r.bytes.set 1 v) ∧ hasBits v 0x08 = false ∧
    (hasBits v 0x20 ↔ hasBits (byte r.data 1) 0x20 ∨ hasBits (byte r.data 1) 0x08) ∧
    v &&& 0xd7 = byte r.data 1 &&& 0xd7

/-- Every in-range report of `session`, which comes after `before`, is forwarded as it is. -/
def ForwardsAll (before session : List Report) : Prop :=
  ∀ mid x post, session = mid ++ x :: post → inRange x →
    kamvasPro19.output (before ++ mid) x = some x.bytes

def MovesInvert (before session : List Report) : Prop :=
  ∀ mid x post, session = mid ++ x :: post → inRange x →
    ThirdButton x (kamvasPro19.output (before ++ mid) x)

variable {s : Vars} {r : Report}

theorem step_other (hpen : isPen r = false) : kamvasPro19.step s r = (s, some r.bytes) := by
  have hid : byte r.data 0 ≠ 0x0a := by simpa [isPen] using hpen
  have hevent : kamvasPro19Fix3rdButton s r.data = ⟨s, r.data, 0⟩ := by
    simp only [kamvasPro19Fix3rdButton, get_data_report r (by decide : 10 ≤ 64), if_pos hid]
  exact device_passes hevent

theorem step_out (hout : outOfRange r) :
    kamvasPro19.step s r = (⟨true, false⟩, some r.bytes) := by
  obtain ⟨hid, hrange⟩ : byte r.data 0 = 0x0a ∧ byte r.data 1 &&& 0x40 = 0 := by
    simpa [outOfRange, isPen, hasBits] using hout
  have hevent : kamvasPro19Fix3rdButton s r.data = ⟨⟨true, false⟩, r.data, 0⟩ := by
    simp only [kamvasPro19Fix3rdButton, get_data_report r (by decide : 10 ≤ 64), ne_eq, hid,
      not_true_eq_false, if_false, if_pos hrange]
  exact device_passes hevent

theorem event_in_range (hin : inRange r) :
    kamvasPro19Fix3rdButton s r.data =
      if s.prevWasOutOfRange && seesEraser r || s.inEraserMode then
        ⟨⟨s.prevWasOutOfRange, true⟩, r.data, 0⟩
      else ⟨⟨false, false⟩, r.data.set 1
        ((if hasBits (byte r.data 1) 0x08 then byte r.data 1 ||| 0x20 else byte r.data 1)
          &&& 0xf7), 0⟩ := by
  obtain ⟨hid, hrange⟩ : byte r.data 0 = 0x0a ∧ ¬ byte r.data 1 &&& 0x40 = 0 := by
    simpa [inRange, isPen, hasBits] using hin
  simp only [kamvasPro19Fix3rdButton, get_data_report r (by decide : 10 ≤ 64), ne_eq, hid,
    not_true_eq_false, if_false, if_neg hrange]
  rcases s with ⟨prev, eraser⟩
  rw [show hasBits (byte r.data 1) 0x18 = seesEraser r from rfl]
  cases prev <;> cases eraser <;> cases seesEraser r <;> simp

theorem step_eraser (hin : inRange r)
    (hmode : s.prevWasOutOfRange && seesEraser r || s.inEraserMode) :
    kamvasPro19.step s r = (⟨s.prevWasOutOfRange, true⟩, some r.bytes) := by
  have hevent := event_in_range (s := s) hin
  rw [if_pos hmode] at hevent
  exact device_passes hevent

theorem third_button_bits (v : UInt8) :
    let w := (if hasBits v 0x08 then v ||| 0x20 else v) &&& 0xf7
    hasBits w 0x08 = false ∧ (hasBits w 0x20 ↔ hasBits v 0x20 ∨ hasBits v 0x08) ∧
      w &&& 0xd7 = v &&& 0xd7 := by
  revert v
  decide +kernel

theorem step_third_button (hin : inRange r)
    (hmode : (s.prevWasOutOfRange && seesEraser r || s.inEraserMode) = false) :
    (kamvasPro19.step s r).1 = ⟨false, false⟩ ∧ ThirdButton r (kamvasPro19.step s r).2 := by
  obtain ⟨hinvert, hbutton, hrest⟩ := third_button_bits (byte r.data 1)
  have hevent := event_in_range (s := s) hin
  rw [hmode, if_neg Bool.false_ne_true] at hevent
  have hstep : kamvasPro19.step s r = _ := device_passes hevent
  rw [hstep]
  refine ⟨rfl, _, ?_, hinvert, hbutton, hrest⟩
  rw [Report.bytes, List.take_set]

theorem not_pen (hout : ¬ outOfRange r) (hin : ¬ inRange r) : isPen r = false := by
  cases hpen : isPen r with
  | false => rfl
  | true =>
    cases hbit : hasBits (byte r.data 1) 0x40 with
    | false => exact absurd (by simp [outOfRange, hpen, hbit]) hout
    | true => exact absurd (by simp [inRange, hpen, hbit]) hin

theorem session_state {session : List Report} (hno : ∀ r ∈ session, ¬ outOfRange r) :
    kamvasPro19.afterFrom ⟨true, false⟩ session =
      match session.find? inRange with
      | none => ⟨true, false⟩
      | some first => if seesEraser first then ⟨true, true⟩ else ⟨false, false⟩ := by
  induction session using List.reverseRecOn with
  | nil => rfl
  | append_singleton xs x ih =>
    have hxs : ∀ r ∈ xs, ¬ outOfRange r := fun r hr => hno r (List.mem_append_left _ hr)
    have hx : ¬ outOfRange x := hno x (by simp)
    rw [Transducer.afterFrom_append, ih hxs, List.find?_append, Transducer.afterFrom_cons,
      Transducer.afterFrom_nil]
    by_cases hin : inRange x
    · rw [List.find?_cons_of_pos hin]
      cases hfirst : xs.find? inRange with
      | none =>
        by_cases hera : seesEraser x
        · simp [step_eraser hin, hera]
        · simp [(step_third_button hin (s := ⟨true, false⟩) (by simpa using hera)).1, hera]
      | some first =>
        by_cases hera : seesEraser first
        · simp [step_eraser hin, hera]
        · simp [(step_third_button hin (s := ⟨false, false⟩) rfl).1, hera]
    · rw [List.find?_cons_of_neg hin, step_other (not_pen hx hin), List.find?_nil, Option.or_none]

/-- Without an out-of-range report before it, a session starts in the mode of the button. -/
theorem drawing_state {session : List Report} (hno : ∀ r ∈ session, ¬ outOfRange r) :
    kamvasPro19.afterFrom ⟨false, false⟩ session = ⟨false, false⟩ := by
  induction session with
  | nil => rfl
  | cons x xs ih =>
    rw [Transducer.afterFrom_cons]
    have hstep : (kamvasPro19.step ⟨false, false⟩ x).1 = ⟨false, false⟩ := by
      by_cases hin : inRange x
      · exact (step_third_button hin rfl).1
      · rw [step_other (not_pen (hno x List.mem_cons_self) hin)]
    rw [hstep, ih (fun r hr => hno r (List.mem_cons_of_mem _ hr))]

theorem find_first {session mid post : List Report} {x first : Report}
    (hsession : session = mid ++ x :: post) (hin : inRange x)
    (hfirst : session.find? inRange = some first) :
    mid.find? inRange = some first ∨ mid.find? inRange = none ∧ first = x := by
  rw [hsession, List.find?_append, List.find?_cons_of_pos hin] at hfirst
  cases hmid : mid.find? inRange with
  | none => exact Or.inr ⟨rfl, by simpa [hmid] using hfirst.symm⟩
  | some y => exact Or.inl (by simpa [hmid] using hfirst)

theorem output_in_session (before mid : List Report) (gone x : Report) (hgone : outOfRange gone) :
    kamvasPro19.output (before ++ [gone] ++ mid) x
      = (kamvasPro19.step (kamvasPro19.afterFrom ⟨true, false⟩ mid) x).2 := by
  rw [Transducer.output, Transducer.after_append, Transducer.after_concat, step_out hgone]

theorem session_forwards {before session : List Report} {gone first : Report}
    (hno : ∀ r ∈ session, ¬ outOfRange r) (hgone : outOfRange gone)
    (hfirst : session.find? inRange = some first) (hera : seesEraser first) :
    ForwardsAll (before ++ [gone]) session := by
  intro mid x post hsession hin
  obtain ⟨hmid, -⟩ := forall_of_split hno hsession
  rw [output_in_session before mid gone x hgone, session_state hmid]
  rcases find_first hsession hin hfirst with h | ⟨h, rfl⟩
  · simp [h, hera, step_eraser hin]
  · simp [h, hera, step_eraser hin]

theorem session_moves {before session : List Report} {gone first : Report}
    (hno : ∀ r ∈ session, ¬ outOfRange r) (hgone : outOfRange gone)
    (hfirst : session.find? inRange = some first) (hera : ¬ seesEraser first) :
    MovesInvert (before ++ [gone]) session := by
  intro mid x post hsession hin
  obtain ⟨hmid, -⟩ := forall_of_split hno hsession
  rw [output_in_session before mid gone x hgone, session_state hmid]
  rcases find_first hsession hin hfirst with h | ⟨h, rfl⟩
  · rw [h]
    simp only [if_neg hera]
    exact (step_third_button hin rfl).2
  · rw [h]
    exact (step_third_button hin (by simpa using hera)).2

theorem moves_before_first {session : List Report} (hno : ∀ r ∈ session, ¬ outOfRange r) :
    MovesInvert [] session := by
  intro mid x post hsession hin
  obtain ⟨hmid, -⟩ := forall_of_split hno hsession
  have hstate : kamvasPro19.after ([] ++ mid) = ⟨false, false⟩ := drawing_state hmid
  rw [Transducer.output, hstate]
  exact (step_third_button hin rfl).2

/-- Eraser or third button is decided by the first in-range report of a session, holds for
the whole of it, and reports of other ids have no part in it. -/
theorem kamvas_decides_once :
    (∀ before session gone first, outOfRange gone → (∀ r ∈ session, ¬ outOfRange r) →
      session.find? inRange = some first →
      seesEraser first ∧ ForwardsAll (before ++ [gone]) session ∨
        ¬ seesEraser first ∧ MovesInvert (before ++ [gone]) session) ∧
    (∀ session, (∀ r ∈ session, ¬ outOfRange r) → MovesInvert [] session) ∧
    (∀ before x, isPen x = false → kamvasPro19.output before x = some x.bytes) ∧
    (∀ before x, kamvasPro19.output (before.filter isPen) x = kamvasPro19.output before x) := by
  refine ⟨?_, ?_, ?_, ?_⟩
  · intro before session gone first hgone hno hfirst
    by_cases hera : seesEraser first
    · exact Or.inl ⟨hera, session_forwards hno hgone hfirst hera⟩
    · exact Or.inr ⟨hera, session_moves hno hgone hfirst hera⟩
  · intro session hno
    exact moves_before_first hno
  · intro before x hpen
    rw [Transducer.output, step_other hpen]
  · intro before x
    have hskip : ∀ s x, isPen x = false → (kamvasPro19.step s x).1 = s := by
      intro s x hpen
      rw [step_other hpen]
    rw [Transducer.output, Transducer.output, Transducer.after_filter _ isPen hskip]

/-- A session that starts with Invert, after an out-of-range report. -/
theorem kamvas_decides_eraser :
    let gone := Report.ofBytes [0x0a, 0x00, 0, 0, 0, 0, 0, 0, 0, 0]
    let erase := Report.ofBytes [0x0a, 0x48, 0, 0, 0, 0, 0, 0, 0, 0]
    let draw := Report.ofBytes [0x0a, 0x41, 0, 0, 0, 0, 0, 0, 0, 0]
    ForwardsAll ([] ++ [gone]) [erase, draw] := by
  intro gone erase draw
  have hno : ∀ r ∈ [erase, draw], ¬ outOfRange r := by decide
  have hgone : outOfRange gone := by decide
  have hfirst : [erase, draw].find? inRange = some erase := List.find?_cons_of_pos (by decide)
  rcases kamvas_decides_once.1 [] [erase, draw] gone erase hgone hno hfirst with ⟨-, h⟩ | ⟨h, -⟩
  · exact h
  · exact absurd (by decide) h

end KamvasPro19
