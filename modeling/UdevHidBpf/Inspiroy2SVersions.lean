import UdevHidBpf.Inspiroy2S

/-! # The two versions for the Inspiroy 2 S

`0010-Huion__Inspiroy-2-S` knows nothing of false tip releases. Where `0020` does not load, its
reports are what is left. -/
namespace Inspiroy2SVersions

open Transducers DeviceEvents Inspiroy2S

def padEvent (lastButtonState : UInt8) (data : List UInt8) : Called UInt8 :=
  let wheelReport := byte data 1 = 0xf1
  let wheel := if wheelReport then (if byte data 5 = 2 then 0xff else byte data 5) else 0
  let buttons := if wheelReport then lastButtonState else byte data 4
  ⟨buttons, [PAD_REPORT_ID, 0, 0, 0, buttons, wheel] ++ data.drop 6, 6⟩

/-- `inspiroy_2_fix_events` of 0010; its key table is that of 0020. -/
def inspiroy2FixEvents (lastButtonState : UInt8) (buffer : List UInt8) : Called UInt8 :=
  match hidBpfGetData buffer 0 10 with
  | none => ⟨lastButtonState, buffer, 0⟩
  | some data =>
    if byte data 0 = PAD_REPORT_ID then
      let key := defaultModeKey ((byte data 1).toNat <<< 8 ||| (byte data 2).toNat)
      ⟨lastButtonState, [PAD_REPORT_ID, 0, 0, 0, key.2, key.1] ++ data.drop 6, 6⟩
    else if byte data 0 = VENDOR_REPORT_ID then
      if byte data 1 &&& 0x20 ≠ 0 then padEvent lastButtonState data
      else ⟨lastButtonState, data, 0⟩
    else ⟨lastButtonState, data, 0⟩

def inspiroy2V10 : Transducer UInt8 Report (Option (List UInt8)) := device 0 inspiroy2FixEvents

def whole (r : Report) : Report := { r with size := r.data.length, size_le := le_rfl }

def penReports (run : List Report) : List Report := pens (run.map whole)

variable {s : Vars} {r : Report}

theorem vendor_whole (r : Report) : isVendor (whole r) = (byte r.data 0 == VENDOR_REPORT_ID) := by
  have hlen : 2 ≤ r.data.length := le_trans (by decide) r.length_data
  simp [isVendor, whole, hlen]

theorem step_not_vendor (h : byte r.data 0 ≠ VENDOR_REPORT_ID) : (inspiroy2.step s r).1 = s := by
  simp only [inspiroy2, device_step, Inspiroy2S.inspiroy2FixEvents,
    get_data_report r (by decide : 10 ≤ 64), h, if_false]
  split_ifs <;> rfl

theorem after_whole (run : List Report) :
    inspiroy2.after ((run.map whole).filter isVendor) = inspiroy2.after run := by
  have hmap (xs : List Report) : inspiroy2.after (xs.map whole) = inspiroy2.after xs :=
    List.foldl_map
  have hkind : isVendor ∘ whole = fun r => byte r.data 0 == VENDOR_REPORT_ID :=
    funext vendor_whole
  rw [List.filter_map, hmap, hkind]
  apply inspiroy2.after_filter
  intro s r hr
  apply step_not_vendor
  simpa using hr

theorem tracks_any (run : List Report) : Tracks (penReports run) (inspiroy2.after run) := by
  have hvendor : ∀ r ∈ (run.map whole).filter isVendor, isVendor r :=
    fun r hr => (List.mem_filter.mp hr).2
  have hpens : pens ((run.map whole).filter isVendor) = penReports run := by
    rw [penReports, pens, pens, List.filter_filter]
    apply List.filter_congr
    intro r _
    cases hpen : inRangePen r with
    | false => rfl
    | true =>
      simp only [inRangePen, Bool.and_eq_true] at hpen
      rw [hpen.1.1]
      rfl
  rw [← after_whole, ← hpens]
  exact tracks_run _ hvendor

theorem event_pen (hpen : inRangePen (whole r)) :
    Inspiroy2S.inspiroy2FixEvents s r.data = penEvent s r.data := by
  obtain ⟨hid, hpad, hrange⟩ : byte r.data 0 = VENDOR_REPORT_ID ∧
      byte r.data 1 &&& 0x20 = 0 ∧ byte r.data 1 &&& 0x80 ≠ 0 := by
    rw [inRangePen, vendor_whole] at hpen
    simpa [whole, isPad, hasBits, and_assoc] using hpen
  simp only [Inspiroy2S.inspiroy2FixEvents, get_data_report r (by decide : 10 ≤ 64), hid, hpad,
    ne_eq, not_true_eq_false, if_false, if_pos hrange, if_true]
  rw [if_neg (by decide)]

theorem step_pen_any (hpen : inRangePen (whole r)) : inspiroy2.step s r =
    (⟨s.lastButtonState, byte r.data 1 &&& 0x1, byte r.data 1 &&& 0x4, nextCount s r⟩,
      some (r.bytes.set 1 (if forces s r then byte r.data 1 ||| 0x1 else byte r.data 1))) := by
  have hevent := event_pen (s := s) hpen
  rw [pen_event] at hevent
  have hstep : inspiroy2.step s r = _ := device_passes hevent
  rw [hstep, List.take_set]
  rfl

theorem step_pen_v10 (hpen : inRangePen (whole r)) (buttons : UInt8) :
    inspiroy2V10.step buttons r = (buttons, some r.bytes) := by
  obtain ⟨hid, hpad⟩ : byte r.data 0 = VENDOR_REPORT_ID ∧ byte r.data 1 &&& 0x20 = 0 := by
    rw [inRangePen, vendor_whole] at hpen
    have hboth := (Bool.and_eq_true_iff.mp hpen).1
    simpa [whole, isPad, hasBits] using hboth
  apply device_passes
  simp only [inspiroy2FixEvents, get_data_report r (by decide : 10 ≤ 64), hid, hpad, ne_eq,
    not_true_eq_false, if_false, if_true]
  rw [if_neg (by decide)]

/-- On everything but pen reports the versions are one program. -/
theorem step_agrees (hpen : ¬ inRangePen (whole r)) :
    (inspiroy2.step s r).1.lastButtonState = (inspiroy2V10.step s.lastButtonState r).1 ∧
      (inspiroy2.step s r).2 = (inspiroy2V10.step s.lastButtonState r).2 := by
  simp only [inspiroy2, inspiroy2V10, device_step, Inspiroy2S.inspiroy2FixEvents,
    inspiroy2FixEvents, get_data_report r (by decide : 10 ≤ 64)]
  split_ifs with hdefault hid hpad hrange
  · exact ⟨rfl, rfl⟩
  · exact ⟨rfl, rfl⟩
  · refine absurd ?_ hpen
    rw [inRangePen, vendor_whole]
    simpa [whole, isPad, hasBits, hid, hrange] using hpad
  · exact ⟨rfl, rfl⟩
  · exact ⟨rfl, rfl⟩

theorem buttons_agree (run : List Report) :
    (inspiroy2.after run).lastButtonState = inspiroy2V10.after run := by
  induction run using List.reverseRecOn with
  | nil => rfl
  | append_singleton run r ih =>
    rw [Transducer.after_concat, Transducer.after_concat, ← ih]
    by_cases hpen : inRangePen (whole r)
    · rw [step_pen_any hpen, step_pen_v10 hpen]
    · exact (step_agrees hpen).1

theorem set_same (r : Report) : r.bytes.set 1 (byte r.data 1) = r.bytes := by
  have hlen : 1 < r.data.length := lt_of_lt_of_le (by decide) r.length_data
  rw [Report.bytes, ← List.take_set, set_byte_self hlen]

theorem set_tip_ne_iff (r : Report) :
    r.bytes.set 1 (byte r.data 1 ||| 0x1) ≠ r.bytes ↔ 1 < r.bytes.length ∧ ¬ rawTip r := by
  have hset : ∀ v : UInt8, hasBits (v ||| 0x1) 0x1 = true := by decide +kernel
  have hor : ∀ v : UInt8, hasBits v 0x1 = true → v ||| 0x1 = v := by decide +kernel
  constructor
  · intro hne
    refine ⟨?_, fun hraw => hne ?_⟩
    · by_contra hshort
      exact hne (List.set_eq_of_length_le (not_lt.mp hshort))
    · rw [hor _ hraw, set_same]
  · rintro ⟨hlen, hraw⟩ heq
    have hbyte := congrArg (fun bytes => hasBits (byte bytes 1) 0x1) heq
    rw [← set_same r] at hbyte
    simp only [List.set_set, byte_set_self hlen, hset] at hbyte
    exact hraw hbyte.symm

theorem pen_whole_of_pen (h : inRangePen r) : inRangePen (whole r) := by
  simp only [inRangePen, Bool.and_eq_true] at h ⊢
  refine ⟨⟨?_, h.1.2⟩, h.2⟩
  rw [vendor_whole]
  simp only [isVendor, Bool.and_eq_true] at h
  exact h.1.1.1

theorem pen_iff : inRangePen r ↔ inRangePen (whole r) ∧ 1 < r.bytes.length := by
  refine ⟨fun h => ⟨pen_whole_of_pen h, pen_bytes h⟩, fun ⟨h, hlen⟩ => ?_⟩
  have hsize : 2 ≤ r.size := lt_of_lt_of_le hlen (List.length_take_le r.size _)
  rw [inRangePen, vendor_whole] at h
  rw [inRangePen, isVendor, decide_eq_true hsize, Bool.and_true]
  exact h

/-- The update to 0020 changes nothing but Tip Switch, from up to down, in a pen report with a
toggle or at most four pen reports behind one; there it always does. -/
theorem update_only_holds_tip (before : List Report) (x : Report) :
    (inspiroy2.output before x ≠ inspiroy2V10.output before x ↔
      inRangePen x ∧ ¬ rawTip x ∧
        (Toggle (penReports before) x ∨ HeldByToggle (penReports before))) ∧
    (inspiroy2.output before x = inspiroy2V10.output before x ∨
      inspiroy2V10.output before x = some x.bytes ∧
        inspiroy2.output before x = some (x.bytes.set 1 (byte x.data 1 ||| 0x1))) := by
  have hforces := forces_iff (r := x) (tracks_any before)
  have hbuttons := buttons_agree before
  simp only [Transducer.output]
  by_cases hpen : inRangePen (whole x)
  · rw [step_pen_v10 hpen, step_pen_any hpen, ← hforces]
    by_cases hforce : forces (inspiroy2.after before) x
    · have hdiffers := set_tip_ne_iff x
      simp only [hforce, if_true, ne_eq, Option.some.injEq, and_true, pen_iff, hpen, true_and]
      exact ⟨hdiffers, Or.inr trivial⟩
    · simp [hforce, set_same]
  · have hsame := (step_agrees (s := inspiroy2.after before) hpen).2
    rw [hsame, hbuttons]
    refine ⟨iff_of_false (fun h => h rfl) ?_, Or.inl rfl⟩
    rintro ⟨h, -, -⟩
    exact hpen (pen_whole_of_pen h)

end Inspiroy2SVersions
