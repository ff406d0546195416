import UdevHidBpf.AsyncActivations
import UdevHidBpf.AsyncInit
import UdevHidBpf.FixedDescriptors

/-! # The XP-Pen ACK05 remote

In raw mode the remote sends buttons, dial and battery as vendor reports. It leaves this mode
when it reconnects, and a packet brings it back. The probe sends the first one. -/
namespace Ack05

open BpfErrors StepRuns Transducers DeviceEvents KamvasPen FixedDescriptors ListSplice
open ReportFields ReportMacros ShortItems

def PAD_WIRED_DESCRIPTOR_LENGTH : ℕ := 102
def PAD_DONGLE_DESCRIPTOR_LENGTH : ℕ := 177
def STYLUS_DESCRIPTOR_LENGTH : ℕ := 109
def VENDOR_DESCRIPTOR_LENGTH : ℕ := 36
def RAW_PAD_REPORT_ID : UInt8 := 0xf0
def RAW_BATTERY_REPORT_ID : UInt8 := 0xf2
def VENDOR_REPORT_ID : UInt8 := 2
def PAD_REPORT_LENGTH : ℕ := 8
def VENDOR_REPORT_LENGTH : ℕ := 12

def HidUsagePage_BatterySystem : ℕ := 0x85
def HidUsage_BS_Charging : ℕ := 0x44
def HidUsage_BS_AbsoluteStateOfCharge : ℕ := 0x65

def padFields : List Rdesc := [
  generatedUsagePage HidUsagePage_Button,
  .item .usageMinimum_i8 0x01,
  .item .usageMaximum_i8 0x0a,
  .item .logicalMinimum_i8 0x0,
  .item .logicalMaximum_i8 0x1,
  .item .reportCount 10,
  .item .reportSize 1,
  input (Var ||| Abs),
  .item .usage_i8 0x31,
  .item .reportCount 1,
  input (Var ||| Abs),
  .item .reportCount 5,
  input Const,
  generatedUsagePage HidUsagePage_Digitizers,
  generatedUsage HidUsage_Dig_BarrelSwitch,
  .item .reportCount 1,
  .item .reportSize 1,
  input (Var ||| Abs),
  .item .reportCount 7,
  input Const,
  generatedUsagePage HidUsagePage_GenericDesktop,
  generatedUsage HidUsage_GD_X,
  generatedUsage HidUsage_GD_Y,
  .item .reportCount 2,
  .item .reportSize 8,
  input (Var ||| Abs),
  generatedUsage HidUsage_GD_Wheel,
  .item .logicalMinimum_i8 (-1),
  .item .logicalMaximum_i8 1,
  .item .reportCount 1,
  .item .reportSize 8,
  input (Var ||| KamvasPen.Rel)]

def batteryFields : List Rdesc := [
  generatedUsagePage HidUsagePage_BatterySystem,
  generatedUsage HidUsage_BS_AbsoluteStateOfCharge,
  .item .logicalMinimum_i8 0,
  .item .logicalMaximum_i8 100,
  .item .reportCount 1,
  .item .reportSize 8,
  input (Var ||| Abs),
  generatedUsage HidUsage_BS_Charging,
  .item .logicalMinimum_i8 0,
  .item .logicalMaximum_i8 1,
  .item .reportCount 1,
  .item .reportSize 8,
  input (Var ||| Abs)]

def fixedRdescVendor : Rdesc := rdesc [
  generatedUsagePage HidUsagePage_GenericDesktop,
  generatedUsage HidUsage_GD_Keypad,
  collectionApplication (rdesc [
    .item .reportId RAW_PAD_REPORT_ID.toNat,
    .item .reportCount 1,
    .item .reportSize 8,
    input Const,
    -- sic: two maxima
    .item .logicalMaximum_i8 0,
    .item .logicalMaximum_i8 1,
    generatedUsagePage HidUsagePage_Digitizers,
    generatedUsage HidUsage_Dig_TabletFunctionKeys,
    collectionPhysical (rdesc padFields),
    .item .reportId RAW_BATTERY_REPORT_ID.toNat,
    .item .reportCount 1,
    .item .reportSize 8,
    input Const,
    input Const,
    generatedUsagePage HidUsagePage_Digitizers,
    generatedUsage HidUsage_Dig_Stylus,
    collectionPhysical (rdesc batteryFields)])]

def isReconnect (data : List UInt8) : Bool :=
  byte data 1 = 0xf8 ∧ byte data 2 = 0x02 ∧ byte data 3 = 0x01

/-- `ack05_fix_events`, and whether it calls `switch_to_raw_mode`. -/
def ack05FixEvents (buffer : List UInt8) : Bool × Called Unit :=
  match hidBpfGetData buffer 0 PAD_REPORT_LENGTH with
  | none => (false, ⟨(), buffer, 0⟩)
  | some data =>
    if byte data 0 ≠ VENDOR_REPORT_ID then (false, ⟨(), data, 0⟩)
    else if byte data 1 = RAW_PAD_REPORT_ID then
      let renamed := data.set 0 (byte data 1)
      (isReconnect data,
        ⟨(), if byte renamed 7 = 0x02 then renamed.set 7 0xff else renamed, 8⟩)
    else if byte data 1 = RAW_BATTERY_REPORT_ID then
      (isReconnect data, ⟨(), data.set 0 (byte data 1), 5⟩)
    else (isReconnect data, ⟨(), data, 0⟩)

def ack05 : Transducer Unit Report (Option (List UInt8)) :=
  device () fun _ buffer => (ack05FixEvents buffer).2

def vendorItems : List Item := fixedRdescVendor.items itemPayload

/-- The new fields. The sign of the padding is what the descriptor in front leaves. -/
def rawFields (signed : Bool) : List Field :=
  ⟨RAW_PAD_REPORT_ID.toNat, 8, 8, none, signed⟩ :: ((layout vendorItems).getD []).tail

/-- A pad report with the bytes `b` as `fields` show it in `out`: ten buttons, the button of the
dial, and the dial, whose 2 is a turn to the left. -/
structure DecodesPad (fields : List Field) (b : ℕ → UInt8) (out : List UInt8) : Prop where
  length : out.length = declaredLength fields RAW_PAD_REPORT_ID.toNat
  button : ∀ i < 10, decode fields out (fullUsageOf HidUsagePage_Button (i + 1)) =
    some (((b (2 + i / 8)).toNat.testBit (i % 8)).toNat : ℤ)
  dialButton : decode fields out (fullUsageOf HidUsagePage_Button 0x31) =
    some (((b 3).toNat.testBit 2).toNat : ℤ)
  wheel : decode fields out (fullUsageOf HidUsagePage_GenericDesktop HidUsage_GD_Wheel) =
    some (if b 7 = 2 then -1 else (b 7).toInt8.toInt)

section events

variable {r : Report}

theorem event_eq (r : Report) : ack05FixEvents r.data =
    if byte r.data 0 ≠ VENDOR_REPORT_ID then (false, ⟨(), r.data, 0⟩)
    else if byte r.data 1 = RAW_PAD_REPORT_ID then
      (isReconnect r.data, ⟨(), if byte (r.data.set 0 (byte r.data 1)) 7 = 0x02 then
        (r.data.set 0 (byte r.data 1)).set 7 0xff else r.data.set 0 (byte r.data 1), 8⟩)
    else if byte r.data 1 = RAW_BATTERY_REPORT_ID then
      (isReconnect r.data, ⟨(), r.data.set 0 (byte r.data 1), 5⟩)
    else (isReconnect r.data, ⟨(), r.data, 0⟩) := by
  rw [ack05FixEvents, get_data_report r (by decide)]

def padBytes (b : ℕ → UInt8) : List UInt8 :=
  [b 1, b 1, b 2, b 3, b 4, b 5, b 6, if b 7 = 0x02 then 0xff else b 7]

theorem take_set {data : List UInt8} (h : 8 ≤ data.length) (v w : UInt8) :
    ((data.set 0 v).set 7 w).take 8 =
      [v, byte data 1, byte data 2, byte data 3, byte data 4, byte data 5, byte data 6, w] := by
  have hlen : 0 + 8 ≤ ((data.set 0 v).set 7 w).length := by simpa using h
  have hbytes := bytes_at hlen
  rw [List.drop_zero] at hbytes
  have h8 : ∀ i < 8, i < data.length := fun i hi => lt_of_lt_of_le hi h
  rw [hbytes]
  simp [List.range'_succ, byte, h8]

theorem step_pad (hid : byte r.data 0 = VENDOR_REPORT_ID)
    (hpad : byte r.data 1 = RAW_PAD_REPORT_ID) :
    ack05.step () r = ((), some (padBytes (byte r.data))) := by
  have hlen : 8 ≤ r.data.length := le_trans (by decide) r.length_data
  have h7 : byte (r.data.set 0 (byte r.data 1)) 7 = byte r.data 7 := byte_set_ne (by decide) _
  have hwrite : (if byte r.data 7 = 0x02 then (r.data.set 0 (byte r.data 1)).set 7 0xff
      else r.data.set 0 (byte r.data 1)) = (r.data.set 0 (byte r.data 1)).set 7
        (if byte r.data 7 = 0x02 then 0xff else byte r.data 7) := by
    split_ifs with hturn
    · rfl
    · rw [← h7, set_byte_self (by rw [List.length_set]; omega)]
  have hevent := event_eq r
  rw [if_neg (not_not.mpr hid), if_pos hpad, h7, hwrite] at hevent
  have hcalled : (ack05FixEvents r.data).2 = ⟨(), (r.data.set 0 (byte r.data 1)).set 7
      (if byte r.data 7 = 0x02 then 0xff else byte r.data 7), (8 : ℕ)⟩ := by rw [hevent]; rfl
  rw [ack05, device_resizes (by decide) hcalled, take_set hlen]
  rfl

theorem step_other (hother : byte r.data 0 ≠ VENDOR_REPORT_ID ∨
    byte r.data 1 ≠ RAW_PAD_REPORT_ID ∧ byte r.data 1 ≠ RAW_BATTERY_REPORT_ID) :
    ack05.step () r = ((), some r.bytes) := by
  have hcalled : (ack05FixEvents r.data).2 = ⟨(), r.data, 0⟩ := by
    rw [event_eq]
    split_ifs with hid hpad hturn hbattery
    · rfl
    · exact absurd hpad (hother.resolve_left (not_not.mpr (not_not.mp hid))).1
    · exact absurd hpad (hother.resolve_left (not_not.mpr (not_not.mp hid))).1
    · exact absurd hbattery (hother.resolve_left (not_not.mpr (not_not.mp hid))).2
    · rfl
  exact device_passes hcalled

end events

section decoding

variable {old : List Field} {signed : Bool} {b : ℕ → UInt8}

theorem pad_length : ∀ signed, declaredLength (rawFields signed) RAW_PAD_REPORT_ID.toNat = 8 := by
  decide +kernel

theorem decodes_pad (hold : ∀ f ∈ old, f.reportId ≠ RAW_PAD_REPORT_ID.toNat)
    (hid : b 1 = RAW_PAD_REPORT_ID) :
    DecodesPad (old ++ rawFields signed) b (padBytes b) := by
  have hhead : ((padBytes b).headD 0).toNat = RAW_PAD_REPORT_ID.toNat := congrArg UInt8.toNat hid
  constructor
  · rw [declaredLength_behind hold, pad_length]
    rfl
  · intro i hi
    have hfield : ∀ signed, ∀ i < 10, (rawFields signed).find? (fun f =>
        f.reportId == RAW_PAD_REPORT_ID.toNat &&
          f.usage == some (fullUsageOf HidUsagePage_Button (i + 1))) =
        some ⟨RAW_PAD_REPORT_ID.toNat, 8 * (2 + i / 8) + i % 8, 1,
          some (fullUsageOf HidUsagePage_Button (i + 1)), false⟩ := by decide +kernel
    have hbyte : byte (padBytes b) (2 + i / 8) = b (2 + i / 8) := by
      rcases (by omega : i / 8 = 0 ∨ i / 8 = 1) with h | h <;> rw [h] <;> rfl
    rw [decode_behind hhead hold, decode_bit_at hhead (by omega) (hfield signed i hi), hbyte]
  · rw [decode_behind hhead hold, decode_bit_at hhead (i := 3) (j := 2) (by decide)]
    · rfl
    · revert signed
      decide +kernel
  · rw [decode_behind hhead hold, decode_signed_at hhead (i := 7)]
    · change some (if b 7 = 0x02 then 0xff else b 7).toInt8.toInt = _
      split_ifs
      · rfl
      · rfl
    · revert signed
      decide +kernel

end decoding

theorem vendor_no_wide_unit : fixedRdescVendor.NoWideUnit := by
  simp [fixedRdescVendor, rdesc, collectionApplication, collectionPhysical, padFields,
    batteryFields, usage_no_wide_unit, usage_page_no_wide_unit, input, Rdesc.NoWideUnit,
    isWideUnit]

def vendorDescriptor : List UInt8 :=
  [0x06, 0x0a, 0xff, 0x09, 0x01, 0xa1, 0x01, 0x85, 0x02, 0x09, 0x02, 0x15, 0x00, 0x26, 0xff, 0x00,
    0x75, 0x08, 0x95, 0x0b, 0x81, 0x02, 0x09, 0x03, 0x91, 0x02, 0x96, 0x01, 0x00, 0x75, 0x08,
    0x09, 0x04, 0xb1, 0x02, 0xc0]

def vendorBuffer : Buffer where
  data := vendorDescriptor ++ List.replicate 4060 0
  size := 36
  length_data := by
    rw [List.length_append, List.length_replicate]
    rfl
  size_le := by decide

/-- The packet of `switch_to_raw_mode`. -/
def magic0 : List UInt8 := [0x02, 0xb0, 0x04, 0x00, 0x00] ++ List.replicate 27 0

def hidId : ℕ := 1

/-- `HID_BPF_ASYNC_DELAYED_CALL(switch_to_raw_mode, hctx, 10)` -/
def switchCall : HidBpfAsync.CallArgs := ⟨.event, hidId, 10, some 0⟩

structure System where
  key : HidBpfAsync.State
  /-- `switch_to_raw_mode` was entered and has not sent its packet. -/
  toSend : Bool
  sent : List (List UInt8)
  deriving DecidableEq, Repr

inductive Action where
  /-- An event; `found` is the map lookup of its call. -/
  | report (r : Report) (found : Bool)
  | key (a : HidBpfAsync.Action)
  /-- `hid_bpf_hw_output_report` -/
  | output

/-- The steps of the key between the events. Its callback ends after its packet. -/
def keyStep (s : System) (a : HidBpfAsync.Action) : Option System :=
  match a with
  | .enter _ _ => none
  | .writeRunning => (HidBpfAsync.next s.key a).map fun k => { s with key := k, toSend := true }
  | .writeInitialized =>
    if s.toSend then none else (HidBpfAsync.next s.key a).map fun k => { s with key := k }
  | a => (HidBpfAsync.next s.key a).map fun k => { s with key := k }

def next (s : System) : Action → Option System
  | .report r found =>
    if (ack05FixEvents r.data).1 then
      (HidBpfAsync.next s.key (.enter switchCall found)).map fun k => { s with key := k }
    else some s
  | .key a => keyStep s a
  | .output =>
    if s.toSend then some { s with toSend := false, sent := s.sent ++ [magic0] } else none

def reconnects (r : Report) : Bool :=
  byte r.data 0 = VENDOR_REPORT_ID ∧ byte r.data 1 = 0xf8 ∧ byte r.data 2 = 0x02 ∧
    byte r.data 3 = 0x01

def Action.reconnects : Action → Bool
  | .report r _ => Ack05.reconnects r
  | _ => false

def Action.Succeeds : Action → Prop
  | .report _ found => found = true
  | .key a => ∀ k, AsyncActivations.AllSucceed k a
  | .output => True

def keyAction : Action → Option HidBpfAsync.Action
  | .report r found => if reconnects r then some (.enter switchCall found) else none
  | .key a => some a
  | .output => none

section system

variable {s t : System} {a : Action} {as : List Action}

theorem calls_iff (r : Report) : (ack05FixEvents r.data).1 = reconnects r := by
  rw [event_eq, reconnects]
  by_cases hid : byte r.data 0 = VENDOR_REPORT_ID
  · rw [if_neg (not_not.mpr hid)]
    have hcalls (c c' c'' : Called Unit) : (if byte r.data 1 = RAW_PAD_REPORT_ID then
        (isReconnect r.data, c) else if byte r.data 1 = RAW_BATTERY_REPORT_ID then
          (isReconnect r.data, c') else (isReconnect r.data, c'')).1 = isReconnect r.data := by
      split_ifs <;> rfl
    rw [hcalls]
    simp [isReconnect, hid]
  · rw [if_pos hid]
    simp [hid]

theorem next_report {r : Report} {found : Bool} (h : next s (.report r found) = some t) :
    t = s ∧ reconnects r = false ∨ reconnects r = true ∧
      HidBpfAsync.next s.key (.enter switchCall found) = some t.key ∧
        t.toSend = s.toSend ∧ t.sent = s.sent := by
  rw [next, calls_iff] at h
  split_ifs at h with hr
  · obtain ⟨k, hk, rfl⟩ := Option.map_eq_some_iff.mp h
    exact .inr ⟨hr, hk, rfl, rfl⟩
  · cases h
    exact .inl ⟨rfl, Bool.eq_false_iff.mpr hr⟩

/-- What a step of the key does to the rest: only the callback's entry sets `toSend`. -/
theorem next_key {b : HidBpfAsync.Action} (h : next s (.key b) = some t) :
    HidBpfAsync.next s.key b = some t.key ∧ AsyncActivations.isEnter b = false ∧
      t.sent = s.sent ∧ t.toSend = (s.toSend || AsyncActivations.startsCallback b) ∧
      (b = .writeInitialized → s.toSend = false) := by
  cases b with
  | enter args found => cases h
  | writeInitialized =>
    rw [next, keyStep] at h
    split_ifs at h with hsend
    obtain ⟨k, hk, rfl⟩ := Option.map_eq_some_iff.mp h
    exact ⟨hk, rfl, rfl, by simp [AsyncActivations.startsCallback],
      fun _ => Bool.eq_false_iff.mpr hsend⟩
  | writeRunning =>
    obtain ⟨k, hk, rfl⟩ := Option.map_eq_some_iff.mp h
    refine ⟨hk, rfl, rfl, by simp [AsyncActivations.startsCallback], ?_⟩
    intro hb
    cases hb
  | storeHid | helper | timerFires | timerWqStart | workStarts | allocateContext |
    releaseContext =>
    obtain ⟨k, hk, rfl⟩ := Option.map_eq_some_iff.mp h
    refine ⟨hk, rfl, rfl, by simp [AsyncActivations.startsCallback], ?_⟩
    intro hb
    cases hb

theorem next_output (h : next s .output = some t) :
    s.toSend = true ∧ t = { s with toSend := false, sent := s.sent ++ [magic0] } := by
  rw [next, Option.ite_none_right_eq_some] at h
  exact ⟨h.1, (Option.some.inj h.2).symm⟩

theorem key_run (hr : run next s as = some t) :
    run HidBpfAsync.next s.key (as.filterMap keyAction) = some t.key := by
  refine run_part ?_ ?_ hr
  · intro s a t h ha
    cases a with
    | report r found =>
      rcases next_report h with ⟨rfl, -⟩ | ⟨hreconnects, -⟩
      · rfl
      · simp [keyAction, hreconnects] at ha
    | key b => cases ha
    | output => rw [(next_output h).2]
  · intro s a t b h ha
    cases a with
    | report r found =>
      rcases next_report h with ⟨-, hno⟩ | ⟨hyes, hkey, -⟩
      · simp [keyAction, hno] at ha
      · simp only [keyAction, hyes, if_true, Option.some.injEq] at ha
        exact ha ▸ hkey
    | key c =>
      cases ha
      exact (next_key h).1
    | output => cases ha

theorem body_kept {k k' : HidBpfAsync.State} {b : HidBpfAsync.Action}
    (h : HidBpfAsync.next k b = some k') (hb : b ≠ .writeInitialized) (hbody : k.worker = .body) :
    k'.worker = .body := by
  cases HidBpfAsync.next_effect h with
  | initializedWritten => exact absurd rfl hb
  | workStarted _ hw => cases hbody.symm.trans hw
  | contextFound hw => cases hbody.symm.trans hw
  | contextLost hw => cases hbody.symm.trans hw
  | released hw => cases hbody.symm.trans hw
  | runningWritten => rfl
  | _ => exact hbody

theorem body_entered {k k' : HidBpfAsync.State} (h : HidBpfAsync.next k .writeRunning = some k') :
    k.worker = .allocated ∧ k'.worker = .body := by
  cases HidBpfAsync.next_effect h with
  | runningWritten hw => exact ⟨hw, rfl⟩

def Sending (s : System) : Prop := s.toSend = true → s.key.worker = .body

theorem next_sending (hs : Sending s) (h : next s a = some t) : Sending t := by
  intro hsend
  cases a with
  | report r found =>
    rcases next_report h with ⟨rfl, -⟩ | ⟨-, hkey, hsame, -⟩
    · exact hs hsend
    · exact body_kept hkey nofun (hs (hsame ▸ hsend))
  | key b =>
    obtain ⟨hkey, -, -, hto, hwrite⟩ := next_key h
    rw [hto, Bool.or_eq_true] at hsend
    rcases hsend with hsend | hstarts
    · refine body_kept hkey ?_ (hs hsend)
      intro hb
      cases hsend.symm.trans (hwrite hb)
    · cases b with
      | writeRunning => exact (body_entered hkey).2
      | _ => cases hstarts
  | output =>
    rw [(next_output h).2] at hsend
    cases hsend

def isOutput : Action → Bool
  | .output => true
  | _ => false

theorem next_sent (hs : Sending s) (h : next s a = some t) :
    t.sent = s.sent ++ List.replicate (isOutput a).toNat magic0 ∧
      (isOutput a).toNat + t.toSend.toNat = s.toSend.toNat +
        ((keyAction a).any AsyncActivations.startsCallback).toNat := by
  cases a with
  | report r found =>
    rcases next_report h with ⟨rfl, hno⟩ | ⟨hyes, -, hsame, hsent⟩
    · simp [isOutput, keyAction, hno]
    · simp [isOutput, keyAction, hyes, hsame, hsent, AsyncActivations.startsCallback]
  | key b =>
    obtain ⟨hkey, -, hsent, hto, -⟩ := next_key h
    refine ⟨by simpa [isOutput] using hsent, ?_⟩
    have hnew : AsyncActivations.startsCallback b = true → s.toSend = false := by
      intro hstarts
      cases b with
      | writeRunning =>
        apply Bool.eq_false_iff.mpr
        intro hsend
        cases (hs hsend).symm.trans (body_entered hkey).1
      | _ => cases hstarts
    rw [hto, keyAction]
    cases hstarts : AsyncActivations.startsCallback b with
    | false => simp [isOutput, hstarts]
    | true => simp [isOutput, hstarts, hnew hstarts]
  | output =>
    obtain ⟨hsend, rfl⟩ := next_output h
    exact ⟨rfl, by simp [isOutput, hsend, keyAction]⟩

theorem run_sent (hs : Sending s) (hr : run next s as = some t) :
    t.sent = s.sent ++ List.replicate (as.countP isOutput) magic0 ∧
      as.countP isOutput + t.toSend.toNat = s.toSend.toNat +
        (as.filterMap keyAction).countP AsyncActivations.startsCallback := by
  rw [List.countP_filterMap]
  induction as generalizing s with
  | nil =>
    cases hr
    simp
  | cons a as ih =>
    obtain ⟨u, hu, hrest⟩ := run_cons_some hr
    obtain ⟨hsent, hn⟩ := next_sent hs hu
    obtain ⟨hmore, hm⟩ := ih (next_sending hs hu) hrest
    have hcount (p : Action → Bool) : (a :: as).countP p = (p a).toNat + as.countP p := by
      rw [List.countP_cons, Nat.add_comm]
      cases p a <;> rfl
    constructor
    · rw [hmore, hsent, List.append_assoc, List.replicate_append_replicate, hcount]
    · have hstart : ((keyAction a).map AsyncActivations.startsCallback).getD false =
          (keyAction a).any AsyncActivations.startsCallback := by
        cases keyAction a <;> rfl
      rw [hcount, hcount, hstart]
      omega

theorem succeeds_key (hok : ∀ a ∈ as, a.Succeeds) (k : HidBpfAsync.State) :
    Meets AsyncActivations.AllSucceed HidBpfAsync.next k (as.filterMap keyAction) := by
  apply meets_of_mem
  intro b hb k
  obtain ⟨a, ha, hab⟩ := List.mem_filterMap.mp hb
  have hsucceeds := hok a ha
  cases a with
  | report r found =>
    rw [keyAction] at hab
    split_ifs at hab
    cases hab
    cases hsucceeds
    exact ⟨trivial, nofun⟩
  | key c =>
    cases hab
    exact hsucceeds k
  | output => cases hab

theorem enters_eq (hkeys : ∀ b, .key b ∈ as → AsyncActivations.isEnter b = false) :
    (as.filterMap keyAction).countP AsyncActivations.isEnter = as.countP Action.reconnects := by
  rw [List.countP_filterMap]
  apply List.countP_congr
  intro a ha
  cases a with
  | report r found =>
    cases hr : reconnects r <;> simp [keyAction, hr, Action.reconnects, AsyncActivations.isEnter]
  | key b => simp [keyAction, Action.reconnects, hkeys b ha]
  | output => simp [keyAction, Action.reconnects]

theorem run_keys (hr : run next s as = some t) {b : HidBpfAsync.Action} (hb : .key b ∈ as) :
    AsyncActivations.isEnter b = false := by
  obtain ⟨before, after, rfl⟩ := List.append_of_mem hb
  obtain ⟨u, -, hrest⟩ := run_append_some hr
  obtain ⟨v, hv, -⟩ := run_cons_some hrest
  exact (next_key hv).2.1

end system

/-- As long as no helper fails, every reconnect is followed by the packet before the key comes
to rest, also when an earlier switch is still on its way and the call is refused, and no packet
is sent that no reconnect has asked for. -/
theorem reconnect_brings_raw_mode {s t : System} {as : List Action}
    (hs : HidBpfAsync.Initialised s.key) (hsend : s.toSend = false) (hr : run next s as = some t)
    (hok : ∀ a ∈ as, a.Succeeds) :
    (∀ before r found after, as = before ++ .report r found :: after → reconnects r = true →
      HidBpfAsync.Quiescent t.key → .output ∈ after) ∧
    ∃ n, t.sent = s.sent ++ List.replicate n magic0 ∧ n ≤ as.countP Action.reconnects := by
  have hsending : Sending s := fun h => by rw [hsend] at h; cases h
  have hkey := key_run hr
  obtain ⟨hfollowed, hcount⟩ := AsyncActivations.no_call_is_lost hs (succeeds_key hok s.key) hkey
  constructor
  · intro before r found after hsplit hreconnects hquiet
    subst hsplit
    have hstarts : HidBpfAsync.Action.writeRunning ∈ after.filterMap keyAction := by
      refine hfollowed (before.filterMap keyAction) switchCall found _ ?_ hquiet
      simp [List.filterMap_append, keyAction, hreconnects]
    obtain ⟨a, ha, hrunning⟩ := List.mem_filterMap.mp hstarts
    have hrest : ∃ u, run next u after = some t ∧ Sending u := by
      obtain ⟨v, hbefore, hafter⟩ := run_append_some hr
      obtain ⟨u, hu, hafter⟩ := run_cons_some hafter
      have hv : Sending v := run_preserves (fun _ _ _ h hn => next_sending h hn) hsending hbefore
      exact ⟨u, hafter, next_sending hv hu⟩
    obtain ⟨u, hrun, hu⟩ := hrest
    have hsent := (run_sent hu hrun).2
    have hpositive : 0 < (after.filterMap keyAction).countP AsyncActivations.startsCallback :=
      List.countP_pos_iff.mpr ⟨_, hstarts, rfl⟩
    have hdone : t.toSend = false := by
      apply Bool.eq_false_iff.mpr
      intro hsend
      have ht : Sending t := run_preserves (fun _ _ _ h hn => next_sending h hn) hu hrun
      cases (ht hsend).symm.trans hquiet.worker
    rw [hdone, Bool.toNat_false] at hsent
    obtain ⟨o, ho, houtput⟩ := List.countP_pos_iff.mp (by omega : 0 < after.countP isOutput)
    cases o with
    | output => exact ho
    | _ => cases houtput
  · obtain ⟨hsent, hn⟩ := run_sent hsending hr
    have henters := enters_eq (fun b hb => run_keys hr hb)
    refine ⟨_, hsent, ?_⟩
    rw [hsend, Bool.toNat_false] at hn
    omega

def reconnect : Report := .ofBytes [0x02, 0xf8, 0x02, 0x01, 0, 0, 0, 0, 0, 0, 0, 0]

def twoReconnects : List Action :=
  [.report reconnect true, .key (.storeHid 0), .key (.helper 0 0), .key (.helper 0 0),
    .key (.helper 0 0), .report reconnect true, .key .timerFires, .key (.timerWqStart 0),
    .key .workStarts, .key (.allocateContext true), .key .writeRunning, .output,
    .key .writeInitialized, .key .releaseContext]

theorem reconnect_brings_raw_mode_twice : ∃ t n,
    run next ⟨HidBpfAsync.freshKey, false, []⟩ twoReconnects = some t ∧
      .output ∈ twoReconnects.drop 6 ∧ t.sent = [] ++ List.replicate n magic0 ∧ n ≤ 2 := by
  have hr : run next ⟨HidBpfAsync.freshKey, false, []⟩ twoReconnects =
      some ⟨⟨⟨.initialized, none, false, some 0, 1⟩, false, .idle, []⟩, false, [magic0]⟩ := by
    decide +kernel
  have hok : ∀ a ∈ twoReconnects, a.Succeeds := by
    intro a ha
    simp only [twoReconnects, List.mem_cons, List.not_mem_nil, or_false] at ha
    rcases ha with rfl | rfl | rfl | rfl | rfl | rfl | rfl | rfl | rfl | rfl | rfl | rfl | rfl | rfl
    all_goals first | rfl | trivial | exact fun k => ⟨trivial, nofun⟩ | exact fun k => ⟨rfl, nofun⟩
  obtain ⟨hfollowed, n, hsent, hn⟩ := reconnect_brings_raw_mode
    HidBpfAsync.freshKey_initialised rfl hr hok
  refine ⟨_, n, hr, ?_, hsent, hn⟩
  exact hfollowed (twoReconnects.take 5) reconnect true _ rfl (by decide)
    ⟨rfl, rfl, rfl, rfl, rfl⟩

/-- What the kernel answers on the vendor interface. -/
structure Kernel where
  /-- `hid_bpf_allocate_context` -/
  allocates : Bool
  init : AsyncInit.Outcomes
  /-- `hid_bpf_hw_output_report` -/
  output : ℤ
  deriving DecidableEq, Repr

structure Probed where
  slots : List HidBpfAsync.State
  sent : List (List UInt8)
  retval : ℤ
  deriving DecidableEq, Repr

/-- `switch_to_raw_mode` -/
def switchToRawMode (output : ℤ) : List (List UInt8) × ℤ :=
  ([magic0], if output < 0 then output else 0)

def probe (k : Kernel) (slots : List HidBpfAsync.State) (rdescSize : ℕ) : Probed :=
  let retval : ℤ :=
    if rdescSize = PAD_WIRED_DESCRIPTOR_LENGTH ∨ rdescSize = PAD_DONGLE_DESCRIPTOR_LENGTH ∨
      rdescSize = STYLUS_DESCRIPTOR_LENGTH ∨ rdescSize = VENDOR_DESCRIPTOR_LENGTH then 0
    else -EINVAL
  if rdescSize ≠ VENDOR_DESCRIPTOR_LENGTH then ⟨slots, [], retval⟩
  else if ¬ k.allocates then ⟨slots, [], -EINVAL⟩
  else
    let init := AsyncInit.asyncInit 0 k.init slots
    -- `||` yields 0 or 1, and without a key nothing is sent
    if init.2 ≠ .returned 0 then ⟨init.1, [], 1⟩
    else
      let switched := switchToRawMode k.output
      ⟨init.1, switched.1, if switched.2 ≠ 0 then 1 else 0⟩

def OtherInterface (rdescSize : ℕ) : Prop :=
  rdescSize = PAD_WIRED_DESCRIPTOR_LENGTH ∨ rdescSize = PAD_DONGLE_DESCRIPTOR_LENGTH ∨
    rdescSize = STYLUS_DESCRIPTOR_LENGTH

instance (rdescSize : ℕ) : Decidable (OtherInterface rdescSize) :=
  inferInstanceAs (Decidable (_ ∨ _))

def HandsOut (k : Kernel) (slots : List HidBpfAsync.State) : Prop :=
  k.allocates ∧ (∃ key, AsyncInit.Free slots key) ∧ k.init.Succeed

section probe

variable (k : Kernel) (slots : List HidBpfAsync.State)

theorem switched_zero_iff (output : ℤ) : (switchToRawMode output).2 = 0 ↔ 0 ≤ output := by
  rw [switchToRawMode]
  split_ifs with h
  · exact iff_of_false (ne_of_lt h) (not_le.mpr h)
  · exact iff_of_true rfl (not_lt.mp h)

theorem probe_other {rdescSize : ℕ} (h : rdescSize ≠ VENDOR_DESCRIPTOR_LENGTH) :
    probe k slots rdescSize = ⟨slots, [],
      if OtherInterface rdescSize then 0 else -EINVAL⟩ := by
  have hlength : (rdescSize = PAD_WIRED_DESCRIPTOR_LENGTH ∨
      rdescSize = PAD_DONGLE_DESCRIPTOR_LENGTH ∨ rdescSize = STYLUS_DESCRIPTOR_LENGTH ∨
        rdescSize = VENDOR_DESCRIPTOR_LENGTH) ↔ OtherInterface rdescSize := by
    simp [OtherInterface, h]
  simp only [probe, hlength]
  rw [if_pos h]

variable {k slots}

theorem probe_refused (h : ¬ HandsOut k slots) :
    (probe k slots VENDOR_DESCRIPTOR_LENGTH).sent = [] ∧
      (probe k slots VENDOR_DESCRIPTOR_LENGTH).retval ≠ 0 := by
  by_cases hallocates : k.allocates = true
  · have hinit : (AsyncInit.asyncInit 0 k.init slots).2 ≠ .returned 0 :=
      fun hzero => h ⟨hallocates, (AsyncInit.asyncInit_zero_iff 0 k.init slots).mp hzero⟩
    simp [probe, hallocates, hinit]
  · simp [probe, hallocates, EINVAL]

theorem probe_handed_out (h : HandsOut k slots) : ∃ key slot, slots[key]? = some slot ∧
    slot.elem.state = .unset ∧ probe k slots VENDOR_DESCRIPTOR_LENGTH =
      ⟨slots.set key (AsyncInit.readied 0 slot), [magic0], if 0 ≤ k.output then 0 else 1⟩ := by
  obtain ⟨hallocates, hfree, hsucceed⟩ := h
  obtain ⟨key, slot, hslot, hunset, hinit⟩ := AsyncInit.asyncInit_succeeds 0 hsucceed hfree
  refine ⟨key, slot, hslot, hunset, ?_⟩
  have hsent : (switchToRawMode k.output).1 = [magic0] := rfl
  simp [probe, hallocates, hinit, switched_zero_iff, hsent, -ne_eq, ite_not]

end probe

theorem readied_unset : HidBpfAsync.Initialised (AsyncInit.readied 0 AsyncContexts.unsetSlot) :=
  ⟨rfl, rfl, rfl, rfl, rfl, rfl⟩

/-- The probe accepts the other interfaces by their length alone. On the vendor interface it asks
for raw mode exactly if a key is handed out; this key is then ready for the calls of the events,
and the answer to the packet decides. -/
theorem probe_arms_raw_mode (k : Kernel) (slots : List HidBpfAsync.State) (rdescSize : ℕ) :
    (rdescSize ≠ VENDOR_DESCRIPTOR_LENGTH → (probe k slots rdescSize).slots = slots ∧
      (probe k slots rdescSize).sent = [] ∧
        ((probe k slots rdescSize).retval = 0 ↔ OtherInterface rdescSize)) ∧
    (rdescSize = VENDOR_DESCRIPTOR_LENGTH →
      ((probe k slots rdescSize).retval = 0 ↔ HandsOut k slots ∧ 0 ≤ k.output) ∧
      (¬ HandsOut k slots → (probe k slots rdescSize).sent = []) ∧
      (HandsOut k slots → (probe k slots rdescSize).sent = [magic0] ∧ ∃ key slot,
        slots[key]? = some slot ∧ slot.elem.state = .unset ∧
          (probe k slots rdescSize).slots = slots.set key (AsyncInit.readied 0 slot) ∧
            (slot = AsyncContexts.unsetSlot →
              HidBpfAsync.Initialised (AsyncInit.readied 0 slot)))) := by
  constructor
  · intro hsize
    rw [probe_other k slots hsize]
    refine ⟨rfl, rfl, ?_⟩
    by_cases hother : OtherInterface rdescSize
    · simp [hother]
    · simp [hother, EINVAL]
  · rintro rfl
    by_cases hhands : HandsOut k slots
    · obtain ⟨key, slot, hslot, hunset, hprobe⟩ := probe_handed_out hhands
      rw [hprobe]
      refine ⟨by simp [hhands], fun hno => absurd hhands hno, fun _ => ?_⟩
      refine ⟨rfl, key, slot, hslot, hunset, rfl, ?_⟩
      rintro rfl
      exact readied_unset
    · obtain ⟨hsent, hretval⟩ := probe_refused hhands
      exact ⟨iff_of_false hretval fun h => hhands h.1, fun _ => hsent, fun h => absurd h hhands⟩

/-- The map of a program that was just loaded. -/
theorem probe_arms_raw_mode_loaded : ∃ slot,
    (probe ⟨true, ⟨0, 0, 0, 0⟩, 32⟩ [AsyncContexts.unsetSlot] 36).retval = 0 ∧
      (probe ⟨true, ⟨0, 0, 0, 0⟩, 32⟩ [AsyncContexts.unsetSlot] 36).slots = [slot] ∧
        HidBpfAsync.Initialised slot := by
  have hhands : HandsOut ⟨true, ⟨0, 0, 0, 0⟩, 32⟩ [AsyncContexts.unsetSlot] :=
    ⟨rfl, ⟨0, _, rfl, rfl⟩, by decide⟩
  obtain ⟨hretval, -, hready⟩ :=
    (probe_arms_raw_mode ⟨true, ⟨0, 0, 0, 0⟩, 32⟩ [AsyncContexts.unsetSlot] 36).2 rfl
  obtain ⟨-, key, slot, hslot, -, hslots, hinitialised⟩ := hready hhands
  obtain ⟨hkey, hget⟩ := List.getElem?_eq_some_iff.mp hslot
  obtain rfl : key = 0 := Nat.lt_one_iff.mp hkey
  exact ⟨_, hretval.mpr ⟨hhands, by decide⟩, hslots, hinitialised hget.symm⟩

end Ack05
