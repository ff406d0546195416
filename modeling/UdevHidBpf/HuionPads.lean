import UdevHidBpf.Dial2
import UdevHidBpf.HuionNodes

/-! # The pads of the Huion tablets

What `hid_device_event` sends, read off the array that `hid_rdesc_fixup` has put in place. -/
namespace HuionPads

open Transducers DeviceEvents VendorPads FixedDescriptors KamvasPen ReportFields ReportMacros
open HuionDescriptors (RdescArray)
open HuionFirmware HuionNodes
open UdevProperties (Bytes)

def arrayFields (a : RdescArray) : List Field := (layout (a.rdesc.items itemPayload)).getD []

theorem fields_of_node {a : RdescArray} {descriptor : List UInt8} (h : HasFieldsOf a descriptor) :
    reportFields descriptor = some (arrayFields a) ∧
      (arrayFields a).Pairwise fun f g => ¬ Overlap f g := by
  obtain ⟨fields, hfields, hlayout, hdisjoint⟩ := h
  have hsame : arrayFields a = fields := by rw [arrayFields, hlayout, Option.getD_some]
  rw [hsame]
  exact ⟨hfields, hdisjoint⟩

def wheelUsage : ℕ := fullUsageOf HidUsagePage_GenericDesktop HidUsage_GD_Wheel

theorem headD_byte (out : List UInt8) : out.headD 0 = byte out 0 := by
  cases out <;> rfl

/-- Where the fields of a pad lie. -/
structure PadLayout (fields : List Field) (p : Pad) (usages : List ℕ) : Prop where
  length : declaredLength fields p.reportId.toNat = 5 + p.outBytes
  fits : usages.length ≤ 8 * p.outBytes
  button : ∀ i : Fin usages.length,
    (fields.find? fun f => f.reportId == p.reportId.toNat && f.usage == some (usages.get i)) =
      some ⟨p.reportId.toNat, 8 * (4 + i / 8) + i % 8, 1, some (usages.get i), false⟩
  wheel : (fields.find? fun f => f.reportId == p.reportId.toNat && f.usage == some wheelUsage) =
    some ⟨p.reportId.toNat, 8 * (4 + p.outBytes), 8, some wheelUsage, true⟩

/-- The pad report `out` made of `x`, with the buttons of the report `held`. -/
structure DecodesPad (fields : List Field) (p : Pad) (usages : List ℕ) (held : Option Report)
    (x : Report) (out : List UInt8) : Prop where
  length : out.length = declaredLength fields p.reportId.toNat
  button : ∀ i : Fin usages.length, decode fields out (usages.get i) =
    some (((held.elim 0 p.buttonBits).testBit i).toNat : ℤ)
  still : ¬ isWheel x → decode fields out wheelUsage = some 0
  turned : isWheel x → ∀ n, turn (byte x.data 5) = some n →
    decode fields out wheelUsage = some n

theorem out_button {p : Pad} {out : List UInt8} {i : ℕ} (hi : i < 8 * p.outBytes) :
    (p.outButtons out).testBit i = (byte out (4 + i / 8)).toNat.testBit (i % 8) := by
  have hbyte : ((out.drop 4).take p.outBytes).getD (i / 8) 0 = byte out (4 + i / 8) := by
    rw [List.getD_eq_getElem?_getD, List.getElem?_take_of_lt (by omega), List.getElem?_drop,
      byte, List.getD_eq_getElem?_getD]
  rw [Pad.outButtons, LittleEndian.value_testBit, hbyte]

theorem decodes_pad {S : Type*} {m : Transducer S Report (Option (List UInt8))} {p : Pad}
    {fields : List Field} {usages : List ℕ} (hpersists : PersistsButtons m p)
    (hlayout : PadLayout fields p usages) (before : List Report) (x : Report) (hx : p.isPad x) :
    ∃ out, m.output before x = some out ∧ DecodesPad fields p usages
      (Transducer.mostRecent p.isButton (before ++ [x])) x out := by
  obtain ⟨out, hout, hlen, hid, hbuttons, hstill, hturned⟩ := hpersists before x hx
  have hhead : (out.headD 0).toNat = p.reportId.toNat := by rw [headD_byte, hid]
  have hwheel := decode_signed_at hhead hlayout.wheel
  refine ⟨out, hout, ?_, ?_, ?_, ?_⟩
  · rw [hlen, hlayout.length]
  · intro i
    rw [decode_bit_at hhead (Nat.mod_lt _ (by decide)) (hlayout.button i),
      ← out_button (lt_of_lt_of_le i.isLt hlayout.fits), hbuttons]
  · intro hnot
    rw [hwheel]
    exact congrArg some (hstill hnot)
  · intro hturn n hn
    rw [hwheel]
    exact congrArg some (hturned hturn n hn)

def buttonUsages (buttons : List ℕ) : List ℕ := buttons.map (fullUsageOf HidUsagePage_Button)

def inspiroy2MButtons : List ℕ := buttonUsages (List.range' 1 10 ++ [0x31])
def inspiroy2SButtons : List ℕ := buttonUsages (List.range' 1 6)
def keydialK20Buttons : List ℕ := buttonUsages (List.range' 1 10 ++ List.range' 0x31 9)

theorem inspiroy2M_layout : PadLayout (arrayFields HuionDescriptors.Inspiroy2M.fixedRdescVendor)
    VendorPads.Inspiroy2M.pad inspiroy2MButtons := by
  constructor <;> decide +kernel

theorem inspiroy2S_layout : PadLayout (arrayFields HuionDescriptors.Inspiroy2S.fixedRdescVendor)
    inspiroy2SPad inspiroy2SButtons := by
  constructor <;> decide +kernel

theorem keydialK20_layout : PadLayout (arrayFields HuionDescriptors.KeydialK20.fixedRdescVendor)
    KeydialK20Usb.pad keydialK20Buttons := by
  constructor <;> decide +kernel

/-- What the vendor node of a tablet shows of its pad, with any firmware id. -/
def ShowsPad {S : Type*} (program : Program) (m : Transducer S Report (Option (List UInt8)))
    (p : Pad) (usages : List ℕ) : Prop :=
  ∀ firmwareId, ∀ b : Buffer, b.size = program.vendorLength →
    ∃ fields, reportFields (b.parsed (program.fixRdesc firmwareId b)) = some fields ∧
      (fields.Pairwise fun f g => ¬ Overlap f g) ∧
      ∀ before x, p.isPad x → ∃ out, m.output before x = some out ∧
        DecodesPad fields p usages (Transducer.mostRecent p.isButton (before ++ [x])) x out

theorem shows_pad {S : Type*} {program : Program} {m : Transducer S Report (Option (List UInt8))}
    {p : Pad} {usages : List ℕ} (hpersists : PersistsButtons m p)
    (hlayout : PadLayout (arrayFields program.fixedVendor) p usages) :
    ShowsPad program m p usages := by
  intro firmwareId b hsize
  obtain ⟨hfields, hdisjoint⟩ :=
    fields_of_node ((fixRdesc_settles program firmwareId b).vendor hsize)
  exact ⟨_, hfields, hdisjoint, decodes_pad hpersists hlayout⟩

/-- In every run in vendor mode the kernel finds the buttons of the last button report and each
turn of the wheel. -/
theorem vendor_pads_decode :
    ShowsPad inspiroy2M VendorPads.Inspiroy2M.inspiroy2 VendorPads.Inspiroy2M.pad
        inspiroy2MButtons ∧
      ShowsPad inspiroy2S Inspiroy2S.inspiroy2 inspiroy2SPad inspiroy2SButtons ∧
      ShowsPad keydialK20 KeydialK20Usb.keydialK20 KeydialK20Usb.pad keydialK20Buttons :=
  ⟨shows_pad VendorPads.Inspiroy2M.persists_buttons inspiroy2M_layout,
    shows_pad inspiroy2S_persists_buttons inspiroy2S_layout,
    shows_pad KeydialK20Usb.persists_buttons keydialK20_layout⟩

def vendorNode : Buffer := .zeros 18 (by decide)

def holdsButton : Report := .ofBytes [0x08, 0xe0, 0x01, 0x01, 0, 0, 0x04, 0, 0, 0, 0, 0]
def turnsDown : Report := .ofBytes [0x08, 0xf1, 0x01, 0x01, 0, 0x02, 0, 0, 0, 0, 0, 0]

theorem vendor_pads_decode_keydial : ∃ fields out,
    reportFields (vendorNode.parsed (keydialK20.fixRdesc [] vendorNode)) = some fields ∧
      KeydialK20Usb.keydialK20.output [holdsButton] turnsDown = some out ∧
      decode fields out (fullUsageOf HidUsagePage_Button 0x39) = some 1 ∧
      decode fields out wheelUsage = some (-1) := by
  obtain ⟨fields, hfields, -, hpads⟩ := vendor_pads_decode.2.2 [] vendorNode rfl
  obtain ⟨out, hout, hdecodes⟩ := hpads [holdsButton] turnsDown (by decide)
  have hlast : (((Transducer.mostRecent KeydialK20Usb.pad.isButton
      ([holdsButton] ++ [turnsDown])).elim 0 KeydialK20Usb.pad.buttonBits).testBit 18).toNat = 1 := by
    decide +kernel
  refine ⟨fields, out, hfields, hout, ?_, hdecodes.turned (by decide) (-1) rfl⟩
  exact (hdecodes.button ⟨18, by decide⟩).trans (congrArg (some ∘ Nat.cast) hlast)

section Dial2

open Dial2

def panUsage : ℕ := fullUsageOf HidUsagePage_Consumer HidUsage_Con_ACPan

def dialButton (i : ℕ) : ℕ := fullUsageOf HidUsagePage_Button (i + 1)

def dialUsage (x : Report) : ℕ := if byte x.data 3 = 1 then wheelUsage else panUsage

/-- The two dials turn one at a time, the buttons are those of the report `held`. -/
structure DecodesVendor (fields : List Field) (held : Option Report) (x : Report)
    (out : List UInt8) : Prop where
  length : out.length = declaredLength fields PAD_REPORT_ID.toNat
  button : ∀ i < 8, decode fields out (dialButton i) =
    some (((held.elim 0 fun b => byte b.data 4).toNat.testBit i).toNat : ℤ)
  one : decode fields out wheelUsage = some 0 ∨ decode fields out panUsage = some 0
  still : ¬ isWheel x → decode fields out wheelUsage = some 0 ∧ decode fields out panUsage = some 0
  turned : isWheel x → ∀ n, turn (byte x.data 5) = some n →
    decode fields out (dialUsage x) = some n

/-- In default mode both dials turn one wheel and press one button. -/
structure DecodesDefault (fields : List Field) (before : List Report) (x : Report)
    (out : List UInt8) : Prop where
  button : ∀ i < 6, decode fields out (dialButton i) = some
    ((((Transducer.mostRecent isPad (before ++ [x])).elim 0 padButtons).toNat.testBit i).toNat : ℤ)
  dial : decode fields out (dialButton 6) = some
    (((Transducer.mostRecent isDial (before ++ [x])).any fun d => byte d.data 1 != 0).toNat : ℤ)
  still : isPad x → decode fields out wheelUsage = some 0
  turned : isDial x → decode fields out wheelUsage = some (dialValue x.data).toUInt8.toInt8.toInt

def vendorFields : List Field := arrayFields HuionDescriptors.Dial2.fixedRdescVendor
def padFields : List Field := arrayFields HuionDescriptors.Dial2.fixedRdescPad

variable {out : List UInt8}

theorem decodes_vendor {before : List Report} {x : Report} (h : isVendorPad x) :
    ∃ out, Dial2.dial2.output before x = some out ∧ DecodesVendor vendorFields
      (Transducer.mostRecent isVendorButton (before ++ [x])) x out := by
  obtain ⟨out, hout, hid, hbuttons, hone, hstill, hturned⟩ := sends_vendor h before
  have hhead : (out.headD 0).toNat = PAD_REPORT_ID.toNat := by rw [headD_byte, hid]
  have hwheel : decode vendorFields out wheelUsage = some (byte out 5).toInt8.toInt :=
    decode_signed_at hhead (by decide +kernel)
  have hpan : decode vendorFields out panUsage = some (byte out 6).toInt8.toInt :=
    decode_signed_at hhead (by decide +kernel)
  have hzero : (0 : UInt8).toInt8.toInt = 0 := by decide
  have hbutton : ∀ i < 8, vendorFields.find? (fun f => f.reportId == PAD_REPORT_ID.toNat &&
      f.usage == some (dialButton i)) =
      some ⟨PAD_REPORT_ID.toNat, 8 * 4 + i, 1, some (dialButton i), false⟩ := by decide +kernel
  refine ⟨out, hout, ?_, ?_, ?_, ?_, ?_⟩
  · have hdeclared : declaredLength vendorFields PAD_REPORT_ID.toNat = 7 := by decide +kernel
    rw [Transducer.output, step_vendor_pad h] at hout
    cases hout
    rw [hdeclared]
    rfl
  · intro i hi
    rw [decode_bit_at hhead hi (hbutton i hi), hbuttons]
  · rw [hwheel, hpan]
    exact hone.imp (fun h => by rw [h, hzero]) fun h => by rw [h, hzero]
  · intro hnot
    obtain ⟨hfirst, hsecond⟩ := hstill hnot
    rw [hwheel, hpan, hfirst, hsecond, hzero]
    exact ⟨rfl, rfl⟩
  · intro hturn n hn
    have hsent := hturned hturn n hn
    rw [dialUsage]
    split_ifs at hsent ⊢
    · rw [hwheel, hsent]
    · rw [hpan, hsent]

theorem testBit_masks : ∀ v : UInt8, (∀ i < 6, (v &&& 0x3f).toNat.testBit i = v.toNat.testBit i) ∧
    hasBits v 0x40 = v.toNat.testBit 6 := by
  decide +kernel

theorem decodes_default {before : List Report} {x : Report} (h : isPad x ∨ isDial x) :
    ∃ out, Dial2.dial2.output before x = some out ∧
      DecodesDefault padFields before x out := by
  obtain ⟨out, hout, hid, hbuttons, hpressed, -, hstill, hturned⟩ := sends_default h before
  have hhead : (out.headD 0).toNat = PAD_REPORT_ID.toNat := by rw [headD_byte, hid]
  have hwheel : decode padFields out wheelUsage = some (byte out 4).toInt8.toInt :=
    decode_signed_at hhead (by decide +kernel)
  have hbutton : ∀ i < 7, padFields.find? (fun f => f.reportId == PAD_REPORT_ID.toNat &&
      f.usage == some (dialButton i)) =
      some ⟨PAD_REPORT_ID.toNat, 8 * 5 + i, 1, some (dialButton i), false⟩ := by decide +kernel
  obtain ⟨hlow, hhigh⟩ := testBit_masks (byte out 5)
  refine ⟨out, hout, ?_, ?_, ?_, ?_⟩
  · intro i hi
    rw [decode_bit_at hhead (by omega) (hbutton i (by omega)), ← hlow i hi, hbuttons]
  · have hdial : hasBits (byte out 5) 0x40 =
        (Transducer.mostRecent isDial (before ++ [x])).any fun d => byte d.data 1 != 0 := by
      rw [Bool.eq_iff_iff, hpressed, Option.any_eq_true]
      simp only [bne_iff_ne]
    rw [decode_bit_at hhead (by decide) (hbutton 6 (by decide)), ← hhigh, hdial]
  · intro hpad
    rw [hwheel, hstill hpad]
    rfl
  · intro hdial
    have hsent : byte out 4 = (dialValue x.data).toUInt8 := by
      apply UInt8.toNat_inj.mp
      rw [hturned hdial, UInt16.toNat_toUInt8]
    rw [hwheel, hsent]

/-- Whether the tablet has been switched to vendor mode or not, one of its nodes shows buttons and
dials as it reports them. -/
theorem dial2_decodes (firmwareId : Bytes) (b : Buffer) :
    (b.size = HuionNodes.dial2.vendorLength → ∃ fields,
      reportFields (b.parsed (HuionNodes.dial2.fixRdesc firmwareId b)) = some fields ∧
        (fields.Pairwise fun f g => ¬ Overlap f g) ∧
        ∀ before x, isVendorPad x → ∃ out, Dial2.dial2.output before x = some out ∧
          DecodesVendor fields (Transducer.mostRecent isVendorButton (before ++ [x])) x out) ∧
    (b.size = 148 → ¬ matchesString firmwareId
        HuionNodes.dial2.expectedFirmwareId → ∃ fields,
      reportFields (b.parsed (HuionNodes.dial2.fixRdesc firmwareId b)) = some fields ∧
        (fields.Pairwise fun f g => ¬ Overlap f g) ∧
        ∀ before x, isPad x ∨ isDial x → ∃ out, Dial2.dial2.output before x = some out ∧
          DecodesDefault fields before x out) := by
  have hsettles := fixRdesc_settles HuionNodes.dial2 firmwareId b
  constructor
  · intro hsize
    obtain ⟨hfields, hdisjoint⟩ := fields_of_node (hsettles.vendor hsize)
    exact ⟨_, hfields, hdisjoint, fun before x => decodes_vendor⟩
  · intro hsize hother
    obtain ⟨hfields, hdisjoint⟩ := fields_of_node (hsettles.fixed hother _ (.head _) hsize)
    exact ⟨_, hfields, hdisjoint, fun before x => decodes_default⟩

theorem dial2_decodes_turn : ∃ fields out,
    reportFields (vendorNode.parsed (HuionNodes.dial2.fixRdesc [] vendorNode)) = some fields ∧
      Dial2.dial2.output [] turnsDown = some out ∧ decode fields out wheelUsage = some (-1) := by
  obtain ⟨fields, hfields, -, hpads⟩ := (dial2_decodes [] vendorNode).1 rfl
  obtain ⟨out, hout, hdecodes⟩ := hpads [] turnsDown (by decide)
  exact ⟨fields, out, hfields, hout, hdecodes.turned (by decide) (-1) rfl⟩

end Dial2

end HuionPads
