import UdevHidBpf.H610Pro

/-! # The report descriptors of the Huion tablets

Every program has an array for each node. The Inspiroy 2 programs and the Dial 2 share the
start of the pad and the pen. -/
namespace HuionDescriptors

open FixedDescriptors KamvasPen ReportMacros

/-- `static const __u8 name[] = …` -/
structure RdescArray where
  rdesc : Rdesc
  noWideUnit : rdesc.NoWideUnit
  bytes : List UInt8
  encoded : rdesc.bytes = some bytes
  ne_nil : bytes ≠ []

instance decidableNoWideUnit : (r : Rdesc) → Decidable r.NoWideUnit
  | .empty | .usagePageVendor _ => isTrue trivial
  | .item m _ => inferInstanceAs (Decidable ¬ isWideUnit m)
  | .seq first rest =>
    have := decidableNoWideUnit first
    have := decidableNoWideUnit rest
    inferInstanceAs (Decidable (_ ∧ _))
  | .collection _ body => decidableNoWideUnit body
  | .pushPop body => decidableNoWideUnit body

/-- An array of the source; that it compiles is checked here. -/
def rdescArray (r : Rdesc) (h : r.NoWideUnit ∧ r.bytes.isSome ∧ r.bytes ≠ some []) :
    RdescArray where
  rdesc := r
  noWideUnit := h.1
  bytes := r.bytes.get h.2.1
  encoded := (Option.some_get h.2.1).symm
  ne_nil hnil := h.2.2 (hnil ▸ (Option.some_get h.2.1).symm)

def Arr : ℕ := 0x0

/-! Ids and lengths that the programs agree on. -/

def PAD_REPORT_ID : ℕ := 3
def PEN_REPORT_ID : ℕ := 10
def VENDOR_REPORT_ID : ℕ := 8
def PEN_REPORT_LENGTH : ℕ := 10
def VENDOR_REPORT_LENGTH : ℕ := 12

def tabletPad (reportId : ℕ) (buttons : List Rdesc) (rest : List Rdesc) : Rdesc := rdesc [
  generatedUsagePage HidUsagePage_GenericDesktop,
  generatedUsage HidUsage_GD_Keypad,
  collectionApplication (rdesc ([
    .item .reportId reportId,
    .item .logicalMinimum_i8 0,
    .item .logicalMaximum_i8 1,
    generatedUsagePage HidUsagePage_Digitizers,
    generatedUsage HidUsage_Dig_TabletFunctionKeys,
    collectionPhysical (rdesc (H610Pro.padFields ++ buttons))] ++ rest))]

def wheel : List Rdesc := [
  generatedUsage HidUsage_GD_Wheel,
  .item .logicalMinimum_i8 (-1),
  .item .logicalMaximum_i8 1,
  .item .reportCount 1,
  .item .reportSize 8,
  input (Var ||| KamvasPen.Rel)]

def buttonBits (count : ℤ) : List Rdesc := [
  generatedUsagePage HidUsagePage_Button,
  .item .usageMinimum_i8 0x1,
  .item .usageMaximum_i8 count,
  .item .logicalMinimum_i8 0x0,
  .item .logicalMaximum_i8 0x1,
  .item .reportCount count,
  .item .reportSize 1,
  input (Var ||| Abs)]

def padding (count : ℤ) : List Rdesc := [.item .reportCount count, input Const]

def defaultPen (reportId : ℕ) (width height : ℤ) (rest : List Rdesc) : Rdesc := rdesc [
  generatedUsagePage HidUsagePage_Digitizers,
  generatedUsage HidUsage_Dig_Pen,
  collectionApplication (rdesc [
    .item .reportId reportId,
    generatedUsage HidUsage_Dig_Pen,
    collectionPhysical (rdesc ([
      generatedUsage HidUsage_Dig_TipSwitch,
      generatedUsage HidUsage_Dig_BarrelSwitch,
      generatedUsage HidUsage_Dig_SecondaryBarrelSwitch,
      .item .logicalMinimum_i8 0,
      .item .logicalMaximum_i8 1,
      .item .reportSize 1,
      .item .reportCount 3,
      input (Var ||| Abs),
      .item .reportCount 4,
      input Const,
      generatedUsage HidUsage_Dig_InRange,
      .item .reportCount 1,
      input (Var ||| Abs),
      .item .reportSize 16,
      .item .reportCount 1,
      .pushPop (rdesc [
        generatedUsagePage HidUsagePage_GenericDesktop,
        unit cm,
        .item .unitExponent (-1),
        .item .physicalMinimum_i16 0,
        .item .physicalMaximum_i16 width,
        .item .logicalMinimum_i16 0,
        .item .logicalMaximum_i16 32767,
        generatedUsage HidUsage_GD_X,
        input (Var ||| Abs),
        .item .physicalMinimum_i16 0,
        .item .physicalMaximum_i16 height,
        .item .logicalMinimum_i16 0,
        .item .logicalMaximum_i16 32767,
        generatedUsage HidUsage_GD_Y,
        input (Var ||| Abs)]),
      generatedUsagePage HidUsagePage_Digitizers,
      generatedUsage HidUsage_Dig_TipPressure,
      .item .logicalMinimum_i16 0,
      .item .logicalMaximum_i16 8191,
      input (Var ||| Abs)] ++ rest))])]

def vendorPen (reportId : ℕ) (logicalX width logicalY height pressure : ℤ) (rest : List Rdesc) :
    Rdesc := rdesc [
  generatedUsagePage HidUsagePage_Digitizers,
  generatedUsage HidUsage_Dig_Pen,
  collectionApplication (rdesc [
    .item .reportId reportId,
    generatedUsage HidUsage_Dig_Pen,
    collectionPhysical (rdesc ([
      .item .logicalMinimum_i8 0,
      .item .logicalMaximum_i8 1,
      .item .reportSize 1,
      generatedUsage HidUsage_Dig_TipSwitch,
      generatedUsage HidUsage_Dig_BarrelSwitch,
      generatedUsage HidUsage_Dig_SecondaryBarrelSwitch,
      .item .reportCount 3,
      input (Var ||| Abs),
      .item .reportCount 4,
      input Const,
      generatedUsage HidUsage_Dig_InRange,
      .item .reportCount 1,
      input (Var ||| Abs),
      .item .reportSize 16,
      .item .reportCount 1,
      .pushPop (rdesc [
        generatedUsagePage HidUsagePage_GenericDesktop,
        unit cm,
        .item .unitExponent (-1),
        .item .logicalMinimum_i16 0,
        .item .logicalMaximum_i16 logicalX,
        .item .physicalMinimum_i16 0,
        .item .physicalMaximum_i16 width,
        generatedUsage HidUsage_GD_X,
        input (Var ||| Abs),
        .item .logicalMinimum_i16 0,
        .item .logicalMaximum_i16 logicalY,
        .item .physicalMinimum_i16 0,
        .item .physicalMaximum_i16 height,
        generatedUsage HidUsage_GD_Y,
        input (Var ||| Abs)]),
      .item .logicalMinimum_i16 0,
      .item .logicalMaximum_i16 pressure,
      generatedUsage HidUsage_Dig_TipPressure,
      input (Var ||| Abs)] ++ rest))])]

def silentReports (lengths : List ℕ) : Rdesc :=
  rdesc (lengths.map fun bytes => fixedSizeVendorReport bytes)

def inspiroyPad (buttons : ℤ) : Rdesc := tabletPad PAD_REPORT_ID (wheel ++ [
  generatedUsagePage HidUsagePage_Button,
  .item .usageMinimum_i8 0x1,
  .item .usageMaximum_i8 buttons,
  .item .logicalMinimum_i8 0x1,
  .item .logicalMaximum_i8 buttons,
  .item .reportCount 1,
  .item .reportSize 8,
  input (Arr ||| Abs)]) [fixedSizeVendorReport 8]

def inspiroyPen : Rdesc :=
  defaultPen PEN_REPORT_ID 160 100 [.item .reportSize 8, .item .reportCount 2, input Const]

def inspiroyVendor (buttons : List Rdesc) : Rdesc :=
  .seq (vendorPen VENDOR_REPORT_ID 32000 160 20000 100 8192 [])
    (tabletPad PAD_REPORT_ID (buttons ++ generatedUsagePage HidUsagePage_GenericDesktop :: wheel)
      [fixedSizeVendorReport VENDOR_REPORT_LENGTH])

namespace Inspiroy2M

def fixedRdescPad : RdescArray := rdescArray (inspiroyPad 8) (by decide +kernel)
def fixedRdescPen : RdescArray := rdescArray inspiroyPen (by decide +kernel)

/-- Ten buttons, and one that is to become another code. -/
def fixedRdescVendor : RdescArray := rdescArray (inspiroyVendor (buttonBits 10 ++ [
  .item .usage_i8 0x31,
  .item .reportCount 1,
  input (Var ||| Abs)] ++ padding 5)) (by decide +kernel)

def disabledRdescPen : RdescArray :=
  rdescArray (silentReports [PEN_REPORT_LENGTH]) (by decide +kernel)
def disabledRdescPad : RdescArray := rdescArray (silentReports [8]) (by decide +kernel)

end Inspiroy2M

namespace Inspiroy2S

def fixedRdescPad : RdescArray := rdescArray (inspiroyPad 6) (by decide +kernel)
def fixedRdescPen : RdescArray := rdescArray inspiroyPen (by decide +kernel)
def fixedRdescVendor : RdescArray :=
  rdescArray (inspiroyVendor (buttonBits 6 ++ padding 2)) (by decide +kernel)
def disabledRdescPen : RdescArray :=
  rdescArray (silentReports [PEN_REPORT_LENGTH]) (by decide +kernel)
def disabledRdescPad : RdescArray := rdescArray (silentReports [8]) (by decide +kernel)

end Inspiroy2S

namespace Dial2

def fixedRdescPad : RdescArray := rdescArray (rdesc [
  generatedUsagePage HidUsagePage_GenericDesktop,
  generatedUsage HidUsage_GD_Keypad,
  collectionApplication (rdesc [
    .item .reportId PAD_REPORT_ID,
    .item .logicalMaximum_i8 0,
    .item .logicalMaximum_i8 1,
    generatedUsagePage HidUsagePage_Digitizers,
    generatedUsage HidUsage_Dig_TabletFunctionKeys,
    collectionPhysical (rdesc (H610Pro.padFields ++ wheel ++ [
      generatedUsagePage HidUsagePage_Button,
      .item .usageMinimum_i8 0x01,
      .item .usageMaximum_i8 0x08,
      .item .logicalMinimum_i8 0x0,
      .item .logicalMaximum_i8 0x1,
      .item .reportCount 7,
      .item .reportSize 1,
      input (Var ||| Abs)] ++ padding 1)),
    fixedSizeVendorReport 9])]) (by decide +kernel)

def fixedRdescPen : RdescArray := rdescArray (defaultPen PEN_REPORT_ID 266 166 [
  .item .reportSize 8,
  .item .reportCount 2,
  .item .logicalMinimum_i8 (-60),
  .item .logicalMaximum_i8 60,
  generatedUsage HidUsage_Dig_XTilt,
  generatedUsage HidUsage_Dig_YTilt,
  input (Var ||| Abs)]) (by decide +kernel)

def fixedRdescVendor : RdescArray := rdescArray (.seq
  (vendorPen VENDOR_REPORT_ID 53340 266 33340 166 8191 (padding 1 ++ [
    .item .logicalMinimum_i8 (-60),
    .item .logicalMaximum_i8 60,
    generatedUsage HidUsage_Dig_XTilt,
    generatedUsage HidUsage_Dig_YTilt,
    .item .reportSize 8,
    .item .reportCount 2,
    input (Var ||| Abs)]))
  (tabletPad PAD_REPORT_ID
    (buttonBits 8 ++ generatedUsagePage HidUsagePage_GenericDesktop :: wheel ++ [
      generatedUsagePage HidUsagePage_Consumer,
      generatedUsage HidUsage_Con_ACPan,
      input (Var ||| KamvasPen.Rel)])
    [fixedSizeVendorReport VENDOR_REPORT_LENGTH])) (by decide +kernel)

def disabledRdescPen : RdescArray :=
  rdescArray (silentReports [PEN_REPORT_LENGTH]) (by decide +kernel)
def disabledRdescPad : RdescArray := rdescArray (silentReports [9]) (by decide +kernel)

end Dial2

namespace KeydialK20

def keydialPad (rest : List Rdesc) : Rdesc := rdesc [
  generatedUsagePage HidUsagePage_GenericDesktop,
  generatedUsage HidUsage_GD_Keypad,
  collectionApplication (rdesc ([
    .item .reportId VENDOR_REPORT_ID,
    generatedUsagePage HidUsagePage_Digitizers,
    generatedUsage HidUsage_Dig_TabletFunctionKeys,
    collectionPhysical (rdesc ([
      generatedUsage HidUsage_Dig_BarrelSwitch,
      .item .reportCount 1,
      .item .reportSize 1,
      input (Var ||| Abs),
      .item .reportCount 7,
      input Const,
      generatedUsagePage HidUsagePage_GenericDesktop,
      generatedUsage HidUsage_GD_X,
      generatedUsage HidUsage_GD_Y,
      .item .logicalMinimum_i8 0x0,
      .item .logicalMaximum_i8 0x1,
      .item .reportCount 2,
      .item .reportSize 8,
      input (Var ||| Abs)] ++ buttonBits 10 ++ [
      .item .usageMinimum_i8 0x31,
      .item .usageMaximum_i8 0x3a,
      .item .reportCount 9,
      .item .reportSize 1,
      input (Var ||| Abs),
      .item .reportCount 13,
      .item .reportSize 1,
      input Const] ++ generatedUsagePage HidUsagePage_GenericDesktop :: wheel))] ++ rest))]

def disabledRdescPuck : RdescArray := rdescArray (silentReports [9]) (by decide +kernel)
def disabledRdescPad : RdescArray := rdescArray (silentReports [8, 3, 7]) (by decide +kernel)
def fixedRdescVendor : RdescArray :=
  rdescArray (keydialPad [fixedSizeVendorReport VENDOR_REPORT_LENGTH]) (by decide +kernel)
def fixedRdescPad : RdescArray := rdescArray (keydialPad
  [fixedSizeVendorReport 8, fixedSizeVendorReport 3, fixedSizeVendorReport 7]) (by decide +kernel)

end KeydialK20

namespace Kamvas13

def fixedRdescVendor : RdescArray := rdescArray (rdesc [
  generatedUsagePage HidUsagePage_Digitizers,
  generatedUsage HidUsage_Dig_Pen,
  collectionApplication (rdesc [
    .item .reportId KamvasGen3.VENDOR_REPORT_ID.toNat,
    generatedUsagePage HidUsagePage_Digitizers,
    generatedUsage HidUsage_Dig_Pen,
    collectionPhysical (rdesc [
      .item .reportSize 1,
      .item .logicalMinimum_i8 0,
      .item .logicalMaximum_i8 1,
      .item .reportCount 3,
      generatedUsage HidUsage_Dig_TipSwitch,
      generatedUsage HidUsage_Dig_BarrelSwitch,
      generatedUsage HidUsage_Dig_SecondaryBarrelSwitch,
      input (Var ||| Abs),
      .pushPop (rdesc [
        .item .reportCount 1,
        generatedUsagePage HidUsagePage_Button,
        .item .usage_i8 0x4a,
        input (Var ||| Abs)]),
      .item .reportCount 3,
      input Const,
      .item .reportCount 1,
      generatedUsage HidUsage_Dig_InRange,
      input (Var ||| Abs),
      .item .reportSize 16,
      .item .reportCount 1,
      .pushPop (rdesc [
        generatedUsagePage HidUsagePage_GenericDesktop,
        unit cm,
        .item .unitExponent (-2),
        .item .logicalMinimum_i16 0,
        .item .physicalMinimum_i16 0,
        .item .logicalMaximum_i16 58760,
        .item .physicalMaximum_i16 2938,
        generatedUsage HidUsage_GD_X,
        input (Var ||| Abs),
        .item .logicalMaximum_i16 33040,
        .item .physicalMaximum_i16 1652,
        generatedUsage HidUsage_GD_Y,
        input (Var ||| Abs)]),
      .item .logicalMinimum_i16 0,
      .item .logicalMaximum_i16 16383,
      generatedUsage HidUsage_Dig_TipPressure,
      input (Var ||| Abs),
      .item .reportCount 1,
      input Const,
      .item .reportSize 8,
      .item .reportCount 2,
      .pushPop (rdesc [
        unit deg,
        .item .unitExponent 0,
        .item .logicalMinimum_i8 (-60),
        .item .physicalMinimum_i8 (-60),
        .item .logicalMaximum_i8 60,
        .item .physicalMaximum_i8 60,
        generatedUsage HidUsage_Dig_XTilt,
        generatedUsage HidUsage_Dig_YTilt,
        input (Var ||| Abs)])])]),
  generatedUsagePage HidUsagePage_GenericDesktop,
  generatedUsage HidUsage_GD_Keypad,
  collectionApplication (rdesc [
    .item .reportId KamvasGen3.CUSTOM_PAD_REPORT_ID.toNat,
    .item .logicalMinimum_i8 0,
    .item .logicalMaximum_i8 1,
    generatedUsagePage HidUsagePage_Digitizers,
    generatedUsage HidUsage_Dig_TabletFunctionKeys,
    collectionPhysical (rdesc [
      .item .reportSize 1,
      .item .reportCount 1,
      generatedUsage HidUsage_Dig_BarrelSwitch,
      input (Var ||| Abs),
      .item .reportCount 7,
      input Const,
      .item .reportSize 8,
      .item .reportCount 2,
      generatedUsagePage HidUsagePage_GenericDesktop,
      generatedUsage HidUsage_GD_X,
      generatedUsage HidUsage_GD_Y,
      input (Var ||| Abs),
      .item .reportSize 1,
      .item .reportCount 7,
      generatedUsagePage HidUsagePage_Button,
      .item .usageMinimum_i8 1,
      .item .usageMaximum_i8 7,
      input (Var ||| Abs),
      .item .reportCount 1,
      input Const,
      .item .reportSize 8,
      .item .reportCount 1,
      generatedUsagePage HidUsagePage_GenericDesktop,
      generatedUsage HidUsage_GD_Wheel,
      .item .logicalMinimum_i8 (-1),
      .item .logicalMaximum_i8 1,
      input (Var ||| KamvasPen.Rel),
      generatedUsagePage HidUsagePage_Consumer,
      generatedUsage HidUsage_Con_ACPan,
      input (Var ||| KamvasPen.Rel)]),
    fixedSizeVendorReport KamvasGen3.VENDOR_REPORT_LENGTH])]) (by decide +kernel)

def disabledRdescTablet : RdescArray := rdescArray (silentReports [28]) (by decide +kernel)
def disabledRdescWheel : RdescArray := rdescArray (silentReports [9]) (by decide +kernel)

end Kamvas13

namespace Kamvas16

def fixedRdescVendor : RdescArray := rdescArray KamvasPen.fixedRdescVendor (by decide +kernel)
def disabledRdescTablet : RdescArray := rdescArray (silentReports [28]) (by decide +kernel)
def disabledRdescWheel : RdescArray := rdescArray (silentReports [9]) (by decide +kernel)

end Kamvas16

end HuionDescriptors
