import UdevHidBpf.BpfErrors
import UdevHidBpf.FixedDescriptors
import UdevHidBpf.HuionFirmware

/-! # The Huion H610 Pro

Many tablets share the product id, so the probe looks at the firmware id and at the magic bytes:
the answer of the tablet to a query of its parameters, as hexadecimal text. -/
namespace H610Pro

open BpfErrors (EINVAL)
open ListSplice UdevProperties UdevInjection HuionFirmware
open Transducers DeviceEvents KamvasPen FixedDescriptors ReportFields ReportMacros ShortItems

/-- `"HVAN"` -/
def EXPECTED_FIRMWARE_ID : Bytes := [0x48, 0x56, 0x41, 0x4e]
def EXPECTED_X_LOGICAL_MAX : ℤ := 40000
def X_LOGICAL_MAX_IDX : ℕ := 4
def EXPECTED_Y_LOGICAL_MAX : ℤ := 25000
def Y_LOGICAL_MAX_IDX : ℕ := 8
def EXPECTED_PRESSURE_LOGICAL_MAX : ℤ := 2047
def PRESSURE_LOGICAL_MAX_IDX : ℕ := 16
def EXPECTED_RESOLUTION : ℤ := 4000
def RESOLUTION_IDX : ℕ := 20

def PAD_REPORT_DESCRIPTOR_LENGTH : ℕ := 92
def PEN_REPORT_DESCRIPTOR_LENGTH : ℕ := 244
def VENDOR_REPORT_DESCRIPTOR_LENGTH : ℕ := 179
def PAD_REPORT_ID : UInt8 := 10
def VENDOR_REPORT_ID : UInt8 := 7
def PAD_REPORT_LENGTH : ℕ := 8
def PEN_REPORT_LENGTH : ℕ := 8

def HidUsage_Dig_Digitizer : ℕ := 0x01

/-- `__builtin_bswap16` of the low half of a `long`. -/
def bswap16 (res : ℤ) : ℤ := res % 0x100 * 0x100 + res / 0x100 % 0x100

/-- `bpf_strtol` with base 16: the value, or a negative error. -/
abbrev Strtol := Bytes → Except ℤ ℤ

def magicBytesToU16 (bpfStrtol : Strtol) (data : Bytes) : ℤ :=
  match bpfStrtol (data.take 4) with
  | .error ret => ret
  | .ok res => bswap16 res

/-- `probe` on the two variables, up to `ctx->retval`. -/
def probe (bpfStrtol : Strtol) (firmwareId magicBytes : Bytes) (rdescSize : ℕ) : ℤ :=
  let haveFwId := matchesString firmwareId EXPECTED_FIRMWARE_ID
  let xLmax := magicBytesToU16 bpfStrtol (magicBytes.drop X_LOGICAL_MAX_IDX)
  let yLmax := magicBytesToU16 bpfStrtol (magicBytes.drop Y_LOGICAL_MAX_IDX)
  let pressureLmax := magicBytesToU16 bpfStrtol (magicBytes.drop PRESSURE_LOGICAL_MAX_IDX)
  let resolution := magicBytesToU16 bpfStrtol (magicBytes.drop RESOLUTION_IDX)
  if !haveFwId ∨ xLmax ≠ EXPECTED_X_LOGICAL_MAX ∨ yLmax ≠ EXPECTED_Y_LOGICAL_MAX ∨
      pressureLmax ≠ EXPECTED_PRESSURE_LOGICAL_MAX ∨ resolution ≠ EXPECTED_RESOLUTION then -EINVAL
  else if rdescSize = PAD_REPORT_DESCRIPTOR_LENGTH ∨ rdescSize = PEN_REPORT_DESCRIPTOR_LENGTH ∨
      rdescSize = VENDOR_REPORT_DESCRIPTOR_LENGTH then 0
  else -EINVAL

def hexValue (c : UInt8) : Option ℕ :=
  if 0x30 ≤ c ∧ c ≤ 0x39 then some (c.toNat - 0x30)
  else if 0x41 ≤ c ∧ c ≤ 0x46 then some (c.toNat - 0x37)
  else if 0x61 ≤ c ∧ c ≤ 0x66 then some (c.toNat - 0x57)
  else none

/-- What the documentation of the helper says. -/
structure Documented (bpfStrtol : Strtol) : Prop where
  digits : ∀ {a b c d : UInt8} {i j k l : ℕ}, hexValue a = some i → hexValue b = some j →
    hexValue c = some k → hexValue d = some l →
      bpfStrtol [a, b, c, d] = .ok (((i * 16 + j) * 16 + k) * 16 + l : ℕ)
  noDigits : ∀ buf, (∀ c ∈ buf, hexValue c = none) → ∃ ret < 0, bpfStrtol buf = .error ret

def spelled : Bytes → Option Bytes
  | [] => some []
  | [_] => none
  | a :: b :: text => do
    let i ← hexValue a
    let j ← hexValue b
    let answer ← spelled text
    some (UInt8.ofNat (i * 16 + j) :: answer)

def word (answer : Bytes) (i : ℕ) : ℕ := (byte answer i).toNat + 256 * (byte answer (i + 1)).toNat

/-- What the tablet has to answer. -/
structure Expected (answer : Bytes) : Prop where
  x : word answer 2 = 40000
  y : word answer 4 = 25000
  pressure : word answer 8 = 2047
  resolution : word answer 10 = 4000

theorem hexValue_lt {c : UInt8} {i : ℕ} (h : hexValue c = some i) : i < 16 := by
  have hall : ∀ c : UInt8, ∀ i ∈ hexValue c, i < 16 := by decide +kernel
  exact hall c i h

theorem spelled_cons {a b : UInt8} {text answer : Bytes}
    (h : spelled (a :: b :: text) = some answer) :
    ∃ i j rest, hexValue a = some i ∧ hexValue b = some j ∧ spelled text = some rest ∧
      answer = UInt8.ofNat (i * 16 + j) :: rest := by
  rw [spelled] at h
  obtain ⟨i, hi, h⟩ := Option.bind_eq_some_iff.mp h
  obtain ⟨j, hj, h⟩ := Option.bind_eq_some_iff.mp h
  obtain ⟨rest, hrest, h⟩ := Option.bind_eq_some_iff.mp h
  cases h
  exact ⟨i, j, rest, hi, hj, hrest, rfl⟩

theorem length_spelled {text answer : Bytes} (h : spelled text = some answer) :
    text.length = 2 * answer.length := by
  induction text using spelled.induct generalizing answer with
  | case1 =>
    cases h
    rfl
  | case2 c => cases h
  | case3 a b text ih =>
    obtain ⟨i, j, rest, -, -, hrest, rfl⟩ := spelled_cons h
    have hlen := ih hrest
    rw [List.length_cons, List.length_cons, List.length_cons, hlen]
    omega

theorem spelled_drop {text answer : Bytes} (h : spelled text = some answer) (n : ℕ) :
    spelled (text.drop (2 * n)) = some (answer.drop n) := by
  induction n generalizing text answer with
  | zero => exact h
  | succ n ih =>
    match text, h with
    | [], h =>
      cases h
      rfl
    | [_], h => cases h
    | a :: b :: text, h =>
      obtain ⟨i, j, rest, -, -, hrest, rfl⟩ := spelled_cons h
      exact ih hrest

section strtol

variable {bpfStrtol : Strtol}

/-- The digits come high nibble first and low byte first. -/
theorem magic_word (hdoc : Documented bpfStrtol) {text answer : Bytes} {n : ℕ}
    (h : spelled text = some answer) (hn : n + 1 < answer.length) (rest : Bytes) :
    magicBytesToU16 bpfStrtol ((text ++ rest).drop (2 * n)) = word answer n := by
  have hlen := length_spelled h
  have hdrop := spelled_drop h n
  rw [List.drop_append_of_le_length (by omega)]
  match htext : text.drop (2 * n), hdrop with
  | [], _ | [_], _ | [_, _], _ | [_, _, _], _ =>
    have hshort := congrArg List.length htext
    simp only [List.length_drop, List.length_cons, List.length_nil] at hshort
    omega
  | a :: b :: c :: d :: more, hdrop =>
    obtain ⟨i, j, tail, hi, hj, htail, hanswer⟩ := spelled_cons hdrop
    obtain ⟨k, l, last, hk, hl, -, rfl⟩ := spelled_cons htail
    have hlow : byte answer n = UInt8.ofNat (i * 16 + j) := by
      have hat := congrArg (·.getD 0 0) hanswer
      simpa [byte, List.getD_eq_getElem?_getD] using hat
    have hhigh : byte answer (n + 1) = UInt8.ofNat (k * 16 + l) := by
      have hat := congrArg (·.getD 1 0) hanswer
      simpa [byte, List.getD_eq_getElem?_getD] using hat
    have h16 := And.intro (hexValue_lt hi) (And.intro (hexValue_lt hj)
      (And.intro (hexValue_lt hk) (hexValue_lt hl)))
    have hread : (a :: b :: c :: d :: more ++ rest).take 4 = [a, b, c, d] := rfl
    rw [magicBytesToU16, hread, hdoc.digits hi hj hk hl, word, hlow, hhigh,
      UInt8.toNat_ofNat_of_lt' (by rw [UInt8.size]; omega),
      UInt8.toNat_ofNat_of_lt' (by rw [UInt8.size]; omega)]
    simp only [bswap16]
    omega

theorem magic_zeros (hdoc : Documented bpfStrtol) (size n : ℕ) :
    magicBytesToU16 bpfStrtol ((List.replicate size 0).drop n) < 0 := by
  obtain ⟨ret, hneg, hret⟩ := hdoc.noDigits (((List.replicate size 0).drop n).take 4) (by
    intro c hc
    rw [List.drop_replicate, List.take_replicate] at hc
    rw [List.eq_of_mem_replicate hc]
    rfl)
  rw [magicBytesToU16, hret]
  exact hneg

theorem probe_eq_zero (firmwareId magicBytes : Bytes) (rdescSize : ℕ) :
    probe bpfStrtol firmwareId magicBytes rdescSize = 0 ↔
      matchesString firmwareId EXPECTED_FIRMWARE_ID ∧
      magicBytesToU16 bpfStrtol (magicBytes.drop X_LOGICAL_MAX_IDX) = EXPECTED_X_LOGICAL_MAX ∧
      magicBytesToU16 bpfStrtol (magicBytes.drop Y_LOGICAL_MAX_IDX) = EXPECTED_Y_LOGICAL_MAX ∧
      magicBytesToU16 bpfStrtol (magicBytes.drop PRESSURE_LOGICAL_MAX_IDX) =
        EXPECTED_PRESSURE_LOGICAL_MAX ∧
      magicBytesToU16 bpfStrtol (magicBytes.drop RESOLUTION_IDX) = EXPECTED_RESOLUTION ∧
      rdescSize ∈ [PAD_REPORT_DESCRIPTOR_LENGTH, PEN_REPORT_DESCRIPTOR_LENGTH,
        VENDOR_REPORT_DESCRIPTOR_LENGTH] := by
  have hinval : -(EINVAL : ℤ) ≠ 0 := by decide
  simp only [probe, List.mem_cons, List.not_mem_nil, or_false]
  split_ifs with hwrong hsize
  · refine iff_of_false hinval ?_
    rintro ⟨hid, hx, hy, hpressure, hresolution, -⟩
    simp [hid, hx, hy, hpressure, hresolution] at hwrong
  · push Not at hwrong
    obtain ⟨hid, hx, hy, hpressure, hresolution⟩ := hwrong
    exact iff_of_true rfl ⟨by simpa using hid, hx, hy, hpressure, hresolution, hsize⟩
  · exact iff_of_false hinval fun h => hsize h.2.2.2.2.2

end strtol

def KnownId (value : Option Bytes) : Prop :=
  ∃ id, value = some id ∧ id.length < 64 ∧ EXPECTED_FIRMWARE_ID <+: id

/-- On any device and with any properties on the command line the program is accepted only with
both properties, and then exactly where the tablet has given the expected answer. -/
theorem probe_accepts {bpfStrtol : Strtol} (hdoc : Documented bpfStrtol) {maps : List LoadedMap}
    {vars : List VariableMetadata} {i len idOffset magicOffset : ℕ} {m : LoadedMap}
    (hi : maps[i]? = some m) (hbss : endsWith m.name ".bss")
    (helems : m.elems = [List.replicate len 0])
    (hplaced : ∀ m ∈ maps, endsWith m.name ".bss" → ∀ d ∈ m.elems, Placed vars d.length)
    (hid : ⟨"HUION_FIRMWARE_ID", idOffset, 64⟩ ∈ vars)
    (hmagic : ⟨"HUION_MAGIC_BYTES", magicOffset, 64⟩ ∈ vars)
    (device extraProps : List HidUdevProperty) (rdescSize : ℕ) :
    ∃ maps' m' d, injectUdevProperties maps ⟨vars, [], []⟩ device extraProps = some maps' ∧
      maps'[i]? = some m' ∧ m'.elems = [d] ∧
      (probe bpfStrtol (slice d idOffset 64) (slice d magicOffset 64) rdescSize = 0 →
        KnownId (propertyValue device extraProps "HUION_FIRMWARE_ID") ∧
        ∃ text, propertyValue device extraProps "HUION_MAGIC_BYTES" = some text ∧
          text.length < 64) ∧
      ∀ text answer, propertyValue device extraProps "HUION_MAGIC_BYTES" = some text →
        text.length < 64 → spelled text = some answer → 12 ≤ answer.length →
        (probe bpfStrtol (slice d idOffset 64) (slice d magicOffset 64) rdescSize = 0 ↔
          KnownId (propertyValue device extraProps "HUION_FIRMWARE_ID") ∧ Expected answer ∧
          rdescSize ∈ [PAD_REPORT_DESCRIPTOR_LENGTH, PEN_REPORT_DESCRIPTOR_LENGTH,
            VENDOR_REPORT_DESCRIPTOR_LENGTH]) := by
  obtain ⟨maps', m', d, hmaps', hi', hd, hslices⟩ :=
    loaded_bss hi hbss helems hplaced device extraProps
  have hidSlice := hslices _ hid
  have hmagicSlice := hslices _ hmagic
  have hknown : matchesString (written 64 (propertyValue device extraProps "HUION_FIRMWARE_ID"))
      EXPECTED_FIRMWARE_ID ↔ KnownId (propertyValue device extraProps "HUION_FIRMWARE_ID") :=
    matches_written (by decide) (by decide) _
  refine ⟨maps', m', d, hmaps', hi', hd, ?_, ?_⟩
  · intro hprobe
    rw [hidSlice, hmagicSlice, probe_eq_zero] at hprobe
    refine ⟨hknown.mp hprobe.1, ?_⟩
    by_contra hno
    have hzeros : written 64 (propertyValue device extraProps "HUION_MAGIC_BYTES") =
        List.replicate 64 0 := by
      cases hvalue : propertyValue device extraProps "HUION_MAGIC_BYTES" with
      | none => rfl
      | some text => exact written_of_le (not_lt.mp fun hlt => hno ⟨text, hvalue, hlt⟩)
    have hneg := magic_zeros hdoc 64 X_LOGICAL_MAX_IDX
    rw [hzeros] at hprobe
    rw [hprobe.2.1] at hneg
    exact absurd hneg (by decide)
  · intro text answer hvalue hlt hspelled hlong
    have hx := magic_word hdoc hspelled (by omega : 2 + 1 < answer.length)
      (List.replicate (64 - text.length) 0)
    have hy := magic_word hdoc hspelled (by omega : 4 + 1 < answer.length)
      (List.replicate (64 - text.length) 0)
    have hpressure := magic_word hdoc hspelled (by omega : 8 + 1 < answer.length)
      (List.replicate (64 - text.length) 0)
    have hresolution := magic_word hdoc hspelled (by omega : 10 + 1 < answer.length)
      (List.replicate (64 - text.length) 0)
    rw [hidSlice, hmagicSlice, probe_eq_zero, hknown, hvalue, written_of_lt hlt,
      X_LOGICAL_MAX_IDX, Y_LOGICAL_MAX_IDX, PRESSURE_LOGICAL_MAX_IDX, RESOLUTION_IDX]
    simp only [Nat.reduceMul] at hx hy hpressure hresolution
    rw [hx, hy, hpressure, hresolution]
    constructor
    · rintro ⟨hid, hx, hy, hpressure, hresolution, hsize⟩
      exact ⟨hid, ⟨Int.ofNat.inj hx, Int.ofNat.inj hy, Int.ofNat.inj hpressure,
        Int.ofNat.inj hresolution⟩, hsize⟩
    · rintro ⟨hid, hexpected, hsize⟩
      rw [hexpected.x, hexpected.y, hexpected.pressure, hexpected.resolution]
      exact ⟨hid, rfl, rfl, rfl, rfl, hsize⟩

def leadingDigits (buf : Bytes) : Except ℤ ℤ :=
  match (buf.takeWhile fun c => (hexValue c).isSome).filterMap hexValue with
  | [] => .error (-EINVAL)
  | digits => .ok (digits.foldl (fun res digit => res * 16 + digit) 0 : ℕ)

theorem leadingDigits_documented : Documented leadingDigits where
  digits ha hb hc hd := by simp [leadingDigits, ha, hb, hc, hd]
  noDigits buf h := by
    refine ⟨-EINVAL, by decide, ?_⟩
    cases buf with
    | nil => rfl
    | cons c buf => simp [leadingDigits, h c List.mem_cons_self]

def hvanProperties : List HidUdevProperty :=
  [⟨"HUION_FIRMWARE_ID", "HVAN_M21a"⟩, ⟨"HUION_MAGIC_BYTES", "0e03409ca8610300ff07a00f0800"⟩]

theorem probe_accepts_hvan : ∃ maps' m' d,
    injectUdevProperties [⟨"h610_pro.bss", 128, [List.replicate 128 0]⟩]
        ⟨[⟨"HUION_FIRMWARE_ID", 0, 64⟩, ⟨"HUION_MAGIC_BYTES", 64, 64⟩], [], []⟩
        hvanProperties [] = some maps' ∧
      maps'[0]? = some m' ∧ m'.elems = [d] ∧
      probe leadingDigits (slice d 0 64) (slice d 64 64) 179 = 0 := by
  have hplaced : Placed [⟨"HUION_FIRMWARE_ID", 0, 64⟩, ⟨"HUION_MAGIC_BYTES", 64, 64⟩] 128 :=
    ⟨by decide, by decide⟩
  have hmaps : ∀ m ∈ [(⟨"h610_pro.bss", 128, [List.replicate 128 0]⟩ : LoadedMap)],
      endsWith m.name ".bss" → ∀ d ∈ m.elems,
        Placed [⟨"HUION_FIRMWARE_ID", 0, 64⟩, ⟨"HUION_MAGIC_BYTES", 64, 64⟩] d.length := by
    intro m hm _ d hd
    obtain rfl := List.mem_singleton.mp hm
    obtain rfl := List.mem_singleton.mp hd
    rw [List.length_replicate]
    exact hplaced
  obtain ⟨maps', m', d, hmaps', hi', hd, -, haccepts⟩ := probe_accepts leadingDigits_documented
    (i := 0) rfl (by decide) rfl hmaps (.head _) (.tail _ (.head _)) hvanProperties [] 179
  refine ⟨maps', m', d, hmaps', hi', hd, ?_⟩
  rw [haccepts (asBytes "0e03409ca8610300ff07a00f0800")
    [0x0e, 0x03, 0x40, 0x9c, 0xa8, 0x61, 0x03, 0x00, 0xff, 0x07, 0xa0, 0x0f, 0x08, 0x00]
    (by decide +kernel) (by decide +kernel) (by decide +kernel) (by decide)]
  refine ⟨⟨asBytes "HVAN_M21a", ?_, ?_, ?_⟩, ⟨?_, ?_, ?_, ?_⟩, ?_⟩ <;> decide +kernel

def stylusFields : List Rdesc := [
  .item .logicalMinimum_i8 0,
  .item .logicalMaximum_i8 1,
  .item .reportSize 1,
  generatedUsage HidUsage_Dig_TipSwitch,
  generatedUsage HidUsage_Dig_BarrelSwitch,
  generatedUsage HidUsage_Dig_SecondaryBarrelSwitch,
  .item .reportCount 3,
  input (Var ||| Abs),
  .item .reportCount 3,
  input Const,
  generatedUsage HidUsage_Dig_InRange,
  .item .reportCount 1,
  input (Var ||| Abs),
  .item .reportCount 1,
  input Const,
  .item .reportSize 16,
  .item .reportCount 1,
  .pushPop (rdesc [
    generatedUsagePage HidUsagePage_GenericDesktop,
    unit inch,
    .item .unitExponent (-3),
    .item .logicalMinimum_i16 0,
    .item .logicalMaximum_i16 40000,
    .item .physicalMinimum_i16 0,
    .item .physicalMaximum_i16 10000,
    generatedUsage HidUsage_GD_X,
    input (Var ||| Abs),
    .item .logicalMinimum_i16 0,
    .item .logicalMaximum_i16 25000,
    .item .physicalMinimum_i16 0,
    .item .physicalMaximum_i16 6250,
    generatedUsage HidUsage_GD_Y,
    input (Var ||| Abs)]),
  .item .logicalMinimum_i16 0,
  .item .logicalMaximum_i16 2047,
  generatedUsage HidUsage_Dig_TipPressure,
  input (Var ||| Abs)]

def padFields : List Rdesc := [
  generatedUsage HidUsage_Dig_BarrelSwitch,
  .item .reportCount 1,
  .item .reportSize 1,
  input (Var ||| Abs),
  .item .reportCount 7,
  input Const,
  generatedUsagePage HidUsagePage_GenericDesktop,
  generatedUsage HidUsage_GD_X,
  generatedUsage HidUsage_GD_Y,
  .item .reportCount 2,
  .item .reportSize 8,
  input (Var ||| Abs)]

def fixedRdescVendor : Rdesc := rdesc [
  generatedUsagePage HidUsagePage_Digitizers,
  generatedUsage HidUsage_Dig_Digitizer,
  collectionApplication (rdesc [
    .item .reportId VENDOR_REPORT_ID.toNat,
    generatedUsage HidUsage_Dig_Stylus,
    collectionPhysical (rdesc stylusFields)]),
  generatedUsagePage HidUsagePage_GenericDesktop,
  generatedUsage HidUsage_GD_Keypad,
  collectionApplication (rdesc [
    .item .reportId PAD_REPORT_ID.toNat,
    .item .logicalMinimum_i8 0,
    .item .logicalMaximum_i8 1,
    generatedUsagePage HidUsagePage_Digitizers,
    generatedUsage HidUsage_Dig_TabletFunctionKeys,
    collectionPhysical (rdesc padFields),
    generatedUsagePage HidUsagePage_Button,
    .item .usageMinimum_i8 0x1,
    .item .usageMaximum_i8 0x8,
    .item .logicalMinimum_i8 0x0,
    .item .logicalMaximum_i8 0x1,
    .item .reportCount 8,
    .item .reportSize 1,
    input (Var ||| Abs)])]

def disabledRdescPen : Rdesc := fixedSizeVendorReport PEN_REPORT_LENGTH
def disabledRdescPad : Rdesc := fixedSizeVendorReport PAD_REPORT_LENGTH

/-- `h610_pro_fix_rdesc` with the three arrays. -/
def h610ProFixRdesc (fixedVendor disabledPad disabledPen : List UInt8) (b : Buffer) :
    List UInt8 × ℤ :=
  if b.size = VENDOR_REPORT_DESCRIPTOR_LENGTH then (splice b.data 0 fixedVendor, fixedVendor.length)
  else if b.size = PAD_REPORT_DESCRIPTOR_LENGTH then
    (splice b.data 0 disabledPad, disabledPad.length)
  else if b.size = PEN_REPORT_DESCRIPTOR_LENGTH then
    (splice b.data 0 disabledPen, disabledPen.length)
  else (b.data, 0)

def vendorFields : List Field := (layout (fixedRdescVendor.items itemPayload)).getD []

/-- `is_pad` and `in_range` are bits 5 and 6 of the second byte. -/
def isPad (data : List UInt8) : Bool := (byte data 1).toNat.testBit 5

/-- `h610_pro_fix_event` -/
def h610ProFixEvent (buffer : List UInt8) : Called Unit :=
  match hidBpfGetData buffer 0 8 with
  | none => ⟨(), buffer, 0⟩
  | some data =>
    if byte data 0 ≠ VENDOR_REPORT_ID then ⟨(), data, 0⟩
    else if isPad data then
      ⟨(), (((data.set 0 PAD_REPORT_ID).set 1 0).set 2 0).set 3 0, 5⟩
    else ⟨(), data.set 1 (byte data 1 ^^^ 0x40), 8⟩

def h610Pro : Transducer Unit Report (Option (List UInt8)) := device () fun _ => h610ProFixEvent

/-- The stylus report with the bytes `b` as `fields` show it in `out`; only `in_range` changes. -/
structure DecodesStylus (fields : List Field) (b : ℕ → UInt8) (out : List UInt8) : Prop where
  length : out.length = declaredLength fields VENDOR_REPORT_ID.toNat
  tipSwitch : decode fields out (fullUsageOf HidUsagePage_Digitizers HidUsage_Dig_TipSwitch) =
    some (((b 1).toNat.testBit 0).toNat : ℤ)
  barrelSwitch : decode fields out
    (fullUsageOf HidUsagePage_Digitizers HidUsage_Dig_BarrelSwitch) =
      some (((b 1).toNat.testBit 1).toNat : ℤ)
  secondaryBarrelSwitch : decode fields out
    (fullUsageOf HidUsagePage_Digitizers HidUsage_Dig_SecondaryBarrelSwitch) =
      some (((b 1).toNat.testBit 2).toNat : ℤ)
  inRange : decode fields out (fullUsageOf HidUsagePage_Digitizers HidUsage_Dig_InRange) =
    some ((!(b 1).toNat.testBit 6).toNat : ℤ)
  x : decode fields out (fullUsageOf HidUsagePage_GenericDesktop HidUsage_GD_X) =
    some (LittleEndian.value [b 2, b 3] : ℤ)
  y : decode fields out (fullUsageOf HidUsagePage_GenericDesktop HidUsage_GD_Y) =
    some (LittleEndian.value [b 4, b 5] : ℤ)
  tipPressure : decode fields out
    (fullUsageOf HidUsagePage_Digitizers HidUsage_Dig_TipPressure) =
      some (LittleEndian.value [b 6, b 7] : ℤ)

/-- The pad report: its buttons, and nothing else in the fields that it only has to be a pad. -/
structure DecodesPad (fields : List Field) (b : ℕ → UInt8) (out : List UInt8) : Prop where
  length : out.length = declaredLength fields PAD_REPORT_ID.toNat
  button : ∀ i < 8, decode fields out (fullUsageOf HidUsagePage_Button (i + 1)) =
    some (((b 4).toNat.testBit i).toNat : ℤ)
  barrelSwitch : decode fields out
    (fullUsageOf HidUsagePage_Digitizers HidUsage_Dig_BarrelSwitch) = some 0
  x : decode fields out (fullUsageOf HidUsagePage_GenericDesktop HidUsage_GD_X) = some 0
  y : decode fields out (fullUsageOf HidUsagePage_GenericDesktop HidUsage_GD_Y) = some 0

section events

variable {r : Report}

theorem event_eq (r : Report) : h610ProFixEvent r.data =
    if byte r.data 0 ≠ VENDOR_REPORT_ID then ⟨(), r.data, 0⟩
    else if isPad r.data then
      ⟨(), (((r.data.set 0 PAD_REPORT_ID).set 1 0).set 2 0).set 3 0, 5⟩
    else ⟨(), r.data.set 1 (byte r.data 1 ^^^ 0x40), 8⟩ := by
  rw [h610ProFixEvent, get_data_report r (by decide)]

def padBytes (b : ℕ → UInt8) : List UInt8 := [PAD_REPORT_ID, 0, 0, 0, b 4]

def stylusBytes (b : ℕ → UInt8) : List UInt8 :=
  [b 0, b 1 ^^^ 0x40, b 2, b 3, b 4, b 5, b 6, b 7]

theorem step_pad (hid : byte r.data 0 = VENDOR_REPORT_ID) (hpad : isPad r.data) :
    h610Pro.step () r = ((), some (padBytes (byte r.data))) := by
  have hcalled : h610ProFixEvent r.data =
      ⟨(), (((r.data.set 0 PAD_REPORT_ID).set 1 0).set 2 0).set 3 0, (5 : ℕ)⟩ := by
    rw [event_eq, if_neg (not_not.mpr hid), if_pos hpad]
    rfl
  have hlen : 0 + 5 ≤ ((((r.data.set 0 PAD_REPORT_ID).set 1 0).set 2 0).set 3 0).length := by
    simpa using le_trans (by decide) r.length_data
  have h5 : ∀ i < 5, i < r.data.length := fun i hi =>
    lt_of_lt_of_le hi (le_trans (by decide) r.length_data)
  have hbytes := bytes_at hlen
  rw [List.drop_zero] at hbytes
  rw [h610Pro, device_resizes (by decide) hcalled, hbytes]
  simp [List.range'_succ, byte, h5, padBytes]

theorem step_stylus (hid : byte r.data 0 = VENDOR_REPORT_ID) (hpad : ¬ isPad r.data) :
    h610Pro.step () r = ((), some (stylusBytes (byte r.data))) := by
  have hcalled : h610ProFixEvent r.data =
      ⟨(), r.data.set 1 (byte r.data 1 ^^^ 0x40), (8 : ℕ)⟩ := by
    rw [event_eq, if_neg (not_not.mpr hid), if_neg hpad]
    rfl
  have hlen : 0 + 8 ≤ (r.data.set 1 (byte r.data 1 ^^^ 0x40)).length := by
    simpa using le_trans (by decide) r.length_data
  have h8 : ∀ i < 8, i < r.data.length := fun i hi =>
    lt_of_lt_of_le hi (le_trans (by decide) r.length_data)
  have hbytes := bytes_at hlen
  rw [List.drop_zero] at hbytes
  rw [h610Pro, device_resizes (by decide) hcalled, hbytes]
  simp [List.range'_succ, byte, h8, stylusBytes]

theorem step_other (hid : byte r.data 0 ≠ VENDOR_REPORT_ID) :
    h610Pro.step () r = ((), some r.bytes) := by
  apply device_passes
  rw [event_eq, if_pos hid]

end events

section decoding

variable {b : ℕ → UInt8}

theorem testBit_flip : ∀ v : UInt8, (∀ j < 3, (v ^^^ 0x40).toNat.testBit j = v.toNat.testBit j) ∧
    (v ^^^ 0x40).toNat.testBit 6 = !v.toNat.testBit 6 := by
  decide +kernel

theorem decodes_stylus (hid : b 0 = VENDOR_REPORT_ID) :
    DecodesStylus vendorFields b (stylusBytes b) := by
  have hhead : ((stylusBytes b).headD 0).toNat = VENDOR_REPORT_ID.toNat := congrArg UInt8.toNat hid
  have hflip := testBit_flip (b 1)
  constructor
  · have hdeclared : declaredLength vendorFields VENDOR_REPORT_ID.toNat = 8 := by decide +kernel
    rw [hdeclared]
    rfl
  · rw [decode_bit_at hhead (i := 1) (j := 0) (by decide) (by decide +kernel),
      ← hflip.1 0 (by decide)]
    rfl
  · rw [decode_bit_at hhead (i := 1) (j := 1) (by decide) (by decide +kernel),
      ← hflip.1 1 (by decide)]
    rfl
  · rw [decode_bit_at hhead (i := 1) (j := 2) (by decide) (by decide +kernel),
      ← hflip.1 2 (by decide)]
    rfl
  · rw [decode_bit_at hhead (i := 1) (j := 6) (by decide) (by decide +kernel), ← hflip.2]
    rfl
  · exact decode_bytes_at hhead (i := 2) (n := 2) (by decide +kernel)
  · exact decode_bytes_at hhead (i := 4) (n := 2) (by decide +kernel)
  · exact decode_bytes_at hhead (i := 6) (n := 2) (by decide +kernel)

theorem decodes_pad : DecodesPad vendorFields b (padBytes b) := by
  have hhead : ((padBytes b).headD 0).toNat = PAD_REPORT_ID.toNat := rfl
  constructor
  · have hdeclared : declaredLength vendorFields PAD_REPORT_ID.toNat = 5 := by decide +kernel
    rw [hdeclared]
    rfl
  · intro i hi
    have hfield : ∀ i < 8, vendorFields.find? (fun f => f.reportId == PAD_REPORT_ID.toNat &&
        f.usage == some (fullUsageOf HidUsagePage_Button (i + 1))) =
        some ⟨PAD_REPORT_ID.toNat, 8 * 4 + i, 1,
          some (fullUsageOf HidUsagePage_Button (i + 1)), false⟩ := by decide +kernel
    rw [decode_bit_at hhead hi (hfield i hi)]
    rfl
  · rw [decode_bit_at hhead (i := 1) (j := 0) (by decide) (by decide +kernel)]
    exact congrArg some (by decide : (((0 : UInt8).toNat.testBit 0).toNat : ℤ) = 0)
  · rw [decode_byte_at hhead (i := 2) (by decide +kernel)]
    rfl
  · rw [decode_byte_at hhead (i := 3) (by decide +kernel)]
    rfl

end decoding

theorem vendor_no_wide_unit : fixedRdescVendor.NoWideUnit := by
  simp [fixedRdescVendor, rdesc, collectionApplication, collectionPhysical, padFields,
    stylusFields, unit, usage_no_wide_unit, usage_page_no_wide_unit, input, Rdesc.NoWideUnit,
    isWideUnit]

/-- The pen and the pad node report nothing, and on the vendor node each stylus and pad report is
read off the fixed descriptor as the tablet means it. -/
theorem vendor_reports_decode (b : Buffer) (fixedVendor disabledPad disabledPen : List UInt8)
    (hfixed : fixedRdescVendor.bytes = some fixedVendor)
    (hpad : disabledRdescPad.bytes = some disabledPad)
    (hpen : disabledRdescPen.bytes = some disabledPen) :
    (b.size = PAD_REPORT_DESCRIPTOR_LENGTH ∨ b.size = PEN_REPORT_DESCRIPTOR_LENGTH →
      ∃ fields, reportFields (b.parsed (h610ProFixRdesc fixedVendor disabledPad disabledPen b)) =
        some fields ∧ ∀ report usage, decode fields report usage = none) ∧
    (b.size = VENDOR_REPORT_DESCRIPTOR_LENGTH →
      ∃ fields, reportFields (b.parsed (h610ProFixRdesc fixedVendor disabledPad disabledPen b)) =
        some fields ∧ (fields.Pairwise fun f g => ¬ Overlap f g) ∧ ∀ r : Report,
          (byte r.data 0 = VENDOR_REPORT_ID → ¬ isPad r.data →
            ∃ out, h610Pro.step () r = ((), some out) ∧ DecodesStylus fields (byte r.data) out) ∧
          (byte r.data 0 = VENDOR_REPORT_ID → isPad r.data →
            ∃ out, h610Pro.step () r = ((), some out) ∧ DecodesPad fields (byte r.data) out) ∧
          (byte r.data 0 ≠ VENDOR_REPORT_ID → h610Pro.step () r = ((), some r.bytes))) ∧
    (b.size ≠ PAD_REPORT_DESCRIPTOR_LENGTH → b.size ≠ PEN_REPORT_DESCRIPTOR_LENGTH →
      b.size ≠ VENDOR_REPORT_DESCRIPTOR_LENGTH →
        b.parsed (h610ProFixRdesc fixedVendor disabledPad disabledPen b) = b.descriptor) := by
  refine ⟨?_, ?_, ?_⟩
  · rintro (hsize | hsize)
    · rw [h610ProFixRdesc, hsize, if_neg (by decide), if_pos rfl]
      exact b.parsed_muted hpad
    · rw [h610ProFixRdesc, hsize, if_neg (by decide), if_neg (by decide), if_pos rfl]
      exact b.parsed_muted hpen
  · intro hsize
    have hne : fixedVendor ≠ [] := by
      rintro rfl
      exact absurd hfixed (by decide +kernel)
    have hlayout : layout (fixedRdescVendor.items itemPayload) = some vendorFields := by
      rw [vendorFields, Option.getD_of_ne_none (by decide +kernel)]
    refine ⟨vendorFields, ?_, layout_disjoint hlayout, fun r => ⟨?_, ?_, step_other⟩⟩
    · rw [h610ProFixRdesc, if_pos hsize, b.parsed_replaced hne,
        reportFields_of_bytes vendor_no_wide_unit hfixed, hlayout]
    · intro hid hstylus
      exact ⟨_, step_stylus hid hstylus, decodes_stylus hid⟩
    · intro hid hispad
      exact ⟨_, step_pad hid hispad, decodes_pad⟩
  · intro hnopad hnopen hnovendor
    rw [h610ProFixRdesc, if_neg hnovendor, if_neg hnopad, if_neg hnopen, b.parsed_unchanged]

def vendorBuffer : Buffer := .zeros 179 (by decide)

def leaves : Report := .ofBytes [0x07, 0x40, 0x10, 0x27, 0, 0, 0, 0]
def pressesButton : Report := .ofBytes [0x07, 0x20, 0x01, 0x01, 0x02, 0, 0, 0]

theorem vendor_reports_decode_buttons : ∃ fixed pad pen fields,
    reportFields (vendorBuffer.parsed (h610ProFixRdesc fixed pad pen vendorBuffer)) =
      some fields ∧
    (∃ out, h610Pro.step () leaves = ((), some out) ∧
      decode fields out (fullUsageOf HidUsagePage_Digitizers HidUsage_Dig_InRange) = some 0) ∧
    ∃ out, h610Pro.step () pressesButton = ((), some out) ∧
      decode fields out (fullUsageOf HidUsagePage_Button 2) = some 1 := by
  obtain ⟨fixed, hfixed⟩ : ∃ fixed, fixedRdescVendor.bytes = some fixed :=
    Option.isSome_iff_exists.mp (by decide +kernel)
  obtain ⟨pad, hpad⟩ : ∃ pad, disabledRdescPad.bytes = some pad :=
    Option.isSome_iff_exists.mp (by decide +kernel)
  obtain ⟨pen, hpen⟩ : ∃ pen, disabledRdescPen.bytes = some pen :=
    Option.isSome_iff_exists.mp (by decide +kernel)
  obtain ⟨fields, hfields, -, hreports⟩ :=
    (vendor_reports_decode vendorBuffer fixed pad pen hfixed hpad hpen).2.1 rfl
  obtain ⟨out, hout, hstylus⟩ := (hreports leaves).1 rfl (by decide)
  obtain ⟨out', hout', hbuttons⟩ := (hreports pressesButton).2.1 rfl (by decide)
  exact ⟨fixed, pad, pen, fields, hfields, ⟨out, hout, hstylus.inRange⟩,
    out', hout', hbuttons.button 1 (by decide)⟩

end H610Pro
