import UdevHidBpf.ArrayFill

/-! # The structs injected as `HID_REPORT_DESCRIPTOR`

What hidreport parses, and the conversions of `bpf.rs` into structs of fixed size. `none`
is the panic of an index outside an array. -/
namespace RdescStructs

open ArrayFill

structure Usage where
  usagePage : UInt16
  usageId : UInt16
  deriving DecidableEq, Repr

structure Collection where
  usages : List Usage
  collectionType : UInt8
  deriving DecidableEq, Repr

/-- A `Range<usize>` of bits. -/
structure Bits where
  start : ℕ
  end_ : ℕ
  deriving DecidableEq, Repr

structure FieldAttributes where
  isRelative : Bool
  wraps : Bool
  isNonlinear : Bool
  hasNoPreferredState : Bool
  hasNullState : Bool
  isVolatile : Option Bool
  isBufferedBytes : Bool
  deriving DecidableEq, Repr

structure VariableField where
  bits : Bits
  usage : Usage
  logicalMinimum : Int32
  logicalMaximum : Int32
  attributes : FieldAttributes
  collections : List Collection
  deriving DecidableEq

structure ArrayField where
  bits : Bits
  usages : List Usage
  logicalMinimum : Int32
  logicalMaximum : Int32
  attributes : FieldAttributes
  collections : List Collection
  deriving DecidableEq

structure ConstantField where
  bits : Bits
  deriving DecidableEq, Repr

inductive Field where
  | variableField (vf : VariableField)
  | arrayField (af : ArrayField)
  | constantField (cf : ConstantField)
  deriving DecidableEq

def Field.bits : Field → Bits
  | .variableField vf => vf.bits
  | .arrayField af => af.bits
  | .constantField cf => cf.bits

structure Report where
  reportId : Option UInt8
  sizeInBits : ℕ
  fields : List Field
  deriving DecidableEq

structure ReportDescriptor where
  inputReports : List Report
  outputReports : List Report
  featureReports : List Report
  deriving DecidableEq

abbrev HID_MAX_COLLECTIONS : ℕ := 32
abbrev HID_MAX_FIELDS : ℕ := 64
abbrev HID_MAX_REPORTS : ℕ := 16

inductive HidRdescFieldType where
  | variableField
  | arrayField
  | constantField
  deriving DecidableEq, Repr

def HidRdescFieldType.toUInt8 : HidRdescFieldType → UInt8
  | .variableField => 0
  | .arrayField => 1
  | .constantField => 2

structure HidRdescCollection where
  usagePage : UInt16
  usageId : UInt16
  collectionType : UInt8
  deriving DecidableEq, Repr

def HidRdescCollection.default : HidRdescCollection := ⟨0, 0, 0⟩

structure UsageRange where
  usageMinimum : UInt16
  usageMaximum : UInt16
  deriving DecidableEq, Repr

/-- The union, by the member it was built with. -/
inductive UsageIdUnion where
  | usageId (id : UInt16)
  | anonRange (range : UsageRange)
  deriving DecidableEq, Repr

structure HidRdescField where
  fieldType : UInt8
  numCollections : UInt8
  bitsStart : UInt16
  bitsEnd : UInt16
  usagePage : UInt16
  anonUsageId : UsageIdUnion
  logicalMinimum : Int32
  logicalMaximum : Int32
  flags : UInt8
  collections : Vector HidRdescCollection HID_MAX_COLLECTIONS
  deriving DecidableEq

def HidRdescField.default : HidRdescField where
  fieldType := 0
  numCollections := 0
  bitsStart := 0
  bitsEnd := 0
  usagePage := 0
  anonUsageId := .usageId 0
  logicalMinimum := 0
  logicalMaximum := 0
  flags := 0
  collections := Vector.replicate HID_MAX_COLLECTIONS HidRdescCollection.default

structure HidRdescReport where
  reportId : UInt8
  sizeInBits : UInt16
  numFields : UInt8
  fields : Vector HidRdescField HID_MAX_FIELDS
  deriving DecidableEq

def HidRdescReport.default : HidRdescReport where
  reportId := 0
  sizeInBits := 0
  numFields := 0
  fields := Vector.replicate HID_MAX_FIELDS HidRdescField.default

structure HidRdescDescriptor where
  numInputReports : UInt8
  numOutputReports : UInt8
  numFeatureReports : UInt8
  inputReports : Vector HidRdescReport HID_MAX_REPORTS
  outputReports : Vector HidRdescReport HID_MAX_REPORTS
  featureReports : Vector HidRdescReport HID_MAX_REPORTS
  deriving DecidableEq

def HidRdescDescriptor.default : HidRdescDescriptor where
  numInputReports := 0
  numOutputReports := 0
  numFeatureReports := 0
  inputReports := Vector.replicate HID_MAX_REPORTS HidRdescReport.default
  outputReports := Vector.replicate HID_MAX_REPORTS HidRdescReport.default
  featureReports := Vector.replicate HID_MAX_REPORTS HidRdescReport.default

def HidRdescCollection.fromCollection (collection : Collection) : HidRdescCollection :=
  let usage := collection.usages.head?
  { usagePage := (usage.map Usage.usagePage).getD 0
    usageId := (usage.map Usage.usageId).getD 0
    collectionType := collection.collectionType }

def packFlags (field : FieldAttributes) : UInt8 :=
  field.isRelative.toUInt8 <<< 0 ||| field.wraps.toUInt8 <<< 1 |||
    field.isNonlinear.toUInt8 <<< 2 ||| field.hasNoPreferredState.toUInt8 <<< 3 |||
    field.hasNullState.toUInt8 <<< 4 ||| (field.isVolatile.getD false).toUInt8 <<< 5 |||
    field.isBufferedBytes.toUInt8 <<< 6

/-- `collections` and its count, as both kinds of fields with collections fill them. -/
def fillCollections (collections : List Collection) (c : HidRdescField) : Option HidRdescField := do
  let numCollections := min collections.length HID_MAX_COLLECTIONS
  let filled ← fill (fun collection => some (HidRdescCollection.fromCollection collection)) 0
    (collections.take numCollections) c.collections
  some { c with numCollections := UInt8.ofNat numCollections, collections := filled }

def HidRdescField.fromField : Field → Option HidRdescField
  | .variableField vf =>
    fillCollections vf.collections
      { HidRdescField.default with
        fieldType := HidRdescFieldType.variableField.toUInt8
        bitsStart := UInt16.ofNat vf.bits.start
        bitsEnd := UInt16.ofNat vf.bits.end_
        usagePage := vf.usage.usagePage
        anonUsageId := .usageId vf.usage.usageId
        logicalMinimum := vf.logicalMinimum
        logicalMaximum := vf.logicalMaximum
        flags := packFlags vf.attributes }
  | .arrayField af =>
    fillCollections af.collections
      { HidRdescField.default with
        fieldType := HidRdescFieldType.arrayField.toUInt8
        bitsStart := UInt16.ofNat af.bits.start
        bitsEnd := UInt16.ofNat af.bits.end_
        usagePage := (af.usages.head?.map Usage.usagePage).getD 0
        anonUsageId := .anonRange
          { usageMinimum := (af.usages.head?.map Usage.usageId).getD 0
            usageMaximum := (af.usages.getLast?.map Usage.usageId).getD 0 }
        logicalMinimum := af.logicalMinimum
        logicalMaximum := af.logicalMaximum
        flags := packFlags af.attributes }
  | .constantField cf =>
    some { HidRdescField.default with
      fieldType := HidRdescFieldType.constantField.toUInt8
      bitsStart := UInt16.ofNat cf.bits.start
      bitsEnd := UInt16.ofNat cf.bits.end_
      numCollections := 0 }

def HidRdescReport.fromReport (report : Report) : Option HidRdescReport := do
  let numFields := min report.fields.length HID_MAX_FIELDS
  let fields ← fill HidRdescField.fromField 0 (report.fields.take numFields)
    HidRdescReport.default.fields
  some
    { reportId := report.reportId.getD 0
      sizeInBits := UInt16.ofNat report.sizeInBits
      numFields := UInt8.ofNat numFields
      fields := fields }

def fillReports (reports : List Report) : Option (UInt8 × Vector HidRdescReport HID_MAX_REPORTS) := do
  let num := min reports.length HID_MAX_REPORTS
  let filled ← fill HidRdescReport.fromReport 0 (reports.take num)
    (Vector.replicate HID_MAX_REPORTS HidRdescReport.default)
  some (UInt8.ofNat num, filled)

def HidRdescDescriptor.fromReportDescriptor (rdesc : ReportDescriptor) :
    Option HidRdescDescriptor := do
  let (numInput, input) ← fillReports rdesc.inputReports
  let (numOutput, output) ← fillReports rdesc.outputReports
  let (numFeature, feature) ← fillReports rdesc.featureReports
  some
    { numInputReports := numInput
      numOutputReports := numOutput
      numFeatureReports := numFeature
      inputReports := input
      outputReports := output
      featureReports := feature }

/-- The collections of a field that carry over; constants have none. -/
def Field.collections : Field → List Collection
  | .variableField vf => vf.collections
  | .arrayField af => af.collections
  | .constantField _ => []

theorem fillCollections_eq (collections : List Collection) {c : HidRdescField}
    (hc : c.collections = Vector.replicate HID_MAX_COLLECTIONS HidRdescCollection.default) :
    fillCollections collections c = some { c with
      numCollections := UInt8.ofNat (min collections.length HID_MAX_COLLECTIONS)
      collections := padded HID_MAX_COLLECTIONS HidRdescCollection.default
        ((collections.take HID_MAX_COLLECTIONS).map HidRdescCollection.fromCollection) } := by
  simp only [fillCollections, hc]
  rw [fill_capped HidRdescCollection.fromCollection (fun _ _ => rfl)]
  rfl

theorem fromField_spec (field : Field) : ∃ c, HidRdescField.fromField field = some c ∧
    c.bitsStart = UInt16.ofNat field.bits.start ∧ c.bitsEnd = UInt16.ofNat field.bits.end_ ∧
    c.numCollections = UInt8.ofNat (min field.collections.length HID_MAX_COLLECTIONS) ∧
    c.collections = padded HID_MAX_COLLECTIONS HidRdescCollection.default
      ((field.collections.take HID_MAX_COLLECTIONS).map HidRdescCollection.fromCollection) := by
  cases field with
  | variableField vf => exact ⟨_, fillCollections_eq vf.collections rfl, rfl, rfl, rfl, rfl⟩
  | arrayField af => exact ⟨_, fillCollections_eq af.collections rfl, rfl, rfl, rfl, rfl⟩
  | constantField cf =>
    refine ⟨_, rfl, rfl, rfl, rfl, ?_⟩
    refine Vector.ext fun i hi => ?_
    simp [padded_getElem, Field.collections, HidRdescField.default]

def convertedField (field : Field) : HidRdescField :=
  (HidRdescField.fromField field).getD HidRdescField.default

theorem fromField_eq (field : Field) :
    HidRdescField.fromField field = some (convertedField field) := by
  obtain ⟨c, hc, -⟩ := fromField_spec field
  simp [convertedField, hc]

theorem fromReport_eq (report : Report) : HidRdescReport.fromReport report = some
    { reportId := report.reportId.getD 0
      sizeInBits := UInt16.ofNat report.sizeInBits
      numFields := UInt8.ofNat (min report.fields.length HID_MAX_FIELDS)
      fields := padded HID_MAX_FIELDS HidRdescField.default
        ((report.fields.take HID_MAX_FIELDS).map convertedField) } := by
  simp only [HidRdescReport.fromReport, HidRdescReport.default]
  rw [fill_capped convertedField fun field _ => fromField_eq field]
  rfl

def convertedReport (report : Report) : HidRdescReport :=
  (HidRdescReport.fromReport report).getD HidRdescReport.default

theorem convertedReport_eq (report : Report) : convertedReport report =
    { reportId := report.reportId.getD 0
      sizeInBits := UInt16.ofNat report.sizeInBits
      numFields := UInt8.ofNat (min report.fields.length HID_MAX_FIELDS)
      fields := padded HID_MAX_FIELDS HidRdescField.default
        ((report.fields.take HID_MAX_FIELDS).map convertedField) } := by
  rw [convertedReport, fromReport_eq, Option.getD_some]

theorem fillReports_eq (reports : List Report) : fillReports reports = some
    (UInt8.ofNat (min reports.length HID_MAX_REPORTS),
      padded HID_MAX_REPORTS HidRdescReport.default
        ((reports.take HID_MAX_REPORTS).map convertedReport)) := by
  simp only [fillReports]
  rw [fill_capped convertedReport fun report _ => by rw [convertedReport_eq, fromReport_eq]]
  rfl

theorem fromReportDescriptor_eq (rdesc : ReportDescriptor) :
    HidRdescDescriptor.fromReportDescriptor rdesc = some
      { numInputReports := UInt8.ofNat (min rdesc.inputReports.length HID_MAX_REPORTS)
        numOutputReports := UInt8.ofNat (min rdesc.outputReports.length HID_MAX_REPORTS)
        numFeatureReports := UInt8.ofNat (min rdesc.featureReports.length HID_MAX_REPORTS)
        inputReports := padded HID_MAX_REPORTS HidRdescReport.default
          ((rdesc.inputReports.take HID_MAX_REPORTS).map convertedReport)
        outputReports := padded HID_MAX_REPORTS HidRdescReport.default
          ((rdesc.outputReports.take HID_MAX_REPORTS).map convertedReport)
        featureReports := padded HID_MAX_REPORTS HidRdescReport.default
          ((rdesc.featureReports.take HID_MAX_REPORTS).map convertedReport) } := by
  simp only [HidRdescDescriptor.fromReportDescriptor, fillReports_eq]
  rfl

/-- The page and the range of `c` cover the usages of the field. -/
def DescribesUsages (af : ArrayField) (c : HidRdescField) : Prop :=
  ∃ range, c.anonUsageId = .anonRange range ∧ range.usageMinimum ≤ range.usageMaximum ∧
    ∀ u ∈ af.usages, u.usagePage = c.usagePage ∧
      range.usageMinimum ≤ u.usageId ∧ u.usageId ≤ range.usageMaximum

/-- The usages share the page of the first, which has the smallest id, as the last has the
largest. -/
def SpansUsages (usages : List Usage) : Prop :=
  ∀ first last, usages.head? = some first → usages.getLast? = some last →
    ∀ u ∈ usages, u.usagePage = first.usagePage ∧
      first.usageId ≤ u.usageId ∧ u.usageId ≤ last.usageId

theorem converted_array (af : ArrayField) :
    (convertedField (.arrayField af)).anonUsageId = .anonRange
      { usageMinimum := (af.usages.head?.map Usage.usageId).getD 0
        usageMaximum := (af.usages.getLast?.map Usage.usageId).getD 0 } ∧
    (convertedField (.arrayField af)).usagePage
      = (af.usages.head?.map Usage.usagePage).getD 0 := by
  have hfield : HidRdescField.fromField (.arrayField af) = some _ :=
    fillCollections_eq af.collections rfl
  rw [convertedField, hfield]
  exact ⟨rfl, rfl⟩

/-- The first and the last usage give the range, so it covers the others exactly when they
lie between them. -/
theorem describes_usages_iff (af : ArrayField) :
    ∃ c, HidRdescField.fromField (.arrayField af) = some c ∧
      (DescribesUsages af c ↔ SpansUsages af.usages) := by
  refine ⟨convertedField (.arrayField af), fromField_eq _, ?_⟩
  obtain ⟨hunion, hpage⟩ := converted_array af
  cases hhead : af.usages.head? with
  | none =>
    have hnil : af.usages = [] := List.head?_eq_none_iff.1 hhead
    rw [hnil] at hunion
    refine iff_of_true ⟨_, hunion, UInt16.le_refl _, ?_⟩ ?_
    · simp [hnil]
    · intro first last hfirst
      rw [hhead] at hfirst
      cases hfirst
  | some first =>
    have hmem : first ∈ af.usages := List.mem_of_head? hhead
    obtain ⟨last, hlast⟩ := Option.isSome_iff_exists.1
      (List.getLast?_isSome.2 (List.ne_nil_of_mem hmem))
    simp only [hhead, hlast, Option.map_some, Option.getD_some] at hunion hpage
    constructor
    · rintro ⟨range, hrange, -, hall⟩ first' last' hfirst' hlast' u hu
      obtain rfl : first = first' := Option.some.inj (hhead.symm.trans hfirst')
      obtain rfl : last = last' := Option.some.inj (hlast.symm.trans hlast')
      rw [hunion, UsageIdUnion.anonRange.injEq] at hrange
      rw [← hrange, hpage] at hall
      exact hall u hu
    · intro hspan
      have hall := hspan first last hhead hlast
      refine ⟨_, hunion, (hall first hmem).2.2, ?_⟩
      intro u hu
      rw [hpage]
      exact hall u hu

/-- Two single usages, the larger one first. -/
theorem descending_usages :
    ¬ ∀ af c, HidRdescField.fromField (.arrayField af) = some c → DescribesUsages af c := by
  intro h
  obtain ⟨range, hrange, hle, -⟩ := h
    ⟨⟨0, 8⟩, [⟨0x07, 5⟩, ⟨0x07, 1⟩], 0, 1, ⟨false, false, false, false, false, none, false⟩, []⟩ _
    (fromField_eq _)
  rw [(converted_array _).1, UsageIdUnion.anonRange.injEq] at hrange
  rw [← hrange] at hle
  exact absurd hle (by decide)

end RdescStructs
