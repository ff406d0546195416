import UdevHidBpf.RawMemory
import UdevHidBpf.RdescHelpers
import UdevHidBpf.TypeLayout

/-! # The bytes of `HID_REPORT_DESCRIPTOR`

The Rust structs as the bytes they are injected as, and the C side's reading of these
bytes at the offsets of its own declarations. -/
namespace RdescLayout

open RawMemory RdescStructs TypeLayout

section rust

def u8 : Ty := .scalar "u8" 1
def u16 : Ty := .scalar "u16" 2
def i32 : Ty := .scalar "i32" 4

def rustCollection : Ty := .struct "HidRdescCollection" true
  (.cons "usage_page" u16 (.cons "usage_id" u16 (.cons "collection_type" u8 .nil)))

def rustUsageRange : Ty := .struct "UsageRange" true
  (.cons "usage_minimum" u16 (.cons "usage_maximum" u16 .nil))

def rustUsageIdUnion : Ty := .union "UsageIdUnion"
  (.cons "usage_id" u16 (.cons "anon_range" rustUsageRange .nil))

def rustField : Ty := .struct "HidRdescField" true
  (.cons "field_type" u8 (.cons "num_collections" u8 (.cons "bits_start" u16
  (.cons "bits_end" u16 (.cons "usage_page" u16 (.cons "anon_usage_id" rustUsageIdUnion
  (.cons "logical_minimum" i32 (.cons "logical_maximum" i32 (.cons "flags" u8
  (.cons "collections" (.array rustCollection HID_MAX_COLLECTIONS "HID_MAX_COLLECTIONS")
    .nil))))))))))

def rustReport : Ty := .struct "HidRdescReport" true
  (.cons "report_id" u8 (.cons "size_in_bits" u16 (.cons "num_fields" u8
  (.cons "fields" (.array rustField HID_MAX_FIELDS "HID_MAX_FIELDS") .nil))))

def rustReports : Ty := .array rustReport HID_MAX_REPORTS "HID_MAX_REPORTS"

def rustDescriptor : Ty := .struct "HidRdescDescriptor" true
  (.cons "num_input_reports" u8 (.cons "num_output_reports" u8
  (.cons "num_feature_reports" u8 (.cons "input_reports" rustReports
  (.cons "output_reports" rustReports (.cons "feature_reports" rustReports .nil))))))

end rust

section c

def cU8 : Ty := .scalar "__u8" 1
def cU16 : Ty := .scalar "__u16" 2
def cS32 : Ty := .scalar "__s32" 4

def cCollection : Ty := .struct "hid_rdesc_collection" true
  (.cons "usage_page" cU16 (.cons "usage_id" cU16 (.cons "collection_type" cU8 .nil)))

def cUsageRange : Ty := .struct "" true
  (.cons "usage_minimum" cU16 (.cons "usage_maximum" cU16 .nil))

def cUsageUnion : Ty := .union "" (.cons "usage_id" cU16 (.cons "" cUsageRange .nil))

/-- The bit-fields share one byte, the struct around them is not packed. -/
def cFlags : Ty := .struct "" false (.cons "bits" cU8 .nil)

def cField : Ty := .struct "hid_rdesc_field" true
  (.cons "field_type" cU8 (.cons "num_collections" cU8 (.cons "bits_start" cU16
  (.cons "bits_end" cU16 (.cons "usage_page" cU16 (.cons "" cUsageUnion
  (.cons "logical_minimum" cS32 (.cons "logical_maximum" cS32 (.cons "flags" cFlags
  (.cons "collections" (.array cCollection HID_MAX_COLLECTIONS "HID_MAX_COLLECTIONS")
    .nil))))))))))

def cReport : Ty := .struct "hid_rdesc_report" true
  (.cons "report_id" cU8 (.cons "size_in_bits" cU16 (.cons "num_fields" cU8
  (.cons "fields" (.array cField HID_MAX_FIELDS "HID_MAX_FIELDS") .nil))))

def cReports : Ty := .array cReport HID_MAX_REPORTS "HID_MAX_REPORTS"

def cDescriptor : Ty := .struct "hid_rdesc_descriptor" true
  (.cons "num_input_reports" cU8 (.cons "num_output_reports" cU8
  (.cons "num_feature_reports" cU8 (.cons "input_reports" cReports
  (.cons "output_reports" cReports (.cons "feature_reports" cReports .nil))))))

end c

example : rustCollection.size = 5 ∧ rustUsageIdUnion.size = 4 ∧ rustField.size = 181 ∧
    rustReport.size = 11588 ∧ rustDescriptor.size = 556227 ∧
    cCollection.size = 5 ∧ cUsageUnion.size = 4 ∧ cField.size = 181 ∧
    cReport.size = 11588 ∧ cDescriptor.size = 556227 := by decide

def collectionBytes (c : HidRdescCollection) : Memory :=
  [writeLE 2 c.usagePage.toNat, writeLE 2 c.usageId.toNat, writeLE 1 c.collectionType.toNat].flatten

/-- Building the union with its short member leaves the rest unset. -/
def unionBytes : UsageIdUnion → Memory
  | .usageId id => [writeLE 2 id.toNat, [none, none]].flatten
  | .anonRange range => [writeLE 2 range.usageMinimum.toNat, writeLE 2 range.usageMaximum.toNat].flatten

def fieldBytes (f : HidRdescField) : Memory :=
  [writeLE 1 f.fieldType.toNat, writeLE 1 f.numCollections.toNat, writeLE 2 f.bitsStart.toNat,
    writeLE 2 f.bitsEnd.toNat, writeLE 2 f.usagePage.toNat, unionBytes f.anonUsageId,
    writeLE 4 f.logicalMinimum.toUInt32.toNat, writeLE 4 f.logicalMaximum.toUInt32.toNat,
    writeLE 1 f.flags.toNat, f.collections.toList.flatMap collectionBytes].flatten

def reportBytes (r : HidRdescReport) : Memory :=
  [writeLE 1 r.reportId.toNat, writeLE 2 r.sizeInBits.toNat, writeLE 1 r.numFields.toNat,
    r.fields.toList.flatMap fieldBytes].flatten

def descriptorBytes (d : HidRdescDescriptor) : Memory :=
  [writeLE 1 d.numInputReports.toNat, writeLE 1 d.numOutputReports.toNat,
    writeLE 1 d.numFeatureReports.toNat, d.inputReports.toList.flatMap reportBytes,
    d.outputReports.toList.flatMap reportBytes, d.featureReports.toList.flatMap reportBytes].flatten

section reading

variable (mem : Memory) (base : ℕ)

def readU8 : Option UInt8 := (readLE mem 1 base).map UInt8.ofNat

def readU16 : Option UInt16 := (readLE mem 2 base).map UInt16.ofNat

def readS32 : Option Int32 := (readLE mem 4 base).map fun n => (UInt32.ofNat n).toInt32

def readCollection : Option RdescHelpers.HidRdescCollection := do
  let usagePage ← readU16 mem (base + cCollection.offsetOf "usage_page")
  let usageId ← readU16 mem (base + cCollection.offsetOf "usage_id")
  let collectionType ← readU8 mem (base + cCollection.offsetOf "collection_type")
  some ⟨usagePage, usageId, collectionType⟩

/-- `usage_maximum` may be unset. -/
def readField : Option RdescHelpers.HidRdescField := do
  let fieldType ← readU8 mem (base + cField.offsetOf "field_type")
  let numCollections ← readU8 mem (base + cField.offsetOf "num_collections")
  let bitsStart ← readU16 mem (base + cField.offsetOf "bits_start")
  let bitsEnd ← readU16 mem (base + cField.offsetOf "bits_end")
  let usagePage ← readU16 mem (base + cField.offsetOf "usage_page")
  let union := base + cField.offsetOf ""
  let usageId ← readU16 mem (union + cUsageUnion.offsetOf "usage_id")
  let range := union + cUsageUnion.offsetOf ""
  let usageMinimum ← readU16 mem (range + cUsageRange.offsetOf "usage_minimum")
  let usageMaximum := readU16 mem (range + cUsageRange.offsetOf "usage_maximum")
  let logicalMinimum ← readS32 mem (base + cField.offsetOf "logical_minimum")
  let logicalMaximum ← readS32 mem (base + cField.offsetOf "logical_maximum")
  let flags ← readU8 mem (base + cField.offsetOf "flags" + cFlags.offsetOf "bits")
  let collections ← readArray HID_MAX_COLLECTIONS fun i =>
    readCollection mem (base + cField.offsetOf "collections" + i * cCollection.size)
  some
    { fieldType, numCollections, bitsStart, bitsEnd, usagePage, usageId, usageMinimum,
      usageMaximum, logicalMinimum, logicalMaximum, collections
      flags := RdescHelpers.flagsOfByte flags }

def readReport : Option RdescHelpers.HidRdescReport := do
  let reportId ← readU8 mem (base + cReport.offsetOf "report_id")
  let sizeInBits ← readU16 mem (base + cReport.offsetOf "size_in_bits")
  let numFields ← readU8 mem (base + cReport.offsetOf "num_fields")
  let fields ← readArray HID_MAX_FIELDS fun i =>
    readField mem (base + cReport.offsetOf "fields" + i * cField.size)
  some ⟨reportId, sizeInBits, numFields, fields⟩

def readReports (name : String) :
    Option (Vector RdescHelpers.HidRdescReport HID_MAX_REPORTS) :=
  readArray HID_MAX_REPORTS fun i =>
    readReport mem (base + cDescriptor.offsetOf name + i * cReport.size)

def readDescriptor : Option RdescHelpers.HidRdescDescriptor := do
  let numInputReports ← readU8 mem (base + cDescriptor.offsetOf "num_input_reports")
  let numOutputReports ← readU8 mem (base + cDescriptor.offsetOf "num_output_reports")
  let numFeatureReports ← readU8 mem (base + cDescriptor.offsetOf "num_feature_reports")
  let inputReports ← readReports mem base "input_reports"
  let outputReports ← readReports mem base "output_reports"
  let featureReports ← readReports mem base "feature_reports"
  some ⟨numInputReports, numOutputReports, numFeatureReports, inputReports, outputReports,
    featureReports⟩

end reading

section roundTrip

variable {mem : Memory} {base : ℕ}

theorem readU8_at {x : UInt8} (h : At mem base (writeLE 1 x.toNat)) : readU8 mem base = some x := by
  rw [readU8, readLE_writeLE h, Option.map_some, Nat.mod_eq_of_lt x.toNat_lt, UInt8.ofNat_toNat]

theorem readU16_at {x : UInt16} (h : At mem base (writeLE 2 x.toNat)) :
    readU16 mem base = some x := by
  rw [readU16, readLE_writeLE h, Option.map_some, Nat.mod_eq_of_lt x.toNat_lt, UInt16.ofNat_toNat]

theorem readS32_at {x : Int32} (h : At mem base (writeLE 4 x.toUInt32.toNat)) :
    readS32 mem base = some x := by
  rw [readS32, readLE_writeLE h, Option.map_some, Nat.mod_eq_of_lt x.toUInt32.toNat_lt,
    UInt32.ofNat_toNat, Int32.toInt32_toUInt32]

theorem readU16_unset (h : At mem base [none, none]) : readU16 mem base = none := by
  have h0 : mem[base]? = some none := h 0 (by decide)
  simp [readU16, readLE, List.range_succ, h0]

theorem length_collectionBytes (c : HidRdescCollection) :
    (collectionBytes c).length = cCollection.size := by
  simp only [collectionBytes, List.length_flatten, List.map_cons, List.map_nil, length_writeLE]
  decide

theorem readCollection_at {c : HidRdescCollection} (h : At mem base (collectionBytes c)) :
    readCollection mem base = some (RdescHelpers.viewCollection c) := by
  have h0 : At mem (base + cCollection.offsetOf "usage_page") (writeLE 2 c.usagePage.toNat) :=
    h.piece 0 rfl
  have h1 : At mem (base + cCollection.offsetOf "usage_id") (writeLE 2 c.usageId.toNat) :=
    h.piece 1 rfl
  have h2 : At mem (base + cCollection.offsetOf "collection_type")
      (writeLE 1 c.collectionType.toNat) := h.piece 2 rfl
  rw [readCollection, readU16_at h0, readU16_at h1, readU8_at h2]
  rfl

theorem length_unionBytes (u : UsageIdUnion) : (unionBytes u).length = cUsageUnion.size := by
  cases u <;> rfl

theorem readUnion_at {u : UsageIdUnion} (h : At mem base (unionBytes u)) :
    readU16 mem (base + cUsageUnion.offsetOf "usage_id") = some (RdescHelpers.unionLow u) ∧
    readU16 mem (base + cUsageUnion.offsetOf "" + cUsageRange.offsetOf "usage_minimum") =
      some (RdescHelpers.unionLow u) ∧
    readU16 mem (base + cUsageUnion.offsetOf "" + cUsageRange.offsetOf "usage_maximum") =
      RdescHelpers.unionHigh u := by
  cases u with
  | usageId id =>
    have h0 : At mem base (writeLE 2 id.toNat) := h.piece 0 rfl
    have h1 : At mem (base + 2) [none, none] := h.piece 1 rfl
    exact ⟨readU16_at h0, readU16_at h0, readU16_unset h1⟩
  | anonRange range =>
    have h0 : At mem base (writeLE 2 range.usageMinimum.toNat) := h.piece 0 rfl
    have h1 : At mem (base + 2) (writeLE 2 range.usageMaximum.toNat) := h.piece 1 rfl
    exact ⟨readU16_at h0, readU16_at h0, readU16_at h1⟩

theorem readArray_at {β γ : Type} {n size : ℕ} {enc : β → Memory} {view : β → γ} {v : Vector β n}
    {read : ℕ → Option γ} (hsize : ∀ b, (enc b).length = size)
    (h : At mem base (v.toList.flatMap enc))
    (hread : ∀ i b, At mem (base + i * size) (enc b) → read i = some (view b)) :
    readArray n read = some (v.map view) := by
  refine readArray_eq fun i hi => ?_
  have hget : v.toList[i]? = some v[i] := by
    rw [Vector.getElem?_toList, Vector.getElem?_eq_getElem hi]
  rw [hread i v[i] (h.element (fun b _ => hsize b) hget), Vector.getElem_map]

theorem length_arrayBytes {β : Type} {n size : ℕ} {enc : β → Memory} (v : Vector β n)
    (hsize : ∀ b, (enc b).length = size) : (v.toList.flatMap enc).length = size * n := by
  rw [List.length_flatMap, List.map_congr_left (g := fun _ => size) fun b _ => hsize b,
    List.map_const', List.sum_replicate_nat, Vector.length_toList, Nat.mul_comm]

theorem length_fieldBytes (f : HidRdescField) : (fieldBytes f).length = cField.size := by
  simp only [fieldBytes, List.length_flatten, List.map_cons, List.map_nil, length_writeLE,
    length_unionBytes, length_arrayBytes _ length_collectionBytes]
  decide

theorem readField_at {f : HidRdescField} (h : At mem base (fieldBytes f)) :
    readField mem base = some (RdescHelpers.viewField f) := by
  have h0 : At mem (base + cField.offsetOf "field_type") (writeLE 1 f.fieldType.toNat) :=
    h.piece 0 rfl
  have h1 : At mem (base + cField.offsetOf "num_collections") (writeLE 1 f.numCollections.toNat) :=
    h.piece 1 rfl
  have h2 : At mem (base + cField.offsetOf "bits_start") (writeLE 2 f.bitsStart.toNat) :=
    h.piece 2 rfl
  have h3 : At mem (base + cField.offsetOf "bits_end") (writeLE 2 f.bitsEnd.toNat) := h.piece 3 rfl
  have h4 : At mem (base + cField.offsetOf "usage_page") (writeLE 2 f.usagePage.toNat) :=
    h.piece 4 rfl
  have h5 : At mem (base + cField.offsetOf "") (unionBytes f.anonUsageId) := h.piece 5 rfl
  obtain ⟨hid, hmin, hmax⟩ := readUnion_at h5
  -- the pieces after the union, which has one length whichever member it was built with
  have hrest : At mem (base + 12) [writeLE 4 f.logicalMinimum.toUInt32.toNat,
      writeLE 4 f.logicalMaximum.toUInt32.toNat, writeLE 1 f.flags.toNat,
      f.collections.toList.flatMap collectionBytes].flatten := by
    have hsplit : fieldBytes f = [writeLE 1 f.fieldType.toNat, writeLE 1 f.numCollections.toNat,
        writeLE 2 f.bitsStart.toNat, writeLE 2 f.bitsEnd.toNat, writeLE 2 f.usagePage.toNat,
        unionBytes f.anonUsageId].flatten ++ [writeLE 4 f.logicalMinimum.toUInt32.toNat,
        writeLE 4 f.logicalMaximum.toUInt32.toNat, writeLE 1 f.flags.toNat,
        f.collections.toList.flatMap collectionBytes].flatten := by
      rw [← List.flatten_append]
      rfl
    rw [hsplit] at h
    have hr := h.right
    simp only [List.length_flatten, List.map_cons, List.map_nil, length_writeLE,
      length_unionBytes] at hr
    exact hr
  have h6 : At mem (base + cField.offsetOf "logical_minimum")
      (writeLE 4 f.logicalMinimum.toUInt32.toNat) := hrest.piece 0 rfl
  have h7 : At mem (base + cField.offsetOf "logical_maximum")
      (writeLE 4 f.logicalMaximum.toUInt32.toNat) := hrest.piece 1 rfl
  have h8 : At mem (base + cField.offsetOf "flags" + cFlags.offsetOf "bits")
      (writeLE 1 f.flags.toNat) := hrest.piece 2 rfl
  have h9 : At mem (base + cField.offsetOf "collections")
      (f.collections.toList.flatMap collectionBytes) := hrest.piece 3 rfl
  rw [readField, readU8_at h0, readU8_at h1, readU16_at h2, readU16_at h3, readU16_at h4]
  simp only [Option.bind_eq_bind, Option.bind_some]
  rw [hid, hmin, hmax, readS32_at h6, readS32_at h7, readU8_at h8,
    readArray_at length_collectionBytes h9 fun i c hc => readCollection_at hc]
  rfl

theorem length_reportBytes (r : HidRdescReport) : (reportBytes r).length = cReport.size := by
  simp only [reportBytes, List.length_flatten, List.map_cons, List.map_nil, length_writeLE,
    length_arrayBytes _ length_fieldBytes]
  decide

theorem readReport_at {r : HidRdescReport} (h : At mem base (reportBytes r)) :
    readReport mem base = some (RdescHelpers.viewReport r) := by
  have h0 : At mem (base + cReport.offsetOf "report_id") (writeLE 1 r.reportId.toNat) :=
    h.piece 0 rfl
  have h1 : At mem (base + cReport.offsetOf "size_in_bits") (writeLE 2 r.sizeInBits.toNat) :=
    h.piece 1 rfl
  have h2 : At mem (base + cReport.offsetOf "num_fields") (writeLE 1 r.numFields.toNat) :=
    h.piece 2 rfl
  have h3 : At mem (base + cReport.offsetOf "fields") (r.fields.toList.flatMap fieldBytes) :=
    h.piece 3 rfl
  rw [readReport, readU8_at h0, readU16_at h1, readU8_at h2,
    readArray_at length_fieldBytes h3 fun i f hf => readField_at hf]
  rfl

theorem readReports_at {v : Vector HidRdescReport HID_MAX_REPORTS} {name : String}
    (h : At mem (base + cDescriptor.offsetOf name) (v.toList.flatMap reportBytes)) :
    readReports mem base name = some (v.map RdescHelpers.viewReport) :=
  readArray_at length_reportBytes h fun _ _ hr => readReport_at hr

end roundTrip

theorem length_descriptorBytes (d : HidRdescDescriptor) :
    (descriptorBytes d).length = cDescriptor.size := by
  simp only [descriptorBytes, List.length_flatten, List.map_cons, List.map_nil, length_writeLE,
    length_arrayBytes _ length_reportBytes]
  decide

theorem readDescriptor_descriptorBytes (d : HidRdescDescriptor) :
    readDescriptor (descriptorBytes d) 0 = some (RdescHelpers.viewDescriptor d) := by
  have h := At.all (descriptorBytes d)
  have h0 : At (descriptorBytes d) (0 + cDescriptor.offsetOf "num_input_reports")
      (writeLE 1 d.numInputReports.toNat) := h.piece 0 rfl
  have h1 : At (descriptorBytes d) (0 + cDescriptor.offsetOf "num_output_reports")
      (writeLE 1 d.numOutputReports.toNat) := h.piece 1 rfl
  have h2 : At (descriptorBytes d) (0 + cDescriptor.offsetOf "num_feature_reports")
      (writeLE 1 d.numFeatureReports.toNat) := h.piece 2 rfl
  have h3 : At (descriptorBytes d) (0 + cDescriptor.offsetOf "input_reports")
      (d.inputReports.toList.flatMap reportBytes) := h.piece 3 rfl
  -- the offsets of the other arrays count the reports before them
  have hlength (v : Vector HidRdescReport HID_MAX_REPORTS) :
      (v.toList.flatMap reportBytes).length = 185408 :=
    (length_arrayBytes v length_reportBytes).trans (by decide)
  have h4 : At (descriptorBytes d) (0 + cDescriptor.offsetOf "output_reports")
      (d.outputReports.toList.flatMap reportBytes) := by
    have hoffset : cDescriptor.offsetOf "output_reports" = 185411 := by decide
    simpa [hoffset, hlength] using h.piece 4 rfl
  have h5 : At (descriptorBytes d) (0 + cDescriptor.offsetOf "feature_reports")
      (d.featureReports.toList.flatMap reportBytes) := by
    have hoffset : cDescriptor.offsetOf "feature_reports" = 370819 := by decide
    simpa [hoffset, hlength] using h.piece 5 rfl
  rw [readDescriptor, readU8_at h0, readU8_at h1, readU8_at h2, readReports_at h3,
    readReports_at h4, readReports_at h5]
  rfl

theorem flagsOfByte_packFlags (a : FieldAttributes) :
    RdescHelpers.flagsOfByte (packFlags a) =
      ⟨a.isRelative, a.wraps, a.isNonlinear, a.hasNoPreferredState, a.hasNullState,
        a.isVolatile.getD false, a.isBufferedBytes, false⟩ := by
  have hall : ∀ b0 b1 b2 b3 b4 b5 b6 : Bool,
      RdescHelpers.flagsOfByte (packFlags ⟨b0, b1, b2, b3, b4, some b5, b6⟩) =
        ⟨b0, b1, b2, b3, b4, b5, b6, false⟩ := by decide
  exact hall a.isRelative a.wraps a.isNonlinear a.hasNoPreferredState a.hasNullState
    (a.isVolatile.getD false) a.isBufferedBytes

/-- The C side reads back every value at every path; for what the conversion built the
flags are the attributes, and an array's `usage_id` is its `usage_minimum`. -/
theorem raw_bytes_read_back :
    (∀ d : HidRdescDescriptor, (descriptorBytes d).length = cDescriptor.size ∧
      readDescriptor (descriptorBytes d) 0 = some (RdescHelpers.viewDescriptor d)) ∧
    (∀ vf : VariableField, ∃ c, HidRdescField.fromField (.variableField vf) = some c ∧
      (RdescHelpers.viewField c).flags = ⟨vf.attributes.isRelative, vf.attributes.wraps,
        vf.attributes.isNonlinear, vf.attributes.hasNoPreferredState,
        vf.attributes.hasNullState, vf.attributes.isVolatile.getD false,
        vf.attributes.isBufferedBytes, false⟩) ∧
    ∀ af : ArrayField, ∃ c, HidRdescField.fromField (.arrayField af) = some c ∧
      (RdescHelpers.viewField c).flags = ⟨af.attributes.isRelative, af.attributes.wraps,
        af.attributes.isNonlinear, af.attributes.hasNoPreferredState,
        af.attributes.hasNullState, af.attributes.isVolatile.getD false,
        af.attributes.isBufferedBytes, false⟩ ∧
      (RdescHelpers.viewField c).usageId = (RdescHelpers.viewField c).usageMinimum := by
  refine ⟨fun d => ⟨length_descriptorBytes d, readDescriptor_descriptorBytes d⟩, fun vf => ?_,
    fun af => ?_⟩
  · exact ⟨_, fillCollections_eq vf.collections rfl, flagsOfByte_packFlags vf.attributes⟩
  · exact ⟨_, fillCollections_eq af.collections rfl, flagsOfByte_packFlags af.attributes, rfl⟩

end RdescLayout
