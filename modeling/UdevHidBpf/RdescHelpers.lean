import UdevHidBpf.RdescStructs
import Mathlib.Tactic.Linarith

/-! # The BPF side of `HID_REPORT_DESCRIPTOR`

The C structs, what they show of an injected Rust value, and the `for_each` macros over
their arrays. -/
namespace RdescHelpers

open ArrayFill RdescStructs

structure HidRdescCollection where
  usagePage : UInt16
  usageId : UInt16
  collectionType : UInt8
  deriving DecidableEq, Repr

structure Flags where
  isRelative : Bool
  wraps : Bool
  isNonlinear : Bool
  hasNoPreferredState : Bool
  hasNullState : Bool
  isVolatile : Bool
  isBufferedBytes : Bool
  reserved : Bool
  deriving DecidableEq, Repr

/-- `usageId` overlays `usageMinimum`; `usageMaximum` is unset where only `usage_id` was
written to the union. -/
structure HidRdescField where
  fieldType : UInt8
  numCollections : UInt8
  bitsStart : UInt16
  bitsEnd : UInt16
  usagePage : UInt16
  usageId : UInt16
  usageMinimum : UInt16
  usageMaximum : Option UInt16
  logicalMinimum : Int32
  logicalMaximum : Int32
  flags : Flags
  collections : Vector HidRdescCollection HID_MAX_COLLECTIONS
  deriving DecidableEq

structure HidRdescReport where
  reportId : UInt8
  sizeInBits : UInt16
  numFields : UInt8
  fields : Vector HidRdescField HID_MAX_FIELDS
  deriving DecidableEq

structure HidRdescDescriptor where
  numInputReports : UInt8
  numOutputReports : UInt8
  numFeatureReports : UInt8
  inputReports : Vector HidRdescReport HID_MAX_REPORTS
  outputReports : Vector HidRdescReport HID_MAX_REPORTS
  featureReports : Vector HidRdescReport HID_MAX_REPORTS
  deriving DecidableEq

def viewCollection (c : RdescStructs.HidRdescCollection) : HidRdescCollection :=
  ⟨c.usagePage, c.usageId, c.collectionType⟩

def flagsOfByte (b : UInt8) : Flags where
  isRelative := b.toNat.testBit 0
  wraps := b.toNat.testBit 1
  isNonlinear := b.toNat.testBit 2
  hasNoPreferredState := b.toNat.testBit 3
  hasNullState := b.toNat.testBit 4
  isVolatile := b.toNat.testBit 5
  isBufferedBytes := b.toNat.testBit 6
  reserved := b.toNat.testBit 7

def unionLow : UsageIdUnion → UInt16
  | .usageId id => id
  | .anonRange range => range.usageMinimum

def unionHigh : UsageIdUnion → Option UInt16
  | .usageId _ => none
  | .anonRange range => some range.usageMaximum

def viewField (f : RdescStructs.HidRdescField) : HidRdescField where
  fieldType := f.fieldType
  numCollections := f.numCollections
  bitsStart := f.bitsStart
  bitsEnd := f.bitsEnd
  usagePage := f.usagePage
  usageId := unionLow f.anonUsageId
  usageMinimum := unionLow f.anonUsageId
  usageMaximum := unionHigh f.anonUsageId
  logicalMinimum := f.logicalMinimum
  logicalMaximum := f.logicalMaximum
  flags := flagsOfByte f.flags
  collections := f.collections.map viewCollection

def viewReport (r : RdescStructs.HidRdescReport) : HidRdescReport :=
  ⟨r.reportId, r.sizeInBits, r.numFields, r.fields.map viewField⟩

def viewDescriptor (d : RdescStructs.HidRdescDescriptor) : HidRdescDescriptor where
  numInputReports := d.numInputReports
  numOutputReports := d.numOutputReports
  numFeatureReports := d.numFeatureReports
  inputReports := d.inputReports.map viewReport
  outputReports := d.outputReports.map viewReport
  featureReports := d.featureReports.map viewReport

def BPF_MAX_LOOPS : ℤ := 8388608

/-- `bpf_iter_num`: `range` is what an iterator has still to yield. -/
structure BpfIterNum where
  It : Type
  new : ℤ → ℤ → It
  next : It → Option ℤ × It
  range : It → ℤ × ℤ
  range_new (start end_ : ℤ) (h : start ≤ end_) (hmax : end_ - start ≤ BPF_MAX_LOOPS) :
    range (new start end_) = (start, end_)
  next_some (it : It) (h : (range it).1 < (range it).2) :
    (next it).1 = some (range it).1 ∧ range (next it).2 = ((range it).1 + 1, (range it).2)
  next_none (it : It) (h : (range it).2 ≤ (range it).1) : (next it).1 = none

/-- The iterator of the test suite. -/
structure PrivateBpfNumIterator where
  start : ℤ
  end_ : ℤ
  currentValue : Option ℤ

def PrivateBpfNumIterator.upcoming (it : PrivateBpfNumIterator) : ℤ :=
  match it.currentValue with
  | none => it.start
  | some c => c + 1

def privateBpfIterNum : BpfIterNum where
  It := PrivateBpfNumIterator
  new start end_ := ⟨start, end_, none⟩
  next it :=
    (if it.end_ ≤ it.upcoming then none else some it.upcoming,
      { it with currentValue := some it.upcoming })
  range it := (it.upcoming, it.end_)
  range_new _ _ _ _ := rfl
  next_some it h := ⟨if_neg (by omega), rfl⟩
  next_none it h := if_pos h

section macros

variable {β : Type} {n : ℕ} (iter : BpfIterNum)

/-- The loop of `__hid_bpf_for_each_array`, as the list of what it visits. `none` is an
access outside the array or a loop that is not over. -/
def forEachFrom (array : Vector β n) (numElements maxElements : ℕ) : ℕ → iter.It → Option (List β)
  | 0, _ => none
  | fuel + 1, it =>
    match iter.next it with
    | (none, _) => some []
    | (some i, it') =>
      if 0 ≤ i ∧ i < numElements ∧ numElements ≤ maxElements then do
        let var ← array[i.toNat]?
        let rest ← forEachFrom array numElements maxElements fuel it'
        some (var :: rest)
      else some []

def forEachArray (array : Vector β n) (numElements maxElements fuel : ℕ) : Option (List β) :=
  forEachFrom iter array numElements maxElements fuel
    (iter.new 0 (if numElements > maxElements then 0 else numElements))

variable (fuel : ℕ)

def forEachInputReport (descriptor : HidRdescDescriptor) : Option (List HidRdescReport) :=
  forEachArray iter descriptor.inputReports descriptor.numInputReports.toNat HID_MAX_REPORTS fuel

def forEachFeatureReport (descriptor : HidRdescDescriptor) : Option (List HidRdescReport) :=
  forEachArray iter descriptor.featureReports descriptor.numFeatureReports.toNat HID_MAX_REPORTS
    fuel

def forEachOutputReport (descriptor : HidRdescDescriptor) : Option (List HidRdescReport) :=
  forEachArray iter descriptor.outputReports descriptor.numOutputReports.toNat HID_MAX_REPORTS fuel

def forEachField (report : HidRdescReport) : Option (List HidRdescField) :=
  forEachArray iter report.fields report.numFields.toNat HID_MAX_FIELDS fuel

def forEachCollection (field : HidRdescField) : Option (List HidRdescCollection) :=
  forEachArray iter field.collections field.numCollections.toNat HID_MAX_COLLECTIONS fuel

end macros

section visiting

variable {α β γ : Type} {n : ℕ} {iter : BpfIterNum}

theorem forEachFrom_eq {array : Vector β n} {num max i fuel : ℕ} {it : iter.It}
    (hmax : num ≤ max) (hn : num ≤ n) (hi : i ≤ num) (hr : iter.range it = ((i : ℤ), (num : ℤ)))
    (hfuel : num - i < fuel) :
    forEachFrom iter array num max fuel it = some ((array.toList.take num).drop i) := by
  induction fuel generalizing i it with
  | zero => omega
  | succ fuel ih =>
    unfold forEachFrom
    rcases Nat.lt_or_ge i num with h | h
    · obtain ⟨hval, hrest⟩ := iter.next_some it (by rw [hr]; exact Int.ofNat_lt.mpr h)
      rw [hr] at hval hrest
      have hlen : i < array.toList.length := by
        rw [Vector.length_toList]
        omega
      have hget : array[i]? = some array.toList[i] := by
        simp [Vector.getElem?_eq_getElem (show i < n by omega)]
      have hdrop : (array.toList.take num).drop i =
          array.toList[i] :: (array.toList.take num).drop (i + 1) := by
        rw [List.drop_eq_getElem_cons (by rw [List.length_take]; omega), List.getElem_take]
      rw [show iter.next it = ((iter.next it).1, (iter.next it).2) from rfl, hval]
      simp only [Int.toNat_natCast]
      rw [if_pos ⟨by omega, by omega, hmax⟩, hget,
        ih (show i + 1 ≤ num by omega) (by rw [hrest]; simp) (by omega), hdrop]
      rfl
    · have hnone := iter.next_none it (by rw [hr]; exact Int.ofNat_le.mpr h)
      rw [show iter.next it = ((iter.next it).1, (iter.next it).2) from rfl, hnone]
      rw [List.drop_of_length_le (by rw [List.length_take]; omega)]

theorem forEachArray_eq {array : Vector β n} {num max fuel : ℕ} (hmax : num ≤ max) (hn : num ≤ n)
    (hloops : num ≤ 255) (hfuel : num < fuel) :
    forEachArray iter array num max fuel = some (array.toList.take num) := by
  unfold forEachArray
  rw [if_neg (by omega)]
  have hr := iter.range_new 0 num (by omega) (by simp only [BPF_MAX_LOOPS]; omega)
  rw [forEachFrom_eq (i := 0) hmax hn (by omega) hr (by omega), List.drop_zero]

end visiting

/-- A loop over slots visits the images of the first `max` items in order, and the slots
after the last item hold the default. -/
structure Mirrors {α β γ : Type} {max : ℕ} (loop : ℕ → Option (List γ)) (R : α → γ → Prop)
    (items : List α) (slots : Vector β max) (default : β) : Prop where
  visits : ∃ visited, (∀ fuel, max < fuel → loop fuel = some visited) ∧
    List.Forall₂ R (items.take max) visited
  default_beyond : ∀ i (h : i < max), items.length ≤ i → slots[i] = default

def FieldMirrored (iter : BpfIterNum) (field : Field) (c : HidRdescField) : Prop :=
  ∃ f, HidRdescField.fromField field = some f ∧ c = viewField f ∧
    Mirrors (fun fuel => forEachCollection iter fuel c)
      (fun collection v => v = viewCollection (.fromCollection collection))
      field.collections f.collections HidRdescCollection.default

def ReportMirrored (iter : BpfIterNum) (report : Report) (c : HidRdescReport) : Prop :=
  ∃ r, HidRdescReport.fromReport report = some r ∧ c = viewReport r ∧
    r.reportId = report.reportId.getD 0 ∧
    Mirrors (fun fuel => forEachField iter fuel c) (FieldMirrored iter)
      report.fields r.fields HidRdescField.default

section mirroring

variable {α β γ : Type} {max : ℕ} (iter : BpfIterNum)

/-- The capped count that the writer casts to a byte is what the reader iterates to. -/
theorem mirrors_padded (g : α → β) (view : β → γ) (hmax : max ≤ 255) {R : α → γ → Prop}
    {items : List α} (hR : ∀ a ∈ items, R a (view (g a))) {slots : Vector β max} {d : β}
    (hslots : slots = padded max d ((items.take max).map g)) {num : UInt8}
    (hnum : num = UInt8.ofNat (min items.length max)) :
    Mirrors (fun fuel => forEachArray iter (slots.map view) num.toNat max fuel) R items slots d := by
  subst hslots hnum
  have hnum : (UInt8.ofNat (min items.length max)).toNat = min items.length max := by
    rw [UInt8.toNat_ofNat']
    exact Nat.mod_eq_of_lt (by omega)
  have hvisited : (((padded max d ((items.take max).map g)).map view).toList).take
      (min items.length max) = (items.take max).map (view ∘ g) := by
    refine List.ext_getElem ?_ fun i hi hi' => ?_
    · simp [Nat.min_comm]
    · simp only [List.length_map, List.length_take] at hi'
      simp [padded_getElem, show i < max by omega, show i < items.length by omega]
  constructor
  · refine ⟨(items.take max).map (view ∘ g), fun fuel hfuel => ?_, ?_⟩
    · rw [hnum, forEachArray_eq (by omega) (by omega) (by omega) (by omega), hvisited]
    · rw [List.forall₂_map_right_iff, List.forall₂_same]
      exact fun a ha => hR a (List.mem_of_mem_take ha)
  · intro i hi hbeyond
    simp [padded_getElem, List.getElem?_eq_none hbeyond, List.getElem?_take]

theorem fieldMirrored (field : Field) :
    FieldMirrored iter field (viewField (convertedField field)) := by
  obtain ⟨f, hf, -, -, hnum, hslots⟩ := fromField_spec field
  have he : convertedField field = f := by simp [convertedField, hf]
  rw [he]
  refine ⟨f, hf, rfl, ?_⟩
  refine mirrors_padded iter HidRdescCollection.fromCollection viewCollection (by decide) ?_ hslots
    hnum
  intro collection _
  rfl

theorem reportMirrored (report : Report) :
    ReportMirrored iter report (viewReport (convertedReport report)) := by
  have he := convertedReport_eq report
  refine ⟨convertedReport report, by rw [he, fromReport_eq], rfl, by rw [he], ?_⟩
  refine mirrors_padded iter convertedField viewField (by decide)
    (fun field _ => fieldMirrored iter field) ?_ ?_
  · rw [he]
  · simp only [viewReport, he]

end mirroring

/-- The loops visit the conversions of the first 16 reports of each kind, of the first 64
fields of each and of the first 32 collections of each that is not constant. -/
theorem for_each_visits_source (iter : BpfIterNum) (rdesc : ReportDescriptor) :
    ∃ d, HidRdescDescriptor.fromReportDescriptor rdesc = some d ∧
      Mirrors (fun fuel => forEachInputReport iter fuel (viewDescriptor d))
        (ReportMirrored iter) rdesc.inputReports d.inputReports HidRdescReport.default ∧
      Mirrors (fun fuel => forEachOutputReport iter fuel (viewDescriptor d))
        (ReportMirrored iter) rdesc.outputReports d.outputReports HidRdescReport.default ∧
      Mirrors (fun fuel => forEachFeatureReport iter fuel (viewDescriptor d))
        (ReportMirrored iter) rdesc.featureReports d.featureReports HidRdescReport.default := by
  have hreport : ∀ reports : List Report, ∀ report ∈ reports,
      ReportMirrored iter report (viewReport (convertedReport report)) :=
    fun _ report _ => reportMirrored iter report
  exact ⟨_, fromReportDescriptor_eq rdesc,
    mirrors_padded iter convertedReport viewReport (by decide) (hreport rdesc.inputReports) rfl rfl,
    mirrors_padded iter convertedReport viewReport (by decide) (hreport rdesc.outputReports) rfl rfl,
    mirrors_padded iter convertedReport viewReport (by decide) (hreport rdesc.featureReports) rfl rfl⟩

end RdescHelpers
