import UdevHidBpf.BpfErrors
import UdevHidBpf.ExtractBits

/-! # The pad type of a touchpad

`probe` of the generic touchpad program looks for the pad type in the injected descriptor,
asks the device for that feature report and reads the field out of the answer. -/
namespace PadTypeProbe

open BpfErrors ExtractBits LittleEndian RdescHelpers
open RdescStructs (Field Report ReportDescriptor convertedField convertedReport)

def HidUsagePage_Digitizers : UInt16 := 0x0d
def HidUsage_Dig_PadType : UInt16 := 0x59
def HW_REQ_BUF_SIZE : ℕ := 1024

def isPadType (field : HidRdescField) : Bool :=
  field.usagePage == HidUsagePage_Digitizers && field.usageId == HidUsage_Dig_PadType

/-- The two loops; the inner `break` ends both. The outer `none` is a loop that goes wrong. -/
def searchReports (iter : BpfIterNum) (fuel : ℕ) :
    List HidRdescReport → Option (Option (HidRdescReport × HidRdescField))
  | [] => some none
  | feature :: features =>
    (forEachField iter fuel feature).bind fun fields =>
      match fields.find? isPadType with
      | some field => some (some (feature, field))
      | none => searchReports iter fuel features

/-- The kernel's side: whether a context can be allocated, and `hid_bpf_hw_request` on a
buffer, with its return value and the buffer after it. -/
structure Device where
  allocates : Bool
  hwRequest : List UInt8 → ℤ × List UInt8

def padTypeStr (value : UInt32) : String :=
  if value = 0 then "Clickpad"
  else if value = 1 then "Pressurepad"
  else if value = 2 then "Discrete"
  else "Unknown"

/-- What a call leaves behind: its return value, `ctx->retval` where it is written, the value
of the `switch` and the property. -/
structure Probed where
  ret : ℤ
  retval : Option ℤ
  switched : Option UInt32
  HID_DIGITIZER_PAD_TYPE : Option String
  deriving DecidableEq

/-- `none` is an access outside an array, or a loop that is not over. -/
def probe (iter : BpfIterNum) (fuel : ℕ) (device : Device) (descriptor : HidRdescDescriptor) :
    Option Probed := do
  let features ← forEachFeatureReport iter fuel descriptor
  match ← searchReports iter fuel features with
  | none => some ⟨0, some (-EINVAL), none, none⟩
  | some (padTypeFeature, padType) =>
    if device.allocates = false then some ⟨-1, none, none, none⟩
    else
      let answer := device.hwRequest
        (padTypeFeature.reportId :: List.replicate (HW_REQ_BUF_SIZE - 1) 0)
      if answer.1 < 0 then some ⟨0, some answer.1, none, none⟩
      else do
        let value ← extractBits answer.2 HW_REQ_BUF_SIZE padType
        some ⟨0, some 0, some value, some (padTypeStr value)⟩

def number (report : Report) : UInt8 := report.reportId.getD 0

def idBits (report : Report) : ℕ := if report.reportId.isSome then 8 else 0

abbrev Content := UInt8 → List UInt8

def Content.Fits (content : Content) (rdesc : ReportDescriptor) : Prop :=
  ∀ report ∈ rdesc.featureReports,
    (content (number report)).length = (report.sizeInBits - idBits report + 7) / 8

/-- The buffer after GET_REPORT: the number, then the data, as far as it goes. -/
def answerOf (content : Content) (number : UInt8) : List UInt8 :=
  (number :: content number ++ List.replicate HW_REQ_BUF_SIZE 0).take HW_REQ_BUF_SIZE

def answering (content : Content) : Device where
  allocates := true
  hwRequest request :=
    (((content (request.headD 0)).length + 1 : ℕ), answerOf content (request.headD 0))

def firstField (p : Field → Bool) (reports : List Report) : Option (Report × Field) :=
  reports.findSome? fun report => (report.fields.find? p).map (report, ·)

def isVariablePadType : Field → Bool
  | .variableField vf =>
    vf.usage.usagePage == HidUsagePage_Digitizers && vf.usage.usageId == HidUsage_Dig_PadType
  | _ => false

def fieldValue (report : Report) (field : Field) (data : List UInt8) : Option ℕ :=
  if field.bits.start < field.bits.end_ then
    some (bitRange data (field.bits.start - idBits report) (field.bits.end_ - idBits report))
  else none

/-- The probe reads the pad type of every device with this descriptor, and reports the
descriptors without one. -/
def ReadsPadType (iter : BpfIterNum) (rdesc : ReportDescriptor) : Prop :=
  ∃ d, RdescStructs.HidRdescDescriptor.fromReportDescriptor rdesc = some d ∧
    ∀ fuel > 64, ∀ content : Content, content.Fits rdesc →
      ∃ p, probe iter fuel (answering content) (viewDescriptor d) = some p ∧
        match firstField isVariablePadType rdesc.featureReports with
        | none => p.retval = some (-(EINVAL : ℤ))
        | some (report, field) =>
          ∃ v, fieldValue report field (content (number report)) = some v ∧
            p.switched.map UInt32.toNat = some v

/-- The limits of the injected arrays. -/
structure WithinLimits (rdesc : ReportDescriptor) : Prop where
  reports : rdesc.featureReports.length ≤ RdescStructs.HID_MAX_REPORTS
  fields : ∀ report ∈ rdesc.featureReports, report.fields.length ≤ RdescStructs.HID_MAX_FIELDS

/-- A parse of the device's descriptor: report numbers are distinct, and the fields of a
report follow each other behind its id and inside its size. -/
structure WellFormed (rdesc : ReportDescriptor) : Prop where
  numbers : (rdesc.featureReports.map number).Nodup
  behind_id : ∀ report ∈ rdesc.featureReports, ∀ field ∈ report.fields,
    idBits report ≤ field.bits.start
  inside : ∀ report ∈ rdesc.featureReports, ∀ field ∈ report.fields,
    field.bits.end_ ≤ report.sizeInBits
  ordered : ∀ report ∈ rdesc.featureReports,
    report.fields.Pairwise fun field next => field.bits.end_ ≤ next.bits.start

/-- The usage of a variable field, or the first usage of an array field. -/
def matchedUsage : Field → Option RdescStructs.Usage
  | .variableField vf => some vf.usage
  | .arrayField af => af.usages.head?
  | .constantField _ => none

def isMatched (field : Field) : Bool :=
  (matchedUsage field).any fun usage =>
    usage.usagePage == HidUsagePage_Digitizers && usage.usageId == HidUsage_Dig_PadType

theorem view_isPadType (field : Field) :
    isPadType (viewField (convertedField field)) = isMatched field := by
  cases field with
  | variableField vf =>
    have hfield : RdescStructs.HidRdescField.fromField (.variableField vf) = some _ :=
      RdescStructs.fillCollections_eq vf.collections rfl
    rw [convertedField, hfield]
    rfl
  | arrayField af =>
    obtain ⟨hunion, hpage⟩ := RdescStructs.converted_array af
    simp only [isPadType, viewField, hunion, hpage, unionLow, isMatched, matchedUsage]
    cases af.usages.head? with
    | none => rfl
    | some usage => rfl
  | constantField cf => rfl

theorem matched_of_variable {field : Field} (h : isVariablePadType field) : isMatched field := by
  cases field with
  | variableField vf => exact h
  | arrayField af => cases h
  | constantField cf => cases h

theorem forall₂_map {α β : Type} {R : α → β → Prop} {g : α → β} (hR : ∀ a b, R a b → b = g a)
    {items : List α} {visited : List β} (h : List.Forall₂ R items visited) :
    visited = items.map g := by
  induction h with
  | nil => rfl
  | cons hab _ ih => rw [List.map_cons, hR _ _ hab, ih]

theorem mirrored_field {iter : BpfIterNum} {field : Field} {c : HidRdescField}
    (h : FieldMirrored iter field c) : c = viewField (convertedField field) := by
  obtain ⟨f, hf, rfl, -⟩ := h
  rw [convertedField, hf, Option.getD_some]

theorem mirrored_report {iter : BpfIterNum} {report : Report} {c : HidRdescReport}
    (h : ReportMirrored iter report c) : c = viewReport (convertedReport report) := by
  obtain ⟨r, hr, rfl, -⟩ := h
  rw [convertedReport, hr, Option.getD_some]

theorem visited_fields (iter : BpfIterNum) {fuel : ℕ} (hfuel : 64 < fuel) (report : Report) :
    forEachField iter fuel (viewReport (convertedReport report)) =
      some ((report.fields.take RdescStructs.HID_MAX_FIELDS).map
        fun field => viewField (convertedField field)) := by
  obtain ⟨r, -, -, -, ⟨visited, hvisits, hrel⟩, -⟩ := reportMirrored iter report
  rw [hvisits fuel hfuel, forall₂_map (g := fun field => viewField (convertedField field))
    (fun _ _ h => mirrored_field h) hrel]

theorem search_eq (iter : BpfIterNum) {fuel : ℕ} (hfuel : 64 < fuel) (reports : List Report)
    (hfields : ∀ report ∈ reports, report.fields.length ≤ RdescStructs.HID_MAX_FIELDS) :
    searchReports iter fuel (reports.map fun report => viewReport (convertedReport report)) =
      some ((firstField isMatched reports).map fun x =>
        (viewReport (convertedReport x.1), viewField (convertedField x.2))) := by
  induction reports with
  | nil => rfl
  | cons report reports ih =>
    have htake : report.fields.take RdescStructs.HID_MAX_FIELDS = report.fields :=
      List.take_of_length_le (hfields report List.mem_cons_self)
    have hfind : (report.fields.map fun field => viewField (convertedField field)).find? isPadType
        = (report.fields.find? isMatched).map fun field => viewField (convertedField field) := by
      rw [List.find?_map]
      congr 2
      exact funext view_isPadType
    rw [List.map_cons, searchReports, visited_fields iter hfuel, htake, Option.bind_some, hfind,
      firstField, List.findSome?_cons]
    cases report.fields.find? isMatched with
    | some field => rfl
    | none => exact ih fun r hr => hfields r (List.mem_cons_of_mem _ hr)

theorem probe_eq (iter : BpfIterNum) {fuel : ℕ} (hfuel : 64 < fuel) (content : Content)
    {rdesc : ReportDescriptor} (hlimits : WithinLimits rdesc) :
    ∃ d, RdescStructs.HidRdescDescriptor.fromReportDescriptor rdesc = some d ∧
      probe iter fuel (answering content) (viewDescriptor d) =
        match firstField isMatched rdesc.featureReports with
        | none => some ⟨0, some (-EINVAL), none, none⟩
        | some (report, field) =>
          (extractBits (answerOf content (number report)) HW_REQ_BUF_SIZE
            (viewField (convertedField field))).map fun value =>
              ⟨0, some 0, some value, some (padTypeStr value)⟩ := by
  obtain ⟨d, hd, -, -, ⟨visited, hvisits, hrel⟩, -⟩ := for_each_visits_source iter rdesc
  have htake : rdesc.featureReports.take RdescStructs.HID_MAX_REPORTS = rdesc.featureReports :=
    List.take_of_length_le hlimits.reports
  rw [htake] at hrel
  refine ⟨d, hd, ?_⟩
  rw [probe, hvisits fuel (lt_trans (by decide) hfuel),
    forall₂_map (g := fun report => viewReport (convertedReport report))
      (fun _ _ h => mirrored_report h) hrel]
  simp only [Option.bind_eq_bind, Option.bind_some, search_eq iter hfuel _ hlimits.fields]
  cases firstField isMatched rdesc.featureReports with
  | none => rfl
  | some x =>
    obtain ⟨report, field⟩ := x
    have hid : (viewReport (convertedReport report)).reportId = number report := by
      rw [RdescStructs.convertedReport_eq]
      rfl
    simp only [Option.map_some, answering, Bool.true_eq_false, if_false, hid, List.headD_cons]
    rw [if_neg (by omega)]
    cases extractBits (answerOf content (number report)) HW_REQ_BUF_SIZE
      (viewField (convertedField field)) <;> rfl

/-- The bits `s..e` of a number, zero where `extract_bits` gives up. -/
def readValue (s e x : ℕ) : ℕ :=
  if s < e ∧ e ≤ s + 32 ∧ e ≤ 8 * HW_REQ_BUF_SIZE then x / 2 ^ s % 2 ^ (e - s) else 0

theorem length_answer (content : Content) (n : UInt8) :
    (answerOf content n).length = HW_REQ_BUF_SIZE := by
  rw [answerOf, List.length_take, List.length_append, List.length_replicate]
  omega

theorem value_answer (content : Content) (n : UInt8) :
    value (answerOf content n) = value (n :: content n) % 2 ^ (8 * HW_REQ_BUF_SIZE) := by
  rw [answerOf, value_take, value_append, value_replicate_zero, Nat.mul_zero, Nat.add_zero]

theorem readValue_lt (s e x : ℕ) : readValue s e x < 2 ^ 32 := by
  rw [readValue]
  split
  · rename_i h
    exact lt_of_lt_of_le (Nat.mod_lt _ (Nat.two_pow_pos _))
      (Nat.pow_le_pow_right (by decide) (by omega))
  · exact Nat.two_pow_pos 32

theorem extract_answer (content : Content) (n : UInt8) (field : HidRdescField) :
    ∃ v, extractBits (answerOf content n) HW_REQ_BUF_SIZE field = some v ∧
      v.toNat = readValue field.bitsStart.toNat field.bitsEnd.toNat (value (n :: content n)) := by
  have hlen := length_answer content n
  by_cases h : field.bitsStart.toNat < field.bitsEnd.toNat ∧
      field.bitsEnd.toNat ≤ field.bitsStart.toNat + 32 ∧
      field.bitsEnd.toNat ≤ 8 * HW_REQ_BUF_SIZE
  · refine ⟨_, extractBits_eq hlen.ge h.1 h.2.1 (by omega), ?_⟩
    rw [bitRange, value_answer, range_mod h.1.le h.2.2]
    have hread := readValue_lt field.bitsStart.toNat field.bitsEnd.toNat (value (n :: content n))
    rw [readValue, if_pos h] at hread ⊢
    rw [UInt32.toNat_ofNat', Nat.mod_eq_of_lt hread]
  · refine ⟨0, ?_, by rw [readValue, if_neg h]; rfl⟩
    -- one of the guards of the source holds
    have hend : field.bitsStart.toNat < field.bitsEnd.toNat →
        fieldEndByte field = (field.bitsEnd.toNat - 1) / 8 := fieldEndByte_eq
    unfold extractBits
    simp only
    rw [if_pos]
    by_contra hguard
    push Not at hguard
    have := hend (by omega)
    omega

theorem readValue_high {s e j : ℕ} (x : ℕ) (hj : e ≤ 8 * HW_REQ_BUF_SIZE → e ≤ j) :
    readValue s e (x + 2 ^ j) = readValue s e x := by
  rw [readValue, readValue]
  split
  · rename_i h
    have hej := hj h.2.2
    obtain ⟨t, rfl⟩ : ∃ t, j = e + t := ⟨j - e, by omega⟩
    rw [← range_mod (x := x + 2 ^ (e + t)) h.1.le le_rfl, ← range_mod (x := x) h.1.le le_rfl,
      pow_add, Nat.add_mul_mod_self_left]
  · rfl

theorem readValue_even {s e j : ℕ} (hj : s < j) : readValue s e (2 ^ j) ≠ 1 := by
  rw [readValue]
  split
  · rename_i h
    obtain ⟨t, rfl⟩ : ∃ t, j = s + (t + 1) := ⟨j - s - 1, by omega⟩
    obtain ⟨m, hm⟩ : ∃ m, e - s = m + 1 := ⟨e - s - 1, by omega⟩
    rw [pow_add, Nat.mul_div_cancel_left _ (Nat.two_pow_pos s), hm, pow_succ, pow_succ,
      Nat.mul_mod_mul_right]
    omega
  · decide

def dataLength (report : Report) : ℕ := (report.sizeInBits - idBits report + 7) / 8

def blank (rdesc : ReportDescriptor) : Content := fun n =>
  match rdesc.featureReports.find? fun report => number report == n with
  | none => []
  | some report => List.replicate (dataLength report) 0

/-- Bit `k` of one report is set, the other data is zero. -/
def marked (rdesc : ReportDescriptor) (report : Report) (k : ℕ) : Content :=
  Function.update (blank rdesc) (number report) (oneHot k (dataLength report))

variable {rdesc : ReportDescriptor}

theorem number_inj (hparse : WellFormed rdesc) {r r' : Report} (hr : r ∈ rdesc.featureReports)
    (hr' : r' ∈ rdesc.featureReports) (h : number r = number r') : r = r' :=
  List.inj_on_of_nodup_map hparse.numbers hr hr' h

theorem blank_fits (hparse : WellFormed rdesc) : (blank rdesc).Fits rdesc := by
  intro report hreport
  rw [blank]
  cases hfind : rdesc.featureReports.find? fun r => number r == number report with
  | none => exact absurd (List.find?_eq_none.1 hfind report hreport) (by simp)
  | some r =>
    have hr := List.mem_of_find?_eq_some hfind
    have hnum : number r = number report := by simpa using List.find?_some hfind
    obtain rfl := number_inj hparse hr hreport hnum
    simp [dataLength]

theorem value_blank (n : UInt8) : value (blank rdesc n) = 0 := by
  rw [blank]
  split
  · rfl
  · exact value_replicate_zero _

theorem marked_fits (hparse : WellFormed rdesc) {report : Report}
    (hreport : report ∈ rdesc.featureReports) {k : ℕ} (hk : k < 8 * dataLength report) :
    (marked rdesc report k).Fits rdesc := by
  intro r hr
  by_cases h : number r = number report
  · obtain rfl := number_inj hparse hr hreport h
    rw [marked, Function.update_self, length_oneHot hk, dataLength]
  · rw [marked, Function.update_of_ne h]
    exact blank_fits hparse r hr

theorem bit_lt (hparse : WellFormed rdesc) {report : Report} {field : Field}
    (hreport : report ∈ rdesc.featureReports) (hfield : field ∈ report.fields) {k : ℕ}
    (hk : k + idBits report < field.bits.end_) : k < 8 * dataLength report := by
  have := hparse.inside report hreport field hfield
  rw [dataLength]
  omega

theorem firstField_split {p : Field → Bool} {reports : List Report} {report : Report}
    {field : Field} (h : firstField p reports = some (report, field)) :
    ∃ before after front rest, reports = before ++ report :: after ∧
      (∀ r ∈ before, ∀ f ∈ r.fields, ¬ p f) ∧ report.fields = front ++ field :: rest ∧
      p field ∧ ∀ f ∈ front, ¬ p f := by
  obtain ⟨before, r, after, hsplit, hr, hbefore⟩ := List.findSome?_eq_some_iff.1 h
  obtain ⟨f, hf, hpair⟩ := Option.map_eq_some_iff.1 hr
  obtain ⟨rfl, rfl⟩ := Prod.mk.inj hpair
  obtain ⟨hp, front, rest, hfields, hfront⟩ := List.find?_eq_some_iff_append.1 hf
  refine ⟨before, after, front, rest, hsplit, ?_, hfields, hp, ?_⟩
  · intro r hr f hf
    have hnone := hbefore r hr
    rw [Option.map_eq_none_iff, List.find?_eq_none] at hnone
    exact hnone f hf
  · intro f hf
    simpa using hfront f hf

section narrower

variable {p q : Field → Bool} {reports : List Report} {r r' : Report} {f f' : Field}

/-- The search for a narrower kind takes the first of the wider kind or goes on behind it. -/
theorem firstField_skip (hqp : ∀ f, q f → p f) (hp : firstField p reports = some (r, f)) :
    ∃ before after front rest, reports = before ++ r :: after ∧ r.fields = front ++ f :: rest ∧
      firstField q reports =
        if q f then some (r, f)
        else ((rest.find? q).map (r, ·)).or (firstField q after) := by
  obtain ⟨before, after, front, rest, rfl, hbefore, hfields, -, hfront⟩ := firstField_split hp
  have hskip : before.findSome? (fun report => (report.fields.find? q).map (report, ·)) = none := by
    rw [List.findSome?_eq_none_iff]
    intro r hr
    rw [Option.map_eq_none_iff, List.find?_eq_none]
    intro f hf hqf
    exact hbefore r hr f hf (hqp f hqf)
  have hnone : front.find? q = none := by
    rw [List.find?_eq_none]
    intro f hf hqf
    exact hfront f hf (hqp f hqf)
  refine ⟨before, after, front, rest, rfl, hfields, ?_⟩
  rw [firstField, List.findSome?_append, hskip, Option.none_or, List.findSome?_cons, hfields,
    List.find?_append, hnone, Option.none_or]
  by_cases hqf : q f
  · rw [List.find?_cons_of_pos hqf, if_pos hqf]
    rfl
  · rw [List.find?_cons_of_neg hqf, if_neg hqf]
    cases rest.find? q with
    | some g => rfl
    | none => rfl

theorem first_of_narrower (hqp : ∀ f, q f → p f) (hp : firstField p reports = some (r, f))
    (hq : firstField q reports = some (r', f')) :
    (q f ∧ r' = r ∧ f' = f) ∨
      ∃ before after front rest, reports = before ++ r :: after ∧ r.fields = front ++ f :: rest ∧
        (r' ∈ after ∨ r' = r ∧ f' ∈ rest) := by
  obtain ⟨before, after, front, rest, hreports, hfields, hskip⟩ := firstField_skip hqp hp
  rw [hskip] at hq
  by_cases hqf : q f
  · rw [if_pos hqf] at hq
    obtain ⟨rfl, rfl⟩ := Prod.mk.inj (Option.some.inj hq)
    exact Or.inl ⟨hqf, rfl, rfl⟩
  · rw [if_neg hqf] at hq
    refine Or.inr ⟨before, after, front, rest, hreports, hfields, ?_⟩
    cases hrest : rest.find? q with
    | some g =>
      rw [hrest] at hq
      obtain ⟨rfl, rfl⟩ := Prod.mk.inj (Option.some.inj hq)
      exact Or.inr ⟨rfl, List.mem_of_find?_eq_some hrest⟩
    | none =>
      rw [hrest] at hq
      obtain ⟨_, _, _, _, hsplit, -⟩ := firstField_split hq
      exact Or.inl (by rw [hsplit]; simp)

theorem first_stays (hqp : ∀ f, q f → p f) (hp : firstField p reports = some (r, f))
    (hqf : q f) : firstField q reports = some (r, f) := by
  obtain ⟨_, _, _, _, -, -, hskip⟩ := firstField_skip hqp hp
  rw [hskip, if_pos hqf]

theorem no_first (hqp : ∀ f, q f → p f) (hp : firstField p reports = none) :
    firstField q reports = none := by
  rw [firstField, List.findSome?_eq_none_iff] at hp ⊢
  intro report hreport
  have hnone := hp report hreport
  rw [Option.map_eq_none_iff, List.find?_eq_none] at hnone ⊢
  intro f hf hqf
  exact hnone f hf (hqp f hqf)

end narrower

theorem firstField_mem {p : Field → Bool} {reports : List Report} {report : Report}
    {field : Field} (h : firstField p reports = some (report, field)) :
    report ∈ reports ∧ field ∈ report.fields ∧ p field := by
  obtain ⟨before, after, front, rest, rfl, -, hfields, hp, -⟩ := firstField_split h
  refine ⟨by simp, ?_, hp⟩
  rw [hfields]
  simp

/-- The first match is a variable field of a numbered report, of 1 to 32 bits inside the
buffer; or there is no match. -/
def PadTypeReadable (rdesc : ReportDescriptor) : Prop :=
  match firstField isMatched rdesc.featureReports with
  | none => True
  | some (report, field) => isVariablePadType field ∧ report.reportId.isSome ∧
      field.bits.start < field.bits.end_ ∧ field.bits.end_ ≤ field.bits.start + 32 ∧
      field.bits.end_ ≤ 8 * HW_REQ_BUF_SIZE

theorem converted_bits (field : Field) :
    (viewField (convertedField field)).bitsStart.toNat = field.bits.start % 65536 ∧
      (viewField (convertedField field)).bitsEnd.toNat = field.bits.end_ % 65536 := by
  obtain ⟨c, hc, hstart, hend, -⟩ := RdescStructs.fromField_spec field
  rw [convertedField, hc, Option.getD_some, viewField, hstart, hend]
  exact ⟨UInt16.toNat_ofNat', UInt16.toNat_ofNat'⟩

def probedValue (report : Report) (field : Field) (content : Content) : ℕ :=
  readValue (field.bits.start % 65536) (field.bits.end_ % 65536)
    (value (number report :: content (number report)))

theorem probe_found (iter : BpfIterNum) {fuel : ℕ} (hfuel : 64 < fuel) (content : Content)
    (hlimits : WithinLimits rdesc) {report : Report} {field : Field}
    (hfirst : firstField isMatched rdesc.featureReports = some (report, field)) :
    ∃ d v, RdescStructs.HidRdescDescriptor.fromReportDescriptor rdesc = some d ∧
      probe iter fuel (answering content) (viewDescriptor d) =
        some ⟨0, some 0, some v, some (padTypeStr v)⟩ ∧
      v.toNat = probedValue report field content := by
  obtain ⟨d, hd, hprobe⟩ := probe_eq iter hfuel content hlimits
  obtain ⟨v, hv, hval⟩ := extract_answer content (number report)
    (viewField (convertedField field))
  refine ⟨d, v, hd, ?_, ?_⟩
  · rw [hprobe, hfirst]
    simp only [hv, Option.map_some]
  · rw [hval, (converted_bits field).1, (converted_bits field).2, probedValue]

/-- With a match of any kind the probe does not report a missing pad type, and what it reads
must be the first variable field. -/
theorem reads_found {iter : BpfIterNum} (h : ReadsPadType iter rdesc)
    (hparse : WellFormed rdesc) (hlimits : WithinLimits rdesc) {report : Report} {field : Field}
    (hfirst : firstField isMatched rdesc.featureReports = some (report, field)) :
    ∃ report' field',
      firstField isVariablePadType rdesc.featureReports = some (report', field') ∧
      ∀ content : Content, content.Fits rdesc →
        fieldValue report' field' (content (number report')) =
          some (probedValue report field content) := by
  obtain ⟨d, hd, hall⟩ := h
  cases hvar : firstField isVariablePadType rdesc.featureReports with
  | none =>
    obtain ⟨d', v, hd', hprobe, -⟩ := probe_found iter (by decide : 64 < 65) (blank rdesc) hlimits
      hfirst
    obtain rfl : d = d' := Option.some.inj (hd.symm.trans hd')
    obtain ⟨p, hp, hret⟩ := hall 65 (by decide) (blank rdesc) (blank_fits hparse)
    rw [hprobe, Option.some.injEq] at hp
    rw [hvar, ← hp] at hret
    exact absurd (Option.some.inj hret) (by decide)
  | some x =>
    obtain ⟨report', field'⟩ := x
    refine ⟨report', field', rfl, ?_⟩
    intro content hfits
    obtain ⟨d', v, hd', hprobe, hval⟩ := probe_found iter (by decide : 64 < 65) content hlimits
      hfirst
    obtain rfl : d = d' := Option.some.inj (hd.symm.trans hd')
    obtain ⟨p, hp, hret⟩ := hall 65 (by decide) content hfits
    rw [hprobe, Option.some.injEq] at hp
    rw [hvar, ← hp] at hret
    obtain ⟨w, hw, heq⟩ := hret
    rw [hw, ← hval]
    exact congrArg some (Option.some.inj heq).symm

section telling

variable {report report' : Report} {field field' : Field}

theorem probed_blank : probedValue report field (blank rdesc) =
    readValue (field.bits.start % 65536) (field.bits.end_ % 65536) (number report).toNat := by
  rw [probedValue, value, value_blank, Nat.mul_zero, Nat.add_zero]

theorem probed_marked (k : ℕ) : probedValue report field (marked rdesc report k) =
    readValue (field.bits.start % 65536) (field.bits.end_ % 65536)
      ((number report).toNat + 2 ^ (k + 8)) := by
  rw [probedValue, marked, Function.update_self, value, value_oneHot, pow_add, Nat.mul_comm (2 ^ k)]
  rfl

theorem fieldValue_marked {k : ℕ} (hstart : field.bits.start ≤ k + idBits report)
    (hid : idBits report ≤ field.bits.start) (hend : k + idBits report < field.bits.end_) :
    fieldValue report field (marked rdesc report k (number report)) =
      some (2 ^ (k + idBits report - field.bits.start)) := by
  rw [fieldValue, if_pos (by omega), marked, Function.update_self, bitRange, value_oneHot]
  obtain ⟨t, ht⟩ : ∃ t, k = (field.bits.start - idBits report) + t :=
    ⟨k - (field.bits.start - idBits report), by omega⟩
  rw [ht, pow_add, Nat.mul_div_cancel_left _ (Nat.two_pow_pos _), Nat.mod_eq_of_lt]
  · congr 2
    omega
  · exact Nat.pow_lt_pow_right (by decide) (by omega)

theorem fieldValue_blank (hpos : field.bits.start < field.bits.end_) :
    fieldValue report field (blank rdesc (number report)) = some 0 := by
  rw [fieldValue, if_pos hpos, bitRange, value_blank, Nat.zero_div, Nat.zero_mod]

end telling

section deciding

variable {report report' : Report} {field field' : Field}

/-- Data with the first bit of the field set must be told from blank data. -/
theorem reads_first_bit (hparse : WellFormed rdesc) (hreport' : report' ∈ rdesc.featureReports)
    (hfield' : field' ∈ report'.fields)
    (hreads : ∀ content : Content, content.Fits rdesc →
      fieldValue report' field' (content (number report')) =
        some (probedValue report field content)) :
    field'.bits.start < field'.bits.end_ ∧ probedValue report field (blank rdesc) = 0 ∧
      ∀ k, field'.bits.start ≤ k + idBits report' → k + idBits report' < field'.bits.end_ →
        probedValue report field (marked rdesc report' k) =
          2 ^ (k + idBits report' - field'.bits.start) := by
  have hpos : field'.bits.start < field'.bits.end_ := by
    by_contra hle
    have hblank := hreads (blank rdesc) (blank_fits hparse)
    rw [fieldValue, if_neg hle] at hblank
    cases hblank
  refine ⟨hpos, ?_, ?_⟩
  · have hblank := hreads (blank rdesc) (blank_fits hparse)
    rw [fieldValue_blank hpos] at hblank
    exact (Option.some.inj hblank).symm
  · intro k hstart hend
    have hid := hparse.behind_id report' hreport' field' hfield'
    have hmarked := hreads (marked rdesc report' k)
      (marked_fits hparse hreport' (bit_lt hparse hreport' hfield' hend))
    rw [fieldValue_marked hstart hid hend] at hmarked
    exact (Option.some.inj hmarked).symm

theorem not_reads_behind (hparse : WellFormed rdesc)
    (hreport : report ∈ rdesc.featureReports) (hreport' : report' ∈ rdesc.featureReports)
    (hfield' : field' ∈ report'.fields)
    (hbehind : number report ≠ number report' ∨
      report' = report ∧ field.bits.end_ ≤ field'.bits.start) :
    ¬ ∀ content : Content, content.Fits rdesc →
      fieldValue report' field' (content (number report')) =
        some (probedValue report field content) := by
  intro hreads
  obtain ⟨hpos, hblank, hmarked⟩ := reads_first_bit hparse hreport' hfield' hreads
  have hid := hparse.behind_id report' hreport' field' hfield'
  obtain ⟨k, hk⟩ : ∃ k, k + idBits report' = field'.bits.start :=
    ⟨field'.bits.start - idBits report', by omega⟩
  have hone := hmarked k hk.ge (by omega)
  rw [hk, Nat.sub_self, pow_zero] at hone
  have hsame : probedValue report field (marked rdesc report' k)
      = probedValue report field (blank rdesc) := by
    rcases hbehind with hne | ⟨rfl, hle⟩
    · rw [probedValue, probedValue, marked, Function.update_of_ne hne]
    · rw [probed_marked, probed_blank]
      apply readValue_high
      intro hin
      have hbits : idBits report' ≤ 8 := by
        rw [idBits]
        split <;> omega
      simp only [HW_REQ_BUF_SIZE] at hin
      omega
  rw [hsame, hblank] at hone
  cases hone

theorem reads_own (hparse : WellFormed rdesc) (hreport : report ∈ rdesc.featureReports)
    (hfield : field ∈ report.fields)
    (hreads : ∀ content : Content, content.Fits rdesc →
      fieldValue report field (content (number report)) =
        some (probedValue report field content)) :
    report.reportId.isSome ∧ field.bits.start < field.bits.end_ ∧
      field.bits.end_ ≤ field.bits.start + 32 ∧ field.bits.end_ ≤ 8 * HW_REQ_BUF_SIZE := by
  obtain ⟨hpos, hblank, hmarked⟩ := reads_first_bit hparse hreport hfield hreads
  have hid := hparse.behind_id report hreport field hfield
  have hsome : report.reportId.isSome := by
    by_contra hnone
    have hzero : idBits report = 0 := by rw [idBits, if_neg hnone]
    have hnum : number report = 0 := by
      rw [number, Option.not_isSome_iff_eq_none.1 hnone, Option.getD_none]
    -- the answer has the data one byte further up than the field says
    have hone := hmarked field.bits.start (by omega) (by omega)
    rw [hzero, Nat.add_zero, Nat.sub_self, pow_zero, probed_marked, hnum] at hone
    refine readValue_even ?_ (by simpa using hone)
    have := Nat.mod_le field.bits.start 65536
    omega
  have height : idBits report = 8 := by rw [idBits, if_pos hsome]
  rw [height] at hid hmarked
  have hend : field.bits.end_ ≤ 8 * HW_REQ_BUF_SIZE := by
    by_contra hover
    rw [not_le] at hover
    -- the last bit of the field is beyond the buffer
    obtain ⟨k, hk⟩ : ∃ k, k + 8 = field.bits.end_ - 1 := ⟨field.bits.end_ - 9, by omega⟩
    have hlast := hmarked k (by omega) (by omega)
    rw [probed_marked, readValue_high _ (fun hin => by omega), ← probed_blank, hblank] at hlast
    exact absurd hlast.symm (Nat.two_pow_pos _).ne'
  refine ⟨hsome, hpos, ?_, hend⟩
  by_contra hwide
  obtain ⟨k, hk⟩ : ∃ k, k + 8 = field.bits.start := ⟨field.bits.start - 8, by omega⟩
  have hone := hmarked k hk.ge (by omega)
  simp only [HW_REQ_BUF_SIZE] at hend
  rw [hk, Nat.sub_self, pow_zero, probed_marked, readValue,
    if_neg (by rw [Nat.mod_eq_of_lt (by omega), Nat.mod_eq_of_lt (by omega)]; omega)] at hone
  cases hone

theorem probed_numbered (hid : report.reportId.isSome) (hbehind : idBits report ≤ field.bits.start)
    (hpos : field.bits.start < field.bits.end_) (hwidth : field.bits.end_ ≤ field.bits.start + 32)
    (hend : field.bits.end_ ≤ 8 * HW_REQ_BUF_SIZE) (content : Content) :
    fieldValue report field (content (number report)) =
      some (probedValue report field content) := by
  have height : idBits report = 8 := by rw [idBits, if_pos hid]
  rw [height] at hbehind
  have hend' : field.bits.end_ < 65536 := lt_of_le_of_lt hend (by decide)
  rw [fieldValue, if_pos hpos, height, probedValue, Nat.mod_eq_of_lt (hpos.trans hend'),
    Nat.mod_eq_of_lt hend', readValue, if_pos ⟨hpos, hwidth, hend⟩, range_cons hbehind]

end deciding

theorem readable_of_reads {iter : BpfIterNum} (h : ReadsPadType iter rdesc)
    (hlimits : WithinLimits rdesc) (hparse : WellFormed rdesc) : PadTypeReadable rdesc := by
  rw [PadTypeReadable]
  cases hfirst : firstField isMatched rdesc.featureReports with
  | none => trivial
  | some x =>
    obtain ⟨report, field⟩ := x
    obtain ⟨report', field', hvar, hreads⟩ := reads_found h hparse hlimits hfirst
    obtain ⟨hreport, hfield, -⟩ := firstField_mem hfirst
    obtain ⟨hreport', hfield', -⟩ := firstField_mem hvar
    rcases first_of_narrower (fun f => matched_of_variable) hfirst hvar with
      ⟨hvariable, rfl, rfl⟩ | ⟨before, after, front, rest, hsplit, hfields, hlater⟩
    · exact ⟨hvariable, reads_own hparse hreport hfield hreads⟩
    · refine absurd hreads (not_reads_behind hparse hreport hreport' hfield' ?_)
      rcases hlater with hafter | ⟨rfl, hrest⟩
      · left
        have hnumbers := hparse.numbers
        rw [hsplit, List.map_append, List.map_cons] at hnumbers
        have hnodup := (List.nodup_append.1 hnumbers).2.1
        intro heq
        exact (List.nodup_cons.1 hnodup).1 (heq ▸ List.mem_map_of_mem hafter)
      · right
        have hordered := hparse.ordered report' hreport'
        rw [hfields, List.pairwise_append, List.pairwise_cons] at hordered
        exact ⟨rfl, hordered.2.1.1 field' hrest⟩

theorem reads_of_readable (iter : BpfIterNum) (hlimits : WithinLimits rdesc)
    (hparse : WellFormed rdesc) (h : PadTypeReadable rdesc) : ReadsPadType iter rdesc := by
  rw [PadTypeReadable] at h
  cases hfirst : firstField isMatched rdesc.featureReports with
  | none =>
    obtain ⟨d, hd, -⟩ := probe_eq iter (by decide : 64 < 65) (blank rdesc) hlimits
    refine ⟨d, hd, ?_⟩
    intro fuel hfuel content hfits
    obtain ⟨d', hd', hprobe⟩ := probe_eq iter hfuel content hlimits
    obtain rfl : d = d' := Option.some.inj (hd.symm.trans hd')
    rw [hfirst] at hprobe
    refine ⟨_, hprobe, ?_⟩
    rw [no_first (fun f => matched_of_variable) hfirst]
  | some x =>
    obtain ⟨report, field⟩ := x
    rw [hfirst] at h
    obtain ⟨hvariable, hid, hpos, hwidth, hend⟩ := h
    obtain ⟨hreport, hfield, -⟩ := firstField_mem hfirst
    obtain ⟨d, -, hd, -⟩ := probe_found iter (by decide : 64 < 65) (blank rdesc) hlimits hfirst
    refine ⟨d, hd, ?_⟩
    intro fuel hfuel content hfits
    obtain ⟨d', v, hd', hprobe, hval⟩ := probe_found iter hfuel content hlimits hfirst
    obtain rfl : d = d' := Option.some.inj (hd.symm.trans hd')
    refine ⟨_, hprobe, ?_⟩
    rw [first_stays (fun f => matched_of_variable) hfirst hvariable]
    refine ⟨_, probed_numbered hid (hparse.behind_id report hreport field hfield) hpos hwidth
      hend content, ?_⟩
    rw [Option.map_some, hval]

/-- The probe reads the pad type exactly when the first match is a variable field of a
numbered report, of 1 to 32 bits and inside the buffer, or when nothing matches. -/
theorem reads_pad_type_iff (iter : BpfIterNum) {rdesc : ReportDescriptor}
    (hlimits : WithinLimits rdesc) (hparse : WellFormed rdesc) :
    ReadsPadType iter rdesc ↔ PadTypeReadable rdesc := by
  constructor
  · intro h
    exact readable_of_reads h hlimits hparse
  · intro h
    exact reads_of_readable iter hlimits hparse h

/-- The 8 bits behind `start` as a pad type. -/
def padTypeField (start : ℕ) : Field :=
  .variableField ⟨⟨start, start + 8⟩, ⟨HidUsagePage_Digitizers, HidUsage_Dig_PadType⟩, 0, 2,
    ⟨false, false, false, false, false, none, false⟩, []⟩

def touchpad (reportId : Option UInt8) (start : ℕ) : ReportDescriptor :=
  ⟨[], [], [⟨reportId, start + 8, [padTypeField start]⟩]⟩

theorem reads_numbered_touchpad : ReadsPadType privateBpfIterNum (touchpad (some 1) 8) :=
  (reads_pad_type_iff privateBpfIterNum ⟨by decide, by decide⟩
    ⟨by decide, by decide, by decide, by decide⟩).2
    ⟨rfl, rfl, by decide, by decide, by decide⟩

/-- Without a report number the answer is read one byte early: every pad is a clickpad. -/
theorem unnumbered_touchpad_misread : ¬ ReadsPadType privateBpfIterNum (touchpad none 0) := by
  rintro ⟨d, hd, hall⟩
  have hlimits : WithinLimits (touchpad none 0) := ⟨by decide, by decide⟩
  have hfits : Content.Fits (fun _ => [1]) (touchpad none 0) := by
    intro report hreport
    obtain rfl := List.mem_singleton.1 hreport
    rfl
  obtain ⟨d', v, hd', hprobe, hval⟩ := probe_found privateBpfIterNum (by decide : 64 < 65)
    (fun _ => [1]) hlimits rfl
  obtain rfl : d = d' := Option.some.inj (hd.symm.trans hd')
  obtain ⟨p, hp, w, hw, hswitched⟩ := hall 65 (by decide) (fun _ => [1]) hfits
  rw [hprobe, Option.some.injEq] at hp
  rw [← hp, Option.map_some, hval] at hswitched
  obtain rfl : 1 = w := Option.some.inj hw
  exact absurd hswitched (by decide)

end PadTypeProbe
