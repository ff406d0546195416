import UdevHidBpf.KamvasPen
import UdevHidBpf.ListSplice

/-! # Programs that replace the report descriptor

`hid_rdesc_fixup` gives a device another descriptor and `hid_device_event` the reports that
belong to it. -/
namespace FixedDescriptors

open DeviceEvents KamvasPen ListSplice ReportFields ReportMacros ShortItems

def HID_MAX_DESCRIPTOR_SIZE : ℕ := 4096

/-- The buffer of `hid_rdesc_fixup`; its first `size` bytes are the descriptor of the device. -/
structure Buffer where
  data : List UInt8
  size : ℕ
  length_data : data.length = HID_MAX_DESCRIPTOR_SIZE
  size_le : size ≤ HID_MAX_DESCRIPTOR_SIZE

def Buffer.zeros (size : ℕ) (h : size ≤ HID_MAX_DESCRIPTOR_SIZE) : Buffer where
  data := List.replicate HID_MAX_DESCRIPTOR_SIZE 0
  size := size
  length_data := List.length_replicate
  size_le := h

def Buffer.ofBytes (bytes : List UInt8) (h : bytes.length ≤ HID_MAX_DESCRIPTOR_SIZE) : Buffer where
  data := bytes ++ List.replicate (HID_MAX_DESCRIPTOR_SIZE - bytes.length) 0
  size := bytes.length
  length_data := by rw [List.length_append, List.length_replicate, Nat.add_sub_cancel' h]
  size_le := h

def Buffer.descriptor (b : Buffer) : List UInt8 := b.data.take b.size

theorem Buffer.ofBytes_descriptor {bytes : List UInt8}
    (h : bytes.length ≤ HID_MAX_DESCRIPTOR_SIZE) : (ofBytes bytes h).descriptor = bytes :=
  List.take_left

/-- The descriptor that the kernel parses, from the buffer and the return value of the program. -/
def Buffer.parsed (b : Buffer) (c : List UInt8 × ℤ) : List UInt8 :=
  if c.2 < 0 then b.descriptor
  else if c.2 = 0 then c.1.take b.size
  else c.1.take c.2.toNat

section buffer

variable (b : Buffer) {fixed : List UInt8}

theorem Buffer.parsed_replaced (hne : fixed ≠ []) :
    b.parsed (splice b.data 0 fixed, fixed.length) = fixed := by
  have hpos : 0 < (fixed.length : ℤ) := by exact_mod_cast List.length_pos_iff.mpr hne
  rw [parsed, if_neg (not_lt.mpr hpos.le), if_neg hpos.ne', Int.toNat_natCast, splice]
  simp

theorem Buffer.parsed_unchanged : b.parsed (b.data, 0) = b.descriptor := by
  rw [parsed, if_neg (lt_irrefl (0 : ℤ)), if_pos rfl]
  rfl

end buffer

def declaredLength (fields : List Field) (reportId : ℕ) : ℕ := (nextBit fields reportId + 7) / 8

section decoding

variable {fields : List Field} {report : List UInt8} {reportId usage : ℕ}

theorem decode_field (hid : (report.headD 0).toNat = reportId) {f : Field}
    (hfield : (fields.find? fun f => f.reportId == reportId && f.usage == some usage) = some f) :
    decode fields report usage = some (f.value report) := by
  rw [decode, hid, hfield, Option.map_some]

theorem decode_bit_at (hid : (report.headD 0).toNat = reportId) {i j : ℕ} (hj : j < 8)
    (hfield : (fields.find? fun f => f.reportId == reportId && f.usage == some usage) =
      some ⟨reportId, 8 * i + j, 1, some usage, false⟩) :
    decode fields report usage = some (((byte report i).toNat.testBit j).toNat : ℤ) := by
  have hbyte : (8 * i + j) / 8 = i := by omega
  have hbit : (8 * i + j) % 8 = j := by omega
  rw [decode_field hid hfield, value_bit rfl rfl]
  dsimp only
  rw [hbyte, hbit, byte]

theorem decode_bytes_at (hid : (report.headD 0).toNat = reportId) {i n : ℕ}
    (hfield : (fields.find? fun f => f.reportId == reportId && f.usage == some usage) =
      some ⟨reportId, 8 * i, 8 * n, some usage, false⟩) :
    decode fields report usage = some (LittleEndian.value ((report.drop i).take n) : ℤ) := by
  rw [decode_field hid hfield, value_bytes rfl rfl rfl]

theorem decode_byte_at (hid : (report.headD 0).toNat = reportId) {i : ℕ}
    (hfield : (fields.find? fun f => f.reportId == reportId && f.usage == some usage) =
      some ⟨reportId, 8 * i, 8, some usage, false⟩) :
    decode fields report usage = some ((byte report i).toNat : ℤ) := by
  have hone : LittleEndian.value ((report.drop i).take 1) = (byte report i).toNat := by
    rw [List.take_one, List.head?_drop, byte, List.getD_eq_getElem?_getD]
    cases report[i]? with
    | none => rfl
    | some v => simp [LittleEndian.value]
  have hbytes : decode fields report usage =
      some (LittleEndian.value ((report.drop i).take 1) : ℤ) := decode_bytes_at hid hfield
  rw [hbytes, hone]

theorem decode_signed_at (hid : (report.headD 0).toNat = reportId) {i : ℕ}
    (hfield : (fields.find? fun f => f.reportId == reportId && f.usage == some usage) =
      some ⟨reportId, 8 * i, 8, some usage, true⟩) :
    decode fields report usage = some (byte report i).toInt8.toInt := by
  rw [decode_field hid hfield, value_signed_byte rfl rfl rfl, byte]

theorem decode_behind {old : List Field} (hid : (report.headD 0).toNat = reportId)
    (hold : ∀ f ∈ old, f.reportId ≠ reportId) :
    decode (old ++ fields) report usage = decode fields report usage := by
  have hnone : (old.find? fun f => f.reportId == reportId && f.usage == some usage) = none := by
    apply List.find?_eq_none.mpr
    intro f hf hmatch
    rw [Bool.and_eq_true, beq_iff_eq] at hmatch
    exact hold f hf hmatch.1
  rw [decode, decode, hid, List.find?_append, hnone, Option.none_or]

theorem decode_congr {other : List Field} (hid : (report.headD 0).toNat = reportId)
    (h : fields.filter (·.reportId == reportId) = other.filter (·.reportId == reportId)) :
    decode fields report usage = decode other report usage := by
  have hfind := congrArg (List.find? fun f => f.usage == some usage) h
  rw [List.find?_filter, List.find?_filter] at hfind
  simp only [← Bool.and_eq_true, Bool.decide_eq_true] at hfind
  rw [decode, decode, hid, hfind]

theorem decode_none (h : ∀ f ∈ fields, f.usage = none) : decode fields report usage = none := by
  rw [decode, Option.map_eq_none_iff]
  apply List.find?_eq_none.mpr
  intro f hf hmatch
  rw [h f hf, Bool.and_eq_true] at hmatch
  cases hmatch.2

theorem declaredLength_behind {old : List Field} (hold : ∀ f ∈ old, f.reportId ≠ reportId) :
    declaredLength (old ++ fields) reportId = declaredLength fields reportId := by
  have hnone : old.filter (·.reportId == reportId) = [] := by
    apply List.filter_eq_nil_iff.mpr
    intro f hf hmatch
    exact hold f hf (beq_iff_eq.mp hmatch)
  rw [declaredLength, declaredLength, nextBit, nextBit, List.filter_append, hnone, List.nil_append]

end decoding

theorem reportFields_of_bytes {r : Rdesc} (hunit : r.NoWideUnit) {descriptor : List UInt8}
    (hbytes : r.bytes = some descriptor) :
    reportFields descriptor = layout (r.items itemPayload) := by
  rw [reportFields, (macros_well_formed r hunit descriptor hbytes).1, Option.bind_some]

theorem readItems_trans {p q : Reader} {l : List Item} (h : readItems p l = some q)
    (m : List Item) : readItems p (l ++ m) = readItems q m := by
  rw [readItems, List.foldlM_append]
  exact congrArg (· >>= fun p => readItems p m) h

theorem readItem_of_not_pop (p : Reader) {i : Item} (hpop : i.tag.toNat / 4 ≠ 0x2d) :
    ∃ q, readItem p i = some q := by
  unfold readItem
  split
  case h_7 hcode => exact absurd hcode hpop
  all_goals exact ⟨_, rfl⟩

theorem readItems_pop {p : Reader} {g : Globals} {saved : List Globals}
    (h : p.saved = g :: saved) :
    readItems p [⟨0xb4, 0⟩] = some { p with globals := g, saved } := by
  simp [readItems, readItem, h]

/-- A composition restores only what it has saved, so it can always be read. -/
theorem composition_read (r : Rdesc) (p : Reader) :
    ∃ q, readItems p (r.items itemPayload) = some q := by
  have hone (p : Reader) {tag : UInt8} (payload : ℕ) (hpop : tag.toNat / 4 ≠ 0x2d) :
      ∃ q, readItems p [⟨tag, payload⟩] = some q := by
    obtain ⟨q, hq⟩ := readItem_of_not_pop p (i := ⟨tag, payload⟩) hpop
    refine ⟨q, ?_⟩
    rw [readItems, List.foldlM_cons, hq]
    rfl
  induction r generalizing p with
  | empty => exact ⟨p, rfl⟩
  | seq first rest ihFirst ihRest =>
    obtain ⟨mid, hmid⟩ := ihFirst p
    obtain ⟨q, hq⟩ := ihRest mid
    exact ⟨q, (readItems_trans hmid _).trans hq⟩
  | item m arg => exact hone p _ (by cases m <;> decide)
  | usagePageVendor u => exact hone p _ (by decide)
  | collection col body ih =>
    have hcode : (0xa1 : UInt8).toNat / 4 ≠ 0x2d ∧ (0xc0 : UInt8).toNat / 4 ≠ 0x2d := by decide
    obtain ⟨opened, hopen⟩ := hone p (col % 2 ^ 8).toNat hcode.1
    obtain ⟨inner, hinner⟩ := ih opened
    obtain ⟨q, hq⟩ := hone inner 0 hcode.2
    refine ⟨q, ?_⟩
    rw [Rdesc.items, List.append_assoc, readItems_trans hopen, readItems_trans hinner, hq]
  | pushPop body ih =>
    obtain ⟨inner, hinner⟩ := ih { p with saved := p.globals :: p.saved }
    have hpush : readItems p [⟨0xa4, 0⟩] = some { p with saved := p.globals :: p.saved } := rfl
    refine ⟨{ inner with globals := p.globals, saved := p.saved }, ?_⟩
    rw [Rdesc.items, List.append_assoc, readItems_trans hpush, readItems_trans hinner,
      readItems_pop (saved_items body hinner)]

theorem composition_layout (r : Rdesc) : ∃ fields, layout (r.items itemPayload) = some fields := by
  obtain ⟨q, hq⟩ := composition_read r .start
  exact ⟨q.fields, congrArg (Option.map Reader.fields) hq⟩

theorem readItem_silent {p q : Reader} {i : Item} (h : readItem p i = some q)
    (hp : ∀ f ∈ p.fields, f.usage = none)
    (hi : i.tag.toNat / 4 = 0x20 → namesUsages i.payload = false) : ∀ f ∈ q.fields, f.usage = none := by
  unfold readItem at h
  split at h
  case h_11 hcode =>
    cases h
    intro f hf
    rw [Reader.input, namedBy, if_neg (by rw [hi hcode]; exact Bool.false_ne_true)] at hf
    rcases List.mem_append.mp hf with hold | hnew
    · exact hp f hold
    · obtain ⟨j, -, rfl⟩ := List.mem_map.mp hnew
      rfl
  case h_7 =>
    split at h
    · cases h
    · cases h
      exact hp
  all_goals
    cases h
    exact hp

theorem readItems_silent {p q : Reader} {items : List Item} (h : readItems p items = some q)
    (hp : ∀ f ∈ p.fields, f.usage = none)
    (hitems : ∀ i ∈ items, i.tag.toNat / 4 = 0x20 → namesUsages i.payload = false) :
    ∀ f ∈ q.fields, f.usage = none := by
  induction items generalizing p with
  | nil =>
    cases h
    exact hp
  | cons i items ih =>
    obtain ⟨mid, hmid, hrest⟩ := readItems_cons h
    exact ih hrest (readItem_silent hmid hp (hitems i List.mem_cons_self))
      fun j hj => hitems j (List.mem_cons_of_mem _ hj)

theorem decode_silent {items : List Item} {fields : List Field} (h : layout items = some fields)
    (hitems : ∀ i ∈ items, i.tag.toNat / 4 = 0x20 → namesUsages i.payload = false) (report : List UInt8)
    (usage : ℕ) : decode fields report usage = none := by
  obtain ⟨q, hq, rfl⟩ := Option.map_eq_some_iff.mp h
  apply decode_none
  exact readItems_silent hq (fun f hf => absurd hf List.not_mem_nil) hitems

theorem vendor_report_no_wide_unit (bytes : ℤ) : (fixedSizeVendorReport bytes).NoWideUnit := by
  simp [fixedSizeVendorReport, collectionPhysical, Rdesc.NoWideUnit, isWideUnit]

theorem vendor_report_items (bytes : ℤ) : (fixedSizeVendorReport bytes).items itemPayload =
    [⟨0x06, 0xffff⟩, ⟨0x09, 1⟩, ⟨0xa1, 0⟩, ⟨0x85, 0xac⟩, ⟨0x75, 8⟩,
      ⟨0x95, ((bytes - 1) % 0x100).toNat⟩, ⟨0x81, 1⟩, ⟨0xc0, 0⟩] := by
  simp [fixedSizeVendorReport, collectionPhysical, Rdesc.items, itemPayload, plainPayload,
    ItemMacro.code, payloadSize]

theorem vendor_report_silent (bytes : ℤ) :
    ∀ i ∈ (fixedSizeVendorReport bytes).items itemPayload,
      i.tag.toNat / 4 = 0x20 → namesUsages i.payload = false := by
  have hconst : namesUsages 1 = false := by decide
  simp [vendor_report_items, hconst]

theorem Buffer.parsed_muted (b : Buffer) {bytes : ℤ} {disabled : List UInt8}
    (h : (fixedSizeVendorReport bytes).bytes = some disabled) :
    ∃ fields, reportFields (b.parsed (splice b.data 0 disabled, disabled.length)) = some fields ∧
      ∀ report usage, decode fields report usage = none := by
  have hunit := vendor_report_no_wide_unit bytes
  have hne : disabled ≠ [] := by
    rintro rfl
    have hparse := (macros_well_formed _ hunit _ h).1
    rw [vendor_report_items] at hparse
    cases hparse
  obtain ⟨fields, hfields⟩ := composition_layout (fixedSizeVendorReport bytes)
  refine ⟨fields, ?_, decode_silent hfields (vendor_report_silent bytes)⟩
  rw [b.parsed_replaced hne, reportFields_of_bytes hunit h, hfields]

/-- No id of `old` is in force or can come back. -/
def Apart (old : List Field) (p : Reader) : Prop :=
  ∀ f ∈ old, f.reportId ≠ p.globals.reportId ∧ ∀ g ∈ p.saved, f.reportId ≠ g.reportId

end FixedDescriptors
