import Mathlib.Data.List.MinMax
import UdevHidBpf.FixedDescriptors

/-! # Room for the original reports

The kernel discards reports that are larger than the largest one in the descriptor. A
`FixedSizeVendorReport` keeps the room that the device needs. -/
namespace ReservedReports

open FixedDescriptors KamvasPen ReportFields ReportMacros ShortItems

def largestReport (fields : List Field) : ℕ :=
  (fields.map fun f => declaredLength fields f.reportId).foldr max 0

/-- `m` is part of a composition, at any depth. -/
def has (m : Rdesc) (r : Rdesc) : Bool :=
  r == m ||
    match r with
    | .seq first rest => has m first || has m rest
    | .collection _ body | .pushPop body => has m body
    | .empty | .item .. | .usagePageVendor _ => false

theorem has_self (m : Rdesc) : has m m := by
  cases m <;> simp [has]

def VENDOR_PADDING_ID : ℕ := 0xac

/-- Fields with the id of the padding that take up `n` bytes. -/
structure Reserved (fields : List Field) (n : ℕ) : Prop where
  room : 8 * n ≤ nextBit fields VENDOR_PADDING_ID
  occurs : ∃ f ∈ fields, f.reportId = VENDOR_PADDING_ID

theorem reserved_append {fields : List Field} {n : ℕ} (h : Reserved fields n)
    (more : List Field) : Reserved (fields ++ more) n where
  room := by
    rw [nextBit_append]
    exact h.room.trans (Nat.le_add_right _ _)
  occurs := by
    obtain ⟨f, hf, hid⟩ := h.occurs
    exact ⟨f, List.mem_append_left _ hf, hid⟩

theorem readItems_reserved {p q : Reader} {items : List Item} {n : ℕ}
    (h : readItems p items = some q) (hp : Reserved p.fields n) : Reserved q.fields n := by
  induction items generalizing p with
  | nil =>
    cases h
    exact hp
  | cons i items ih =>
    obtain ⟨mid, hmid, hrest⟩ := readItems_cons h
    apply ih hrest
    rcases readItem_fields hmid with hsame | rfl
    · rw [hsame]
      exact hp
    · exact reserved_append hp _

theorem vendor_report_reserved {p q : Reader} {n : ℕ} (h2 : 2 ≤ n) (h256 : n ≤ 256)
    (h : readItems p ((fixedSizeVendorReport n).items itemPayload) = some q) :
    Reserved q.fields n := by
  have hcount : (((n : ℤ) - 1) % 0x100).toNat = n - 1 := by omega
  rw [vendor_report_items, hcount] at h
  let g : Globals := ⟨0xffff, p.globals.logicalMinimum, 8, VENDOR_PADDING_ID, n - 1⟩
  have hread : (readItems p [⟨0x06, 0xffff⟩, ⟨0x09, 1⟩, ⟨0xa1, 0⟩, ⟨0x85, 0xac⟩, ⟨0x75, 8⟩,
      ⟨0x95, n - 1⟩, ⟨0x81, 1⟩, ⟨0xc0, 0⟩]).map Reader.fields =
      some (p.fields ++ inputFields g [] (nextBit p.fields VENDOR_PADDING_ID)) := by
    have hconst : namesUsages 1 = false := by decide
    simp [readItems, readItem, Reader.input, Reader.clearLocals, ownFields, namedBy, hconst, g,
      VENDOR_PADDING_ID]
  rw [h, Option.map_some, Option.some.injEq] at hread
  have hsizes := input_fields_sizes g [] (nextBit p.fields VENDOR_PADDING_ID)
  have hid : 8 ≤ nextBit p.fields VENDOR_PADDING_ID := Nat.le_add_right 8 _
  rw [hread]
  constructor
  · rw [nextBit_append, hsizes]
    dsimp only [g]
    omega
  · have hmem : 0 ∈ List.range g.reportCount := List.mem_range.mpr (by dsimp only [g]; omega)
    exact ⟨_, List.mem_append_right _ (List.mem_map_of_mem hmem), rfl⟩

theorem composition_reserved {r : Rdesc} {n : ℕ} (h2 : 2 ≤ n) (h256 : n ≤ 256)
    (hhas : has (fixedSizeVendorReport n) r) {p q : Reader}
    (h : readItems p (r.items itemPayload) = some q) : Reserved q.fields n := by
  have hself {r : Rdesc} (hsame : (r == fixedSizeVendorReport n) = true) {p q : Reader}
      (h : readItems p (r.items itemPayload) = some q) : Reserved q.fields n := by
    rw [beq_iff_eq.mp hsame] at h
    exact vendor_report_reserved h2 h256 h
  induction r generalizing p q with
  | empty => exact hself (by simpa [has] using hhas) h
  | item m arg => exact hself (by simpa [has] using hhas) h
  | usagePageVendor u => exact hself (by simpa [has] using hhas) h
  | seq first rest ihFirst ihRest =>
    rw [has, Bool.or_eq_true, Bool.or_eq_true] at hhas
    rcases hhas with hsame | hfirst | hrest
    · exact hself hsame h
    · obtain ⟨mid, hmid, hlast⟩ := readItems_append h
      exact readItems_reserved hlast (ihFirst hfirst hmid)
    · obtain ⟨mid, -, hlast⟩ := readItems_append h
      exact ihRest hrest hlast
  | collection col body ih =>
    rw [has, Bool.or_eq_true] at hhas
    rcases hhas with hsame | hbody
    · exact hself hsame h
    · obtain ⟨inner, hinner, hclose⟩ := readItems_append h
      obtain ⟨opened, -, hread⟩ := readItems_append hinner
      exact readItems_reserved hclose (ih hbody hread)
  | pushPop body ih =>
    rw [has, Bool.or_eq_true] at hhas
    rcases hhas with hsame | hbody
    · exact hself hsame h
    · obtain ⟨inner, hinner, hpop⟩ := readItems_append h
      obtain ⟨pushed, -, hread⟩ := readItems_append hinner
      exact readItems_reserved hpop (ih hbody hread)

theorem reserved_largest {fields : List Field} {n : ℕ} (h : Reserved fields n) :
    n ≤ largestReport fields := by
  obtain ⟨f, hf, hid⟩ := h.occurs
  have hroom := h.room
  have hlength : n ≤ declaredLength fields f.reportId := by
    rw [hid, declaredLength]
    omega
  exact List.le_max_of_le (List.mem_map_of_mem hf) hlength

/-- Wherever a composition has the macro, the kernel keeps reports of that size. -/
theorem vendor_report_reserves {r : Rdesc} (hunit : r.NoWideUnit) {n : ℕ} (h2 : 2 ≤ n)
    (h256 : n ≤ 256) (hhas : has (fixedSizeVendorReport n) r) {descriptor : List UInt8}
    (hbytes : r.bytes = some descriptor) :
    ∃ fields, reportFields descriptor = some fields ∧ n ≤ largestReport fields := by
  obtain ⟨q, hq⟩ := composition_read r .start
  refine ⟨q.fields, ?_, reserved_largest (composition_reserved h2 h256 hhas hq)⟩
  rw [reportFields_of_bytes hunit hbytes, layout, hq, Option.map_some]

theorem vendor_report_reserves_kamvas : ∃ descriptor fields,
    fixedRdescVendor.bytes = some descriptor ∧ reportFields descriptor = some fields ∧
      14 ≤ largestReport fields := by
  obtain ⟨descriptor, hbytes, -⟩ := vendor_fields
  obtain ⟨fields, hfields, hroom⟩ := vendor_report_reserves vendor_no_wide_unit
    (by decide : 2 ≤ 14) (by decide) (by decide +kernel) hbytes
  exact ⟨descriptor, fields, hbytes, hfields, hroom⟩

end ReservedReports
