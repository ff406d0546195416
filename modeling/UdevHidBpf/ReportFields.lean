import UdevHidBpf.ShortItems

/-! # The fields of input reports

The items of a descriptor in their order, as a state machine: global items stay in force and
can be saved and restored, local items serve the next main item, and each input item lays its
fields behind those its report has so far. -/
namespace ReportFields

open ShortItems

structure Globals where
  usagePage : ℕ
  logicalMinimum : ℤ
  reportSize : ℕ
  reportId : ℕ
  reportCount : ℕ
  deriving DecidableEq, Repr

/-- One value of a report, in bits from the start of it. Constants and array elements have no
usage of their own. -/
structure Field where
  reportId : ℕ
  offset : ℕ
  size : ℕ
  usage : Option ℕ
  signed : Bool
  deriving DecidableEq, Repr

structure Reader where
  globals : Globals
  saved : List Globals
  /-- The usages since the last main item, as the items that name them. -/
  usages : List Item
  usageMinimum : ℕ
  fields : List Field
  deriving DecidableEq, Repr

def Reader.start : Reader := ⟨⟨0, 0, 0, 0, 0⟩, [], [], 0, []⟩

def Reader.clearLocals (p : Reader) : Reader := { p with usages := [], usageMinimum := 0 }

def fullUsage (page : ℕ) (i : Item) : ℕ :=
  if payloadSize i.tag = 4 then i.payload else page * 2 ^ 16 + i.payload

/-- The end of what a report has so far. The id itself takes the first byte of a report. -/
def nextBit (fields : List Field) (reportId : ℕ) : ℕ :=
  (if reportId = 0 then 0 else 8) +
    ((fields.filter (·.reportId == reportId)).map Field.size).sum

/-- The fields of one input item; its last usage serves all values that are left. -/
def inputFields (g : Globals) (usages : List ℕ) (first : ℕ) : List Field :=
  (List.range g.reportCount).map fun j =>
    ⟨g.reportId, first + j * g.reportSize, g.reportSize, usages[min j (usages.length - 1)]?,
      decide (g.logicalMinimum < 0)⟩

/-- Bit 1 tells variables from arrays; values of constants (bit 0) have no usages either. -/
def namesUsages (flags : ℕ) : Bool := flags.testBit 1 && !flags.testBit 0

def pendingUsages (p : Reader) : List ℕ := p.usages.map (fullUsage p.globals.usagePage)

def namedBy (p : Reader) (flags : ℕ) : List ℕ := if namesUsages flags then pendingUsages p else []

def ownFields (p : Reader) (usages : List ℕ) : List Field :=
  inputFields p.globals usages (nextBit p.fields p.globals.reportId)

def Reader.input (p : Reader) (i : Item) : Reader :=
  { p.clearLocals with fields := p.fields ++ ownFields p (namedBy p i.payload) }

def readItem (p : Reader) (i : Item) : Option Reader :=
  match i.tag.toNat / 4 with
  | 0x01 => some { p with globals.usagePage := i.payload }
  | 0x05 =>
    some { p with globals.logicalMinimum := Int.bmod i.payload (2 ^ (8 * payloadSize i.tag)) }
  | 0x1d => some { p with globals.reportSize := i.payload }
  | 0x21 => some { p with globals.reportId := i.payload }
  | 0x25 => some { p with globals.reportCount := i.payload }
  | 0x29 => some { p with saved := p.globals :: p.saved }
  | 0x2d =>
    match p.saved with
    | [] => none
    | g :: saved => some { p with globals := g, saved }
  | 0x02 => some { p with usages := p.usages ++ [i] }
  | 0x06 => some { p with usageMinimum := i.payload }
  | 0x0a =>
    some { p with usages := p.usages ++
      (List.range' p.usageMinimum (i.payload + 1 - p.usageMinimum)).map (⟨i.tag, ·⟩) }
  | 0x20 => some (p.input i)
  | 0x24 | 0x28 | 0x2c | 0x30 => some p.clearLocals
  | _ => some p

def readItems (p : Reader) (items : List Item) : Option Reader := items.foldlM readItem p

def layout (items : List Item) : Option (List Field) :=
  (readItems .start items).map Reader.fields

def Field.value (f : Field) (report : List UInt8) : ℤ :=
  let raw := LittleEndian.bitRange report f.offset (f.offset + f.size)
  if f.signed then Int.bmod raw (2 ^ f.size) else raw

def decode (fields : List Field) (report : List UInt8) (usage : ℕ) : Option ℤ :=
  (fields.find? fun f => f.reportId == (report.headD 0).toNat && f.usage == some usage).map
    (·.value report)

def Overlap (f g : Field) : Prop :=
  f.reportId = g.reportId ∧ f.offset < g.offset + g.size ∧ g.offset < f.offset + f.size

def Before (f g : Field) : Prop := f.reportId = g.reportId → f.offset + f.size ≤ g.offset

/-- The fields so far are in order and end where the next one starts. -/
structure Ordered (fields : List Field) : Prop where
  pairwise : fields.Pairwise Before
  ends : ∀ f ∈ fields, f.offset + f.size ≤ nextBit fields f.reportId

theorem nextBit_append (fields more : List Field) (reportId : ℕ) :
    nextBit (fields ++ more) reportId = nextBit fields reportId +
      ((more.filter (·.reportId == reportId)).map Field.size).sum := by
  rw [nextBit, nextBit, List.filter_append, List.map_append, List.sum_append, Nat.add_assoc]

theorem input_fields_id {g : Globals} {usages : List ℕ} {first : ℕ} {f : Field}
    (hf : f ∈ inputFields g usages first) : f.reportId = g.reportId := by
  obtain ⟨j, -, rfl⟩ := List.mem_map.1 hf
  rfl

theorem input_fields_bounds {g : Globals} {usages : List ℕ} {first : ℕ} {f : Field}
    (hf : f ∈ inputFields g usages first) :
    first ≤ f.offset ∧ f.offset + f.size ≤ first + g.reportCount * g.reportSize := by
  obtain ⟨j, hj, rfl⟩ := List.mem_map.1 hf
  have hlast : (j + 1) * g.reportSize ≤ g.reportCount * g.reportSize :=
    Nat.mul_le_mul_right _ (List.mem_range.1 hj)
  rw [Nat.succ_mul] at hlast
  dsimp only
  omega

theorem input_fields_pairwise (g : Globals) (usages : List ℕ) (first : ℕ) :
    (inputFields g usages first).Pairwise Before := by
  rw [inputFields, List.pairwise_map]
  refine List.Pairwise.imp ?_ List.pairwise_lt_range
  intro i j hij _
  have hnext : (i + 1) * g.reportSize ≤ j * g.reportSize := Nat.mul_le_mul_right _ hij
  rw [Nat.succ_mul] at hnext
  dsimp only
  omega

theorem input_fields_sizes (g : Globals) (usages : List ℕ) (first : ℕ) :
    (((inputFields g usages first).filter (·.reportId == g.reportId)).map Field.size).sum =
      g.reportCount * g.reportSize := by
  have hall : (inputFields g usages first).filter (·.reportId == g.reportId) =
      inputFields g usages first := by
    apply List.filter_eq_self.2
    intro f hf
    rw [input_fields_id hf, beq_self_eq_true]
  have hsizes : (inputFields g usages first).map Field.size =
      List.replicate g.reportCount g.reportSize := by
    simp [inputFields, Function.comp_def]
  rw [hall, hsizes, List.sum_replicate_nat]

theorem ordered_append {fields : List Field} (h : Ordered fields) (g : Globals)
    (usages : List ℕ) : Ordered (fields ++ inputFields g usages (nextBit fields g.reportId)) := by
  constructor
  · refine List.pairwise_append.2 ⟨h.pairwise, input_fields_pairwise _ _ _, ?_⟩
    intro f hf k hk hid
    have hend := h.ends f hf
    have hfirst := (input_fields_bounds hk).1
    rw [hid, input_fields_id hk] at hend
    exact hend.trans hfirst
  · intro f hf
    rw [nextBit_append]
    rcases List.mem_append.1 hf with hf | hf
    · exact (h.ends f hf).trans (Nat.le_add_right _ _)
    · rw [input_fields_id hf, input_fields_sizes]
      exact (input_fields_bounds hf).2

theorem readItem_fields {p q : Reader} {i : Item} (h : readItem p i = some q) :
    q.fields = p.fields ∨ q = p.input i := by
  unfold readItem at h
  split at h
  case h_7 =>
    split at h
    · exact absurd h (by simp)
    · cases h
      exact Or.inl rfl
  case h_11 =>
    cases h
    exact Or.inr rfl
  all_goals
    cases h
    exact Or.inl rfl

theorem readItem_saved {p q : Reader} {i : Item} (h : readItem p i = some q)
    (hpush : i.tag.toNat / 4 ≠ 0x29) (hpop : i.tag.toNat / 4 ≠ 0x2d) : q.saved = p.saved := by
  unfold readItem at h
  split at h
  case h_6 hcode => exact absurd hcode hpush
  case h_7 hcode => exact absurd hcode hpop
  all_goals
    cases h
    rfl

theorem readItem_ordered {p q : Reader} {i : Item} (h : readItem p i = some q)
    (hp : Ordered p.fields) : Ordered q.fields := by
  rcases readItem_fields h with hq | rfl
  · rw [hq]
    exact hp
  · exact ordered_append hp p.globals _

theorem readItems_cons {p q : Reader} {i : Item} {items : List Item}
    (h : readItems p (i :: items) = some q) :
    ∃ mid, readItem p i = some mid ∧ readItems mid items = some q := by
  rw [readItems, List.foldlM_cons, Option.bind_eq_bind, Option.bind_eq_some_iff] at h
  exact h

theorem readItems_append {p q : Reader} {l m : List Item} (h : readItems p (l ++ m) = some q) :
    ∃ mid, readItems p l = some mid ∧ readItems mid m = some q := by
  rw [readItems, List.foldlM_append, Option.bind_eq_bind, Option.bind_eq_some_iff] at h
  exact h

theorem readItems_singleton {p q : Reader} {i : Item} (h : readItems p [i] = some q) :
    readItem p i = some q := by
  obtain ⟨mid, hmid, hnil⟩ := readItems_cons h
  cases hnil
  exact hmid

/-- Pop restores the globals of its Push when what is between the two leaves the rest of the
stack alone. -/
theorem push_pop_restores {body : List Item} {p q : Reader}
    (hbody : ∀ {p q}, readItems p body = some q → q.saved = p.saved)
    (h : readItems p ([⟨0xa4, 0⟩] ++ body ++ [⟨0xb4, 0⟩]) = some q) :
    q.globals = p.globals ∧ q.saved = p.saved := by
  obtain ⟨inner, hinner, hpop⟩ := readItems_append h
  obtain ⟨pushed, hpush, hrest⟩ := readItems_append hinner
  cases hpush
  have hsaved : inner.saved = p.globals :: p.saved := hbody hrest
  have hread : (match inner.saved with
      | [] => none
      | g :: saved => some { inner with globals := g, saved }) = some q :=
    readItems_singleton hpop
  rw [hsaved] at hread
  cases hread
  exact ⟨rfl, rfl⟩

/-- Of the fields so far only the ends of the reports matter to an item. -/
theorem readItem_congr {p q : Reader} {i : Item} {fields : List Field}
    (hbits : ∀ id, nextBit fields id = nextBit p.fields id) (h : readItem p i = some q) :
    ∃ more, q.fields = p.fields ++ more ∧
      readItem { p with fields := fields } i = some { q with fields := fields ++ more } := by
  unfold readItem at h ⊢
  split at h
  case h_7 =>
    split at h
    · cases h
    · rename_i g saved hsaved
      cases h
      exact ⟨[], (List.append_nil _).symm, by simp only [hsaved, List.append_nil]⟩
  case h_11 =>
    cases h
    refine ⟨ownFields p (namedBy p i.payload), rfl, ?_⟩
    have hown (usages : List ℕ) : ownFields { p with fields := fields } usages =
        ownFields p usages := by
      rw [ownFields, hbits, ownFields]
    rw [Reader.input, hown]
    rfl
  all_goals
    cases h
    refine ⟨[], (List.append_nil _).symm, ?_⟩
    simp only [List.append_nil, Reader.clearLocals]

theorem nextBit_append_congr {fields other : List Field}
    (hbits : ∀ id, nextBit fields id = nextBit other id) (more : List Field) (id : ℕ) :
    nextBit (fields ++ more) id = nextBit (other ++ more) id := by
  rw [nextBit_append, nextBit_append, hbits]

theorem readItems_congr {p q : Reader} {items : List Item} {fields : List Field}
    (hbits : ∀ id, nextBit fields id = nextBit p.fields id) (h : readItems p items = some q) :
    ∃ more, q.fields = p.fields ++ more ∧
      readItems { p with fields := fields } items = some { q with fields := fields ++ more } := by
  induction items generalizing p fields with
  | nil =>
    cases h
    exact ⟨[], (List.append_nil _).symm, by rw [List.append_nil]; rfl⟩
  | cons i items ih =>
    obtain ⟨mid, hmid, hrest⟩ := readItems_cons h
    obtain ⟨first, hfirst, hread⟩ := readItem_congr hbits hmid
    have hbits' (id : ℕ) : nextBit (fields ++ first) id = nextBit mid.fields id := by
      rw [hfirst, nextBit_append_congr hbits]
    obtain ⟨more, hmore, hlast⟩ := ih hbits' hrest
    refine ⟨first ++ more, by rw [hmore, hfirst, List.append_assoc], ?_⟩
    rw [readItems, List.foldlM_cons, hread, ← List.append_assoc]
    exact hlast

theorem readItems_ordered {p q : Reader} {items : List Item} (h : readItems p items = some q)
    (hp : Ordered p.fields) : Ordered q.fields := by
  induction items generalizing p with
  | nil =>
    cases h
    exact hp
  | cons i items ih =>
    obtain ⟨mid, hmid, hrest⟩ := readItems_cons h
    exact ih hrest (readItem_ordered hmid hp)

theorem layout_ordered {items : List Item} {fields : List Field} (h : layout items = some fields) :
    Ordered fields := by
  obtain ⟨q, hq, rfl⟩ := Option.map_eq_some_iff.1 h
  exact readItems_ordered hq ⟨List.Pairwise.nil, by simp [Reader.start]⟩

/-- No two fields of a layout overlap, whatever the items are. -/
theorem layout_disjoint {items : List Item} {fields : List Field} (h : layout items = some fields) :
    fields.Pairwise fun f g => ¬ Overlap f g := by
  refine (layout_ordered h).pairwise.imp ?_
  rintro f g hbefore ⟨hid, -, hshared⟩
  exact absurd (hbefore hid) (Nat.not_le.2 hshared)

theorem value_bit {f : Field} (hsize : f.size = 1) (hsigned : f.signed = false)
    (report : List UInt8) : f.value report =
      (((report.getD (f.offset / 8) 0).toNat.testBit (f.offset % 8)).toNat : ℕ) := by
  rw [Field.value, hsigned, hsize, LittleEndian.bitRange_eq_sum, Nat.add_sub_cancel_left]
  simp

theorem value_bytes {f : Field} {i n : ℕ} (hoffset : f.offset = 8 * i) (hsize : f.size = 8 * n)
    (hsigned : f.signed = false) (report : List UInt8) :
    f.value report = LittleEndian.value ((report.drop i).take n) := by
  rw [Field.value, hsigned, hoffset, hsize, ← Nat.mul_add, LittleEndian.bitRange_bytes]
  rfl

theorem value_signed_byte {f : Field} {i : ℕ} (hoffset : f.offset = 8 * i) (hsize : f.size = 8)
    (hsigned : f.signed = true) (report : List UInt8) :
    f.value report = (report.getD i 0).toInt8.toInt := by
  have hbyte : LittleEndian.value ((report.drop i).take 1) = (report.getD i 0).toNat := by
    rw [List.take_one, List.head?_drop, List.getD_eq_getElem?_getD]
    cases report[i]? with
    | none => rfl
    | some b => simp [LittleEndian.value]
  have hint : (report.getD i 0).toInt8.toInt =
      Int.bmod (report.getD i 0).toNat (2 ^ 8) := BitVec.toInt_eq_toNat_bmod _
  rw [Field.value, hsigned, if_pos rfl, hoffset, hsize, ← Nat.mul_succ 8 i,
    LittleEndian.bitRange_bytes report i 1, hbyte, hint]

end ReportFields
