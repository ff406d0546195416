import UdevHidBpf.ShortItems

/-! # The report descriptor macros

A composition of the macros is the source text of a byte array. The argument of a macro is
an integer constant; `none` is a failed static assertion. The elements of the array are
converted to bytes. -/
namespace ReportMacros

open ShortItems LittleEndian

/-- How a macro writes its argument: `i16` and `i32` are one element of the array, `LE16` and
`LE32` one for each byte. -/
inductive Emission where
  | i4 | i8 | i16 | i32 | le16 | le32
  deriving DecidableEq, Repr

/-- The assertions in `i4`, `i8`, `i16` and `i32`. -/
def Emission.accepts : Emission → ℤ → Bool
  | .i4, v => -0x8 ≤ v ∧ v ≤ 0x7
  | .i8, v => -0x80 ≤ v ∧ v ≤ 0xff
  | .i16, v | .le16, v => -0x8000 ≤ v ∧ v ≤ 0xffff
  | .i32, v | .le32, v => -0x80000000 ≤ v ∧ v ≤ 0xffffffff

/-- A shift to the right is the floor of a division. -/
def Emission.elements : Emission → ℤ → List ℤ
  | .i4, v => [v % 0x100 % 0x10]
  | .i8, v => [v % 0x100]
  | .i16, v => [v % 0x10000]
  | .i32, v => [v % 0x100000000]
  | .le16, v => [v % 0x10000 % 0x100, v / 0x100 % 0x100]
  | .le32, v => [v % 0x100000000 % 0x100, v / 0x100 % 0x100, v / 0x10000 % 0x100,
      v / 0x1000000 % 0x100]

/-- The macros that write one item. -/
inductive ItemMacro where
  | input | output | feature | input_i16 | output_i16 | feature_i16 | reportId | reportSize
  | reportCount | logicalMinimum_i8 | logicalMinimum_i16 | logicalMinimum_i32
  | logicalMaximum_i8 | logicalMaximum_i16 | logicalMaximum_i32 | physicalMinimum_i8
  | physicalMinimum_i16 | physicalMinimum_i32 | physicalMaximum_i8 | physicalMaximum_i16
  | physicalMaximum_i32 | usageMinimum_i8 | usageMinimum_i16 | usageMaximum_i8
  | usageMaximum_i16 | usagePage_i8 | usagePage_i16 | usage_i8 | usage_i16 | usage_i32
  | unit_i8 | unit_i16 | unit_i32 | unitExponent
  deriving DecidableEq, Repr

def ItemMacro.code : ItemMacro → UInt8 × Emission
  | .input => (0x81, .i8)
  | .output => (0x91, .i8)
  | .feature => (0xb1, .i8)
  | .input_i16 => (0x82, .le16)
  | .output_i16 => (0x92, .le16)
  | .feature_i16 => (0xb2, .le16)
  | .reportId => (0x85, .i8)
  | .reportSize => (0x75, .i8)
  | .reportCount => (0x95, .i8)
  | .logicalMinimum_i8 => (0x15, .i8)
  | .logicalMinimum_i16 => (0x16, .le16)
  | .logicalMinimum_i32 => (0x17, .le32)
  | .logicalMaximum_i8 => (0x25, .i8)
  | .logicalMaximum_i16 => (0x26, .le16)
  | .logicalMaximum_i32 => (0x27, .le32)
  | .physicalMinimum_i8 => (0x35, .i8)
  | .physicalMinimum_i16 => (0x36, .le16)
  | .physicalMinimum_i32 => (0x37, .le32)
  | .physicalMaximum_i8 => (0x45, .i8)
  | .physicalMaximum_i16 => (0x46, .le16)
  | .physicalMaximum_i32 => (0x47, .le32)
  | .usageMinimum_i8 => (0x19, .i8)
  | .usageMinimum_i16 => (0x1a, .le16)
  | .usageMaximum_i8 => (0x29, .i8)
  | .usageMaximum_i16 => (0x2a, .le16)
  | .usagePage_i8 => (0x05, .i8)
  | .usagePage_i16 => (0x06, .le16)
  | .usage_i8 => (0x09, .i8)
  | .usage_i16 => (0x0a, .le16)
  | .usage_i32 => (0x0b, .le32)
  | .unit_i8 => (0x65, .i8)
  | .unit_i16 => (0x66, .i16)
  | .unit_i32 => (0x67, .i32)
  | .unitExponent => (0x55, .i4)

/-- A sequence of macros; the bodies of `Collection` and `PushPop` are sequences again. -/
inductive Rdesc where
  | empty
  | seq (first rest : Rdesc)
  | item (m : ItemMacro) (arg : ℤ)
  | usagePageVendor (u : ℤ)
  | collection (col : ℤ) (body : Rdesc)
  | pushPop (body : Rdesc)
  deriving DecidableEq, Repr

def itemElements (m : ItemMacro) (arg : ℤ) : Option (List ℤ) :=
  if m.code.2.accepts arg then some (m.code.1.toNat :: m.code.2.elements arg) else none

def Rdesc.elements : Rdesc → Option (List ℤ)
  | .empty => some []
  | .seq first rest => do return (← first.elements) ++ (← rest.elements)
  | .item m arg => itemElements m arg
  | .usagePageVendor u => if u / 0x100 % 0x100 = 0xff then itemElements .usagePage_i16 u else none
  | .collection col body => do
    let inner ← body.elements
    if Emission.accepts .i8 col then
      return 0xa1 :: Emission.elements .i8 col ++ inner ++ [0xc0]
    else none
  | .pushPop body => do return 0xa4 :: (← body.elements) ++ [0xb4]

/-- The conversion of an element to `__u8`. -/
def toByte (element : ℤ) : UInt8 := UInt8.ofNat (element % 0x100).toNat

def Rdesc.bytes (r : Rdesc) : Option (List UInt8) := r.elements.map (List.map toByte)

def collectionPhysical (body : Rdesc) : Rdesc := .collection 0x00 body
def collectionApplication (body : Rdesc) : Rdesc := .collection 0x01 body
def collectionLogical (body : Rdesc) : Rdesc := .collection 0x02 body
def unit (u : ℤ) : Rdesc := .item .unit_i8 u

/-- The generated `UsagePage_` and `Usage_` macros, by the value of the template. -/
def generatedUsagePage (value : ℕ) : Rdesc :=
  if value < 0xff then .item .usagePage_i8 value else .item .usagePage_i16 value

def generatedUsage (value : ℕ) : Rdesc :=
  if value < 0xff then .item .usage_i8 value else .item .usage_i16 value

def fixedSizeVendorReport (bytes : ℤ) : Rdesc :=
  .seq (.usagePageVendor 0xffff) <| .seq (.item .usage_i8 0x01) <| collectionPhysical <|
    .seq (.item .reportId 0xac) <| .seq (.item .reportSize 8) <|
      .seq (.item .reportCount (bytes - 1)) (.item .input 0x1)

def plainPayload (m : ItemMacro) (arg : ℤ) : ℕ := (arg % 2 ^ (8 * payloadSize m.code.1)).toNat

/-- The exponent of a unit is a signed nibble. -/
def itemPayload (m : ItemMacro) (arg : ℤ) : ℕ :=
  if m = .unitExponent then (arg % 2 ^ 4).toNat else plainPayload m arg

def Rdesc.items (payload : ItemMacro → ℤ → ℕ) : Rdesc → List Item
  | .empty => []
  | .seq first rest => first.items payload ++ rest.items payload
  | .item m arg => [⟨m.code.1, payload m arg⟩]
  | .usagePageVendor u => [⟨ItemMacro.usagePage_i16.code.1, payload .usagePage_i16 u⟩]
  | .collection col body =>
    [⟨0xa1, (col % 2 ^ 8).toNat⟩] ++ body.items payload ++ [⟨0xc0, 0⟩]
  | .pushPop body => [⟨0xa4, 0⟩] ++ body.items payload ++ [⟨0xb4, 0⟩]

/-- `Unit_i16` and `Unit_i32` write one byte behind tags of two and four. -/
def isWideUnit (m : ItemMacro) : Bool := m = .unit_i16 || m = .unit_i32

def Rdesc.NoWideUnit : Rdesc → Prop
  | .empty | .usagePageVendor _ => True
  | .item m _ => ¬ isWideUnit m
  | .seq first rest => first.NoWideUnit ∧ rest.NoWideUnit
  | .collection _ body | .pushPop body => body.NoWideUnit

theorem toByte_eq {a : ℤ} {n : ℕ} (h : a % 0x100 = (n % 0x100 : ℕ)) : toByte a = UInt8.ofNat n := by
  apply UInt8.toNat_inj.mp
  rw [toByte, h, Int.toNat_natCast, UInt8.toNat_ofNat', UInt8.toNat_ofNat', Nat.mod_mod]

theorem toByte_toNat (b : UInt8) : toByte b.toNat = b := by
  rw [toByte_eq (n := b.toNat) (by omega), UInt8.ofNat_toNat]

theorem elements_i4 (v : ℤ) :
    (Emission.elements .i4 v).map toByte = bytes 1 (v % 2 ^ 4).toNat := by
  simp only [Emission.elements, List.map_cons, List.map_nil, bytes]
  rw [toByte_eq]
  omega

theorem elements_i8 (v : ℤ) :
    (Emission.elements .i8 v).map toByte = bytes 1 (v % 2 ^ 8).toNat := by
  simp only [Emission.elements, List.map_cons, List.map_nil, bytes]
  rw [toByte_eq]
  omega

theorem elements_le16 (v : ℤ) :
    (Emission.elements .le16 v).map toByte = bytes 2 (v % 2 ^ 16).toNat := by
  simp only [Emission.elements, List.map_cons, List.map_nil, bytes]
  rw [toByte_eq (n := (v % 2 ^ 16).toNat) (by omega),
    toByte_eq (n := (v % 2 ^ 16).toNat / 256) (by omega)]

theorem elements_le32 (v : ℤ) :
    (Emission.elements .le32 v).map toByte = bytes 4 (v % 2 ^ 32).toNat := by
  simp only [Emission.elements, List.map_cons, List.map_nil, bytes]
  rw [toByte_eq (n := (v % 2 ^ 32).toNat) (by omega),
    toByte_eq (n := (v % 2 ^ 32).toNat / 256) (by omega),
    toByte_eq (n := (v % 2 ^ 32).toNat / 256 / 256) (by omega),
    toByte_eq (n := (v % 2 ^ 32).toNat / 256 / 256 / 256) (by omega)]

theorem code_cases {m : ItemMacro} (h : ¬ isWideUnit m) :
    m = .unitExponent ∨ m ≠ .unitExponent ∧
      (m.code.2 = .i8 ∧ payloadSize m.code.1 = 1 ∨ m.code.2 = .le16 ∧ payloadSize m.code.1 = 2 ∨
        m.code.2 = .le32 ∧ payloadSize m.code.1 = 4) := by
  revert h
  cases m <;> decide

theorem elements_encode {m : ItemMacro} (h : ¬ isWideUnit m) (arg : ℤ) :
    (m.code.2.elements arg).map toByte = bytes (payloadSize m.code.1) (itemPayload m arg) := by
  rcases code_cases h with rfl | ⟨hne, ⟨he, hs⟩ | ⟨he, hs⟩ | ⟨he, hs⟩⟩
  · exact elements_i4 arg
  · rw [itemPayload, if_neg hne, plainPayload, he, hs]
    exact elements_i8 arg
  · rw [itemPayload, if_neg hne, plainPayload, he, hs]
    exact elements_le16 arg
  · rw [itemPayload, if_neg hne, plainPayload, he, hs]
    exact elements_le32 arg

theorem itemElements_encode {m : ItemMacro} (h : ¬ isWideUnit m) {arg : ℤ} {elems : List ℤ}
    (he : itemElements m arg = some elems) :
    elems.map toByte = encode ⟨m.code.1, itemPayload m arg⟩ := by
  rw [itemElements, Option.ite_none_right_eq_some, Option.some.injEq] at he
  obtain ⟨-, rfl⟩ := he
  rw [List.map_cons, toByte_toNat, elements_encode h, encode]

/-- The bytes of a composition are those of its items, in their order. -/
theorem elements_items {r : Rdesc} (h : r.NoWideUnit) {elems : List ℤ}
    (he : r.elements = some elems) : elems.map toByte = (r.items itemPayload).flatMap encode := by
  induction r generalizing elems with
  | empty =>
    rw [Rdesc.elements, Option.some.injEq] at he
    subst he
    rfl
  | seq first rest ihFirst ihRest =>
    simp only [Rdesc.elements, Option.bind_eq_bind, Option.bind_eq_some_iff, Option.pure_def,
      Option.some.injEq] at he
    obtain ⟨l, hl, m, hm, rfl⟩ := he
    rw [List.map_append, ihFirst h.1 hl, ihRest h.2 hm, Rdesc.items, List.flatMap_append]
  | item m arg =>
    rw [itemElements_encode h he, Rdesc.items, List.flatMap_singleton]
  | usagePageVendor u =>
    rw [Rdesc.elements, Option.ite_none_right_eq_some] at he
    rw [itemElements_encode (by decide) he.2, Rdesc.items, List.flatMap_singleton]
  | collection col body ih =>
    simp only [Rdesc.elements, Option.bind_eq_bind, Option.bind_eq_some_iff, Option.pure_def,
      Option.ite_none_right_eq_some, Option.some.injEq] at he
    obtain ⟨inner, hinner, -, rfl⟩ := he
    have hcol : toByte 0xa1 :: (Emission.elements .i8 col).map toByte =
        encode ⟨0xa1, (col % 2 ^ 8).toNat⟩ := by
      have htag : toByte 0xa1 = 0xa1 := by decide
      have hsize : payloadSize 0xa1 = 1 := by decide
      rw [elements_i8, htag, encode, hsize]
    rw [Rdesc.items, List.flatMap_append, List.flatMap_append, List.flatMap_singleton, ← hcol,
      ← ih h hinner, List.map_append, List.map_append]
    rfl
  | pushPop body ih =>
    simp only [Rdesc.elements, Option.bind_eq_bind, Option.bind_eq_some_iff, Option.pure_def,
      Option.some.injEq] at he
    obtain ⟨inner, hinner, rfl⟩ := he
    rw [Rdesc.items, List.flatMap_append, List.flatMap_append, ← ih h hinner, List.map_append]
    rfl

theorem items_wellSized (r : Rdesc) : ∀ i ∈ r.items itemPayload, i.WellSized := by
  have hplain (m : ItemMacro) (arg : ℤ) : Item.WellSized ⟨m.code.1, itemPayload m arg⟩ := by
    have hpos : (0 : ℤ) < 2 ^ (8 * payloadSize m.code.1) := Int.pow_pos (by decide)
    have hlt : arg % 2 ^ (8 * payloadSize m.code.1) < 2 ^ (8 * payloadSize m.code.1) :=
      Int.emod_lt_of_pos _ hpos
    rw [Item.WellSized, itemPayload, plainPayload]
    split
    · rename_i hm
      subst hm
      have hsize : payloadSize ItemMacro.unitExponent.code.1 = 1 := by decide
      simp only [hsize]
      omega
    · apply (Int.toNat_lt (Int.emod_nonneg arg (Int.ne_of_gt hpos))).mpr
      exact_mod_cast hlt
  induction r with
  | empty => simp [Rdesc.items]
  | seq first rest ihFirst ihRest =>
    rw [Rdesc.items]
    exact List.forall_mem_append.mpr ⟨ihFirst, ihRest⟩
  | item m arg => simpa [Rdesc.items] using hplain m arg
  | usagePageVendor u => simpa [Rdesc.items] using hplain .usagePage_i16 u
  | collection col body ih =>
    have hopen : Item.WellSized ⟨0xa1, (col % 2 ^ 8).toNat⟩ := by
      have hsize : payloadSize 0xa1 = 1 := by decide
      simp only [Item.WellSized, hsize]
      omega
    rw [Rdesc.items]
    exact List.forall_mem_append.mpr ⟨List.forall_mem_append.mpr
      ⟨List.forall_mem_singleton.mpr hopen, ih⟩, List.forall_mem_singleton.mpr (by decide)⟩
  | pushPop body ih =>
    rw [Rdesc.items]
    exact List.forall_mem_append.mpr ⟨List.forall_mem_append.mpr
      ⟨List.forall_mem_singleton.mpr (by decide), ih⟩, List.forall_mem_singleton.mpr (by decide)⟩

theorem nestItem_code (stack : List Bracket) (m : ItemMacro) (payload : ℕ) :
    nestItem stack ⟨m.code.1, payload⟩ = some stack := by
  have hcode : m.code.1.toNat / 4 ∉ bracketCodes := by cases m <;> decide
  exact nestItem_other hcode stack

theorem nest_items (r : Rdesc) (stack : List Bracket) :
    nest stack (r.items itemPayload) = some stack := by
  induction r generalizing stack with
  | empty => rfl
  | seq first rest ihFirst ihRest =>
    rw [Rdesc.items, nest_append, ihFirst, Option.bind_some, ihRest]
  | item m arg => simpa [Rdesc.items, nest] using nestItem_code stack m _
  | usagePageVendor u => simpa [Rdesc.items, nest] using nestItem_code stack .usagePage_i16 _
  | collection col body ih =>
    have hcode : (0xa1 : UInt8).toNat / 4 = 0x28 := by decide
    have hopen : nest stack [⟨0xa1, (col % 2 ^ 8).toNat⟩] = some (.collection :: stack) := by
      simp only [nest, List.foldlM_cons, nestItem, hcode]
      rfl
    rw [Rdesc.items, nest_append, nest_append, hopen, Option.bind_some, ih]
    rfl
  | pushPop body ih =>
    have hopen : nest stack [⟨0xa4, 0⟩] = some (.push :: stack) := rfl
    rw [Rdesc.items, nest_append, nest_append, hopen, Option.bind_some, ih]
    rfl

/-- A wide unit is cut short: its tag announces more than the one byte behind it. -/
theorem wideUnit_cut_short {m : ItemMacro} (h : isWideUnit m) {arg : ℤ}
    (harg : m.code.2.accepts arg) :
    ∃ descriptor, (Rdesc.item m arg).bytes = some descriptor ∧ parse descriptor = none := by
  have hm : m = .unit_i16 ∨ m = .unit_i32 := by simpa [isWideUnit] using h
  refine ⟨((m.code.1.toNat : ℤ) :: m.code.2.elements arg).map toByte, ?_, ?_⟩
  · rw [Rdesc.bytes, Rdesc.elements, itemElements, if_pos harg, Option.map_some]
  · rw [List.map_cons, toByte_toNat]
    rcases hm with rfl | rfl <;> rfl

/-- A descriptor parses to the items of its macros, a unit's exponent being a signed nibble. -/
theorem macros_well_formed (r : Rdesc) (hunit : r.NoWideUnit) (descriptor : List UInt8)
    (h : r.bytes = some descriptor) :
    parse descriptor = some (r.items itemPayload) ∧ Balanced (r.items itemPayload) := by
  rw [Rdesc.bytes, Option.map_eq_some_iff] at h
  obtain ⟨elems, he, rfl⟩ := h
  rw [elements_items hunit he]
  exact ⟨parse_encodes (items_wellSized r), nest_items r []⟩

theorem macros_well_formed_negative :
    parse [0xa1, 0x01, 0x16, 0x00, 0x80, 0xa4, 0x55, 0x0f, 0xb4, 0xc0] =
      some ((collectionApplication (.seq (.item .logicalMinimum_i16 (-32768))
        (.pushPop (.item .unitExponent (-1))))).items itemPayload) :=
  (macros_well_formed (collectionApplication (.seq (.item .logicalMinimum_i16 (-32768))
    (.pushPop (.item .unitExponent (-1)))))
    ⟨(by decide : ¬ isWideUnit .logicalMinimum_i16), (by decide : ¬ isWideUnit .unitExponent)⟩ _
    (by decide)).1

/-- `UnitExponent(-1)` has the payload 0x0f. -/
theorem macros_unit_exponent_nibble : ¬ ∀ (r : Rdesc) (descriptor : List UInt8),
    r.bytes = some descriptor →
      parse descriptor = some (r.items plainPayload) ∧ Balanced (r.items plainPayload) := by
  intro h
  exact absurd (h (.item .unitExponent (-1)) [0x55, 0x0f] (by decide)).1 (by decide)

end ReportMacros
