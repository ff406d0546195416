import UdevHidBpf.HuionDescriptors
import UdevHidBpf.ReservedReports

/-! # The nodes of the Huion tablets

Huion tablets have default nodes and a vendor node. With the firmware id of its tablet in the udev
properties a program takes the tablet for switched to vendor mode and disables the default ones. -/
namespace HuionNodes

open ListSplice UdevProperties UdevInjection HuionFirmware HuionDescriptors
open FixedDescriptors KamvasPen ReportFields ReportMacros ReservedReports

/-- A pad, pen, puck, wheel or tablet, with the lengths of its reports. Not all of them have an
array for default mode. -/
structure DefaultNode where
  descriptorLength : ℕ
  lengths : List ℕ
  disabled : RdescArray
  fixed : Option RdescArray
  silent : disabled.rdesc = silentReports lengths := by rfl
  sized : ∀ n ∈ lengths, 2 ≤ n ∧ n ≤ 256 := by decide
  roomy : ∀ a ∈ fixed, ∀ n ∈ lengths,
    n ≤ largestReport ((layout (a.rdesc.items itemPayload)).getD []) := by decide +kernel

/-- The lengths are the cases of a `switch`, and the id is a C string. -/
structure Program where
  expectedFirmwareId : Bytes
  nodes : List DefaultNode
  vendorLength : ℕ
  vendorReportLength : ℕ
  fixedVendor : RdescArray
  id_ne_nil : expectedFirmwareId ≠ [] := by decide +kernel
  id_terminated : 0 ∉ expectedFirmwareId := by decide +kernel
  distinct : (vendorLength :: nodes.map (·.descriptorLength)).Nodup := by decide
  vendor_sized : 2 ≤ vendorReportLength ∧ vendorReportLength ≤ 256 := by decide
  vendor_reserved : has (fixedSizeVendorReport vendorReportLength) fixedVendor.rdesc := by
    decide +kernel

/-- `__builtin_memcpy(data, a, sizeof(a)); return sizeof(a);` -/
def copy (b : Buffer) (a : RdescArray) : List UInt8 × ℤ :=
  (splice b.data 0 a.bytes, a.bytes.length)

def DefaultNode.array (node : DefaultNode) (haveFwId : Bool) (rdescSize : ℕ) : Option RdescArray :=
  if rdescSize = node.descriptorLength then if haveFwId then some node.disabled else node.fixed
  else none

/-- The vendor node is fixed always. -/
def Program.fixRdesc (p : Program) (firmwareId : Bytes) (b : Buffer) : List UInt8 × ℤ :=
  let haveFwId := matchesString firmwareId p.expectedFirmwareId
  match p.nodes.findSome? (·.array haveFwId b.size) with
  | some a => copy b a
  | none => if b.size = p.vendorLength then copy b p.fixedVendor else (b.data, 0)

/-- `probe`, up to `ctx->retval` -/
def Program.probe (p : Program) (rdescSize : ℕ) : ℤ :=
  if rdescSize ∈ p.nodes.map (·.descriptorLength) ∨ rdescSize = p.vendorLength then 0
  else -BpfErrors.EINVAL

def inspiroy2M : Program where
  expectedFirmwareId := asBytes "HUION_T21k_"
  nodes := [
    { descriptorLength := 133, lengths := [8], disabled := Inspiroy2M.disabledRdescPad
      fixed := some Inspiroy2M.fixedRdescPad },
    { descriptorLength := 93, lengths := [PEN_REPORT_LENGTH]
      disabled := Inspiroy2M.disabledRdescPen, fixed := some Inspiroy2M.fixedRdescPen }]
  vendorLength := 36
  vendorReportLength := VENDOR_REPORT_LENGTH
  fixedVendor := Inspiroy2M.fixedRdescVendor

def inspiroy2S : Program where
  expectedFirmwareId := asBytes "HUION_T21j_"
  nodes := [
    { descriptorLength := 65, lengths := [8], disabled := Inspiroy2S.disabledRdescPad
      fixed := some Inspiroy2S.fixedRdescPad },
    { descriptorLength := 93, lengths := [PEN_REPORT_LENGTH]
      disabled := Inspiroy2S.disabledRdescPen, fixed := some Inspiroy2S.fixedRdescPen }]
  vendorLength := 18
  vendorReportLength := VENDOR_REPORT_LENGTH
  fixedVendor := Inspiroy2S.fixedRdescVendor

def dial2 : Program where
  expectedFirmwareId := asBytes "HUION_T216_"
  nodes := [
    { descriptorLength := 148, lengths := [9], disabled := Dial2.disabledRdescPad
      fixed := some Dial2.fixedRdescPad },
    { descriptorLength := 93, lengths := [PEN_REPORT_LENGTH]
      disabled := Dial2.disabledRdescPen, fixed := some Dial2.fixedRdescPen }]
  vendorLength := 18
  vendorReportLength := VENDOR_REPORT_LENGTH
  fixedVendor := Dial2.fixedRdescVendor

def keydialK20 : Program where
  expectedFirmwareId := asBytes "HUION_T21h_"
  nodes := [
    { descriptorLength := 135, lengths := [8, 3, 7], disabled := KeydialK20.disabledRdescPad
      fixed := some KeydialK20.fixedRdescPad },
    { descriptorLength := 108, lengths := [9], disabled := KeydialK20.disabledRdescPuck
      fixed := none }]
  vendorLength := 18
  vendorReportLength := VENDOR_REPORT_LENGTH
  fixedVendor := KeydialK20.fixedRdescVendor

def kamvas13Gen3 : Program where
  expectedFirmwareId := asBytes "HUION_M22c_"
  nodes := [
    { descriptorLength := 368, lengths := [28], disabled := Kamvas13.disabledRdescTablet
      fixed := none },
    { descriptorLength := 108, lengths := [9], disabled := Kamvas13.disabledRdescWheel
      fixed := none }]
  vendorLength := 36
  vendorReportLength := KamvasGen3.VENDOR_REPORT_LENGTH
  fixedVendor := Kamvas13.fixedRdescVendor

def kamvas16Gen3 : Program where
  expectedFirmwareId := asBytes "HUION_M22d_"
  nodes := [
    { descriptorLength := 328, lengths := [28], disabled := Kamvas16.disabledRdescTablet
      fixed := none },
    { descriptorLength := 200, lengths := [9], disabled := Kamvas16.disabledRdescWheel
      fixed := none }]
  vendorLength := 36
  vendorReportLength := KamvasGen3.VENDOR_REPORT_LENGTH
  fixedVendor := Kamvas16.fixedRdescVendor

def programs : List Program :=
  [inspiroy2M, inspiroy2S, dial2, keydialK20, kamvas13Gen3, kamvas16Gen3]

theorem silent_items (lengths : List ℕ) : ∀ i ∈ (silentReports lengths).items itemPayload,
    i.tag.toNat / 4 = 0x20 → namesUsages i.payload = false := by
  induction lengths with
  | nil => exact fun i hi => absurd hi List.not_mem_nil
  | cons n lengths ih =>
    intro i hi
    rcases List.mem_append.mp hi with hfirst | hrest
    · exact vendor_report_silent n i hfirst
    · exact ih i hrest

section arrays

variable (b : Buffer) (a : RdescArray)

theorem parsed_copy : ∃ fields,
    reportFields (b.parsed (copy b a)) = some fields ∧
      layout (a.rdesc.items itemPayload) = some fields := by
  obtain ⟨fields, hfields⟩ := composition_layout a.rdesc
  refine ⟨fields, ?_, hfields⟩
  rw [copy, b.parsed_replaced a.ne_nil,
    reportFields_of_bytes a.noWideUnit a.encoded, hfields]

theorem parsed_copy_silent {lengths : List ℕ} (hsilent : a.rdesc = silentReports lengths) :
    ∃ fields,
      reportFields (b.parsed (copy b a)) = some fields ∧
        ∀ report usage, decode fields report usage = none := by
  obtain ⟨fields, hfields, hlayout⟩ := parsed_copy b a
  rw [hsilent] at hlayout
  exact ⟨fields, hfields, decode_silent hlayout (silent_items lengths)⟩

end arrays

section nodes

variable {nodes : List DefaultNode} {node : DefaultNode} {rdescSize : ℕ} (haveFwId : Bool)

theorem array_of_not_mem (h : rdescSize ∉ nodes.map (·.descriptorLength)) :
    nodes.findSome? (·.array haveFwId rdescSize) = none := by
  apply List.findSome?_eq_none_iff.mpr
  intro node hnode
  rw [DefaultNode.array, if_neg]
  rintro rfl
  exact h (List.mem_map_of_mem hnode)

theorem array_of_mem (hdistinct : (nodes.map (·.descriptorLength)).Nodup) (hnode : node ∈ nodes) :
    nodes.findSome? (·.array haveFwId node.descriptorLength) =
      if haveFwId then some node.disabled else node.fixed := by
  induction nodes with
  | nil => cases hnode
  | cons first nodes ih =>
    rw [List.map_cons, List.nodup_cons] at hdistinct
    rw [List.findSome?_cons]
    rcases List.mem_cons.mp hnode with rfl | hrest
    · -- a node without an array goes on to the others, whose lengths differ
      rw [DefaultNode.array, if_pos rfl, array_of_not_mem haveFwId hdistinct.1]
      cases (if haveFwId then some node.disabled else node.fixed) <;> rfl
    · have hne : node.descriptorLength ≠ first.descriptorLength := by
        intro heq
        exact hdistinct.1 (heq ▸ List.mem_map_of_mem hrest)
      rw [DefaultNode.array, if_neg hne]
      exact ih hdistinct.2 hrest

end nodes

section programs

variable (p : Program) (firmwareId : Bytes) (b : Buffer)

theorem fixRdesc_node {node : DefaultNode} (hnode : node ∈ p.nodes)
    (hsize : b.size = node.descriptorLength) : p.fixRdesc firmwareId b =
      match (if matchesString firmwareId p.expectedFirmwareId then some node.disabled
        else node.fixed) with
      | some a => copy b a
      | none => (b.data, 0) := by
  have hdistinct := List.nodup_cons.mp p.distinct
  have hvendor : b.size ≠ p.vendorLength := by
    intro heq
    exact hdistinct.1 (heq ▸ hsize ▸ List.mem_map_of_mem hnode)
  rw [Program.fixRdesc, if_neg hvendor, hsize, array_of_mem _ hdistinct.2 hnode]

theorem fixRdesc_vendor (hsize : b.size = p.vendorLength) :
    p.fixRdesc firmwareId b = copy b p.fixedVendor := by
  have hdistinct := List.nodup_cons.mp p.distinct
  rw [Program.fixRdesc, hsize, array_of_not_mem _ hdistinct.1, if_pos rfl]

theorem fixRdesc_other (h : p.probe b.size ≠ 0) : p.fixRdesc firmwareId b = (b.data, 0) := by
  have hsize : ¬ (b.size ∈ p.nodes.map (·.descriptorLength) ∨ b.size = p.vendorLength) := by
    intro hsize
    exact h (if_pos hsize)
  push Not at hsize
  rw [Program.fixRdesc, array_of_not_mem _ hsize.1, if_neg hsize.2]

end programs

def Program.Recognises (p : Program) (value : Option Bytes) : Prop :=
  ∃ id, value = some id ∧ id.length < 64 ∧ p.expectedFirmwareId <+: id

/-- Fields that the kernel finds, those of the array `a`. -/
def HasFieldsOf (a : RdescArray) (descriptor : List UInt8) : Prop := ∃ fields,
  reportFields descriptor = some fields ∧ layout (a.rdesc.items itemPayload) = some fields ∧
    fields.Pairwise fun f g => ¬ Overlap f g

def Silent (descriptor : List UInt8) : Prop := ∃ fields, reportFields descriptor = some fields ∧
  ∀ report usage, decode fields report usage = none

/-- Reports of `n` bytes are not discarded. -/
def HasRoom (descriptor : List UInt8) (n : ℕ) : Prop := ∃ fields,
  reportFields descriptor = some fields ∧ n ≤ largestReport fields

/-- What becomes of the node with the descriptor in `b`. -/
structure Program.Settles (p : Program) (recognised : Prop) (b : Buffer)
    (descriptor : List UInt8) : Prop where
  disabled : recognised → ∀ node ∈ p.nodes, b.size = node.descriptorLength → Silent descriptor
  fixed : ¬ recognised → ∀ node ∈ p.nodes, b.size = node.descriptorLength →
    node.fixed.elim (descriptor = b.descriptor) (HasFieldsOf · descriptor)
  room : ∀ node ∈ p.nodes, b.size = node.descriptorLength → recognised ∨ node.fixed.isSome →
    ∀ n ∈ node.lengths, HasRoom descriptor n
  vendor : b.size = p.vendorLength → HasFieldsOf p.fixedVendor descriptor
  vendorRoom : b.size = p.vendorLength → HasRoom descriptor p.vendorReportLength
  other : p.probe b.size ≠ 0 → descriptor = b.descriptor

theorem parsed_copy_fields (b : Buffer) (a : RdescArray) :
    HasFieldsOf a (b.parsed (copy b a)) := by
  obtain ⟨fields, hfields, hlayout⟩ := parsed_copy b a
  exact ⟨fields, hfields, hlayout, layout_disjoint hlayout⟩

theorem parsed_copy_room (b : Buffer) (a : RdescArray) {n : ℕ} (h2 : 2 ≤ n) (h256 : n ≤ 256)
    (hhas : has (fixedSizeVendorReport n) a.rdesc) : HasRoom (b.parsed (copy b a)) n := by
  obtain ⟨fields, hfields, hlayout⟩ := parsed_copy b a
  obtain ⟨q, hq, rfl⟩ := Option.map_eq_some_iff.mp hlayout
  exact ⟨q.fields, hfields, reserved_largest (composition_reserved h2 h256 hhas hq)⟩

theorem silent_has {lengths : List ℕ} {n : ℕ} (hn : n ∈ lengths) :
    has (fixedSizeVendorReport n) (silentReports lengths) := by
  induction lengths with
  | nil => cases hn
  | cons first lengths ih =>
    have hcons : silentReports (first :: lengths) =
        .seq (fixedSizeVendorReport first) (silentReports lengths) := rfl
    rw [hcons, has, Bool.or_eq_true, Bool.or_eq_true]
    rcases List.mem_cons.mp hn with rfl | hrest
    · exact .inr (.inl (has_self _))
    · exact .inr (.inr (ih hrest))

theorem node_room (node : DefaultNode) (b : Buffer) {a : RdescArray}
    (ha : a = node.disabled ∨ a ∈ node.fixed) {n : ℕ} (hn : n ∈ node.lengths) :
    HasRoom (b.parsed (copy b a)) n := by
  rcases ha with rfl | hfixed
  · obtain ⟨h2, h256⟩ := node.sized n hn
    exact parsed_copy_room b node.disabled h2 h256 (node.silent ▸ silent_has hn)
  · obtain ⟨fields, hfields, hlayout⟩ := parsed_copy b a
    have hroomy := node.roomy a hfixed n hn
    rw [hlayout, Option.getD_some] at hroomy
    exact ⟨fields, hfields, hroomy⟩

theorem fixRdesc_settles (p : Program) (firmwareId : Bytes) (b : Buffer) :
    p.Settles (matchesString firmwareId p.expectedFirmwareId) b
      (b.parsed (p.fixRdesc firmwareId b)) where
  disabled hrecognised node hnode hsize := by
    rw [fixRdesc_node p firmwareId b hnode hsize, if_pos hrecognised]
    exact parsed_copy_silent b node.disabled node.silent
  fixed hrecognised node hnode hsize := by
    rw [fixRdesc_node p firmwareId b hnode hsize, if_neg hrecognised]
    cases node.fixed with
    | none => exact b.parsed_unchanged
    | some a => exact parsed_copy_fields b a
  room node hnode hsize hchosen n hn := by
    rw [fixRdesc_node p firmwareId b hnode hsize]
    by_cases hrecognised : matchesString firmwareId p.expectedFirmwareId
    · rw [if_pos hrecognised]
      exact node_room node b (.inl rfl) hn
    · obtain ⟨a, ha⟩ := Option.isSome_iff_exists.mp (hchosen.resolve_left hrecognised)
      rw [if_neg hrecognised, ha]
      exact node_room node b (.inr ha) hn
  vendor hsize := by
    rw [fixRdesc_vendor p firmwareId b hsize]
    exact parsed_copy_fields b p.fixedVendor
  vendorRoom hsize := by
    rw [fixRdesc_vendor p firmwareId b hsize]
    exact parsed_copy_room b p.fixedVendor p.vendor_sized.1 p.vendor_sized.2 p.vendor_reserved
  other hprobe := by rw [fixRdesc_other p firmwareId b hprobe, b.parsed_unchanged]

theorem expected_distinct : (programs.map (·.expectedFirmwareId)).Nodup := by decide +kernel

theorem recognises_one {p q : Program} (hp : p ∈ programs) (hq : q ∈ programs)
    {value : Option Bytes} (hpv : p.Recognises value) (hqv : q.Recognises value) : p = q := by
  obtain ⟨id, rfl, -, hpid⟩ := hpv
  obtain ⟨_, ⟨⟩, -, hqid⟩ := hqv
  have hlength : ∀ p ∈ programs, p.expectedFirmwareId.length = 11 := by decide +kernel
  have hsame : p.expectedFirmwareId = q.expectedFirmwareId :=
    (List.prefix_of_prefix_length_le hpid hqid (by rw [hlength p hp, hlength q hq])).eq_of_length
      (by rw [hlength p hp, hlength q hq])
  exact List.inj_on_of_nodup_map expected_distinct hp hq hsame

/-- On any device and with any properties on the command line, the default nodes of a tablet are
silent for its own program alone, and the vendor node is fixed in any case. -/
theorem default_nodes_give_way {maps : List LoadedMap} {vars : List VariableMetadata}
    {i len offset : ℕ} {m : LoadedMap} (hi : maps[i]? = some m) (hbss : endsWith m.name ".bss")
    (helems : m.elems = [List.replicate len 0])
    (hplaced : ∀ m ∈ maps, endsWith m.name ".bss" → ∀ d ∈ m.elems, Placed vars d.length)
    (hid : ⟨"HUION_FIRMWARE_ID", offset, 64⟩ ∈ vars)
    (device extraProps : List HidUdevProperty) {p : Program} (hp : p ∈ programs) :
    ∃ maps' m' d, injectUdevProperties maps ⟨vars, [], []⟩ device extraProps = some maps' ∧
      maps'[i]? = some m' ∧ m'.elems = [d] ∧
      (∀ b : Buffer, p.Settles (p.Recognises (propertyValue device extraProps "HUION_FIRMWARE_ID"))
        b (b.parsed (p.fixRdesc (slice d offset 64) b))) ∧
      ∀ q ∈ programs, p.Recognises (propertyValue device extraProps "HUION_FIRMWARE_ID") →
        q.Recognises (propertyValue device extraProps "HUION_FIRMWARE_ID") → p = q := by
  obtain ⟨maps', m', d, hmaps', hi', hd, hslices⟩ :=
    loaded_bss hi hbss helems hplaced device extraProps
  refine ⟨maps', m', d, hmaps', hi', hd, fun b => ?_, fun q hq => recognises_one hp hq⟩
  have hsettles := fixRdesc_settles p (slice d offset 64) b
  rw [hslices _ hid, propext (matches_written p.id_ne_nil p.id_terminated _)] at hsettles
  rw [hslices _ hid]
  exact hsettles

def dialPad : Buffer := .zeros 148 (by decide)

theorem default_nodes_give_way_dial : ∃ maps' m' d,
    injectUdevProperties [⟨"dial_2.bss", 64, [List.replicate 64 0]⟩]
        ⟨[⟨"HUION_FIRMWARE_ID", 0, 64⟩], [], []⟩
        [⟨"HUION_FIRMWARE_ID", "HUION_T216_210101"⟩] [] = some maps' ∧
      maps'[0]? = some m' ∧ m'.elems = [d] ∧
      Silent (dialPad.parsed (dial2.fixRdesc (slice d 0 64) dialPad)) := by
  have hmaps : ∀ m ∈ [(⟨"dial_2.bss", 64, [List.replicate 64 0]⟩ : LoadedMap)],
      endsWith m.name ".bss" → ∀ d ∈ m.elems,
        Placed [⟨"HUION_FIRMWARE_ID", 0, 64⟩] d.length := by
    intro m hm _ d hd
    obtain rfl := List.mem_singleton.mp hm
    obtain rfl := List.mem_singleton.mp hd
    rw [List.length_replicate]
    exact ⟨by decide, by decide⟩
  have hdial : dial2 ∈ programs := .tail _ (.tail _ (.head _))
  obtain ⟨maps', m', d, hmaps', hi', hd, hsettles, -⟩ := default_nodes_give_way (i := 0) rfl
    (by decide) rfl hmaps (.head _) [⟨"HUION_FIRMWARE_ID", "HUION_T216_210101"⟩] [] hdial
  refine ⟨maps', m', d, hmaps', hi', hd, (hsettles dialPad).disabled ?_ _ (.head _) rfl⟩
  exact ⟨asBytes "HUION_T216_210101", by decide +kernel, by decide +kernel, by decide +kernel⟩

end HuionNodes
