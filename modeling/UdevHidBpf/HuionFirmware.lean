import Mathlib.Tactic.NormNum
import UdevHidBpf.UdevInjection

/-! # The udev properties in the Huion programs

A program has its properties in zeroed variables of `.bss`. The loader writes them there and the
program compares the start of the firmware id. -/
namespace HuionFirmware

open ListSplice OptionLists UdevProperties UdevInjection

/-- `__builtin_memcmp(buffer, expected, sizeof(expected) - 1) == 0` -/
def matchesString (buffer expected : Bytes) : Bool := buffer.take expected.length == expected

/-- What a zeroed variable holds after the loader has gone over it. -/
def written (size : ℕ) : Option Bytes → Bytes
  | some value =>
    if value.length < size then value ++ List.replicate (size - value.length) 0
    else List.replicate size 0
  | none => List.replicate size 0

def propertyValue (device extraProps : List HidUdevProperty) (name : String) : Option Bytes :=
  (effectiveProperty device extraProps name).map fun prop => asBytes prop.value

theorem written_of_lt {size : ℕ} {value : Bytes} (h : value.length < size) :
    written size (some value) = value ++ List.replicate (size - value.length) 0 := if_pos h

theorem written_of_le {size : ℕ} {value : Bytes} (h : size ≤ value.length) :
    written size (some value) = List.replicate size 0 := if_neg (not_lt.mpr h)

theorem slice_zeros {len off n : ℕ} (h : off + n ≤ len) :
    slice (List.replicate len (0 : UInt8)) off n = List.replicate n 0 := by
  rw [slice, List.drop_replicate, List.take_replicate, Nat.min_eq_left (by omega)]

theorem injected_zeros {eff : String → Option HidUdevProperty} {vars : List VariableMetadata}
    {len : ℕ} {d : Bytes} (h : Injected eff vars (List.replicate len 0) d)
    (hplaced : Placed vars len) {v : VariableMetadata} (hv : v ∈ vars) :
    slice d v.offset v.size = written v.size ((eff v.name).map fun prop => asBytes prop.value) := by
  have hzeros := slice_zeros (hplaced.inside v hv)
  cases heff : eff v.name with
  | none =>
    rw [h.untouched v hv (by rw [heff]; nofun), hzeros]
    rfl
  | some prop =>
    rw [Option.map_some]
    rcases lt_or_ge (asBytes prop.value).length v.size with hlt | hle
    · rw [h.value v hv prop heff hlt, hzeros, List.drop_replicate, written_of_lt hlt]
    · have huntouched : ∀ p, eff v.name = some p → v.size ≤ (asBytes p.value).length := by
        intro p hp
        cases heff.symm.trans hp
        exact hle
      rw [h.untouched v hv huntouched, hzeros, written_of_le hle]

theorem loaded_bss {maps : List LoadedMap} {vars : List VariableMetadata} {i len : ℕ}
    {m : LoadedMap} (hi : maps[i]? = some m) (hbss : endsWith m.name ".bss")
    (helems : m.elems = [List.replicate len 0])
    (hplaced : ∀ m ∈ maps, endsWith m.name ".bss" → ∀ d ∈ m.elems, Placed vars d.length)
    (device extraProps : List HidUdevProperty) :
    ∃ maps' m' d, injectUdevProperties maps ⟨vars, [], []⟩ device extraProps = some maps' ∧
      maps'[i]? = some m' ∧ m'.elems = [d] ∧
      ∀ v ∈ vars, slice d v.offset v.size =
        written v.size (propertyValue device extraProps v.name) := by
  obtain ⟨maps', hmaps', hall⟩ :=
    injectUdevPropertiesInArray_passed (udevProperties device extraProps) hplaced
  obtain ⟨m', hi', hpassed⟩ := forall₂_getElem? hall hi
  have hlen : Placed vars len := by
    have h := hplaced m (List.mem_of_getElem? hi) hbss (List.replicate len 0)
      (helems ▸ List.mem_singleton_self _)
    rwa [List.length_replicate] at h
  have hwritten := hpassed.written hbss
  rw [helems, effective_udevProperties, List.forall₂_cons_left_iff] at hwritten
  obtain ⟨d, rest, hd, hrest, hm'⟩ := hwritten
  rw [List.forall₂_nil_left_iff] at hrest
  refine ⟨maps', m', d, ?_, hi', hrest ▸ hm', fun v hv => injected_zeros hd hlen hv⟩
  simp only [injectUdevProperties]
  rw [hmaps', Option.bind_eq_bind, Option.bind_some]
  rfl

theorem matches_written {size : ℕ} {expected : Bytes} (hne : expected ≠ [])
    (hzero : 0 ∉ expected) (value : Option Bytes) :
    matchesString (written size value) expected ↔
      ∃ id, value = some id ∧ id.length < size ∧ expected <+: id := by
  have hzeros : ¬ matchesString (List.replicate size 0) expected := by
    intro h
    rw [matchesString, List.take_replicate, beq_iff_eq] at h
    obtain ⟨b, hb⟩ := List.exists_mem_of_ne_nil _ hne
    rw [← h] at hb hzero
    exact hzero (List.eq_of_mem_replicate hb ▸ hb)
  cases value with
  | none => exact ⟨fun h => absurd h hzeros, fun ⟨id, hid, _⟩ => nomatch hid⟩
  | some id =>
    rcases lt_or_ge id.length size with hlt | hle
    · rw [written_of_lt hlt, matchesString, beq_iff_eq]
      constructor
      · intro h
        refine ⟨id, rfl, hlt, ?_⟩
        have hprefix : expected <+: id ++ List.replicate (size - id.length) 0 :=
          List.prefix_iff_eq_take.mpr h.symm
        apply List.prefix_of_prefix_length_le hprefix (List.prefix_append _ _)
        by_contra hshort
        have hin : 0 ∈ expected := by
          have hat := List.prefix_iff_getElem?.mp hprefix id.length (by omega)
          rw [List.getElem?_append_right le_rfl, Nat.sub_self,
            List.getElem?_replicate_of_lt (by omega)] at hat
          exact List.mem_of_getElem (Option.some.inj hat).symm
        exact hzero hin
      · rintro ⟨id', hid, -, hstart⟩
        cases hid
        exact (List.prefix_iff_eq_take.mp (hstart.trans (List.prefix_append _ _))).symm
    · rw [written_of_le hle]
      refine ⟨fun h => absurd h hzeros, ?_⟩
      rintro ⟨id', hid, hlt, -⟩
      cases hid
      omega

end HuionFirmware
