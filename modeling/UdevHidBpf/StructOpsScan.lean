import UdevHidBpf.ListSplice
import UdevHidBpf.LittleEndian
import UdevHidBpf.OptionLists
import Mathlib.Data.List.Sort

/-! # The callbacks of a struct_ops map

The value of the map holds the ids of its programs where the kernel's struct has pointers.
`bpf.rs` looks at every pointer-aligned word for an id that it knows, but not at the last
four bytes. -/
namespace StructOpsScan

open ListSplice

inductive Endian where
  | little
  | big
  deriving DecidableEq, Repr

structure Host where
  usizeBytes : ℕ
  endian : Endian
  usizeBytes_pos : 0 < usizeBytes

def Host.u32FromNeBytes (host : Host) (bytes : List UInt8) : UInt32 :=
  match host.endian with
  | .little => UInt32.ofNat (LittleEndian.value bytes)
  | .big => UInt32.ofNat (LittleEndian.value bytes.reverse)

/-- The calls into libbpf; `none` is a failure. -/
structure Kernel where
  mapGetFdById : UInt32 → Option ℕ
  mapValueSize : ℕ → Option UInt32
  mapLookupElem : ℕ → UInt32 → List UInt8 → Option (List UInt8)

abbrev Callback := String × UInt32

/-- `(0..stop).step_by(step)` -/
def stepBy (stop step : ℕ) : List ℕ := List.range' 0 ((stop + step - 1) / step) step

def readValue (kernel : Kernel) (mapId : UInt32) : Option (List UInt8) := do
  let fd ← kernel.mapGetFdById mapId
  let valueSize ← kernel.mapValueSize fd
  kernel.mapLookupElem fd 0 (List.replicate valueSize.toNat 0)

section scan

variable (host : Host) (progNames : UInt32 → Option String) (value : List UInt8)

/-- `none` is an index out of bounds. -/
def progIdAt (offset : ℕ) : Option UInt32 := do
  let b0 ← value[offset]?
  let b1 ← value[offset + 1]?
  let b2 ← value[offset + 2]?
  let b3 ← value[offset + 3]?
  return host.u32FromNeBytes [b0, b1, b2, b3]

def scanOffset (callbacks : List Callback) (offset : ℕ) : Option (List Callback) := do
  let progId ← progIdAt host value offset
  if progId > 0 then
    match progNames progId with
    | some progName => return callbacks ++ [(progName, progId)]
    | none => return callbacks
  else
    return callbacks

def scanValue : Option (List Callback) :=
  (stepBy (value.length - 4) host.usizeBytes).foldlM (scanOffset host progNames value) []

end scan

/-- `none` is a panic. -/
def getStructOpsCallbacks (host : Host) (kernel : Kernel) (mapId : UInt32)
    (progNames : UInt32 → Option String) : Option (List Callback) :=
  match readValue kernel mapId with
  | none => some []
  | some value => scanValue host progNames value

/-- The word at the offset is the id of a known program. -/
structure CallbackAt (host : Host) (progNames : UInt32 → Option String) (value : List UInt8)
    (offset : ℕ) (callback : Callback) : Prop where
  aligned : host.usizeBytes ∣ offset
  inside : offset + 4 ≤ value.length
  word : host.u32FromNeBytes (slice value offset 4) = callback.2
  nonzero : callback.2 ≠ 0
  known : progNames callback.2 = some callback.1

def ReportsAll (host : Host) (progNames : UInt32 → Option String) (value : List UInt8)
    (callbacks : List Callback) : Prop :=
  ∃ offsets : List ℕ, offsets.SortedLT ∧
    (∀ offset, offset ∈ offsets ↔ ∃ callback, CallbackAt host progNames value offset callback) ∧
    List.Forall₂ (CallbackAt host progNames value) offsets callbacks

theorem mem_stepBy {stop step offset : ℕ} (h : 0 < step) :
    offset ∈ stepBy stop step ↔ step ∣ offset ∧ offset < stop := by
  have hbound : ∀ i, i < (stop + step - 1) / step ↔ step * i < stop := by
    intro i
    rw [Nat.lt_iff_add_one_le, Nat.le_div_iff_mul_le h, Nat.add_one_mul, Nat.mul_comm step i]
    omega
  rw [stepBy, List.mem_range']
  constructor
  · rintro ⟨i, hi, rfl⟩
    rw [Nat.zero_add]
    exact ⟨Nat.dvd_mul_right step i, (hbound i).1 hi⟩
  · rintro ⟨⟨i, rfl⟩, hi⟩
    exact ⟨i, (hbound i).2 hi, (Nat.zero_add _).symm⟩

theorem sortedLT_stepBy {stop step : ℕ} (h : 0 < step) : (stepBy stop step).SortedLT :=
  List.sortedLT_range' _ _ h.ne'

section scan

variable {host : Host} {progNames : UInt32 → Option String} {value : List UInt8}

theorem progIdAt_eq {offset : ℕ} (h : offset + 4 ≤ value.length) :
    progIdAt host value offset = some (host.u32FromNeBytes (slice value offset 4)) := by
  have hword : slice value offset 4 =
      [value[offset], value[offset + 1], value[offset + 2], value[offset + 3]] := by
    rw [slice, List.drop_eq_getElem_cons (by omega), List.drop_eq_getElem_cons (by omega),
      List.drop_eq_getElem_cons (by omega), List.drop_eq_getElem_cons (by omega)]
    rfl
  rw [hword, progIdAt, List.getElem?_eq_getElem (by omega), List.getElem?_eq_getElem (by omega),
    List.getElem?_eq_getElem (by omega), List.getElem?_eq_getElem (by omega)]
  rfl

def found (host : Host) (progNames : UInt32 → Option String) (value : List UInt8)
    (offset : ℕ) : Option Callback :=
  let progId := host.u32FromNeBytes (slice value offset 4)
  if progId > 0 then (progNames progId).map (·, progId) else none

theorem callbackAt_iff {offset : ℕ} {callback : Callback} :
    CallbackAt host progNames value offset callback ↔
      host.usizeBytes ∣ offset ∧ offset + 4 ≤ value.length ∧
        found host progNames value offset = some callback := by
  obtain ⟨name, progId⟩ := callback
  simp only [found, gt_iff_lt, Option.ite_none_right_eq_some, Option.map_eq_some_iff,
    Prod.mk.injEq]
  constructor
  · rintro ⟨haligned, hinside, rfl, hnonzero, hknown⟩
    exact ⟨haligned, hinside, UInt32.pos_iff_ne_zero.2 hnonzero, name, hknown, rfl, rfl⟩
  · rintro ⟨haligned, hinside, hpos, name, hknown, rfl, rfl⟩
    exact ⟨haligned, hinside, rfl, UInt32.pos_iff_ne_zero.1 hpos, hknown⟩

theorem scanOffset_eq {offset : ℕ} (h : offset + 4 ≤ value.length) (callbacks : List Callback) :
    scanOffset host progNames value callbacks offset =
      some (callbacks ++ (found host progNames value offset).toList) := by
  rw [scanOffset, progIdAt_eq h, found]
  by_cases hpos : host.u32FromNeBytes (slice value offset 4) > 0
  · cases hname : progNames (host.u32FromNeBytes (slice value offset 4)) <;> simp [hpos, hname]
  · simp [hpos]

/-- The loop never reads past the end. -/
theorem scanValue_eq : scanValue host progNames value =
    some ((stepBy (value.length - 4) host.usizeBytes).filterMap
      (found host progNames value)) := by
  have hstep : ∀ offset ∈ stepBy (value.length - 4) host.usizeBytes, ∀ callbacks,
      scanOffset host progNames value callbacks offset =
        some (callbacks ++ (found host progNames value offset).toList) := by
    intro offset hoffset callbacks
    have hlt := ((mem_stepBy host.usizeBytes_pos).1 hoffset).2
    exact scanOffset_eq (by omega) callbacks
  rw [scanValue, OptionLists.foldlM_eq_foldl hstep, List.foldl_append_eq_append,
    List.filterMap_eq_flatMap_toList, List.flatMap_def]
  rfl

def visited (host : Host) (progNames : UInt32 → Option String) (value : List UInt8) : List ℕ :=
  (stepBy (value.length - 4) host.usizeBytes).filter fun offset =>
    (found host progNames value offset).isSome

theorem mem_visited {offset : ℕ} : offset ∈ visited host progNames value ↔
    offset < value.length - 4 ∧ ∃ callback, CallbackAt host progNames value offset callback := by
  rw [visited, List.mem_filter, mem_stepBy host.usizeBytes_pos, Option.isSome_iff_exists]
  constructor
  · rintro ⟨⟨haligned, hlt⟩, callback, hfound⟩
    exact ⟨hlt, callback, callbackAt_iff.2 ⟨haligned, by omega, hfound⟩⟩
  · rintro ⟨hlt, callback, hcallback⟩
    obtain ⟨haligned, -, hfound⟩ := callbackAt_iff.1 hcallback
    exact ⟨⟨haligned, hlt⟩, callback, hfound⟩

theorem sortedLT_visited : (visited host progNames value).SortedLT :=
  ((sortedLT_stepBy host.usizeBytes_pos).pairwise.filter _).sortedLT

theorem visited_callbacks : List.Forall₂ (CallbackAt host progNames value)
    (visited host progNames value)
    ((stepBy (value.length - 4) host.usizeBytes).filterMap (found host progNames value)) := by
  have hfound := OptionLists.forall₂_filterMap (found host progNames value)
    (stepBy (value.length - 4) host.usizeBytes)
  have hboth := (List.forall₂_and_left _ _).2 ⟨fun offset => mem_visited.1, hfound⟩
  apply hboth.imp
  rintro offset callback ⟨⟨hlt, other, hother⟩, hfound⟩
  exact callbackAt_iff.2 ⟨hother.aligned, hother.inside, hfound⟩

/-- A callback in the last four bytes is one too many for what the loop found. -/
theorem last_not_reported {callback : Callback}
    (hlast : CallbackAt host progNames value (value.length - 4) callback) :
    ¬ ReportsAll host progNames value ((stepBy (value.length - 4) host.usizeBytes).filterMap
      (found host progNames value)) := by
  rintro ⟨offsets, -, hmem, hoffsets⟩
  have hnodup : ((value.length - 4) :: visited host progNames value).Nodup :=
    List.nodup_cons.2 ⟨fun h => absurd (mem_visited.1 h).1 (Nat.lt_irrefl _),
      sortedLT_visited.nodup⟩
  have hsubset : (value.length - 4) :: visited host progNames value ⊆ offsets := by
    intro offset hoffset
    rw [hmem]
    rcases List.mem_cons.1 hoffset with rfl | hvisited
    · exact ⟨callback, hlast⟩
    · exact (mem_visited.1 hvisited).2
  have hle := (List.subperm_of_subset hnodup hsubset).length_le
  have heq := hoffsets.length_eq.trans visited_callbacks.length_eq.symm
  rw [List.length_cons, heq] at hle
  omega

theorem reportsAll_of_no_last
    (hlast : ∀ callback, ¬ CallbackAt host progNames value (value.length - 4) callback) :
    ReportsAll host progNames value ((stepBy (value.length - 4) host.usizeBytes).filterMap
      (found host progNames value)) := by
  refine ⟨visited host progNames value, sortedLT_visited, fun offset => ?_, visited_callbacks⟩
  rw [mem_visited]
  constructor
  · exact And.right
  · rintro ⟨callback, hcallback⟩
    have hinside := hcallback.inside
    refine ⟨?_, callback, hcallback⟩
    by_contra hge
    obtain rfl : offset = value.length - 4 := by omega
    exact hlast callback hcallback

theorem scanValue_reportsAll_iff : (∃ callbacks, scanValue host progNames value = some callbacks ∧
      ReportsAll host progNames value callbacks) ↔
    ∀ callback, ¬ CallbackAt host progNames value (value.length - 4) callback := by
  simp only [scanValue_eq, Option.some.injEq, exists_eq_left']
  constructor
  · intro hall callback hlast
    exact last_not_reported hlast hall
  · exact reportsAll_of_no_last

end scan

theorem struct_ops_callbacks_reported_iff {host : Host} {kernel : Kernel} {mapId : UInt32}
    {progNames : UInt32 → Option String} {value : List UInt8}
    (h : readValue kernel mapId = some value) :
    (∃ callbacks, getStructOpsCallbacks host kernel mapId progNames = some callbacks ∧
      ReportsAll host progNames value callbacks) ↔
    ∀ callback, ¬ CallbackAt host progNames value (value.length - 4) callback := by
  rw [getStructOpsCallbacks, h]
  exact scanValue_reportsAll_iff

def host32 : Host := ⟨4, .little, by decide⟩

def kernel32 : Kernel where
  mapGetFdById := fun _ => some 3
  mapValueSize := fun _ => some 8
  mapLookupElem := fun _ _ buffer => some ([7, 0, 0, 0, 9, 0, 0, 0].take buffer.length)

def names32 (known : UInt32) (progId : UInt32) : Option String :=
  if progId = known then some "hid_device_event" else none

/-- With only the first word known, all is reported. -/
theorem struct_ops_callbacks_reported_first :
    ∃ callbacks, getStructOpsCallbacks host32 kernel32 1 (names32 7) = some callbacks ∧
      ReportsAll host32 (names32 7) [7, 0, 0, 0, 9, 0, 0, 0] callbacks := by
  rw [struct_ops_callbacks_reported_iff (by decide)]
  intro callback hlast
  have hword : (9 : UInt32) = callback.2 := hlast.word
  have hknown := hlast.known
  rw [← hword] at hknown
  cases hknown

theorem struct_ops_callbacks_last_missed :
    ¬ ∃ callbacks, getStructOpsCallbacks host32 kernel32 1 (names32 9) = some callbacks ∧
      ReportsAll host32 (names32 9) [7, 0, 0, 0, 9, 0, 0, 0] callbacks := by
  intro h
  have hvalue : readValue kernel32 1 = some [7, 0, 0, 0, 9, 0, 0, 0] := by decide
  rw [getStructOpsCallbacks, hvalue] at h
  apply scanValue_reportsAll_iff.1 h ("hid_device_event", 9)
  exact ⟨by decide, by decide, by decide, by decide, by decide⟩

end StructOpsScan
