import Mathlib.Tactic.Common
import UdevHidBpf.ListSplice
import UdevHidBpf.OptionLists

/-! # Handing udev properties to BPF objects and back

Two paths carry a property into an object: over a `UDEV_PROP_` variable of the `.bss` or
`.data` section, or into a `UDEV_PROP_` map. A loaded map is the list of its values by
key; updating an element of an array map succeeds. `none` is a panic. -/
namespace UdevProperties

open ListSplice OptionLists

abbrev Bytes := List UInt8

def asBytes (s : String) : Bytes := s.toByteArray.data.toList

structure HidUdevProperty where
  name : String
  value : String
  deriving DecidableEq, Repr

structure VariableMetadata where
  name : String
  offset : ℕ
  size : ℕ
  deriving DecidableEq, Repr

structure UdevPropertyMap where
  name : String
  size : ℕ
  deriving DecidableEq, Repr

structure LoadedMap where
  name : String
  valueSize : ℕ
  elems : List Bytes
  deriving DecidableEq, Repr

def endsWith (s suffix : String) : Bool := suffix.toList.isSuffixOf s.toList

def effective (props : List HidUdevProperty) (name : String) : Option HidUdevProperty :=
  props.find? fun p => p.name = name

/-- `data[off..off + buf.len()].clone_from_slice(buf)` -/
def cloneFromSlice (data : Bytes) (off : ℕ) (buf : Bytes) : Option Bytes :=
  if off + buf.length ≤ data.length then some (splice data off buf) else none

/-- One turn of the loop over the variables: the bytes and the `updated` flag. -/
def injectVariable (props : List HidUdevProperty) (acc : Bytes × Bool) (var : VariableMetadata) :
    Option (Bytes × Bool) :=
  match effective props var.name with
  | none => some acc
  | some prop =>
    let buf := asBytes prop.value
    if buf.length < var.size then (cloneFromSlice acc.1 var.offset buf).map (·, true)
    else some acc

def injectElement (vars : List VariableMetadata) (props : List HidUdevProperty) (data : Bytes) :
    Option Bytes :=
  (vars.foldlM (injectVariable props) (data, false)).map fun (written, updated) =>
    if updated then written else data

def injectUdevPropertiesInArray (maps : List LoadedMap) (arrayName : String)
    (vars : List VariableMetadata) (props : List HidUdevProperty) : Option (List LoadedMap) :=
  if vars.isEmpty then some maps
  else maps.mapM fun m =>
    if endsWith m.name arrayName then
      (m.elems.mapM (injectElement vars props)).map fun elems => { m with elems := elems }
    else some m

def mapName (prop : String) : String := "UDEV_PROP_" ++ prop

/-- `map.update(0, data)` on the first map of that name. -/
def updateMap (maps : List LoadedMap) (name : String) (f : LoadedMap → LoadedMap) :
    List LoadedMap :=
  match maps with
  | [] => []
  | m :: ms => if m.name = name then f m :: ms else m :: updateMap ms name f

/-- The value goes into a zeroed buffer; a value that leaves no room for the terminator
is only warned about. -/
def injectValue (value : String) (m : LoadedMap) : LoadedMap :=
  let buf := asBytes value
  if buf.length < m.valueSize then
    { m with elems := m.elems.set 0 (splice (List.replicate m.valueSize 0) 0 buf) }
  else m

def injectUdevPropertiesToMaps (maps : List LoadedMap) (propertyMaps : List UdevPropertyMap)
    (props : List HidUdevProperty) : List LoadedMap :=
  propertyMaps.foldl
    (fun maps pm =>
      match effective props pm.name with
      | none => maps
      | some prop => updateMap maps (mapName pm.name) (injectValue prop.value))
    maps

/-- What `read_udev_property_map` makes of the looked up value. -/
def decodeValue (data : Bytes) : Option String :=
  let value := data.takeWhile (· ≠ 0)
  if value.isEmpty then none else String.fromUTF8? ⟨value.toArray⟩

def readUdevPropertyMap (m : LoadedMap) : Option String := m.elems.head?.bind decodeValue

/-- A C reader's view of a variable: its bytes up to the first NUL. -/
def readVariable (data : Bytes) (var : VariableMetadata) : Bytes :=
  (slice data var.offset var.size).takeWhile (· ≠ 0)

/-- The variables of a section are objects of their own inside it. -/
structure Placed (vars : List VariableMetadata) (len : ℕ) : Prop where
  inside : ∀ v ∈ vars, v.offset + v.size ≤ len
  disjoint : vars.Pairwise fun v w => v.offset + v.size ≤ w.offset ∨ w.offset + w.size ≤ v.offset

def Apart (v : VariableMetadata) (off n : ℕ) : Prop :=
  off + n ≤ v.offset ∨ v.offset + v.size ≤ off

def Fits (props : List HidUdevProperty) (v : VariableMetadata) (prop : HidUdevProperty) : Prop :=
  effective props v.name = some prop ∧ (asBytes prop.value).length < v.size

theorem injectVariable_frame (props : List HidUdevProperty) (acc : Bytes × Bool)
    {v : VariableMetadata} (hv : v.offset + v.size ≤ acc.1.length) :
    ∃ r, injectVariable props acc v = some r ∧ r.1.length = acc.1.length ∧
      (r.2 = false → r.1 = acc.1 ∧ acc.2 = false) ∧
      ∀ off n, (∀ prop, Fits props v prop → Apart v off n) →
        slice r.1 off n = slice acc.1 off n := by
  unfold injectVariable
  cases he : effective props v.name with
  | none => exact ⟨acc, rfl, rfl, fun h => ⟨rfl, h⟩, fun _ _ _ => rfl⟩
  | some prop =>
    by_cases hs : (asBytes prop.value).length < v.size
    · have hfit : v.offset + (asBytes prop.value).length ≤ acc.1.length := by omega
      refine ⟨(splice acc.1 v.offset (asBytes prop.value), true), ?_, length_splice hfit,
        by simp, ?_⟩
      · simp [hs, cloneFromSlice, hfit]
      · intro off n h
        exact slice_splice_disjoint hfit ((h prop ⟨he, hs⟩).imp id fun h => by omega)
    · exact ⟨acc, by simp [hs], rfl, fun h => ⟨rfl, h⟩, fun _ _ _ => rfl⟩

theorem injectVariable_writes {props : List HidUdevProperty} {acc : Bytes × Bool}
    {v : VariableMetadata} {prop : HidUdevProperty} (hv : v.offset + v.size ≤ acc.1.length)
    (he : effective props v.name = some prop) (hs : (asBytes prop.value).length < v.size) :
    injectVariable props acc v = some (splice acc.1 v.offset (asBytes prop.value), true) := by
  have hfit : v.offset + (asBytes prop.value).length ≤ acc.1.length := by omega
  simp [injectVariable, he, hs, cloneFromSlice, hfit]

theorem injectVariables_frame (props : List HidUdevProperty) (vars : List VariableMetadata)
    (acc : Bytes × Bool) (hin : ∀ v ∈ vars, v.offset + v.size ≤ acc.1.length) :
    ∃ r, vars.foldlM (injectVariable props) acc = some r ∧ r.1.length = acc.1.length ∧
      (r.2 = false → r.1 = acc.1 ∧ acc.2 = false) ∧
      ∀ off n, (∀ v ∈ vars, ∀ prop, Fits props v prop → Apart v off n) →
        slice r.1 off n = slice acc.1 off n := by
  induction vars generalizing acc with
  | nil => exact ⟨acc, rfl, rfl, fun h => ⟨rfl, h⟩, fun _ _ _ => rfl⟩
  | cons v vs ih =>
    obtain ⟨a, ha, hal, hau, haf⟩ := injectVariable_frame props acc (hin v List.mem_cons_self)
    obtain ⟨r, hr, hrl, hru, hrf⟩ := ih a fun w hw => by
      rw [hal]; exact hin w (List.mem_cons_of_mem _ hw)
    refine ⟨r, by simp [List.foldlM_cons, ha, hr], hrl.trans hal, ?_, ?_⟩
    · intro h
      obtain ⟨h1, h2⟩ := hru h
      obtain ⟨h3, h4⟩ := hau h2
      exact ⟨h1.trans h3, h4⟩
    · intro off n h
      rw [hrf off n fun w hw => h w (List.mem_cons_of_mem _ hw)]
      exact haf off n (h v List.mem_cons_self)

theorem injectVariables_var {props : List HidUdevProperty} {vars : List VariableMetadata}
    {acc r : Bytes × Bool} (hp : Placed vars acc.1.length)
    (hr : vars.foldlM (injectVariable props) acc = some r) {v : VariableMetadata}
    (hv : v ∈ vars) {prop : HidUdevProperty} (he : effective props v.name = some prop)
    (hs : (asBytes prop.value).length < v.size) :
    slice r.1 v.offset v.size =
      asBytes prop.value ++ (slice acc.1 v.offset v.size).drop (asBytes prop.value).length := by
  induction vars generalizing acc with
  | nil => cases hv
  | cons w ws ih =>
    obtain ⟨hdw, hd⟩ := List.pairwise_cons.mp hp.disjoint
    have hw := hp.inside w List.mem_cons_self
    have hws : ∀ u ∈ ws, u.offset + u.size ≤ acc.1.length :=
      fun u hu => hp.inside u (List.mem_cons_of_mem _ hu)
    obtain ⟨a, ha, hal, -, haf⟩ := injectVariable_frame props acc hw
    rw [List.foldlM_cons, ha] at hr
    rcases List.mem_cons.mp hv with rfl | hv
    · -- the later turns are apart from this variable
      obtain ⟨q, hq, -, -, hqf⟩ := injectVariables_frame props ws a (hal ▸ hws)
      cases hq.symm.trans hr
      rw [hqf _ _ fun u hu _ _ => (hdw u hu).imp id id]
      rw [injectVariable_writes hw he hs] at ha
      cases ha
      exact slice_splice_self (by omega) (by omega)
    · rw [ih ⟨hal ▸ hws, hd⟩ hr hv, haf _ _ fun _ _ => (hdw v hv).symm]

theorem injectElement_var (props : List HidUdevProperty) {vars : List VariableMetadata}
    {data : Bytes} (hp : Placed vars data.length) :
    ∃ d, injectElement vars props data = some d ∧ d.length = data.length ∧
      (∀ v ∈ vars, ∀ prop, effective props v.name = some prop →
        (asBytes prop.value).length < v.size →
        slice d v.offset v.size =
          asBytes prop.value ++ (slice data v.offset v.size).drop (asBytes prop.value).length) ∧
      ∀ off n, (∀ v ∈ vars, ∀ prop, Fits props v prop → Apart v off n) →
        slice d off n = slice data off n := by
  obtain ⟨r, hr, hrl, hru, hrf⟩ := injectVariables_frame props vars (data, false) hp.inside
  have hd : injectElement vars props data = some r.1 := by
    obtain ⟨w, u⟩ := r
    cases u with
    | true => simp [injectElement, hr]
    | false => simpa [injectElement, hr] using (hru rfl).1.symm
  exact ⟨r.1, hd, hrl, fun v hv prop he hs => injectVariables_var hp hr hv he hs, hrf⟩

theorem takeWhile_append_ne_zero {b rest : Bytes} (hb : 0 ∉ b) :
    (b ++ rest).takeWhile (· ≠ 0) = b ++ rest.takeWhile (· ≠ 0) := by
  rw [List.takeWhile_append_of_pos]
  intro a ha
  simpa using fun h : a = 0 => hb (h ▸ ha)

theorem takeWhile_value_iff {b rest : Bytes} (hb : 0 ∉ b) (hr : rest ≠ []) :
    (b ++ rest).takeWhile (· ≠ 0) = b ↔ rest.head? = some 0 := by
  rw [takeWhile_append_ne_zero hb]
  cases rest with
  | nil => exact absurd rfl hr
  | cons a rest => by_cases ha : a = 0 <;> simp [ha]

theorem fromUTF8?_asBytes (s : String) : String.fromUTF8? ⟨(asBytes s).toArray⟩ = some s := by
  have hb : (⟨(asBytes s).toArray⟩ : ByteArray) = s.toByteArray := rfl
  rw [hb, String.fromUTF8?, dif_pos s.isValidUTF8]
  rfl

theorem readUdevPropertyMap_injectValue {value : String} {m : LoadedMap}
    (hkey : m.elems ≠ []) (hnul : 0 ∉ asBytes value) (hs : (asBytes value).length < m.valueSize) :
    readUdevPropertyMap (injectValue value m) =
      if asBytes value = [] then none else some value := by
  obtain ⟨name, valueSize, elems⟩ := m
  cases elems with
  | nil => exact absurd rfl hkey
  | cons d ds =>
    have htail : (List.replicate valueSize (0 : UInt8)).drop (asBytes value).length =
        List.replicate (valueSize - (asBytes value).length) 0 := by simp
    have hz : List.replicate (valueSize - (asBytes value).length) (0 : UInt8) ≠ [] := by
      change (asBytes value).length < valueSize at hs
      simp
      omega
    have hread : (splice (List.replicate valueSize 0) 0 (asBytes value)).takeWhile (· ≠ 0) =
        asBytes value := by
      rw [splice, List.take_zero, List.nil_append, Nat.zero_add, htail,
        takeWhile_value_iff hnul hz]
      simp only [List.head?_replicate]
      rw [if_neg (by change (asBytes value).length < valueSize at hs; omega)]
    simp only [injectValue, hs, if_true, readUdevPropertyMap, List.set_cons_zero,
      List.head?_cons, Option.bind_some, decodeValue, hread, List.isEmpty_iff]
    split
    · rfl
    · exact fromUTF8?_asBytes value

theorem asBytes_readBack {value : String} {m : LoadedMap} (hkey : m.elems ≠ [])
    (hnul : 0 ∉ asBytes value) (hs : (asBytes value).length < m.valueSize) :
    asBytes ((readUdevPropertyMap (injectValue value m)).getD "") = asBytes value := by
  rw [readUdevPropertyMap_injectValue hkey hnul hs]
  split
  · rename_i h
    rw [h]
    rfl
  · rfl

theorem injectUdevPropertiesInArray_var {maps : List LoadedMap} {arrayName : String}
    {vars : List VariableMetadata} {props : List HidUdevProperty} {v : VariableMetadata}
    {prop : HidUdevProperty}
    (hplaced : ∀ m ∈ maps, endsWith m.name arrayName → ∀ d ∈ m.elems, Placed vars d.length)
    (hv : v ∈ vars) (he : effective props v.name = some prop)
    (hs : (asBytes prop.value).length < v.size) :
    ∃ maps', injectUdevPropertiesInArray maps arrayName vars props = some maps' ∧
      List.Forall₂ (fun m m' : LoadedMap => endsWith m.name arrayName → List.Forall₂
        (fun d d' => slice d' v.offset v.size = asBytes prop.value ++
          (slice d v.offset v.size).drop (asBytes prop.value).length) m.elems m'.elems)
        maps maps' := by
  have hne : vars.isEmpty = false := by
    cases vars with
    | nil => cases hv
    | cons => rfl
  have hstep : ∀ m ∈ maps, ∃ m', (if endsWith m.name arrayName then
        (m.elems.mapM (injectElement vars props)).map fun elems => { m with elems := elems }
      else some m) = some m' ∧
      (endsWith m.name arrayName → List.Forall₂ (fun d d' =>
        slice d' v.offset v.size = asBytes prop.value ++
          (slice d v.offset v.size).drop (asBytes prop.value).length) m.elems m'.elems) := by
    intro m hm
    by_cases hend : endsWith m.name arrayName
    · obtain ⟨elems, helems, hall⟩ := mapM_forall₂ (f := injectElement vars props)
        (l := m.elems) (P := fun d d' => slice d' v.offset v.size = asBytes prop.value ++
          (slice d v.offset v.size).drop (asBytes prop.value).length) fun d hd => by
        obtain ⟨d', hd', -, hvar, -⟩ := injectElement_var props (hplaced m hm hend d hd)
        exact ⟨d', hd', hvar v hv prop he hs⟩
      exact ⟨{ m with elems := elems }, by simp [hend, helems], fun _ => hall⟩
    · exact ⟨m, by simp [hend], fun h => absurd h hend⟩
  obtain ⟨maps', hmaps', hall⟩ := mapM_forall₂ hstep
  exact ⟨maps', by simp [injectUdevPropertiesInArray, hne, hmaps'], hall⟩

/-- With a value at its start, a variable reads as the value when the old byte behind it was
NUL. -/
theorem readVariable_eq_iff {d d' b : Bytes} {v : VariableMetadata} (hb : 0 ∉ b)
    (hs : b.length < v.size) (hin : v.offset + v.size ≤ d.length)
    (hslice : slice d' v.offset v.size = b ++ (slice d v.offset v.size).drop b.length) :
    readVariable d' v = b ↔ d[v.offset + b.length]? = some 0 := by
  have htail : (slice d v.offset v.size).drop b.length ≠ [] := by
    simp only [slice, ne_eq, List.drop_eq_nil_iff, List.length_take, List.length_drop]
    omega
  rw [readVariable, hslice, takeWhile_value_iff hb htail, List.head?_drop, getElem?_slice,
    if_pos hs]

/-- A variable reads back as the injected value, and so as what a map of its size yields,
exactly when the byte that follows the value was NUL before. -/
theorem injected_reads_back_iff (maps : List LoadedMap) (arrayName : String)
    (vars : List VariableMetadata) (props : List HidUdevProperty) (v : VariableMetadata)
    (prop : HidUdevProperty)
    (hplaced : ∀ m ∈ maps, endsWith m.name arrayName → ∀ d ∈ m.elems, Placed vars d.length)
    (hv : v ∈ vars) (he : effective props v.name = some prop) (hnul : 0 ∉ asBytes prop.value)
    (hs : (asBytes prop.value).length < v.size) :
    ∃ maps', injectUdevPropertiesInArray maps arrayName vars props = some maps' ∧
      ∀ (i k : ℕ) (m : LoadedMap) (d : Bytes), maps[i]? = some m → endsWith m.name arrayName →
        m.elems[k]? = some d →
        ∃ m' d', maps'[i]? = some m' ∧ m'.elems[k]? = some d' ∧
          ((readVariable d' v = asBytes prop.value ∧
            ∀ pm : LoadedMap, pm.name = mapName v.name → pm.valueSize = v.size → pm.elems ≠ [] →
              ∃ pm', injectUdevPropertiesToMaps [pm] [⟨v.name, v.size⟩] props = [pm'] ∧
                asBytes ((readUdevPropertyMap pm').getD "") = readVariable d' v) ↔
          d[v.offset + (asBytes prop.value).length]? = some 0) := by
  have hmap : ∀ pm : LoadedMap, pm.name = mapName v.name → pm.valueSize = v.size →
      pm.elems ≠ [] →
      ∃ pm', injectUdevPropertiesToMaps [pm] [⟨v.name, v.size⟩] props = [pm'] ∧
        asBytes ((readUdevPropertyMap pm').getD "") = asBytes prop.value := by
    intro pm hname hsize hkey
    exact ⟨injectValue prop.value pm,
      by simp [injectUdevPropertiesToMaps, he, updateMap, hname],
      asBytes_readBack hkey hnul (by omega)⟩
  obtain ⟨maps', hmaps', hall⟩ := injectUdevPropertiesInArray_var hplaced hv he hs
  refine ⟨maps', hmaps', ?_⟩
  intro i k m d hi hend hk
  obtain ⟨m', hi', hm'⟩ := forall₂_getElem? hall hi
  obtain ⟨d', hk', hslice⟩ := forall₂_getElem? (hm' hend) hk
  have hin : v.offset + v.size ≤ d.length :=
    (hplaced m (List.mem_of_getElem? hi) hend d (List.mem_of_getElem? hk)).inside v hv
  have hread := readVariable_eq_iff hnul hs hin hslice
  refine ⟨m', d', hi', hk', ?_⟩
  constructor
  · rintro ⟨h, -⟩
    exact hread.mp h
  · intro h
    have h := hread.mpr h
    exact ⟨h, fun pm hname hsize hkey => h ▸ hmap pm hname hsize hkey⟩

/-- `char UDEV_PROP_SUBSYSTEM[8]`, zeroed in `.bss` or with a default in `.data`. -/
def subsystemVar : VariableMetadata := ⟨"SUBSYSTEM", 0, 8⟩

def subsystemProps : List HidUdevProperty := [⟨"SUBSYSTEM", "hid"⟩]

def zeroedSection : LoadedMap := ⟨"prog.bss", 8, [[0, 0, 0, 0, 0, 0, 0, 0]]⟩

/-- The default is the string `unknown`. -/
def defaultSection : LoadedMap := ⟨"prog.data", 8, [[117, 110, 107, 110, 111, 119, 110, 0]]⟩

theorem subsystem_placed {arrayName : String} {m : LoadedMap}
    (h : ∀ d ∈ m.elems, d.length = 8) :
    ∀ m' ∈ [m], endsWith m'.name arrayName → ∀ d ∈ m'.elems, Placed [subsystemVar] d.length := by
  intro m' hm' _ d hd
  rw [List.mem_singleton] at hm'
  subst hm'
  exact ⟨by simp [subsystemVar, h d hd], by simp⟩

theorem injected_reads_back_zeroed :
    ∃ maps', injectUdevPropertiesInArray [zeroedSection] ".bss" [subsystemVar] subsystemProps =
        some maps' ∧
      ∃ m' d', maps'[0]? = some m' ∧ m'.elems[0]? = some d' ∧
        readVariable d' subsystemVar = asBytes "hid" := by
  obtain ⟨maps', hmaps', hall⟩ :=
    injected_reads_back_iff [zeroedSection] ".bss" [subsystemVar] subsystemProps subsystemVar
      ⟨"SUBSYSTEM", "hid"⟩ (subsystem_placed (by decide)) (by decide) (by decide) (by decide)
      (by decide)
  obtain ⟨m', d', hm', hd', hiff⟩ := hall 0 0 zeroedSection _ rfl (by decide) rfl
  exact ⟨maps', hmaps', m', d', hm', hd', (hiff.mpr (by decide)).1⟩

/-- Over a longer default the variable reads `hidnown`. -/
theorem default_tail_survives :
    ¬ ∀ (maps : List LoadedMap) (arrayName : String) (vars : List VariableMetadata)
      (props : List HidUdevProperty) (v : VariableMetadata) (prop : HidUdevProperty),
      (∀ m ∈ maps, endsWith m.name arrayName → ∀ d ∈ m.elems, Placed vars d.length) →
      v ∈ vars → effective props v.name = some prop → 0 ∉ asBytes prop.value →
      (asBytes prop.value).length < v.size →
      ∃ maps', injectUdevPropertiesInArray maps arrayName vars props = some maps' ∧
        ∀ (i k : ℕ) (m' : LoadedMap) (d' : Bytes), maps'[i]? = some m' →
          endsWith m'.name arrayName → m'.elems[k]? = some d' →
          readVariable d' v = asBytes prop.value := by
  intro h
  obtain ⟨maps', hmaps', hall⟩ := h [defaultSection] ".data" [subsystemVar] subsystemProps
    subsystemVar ⟨"SUBSYSTEM", "hid"⟩ (subsystem_placed (by decide)) (by decide) (by decide)
    (by decide) (by decide)
  have hinj : injectUdevPropertiesInArray [defaultSection] ".data" [subsystemVar] subsystemProps =
      some [⟨"prog.data", 8, [[104, 105, 100, 110, 111, 119, 110, 0]]⟩] := by decide
  cases hinj.symm.trans hmaps'
  exact absurd (hall 0 0 _ _ rfl (by decide) rfl) (by decide)

end UdevProperties
