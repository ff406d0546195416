import Mathlib.Data.List.Pairwise
import UdevHidBpf.UdevProperties

/-! # What an injection changes

All three passes of `inject_udev_properties`: over the variables of `.bss`, over those of
`.data` and into the property maps. -/
namespace UdevInjection

open ListSplice OptionLists UdevProperties

structure BpfMetadata where
  udevPropertiesBss : List VariableMetadata
  udevPropertiesData : List VariableMetadata
  udevPropertyMaps : List UdevPropertyMap
  deriving DecidableEq, Repr

/-- The properties of the device without those the command line names, then these. -/
def udevProperties (device extraProps : List HidUdevProperty) : List HidUdevProperty :=
  (device.filter fun prop => ¬ extraProps.any fun ep => ep.name = prop.name) ++ extraProps

def injectUdevProperties (maps : List LoadedMap) (metadata : BpfMetadata)
    (device extraProps : List HidUdevProperty) : Option (List LoadedMap) := do
  let props := udevProperties device extraProps
  let maps ← injectUdevPropertiesInArray maps ".bss" metadata.udevPropertiesBss props
  let maps ← injectUdevPropertiesInArray maps ".data" metadata.udevPropertiesData props
  some (injectUdevPropertiesToMaps maps metadata.udevPropertyMaps props)

/-- The precedence that the help of `--property` promises. -/
def effectiveProperty (device extraProps : List HidUdevProperty) (name : String) :
    Option HidUdevProperty :=
  (effective extraProps name).or (effective device name)

theorem effective_filter {props : List HidUdevProperty} {name : String}
    {keep : HidUdevProperty → Bool} (h : ∀ prop, prop.name = name → keep prop) :
    effective (props.filter keep) name = effective props name := by
  induction props with
  | nil => rfl
  | cons prop props ih =>
    simp only [effective] at ih ⊢
    by_cases hname : prop.name = name
    · simp [List.filter_cons_of_pos, h prop hname, hname]
    · by_cases hkeep : keep prop <;> simp [hkeep, hname, ih]

theorem effective_udevProperties (device extraProps : List HidUdevProperty) :
    effective (udevProperties device extraProps) = effectiveProperty device extraProps := by
  funext name
  rw [effectiveProperty, udevProperties, effective, List.find?_append]
  cases hextra : effective extraProps name with
  | some ep =>
    have hname : ep.name = name := by simpa using List.find?_some hextra
    have hnone : effective (device.filter
        fun prop => ¬ extraProps.any fun ep => ep.name = prop.name) name = none := by
      rw [effective, List.find?_eq_none]
      intro prop hprop
      have hkept := (List.mem_filter.mp hprop).2
      simp only [List.any_eq_true, not_exists, not_and, decide_eq_true_eq] at hkept ⊢
      exact fun h => hkept ep (List.mem_of_find?_eq_some hextra) (hname.trans h.symm)
    rw [effective] at hnone hextra
    rw [hnone, hextra, Option.none_or, Option.some_or]
  | none =>
    have hsame : effective (device.filter
        fun prop => ¬ extraProps.any fun ep => ep.name = prop.name) name =
          effective device name := by
      refine effective_filter fun prop hprop => ?_
      simp only [List.any_eq_true, not_exists, not_and, decide_eq_true_eq]
      exact fun ep hep h => List.find?_eq_none.mp hextra ep hep (by simpa [hprop] using h)
    rw [effective] at hsame hextra
    rw [hsame, hextra, Option.or_none, Option.none_or]

/-- The bytes of a section after an injection, for the properties `eff` names. -/
structure Injected (eff : String → Option HidUdevProperty) (vars : List VariableMetadata)
    (d d' : Bytes) : Prop where
  length : d'.length = d.length
  frame : ∀ i : ℕ, d'[i]? ≠ d[i]? → ∃ v ∈ vars, ∃ prop, eff v.name = some prop ∧
    (asBytes prop.value).length < v.size ∧ v.offset ≤ i ∧ i < v.offset + v.size
  value : ∀ v ∈ vars, ∀ prop, eff v.name = some prop → (asBytes prop.value).length < v.size →
    slice d' v.offset v.size =
      asBytes prop.value ++ (slice d v.offset v.size).drop (asBytes prop.value).length
  untouched : ∀ v ∈ vars, (∀ prop, eff v.name = some prop →
    v.size ≤ (asBytes prop.value).length) → slice d' v.offset v.size = slice d v.offset v.size

/-- The properties and the old bytes say all about the new ones. -/
theorem Injected.unique {eff : String → Option HidUdevProperty}
    {vars : List VariableMetadata} : Relator.RightUnique (Injected eff vars) := by
  intro d d' d'' h' h''
  apply List.ext_getElem?
  intro i
  by_cases hv : ∃ v ∈ vars, ∃ prop, eff v.name = some prop ∧
      (asBytes prop.value).length < v.size ∧ v.offset ≤ i ∧ i < v.offset + v.size
  · obtain ⟨v, hv, prop, he, hs, hlo, hhi⟩ := hv
    have hslice := (h'.value v hv prop he hs).trans (h''.value v hv prop he hs).symm
    have hi := congrArg (fun l : Bytes => l[i - v.offset]?) hslice
    simp only [getElem?_slice] at hi
    rwa [if_pos (by omega), if_pos (by omega), show v.offset + (i - v.offset) = i by omega] at hi
  · have hsame (e : Bytes) (he : Injected eff vars d e) : e[i]? = d[i]? := by
      by_contra hne
      exact hv (he.frame i hne)
    rw [hsame d' h', hsame d'' h'']

theorem Injected.perm {eff : String → Option HidUdevProperty} {vars vars' : List VariableMetadata}
    {d d' : Bytes} (h : Injected eff vars d d') (hp : vars'.Perm vars) :
    Injected eff vars' d d' where
  length := h.length
  frame i hi := by
    obtain ⟨v, hv, hrest⟩ := h.frame i hi
    exact ⟨v, hp.mem_iff.mpr hv, hrest⟩
  value v hv := h.value v (hp.mem_iff.mp hv)
  untouched v hv := h.untouched v (hp.mem_iff.mp hv)

theorem placed_perm {vars vars' : List VariableMetadata} {len : ℕ} (h : Placed vars len)
    (hp : vars'.Perm vars) : Placed vars' len where
  inside v hv := h.inside v (hp.mem_iff.mp hv)
  disjoint := hp.symm.pairwise h.disjoint fun h => h.symm

theorem placed_apart {vars : List VariableMetadata} {len : ℕ} (h : Placed vars len)
    {v w : VariableMetadata} (hv : v ∈ vars) (hw : w ∈ vars) (hne : v ≠ w) :
    Apart w v.offset v.size := by
  have : Std.Symm fun v w : VariableMetadata =>
      v.offset + v.size ≤ w.offset ∨ w.offset + w.size ≤ v.offset := ⟨fun _ _ h => h.symm⟩
  exact h.disjoint.forall hv hw hne

theorem injectElement_injected (props : List HidUdevProperty) {vars : List VariableMetadata}
    {d : Bytes} (hp : Placed vars d.length) :
    ∃ d', injectElement vars props d = some d' ∧ Injected (effective props) vars d d' := by
  obtain ⟨d', hd', hlen, hvalue, hframe⟩ := injectElement_var props hp
  refine ⟨d', hd', hlen, fun i hi => ?_, hvalue, fun v hv hno => ?_⟩
  · by_contra hcovered
    have hslice := hframe i 1 fun v hv prop hfit => by
      by_contra hin
      unfold Apart at hin
      exact hcovered ⟨v, hv, prop, hfit.1, hfit.2, by omega, by omega⟩
    have h0 := congrArg (fun l : Bytes => l[0]?) hslice
    simp only [getElem?_slice] at h0
    exact hi (by simpa using h0)
  · refine hframe _ _ fun w hw prop hfit => ?_
    by_cases hvw : v = w
    · subst hvw
      exact absurd (hno prop hfit.1) (by have := hfit.2; omega)
    · exact placed_apart hp hv hw hvw

/-- A map after one pass over the sections of this name. -/
structure Passed (arrayName : String) (eff : String → Option HidUdevProperty)
    (vars : List VariableMetadata) (m m' : LoadedMap) : Prop where
  name : m'.name = m.name
  written : endsWith m.name arrayName → List.Forall₂ (Injected eff vars) m.elems m'.elems
  other : ¬ endsWith m.name arrayName → m' = m
  valueSize : m'.valueSize = m.valueSize

theorem Passed.unique {arrayName : String} {eff : String → Option HidUdevProperty}
    {vars : List VariableMetadata} :
    Relator.RightUnique (Passed arrayName eff vars) := by
  intro m m' m'' h' h''
  by_cases hend : endsWith m.name arrayName
  · have helems := Injected.unique.forall₂ (h'.written hend) (h''.written hend)
    obtain ⟨name, valueSize, elems⟩ := m'
    obtain ⟨name', valueSize', elems'⟩ := m''
    have hn := h'.name.trans h''.name.symm
    have hs := h'.valueSize.trans h''.valueSize.symm
    simp only at hn hs helems
    rw [hn, hs, helems]
  · rw [h'.other hend, h''.other hend]

theorem Passed.perm {arrayName : String} {eff : String → Option HidUdevProperty}
    {vars vars' : List VariableMetadata} {m m' : LoadedMap}
    (h : Passed arrayName eff vars m m') (hp : vars'.Perm vars) :
    Passed arrayName eff vars' m m' :=
  ⟨h.name, fun hend => (h.written hend).imp fun _ _ hi => hi.perm hp, h.other, h.valueSize⟩

theorem injectUdevPropertiesInArray_passed {maps : List LoadedMap} {arrayName : String}
    {vars : List VariableMetadata} (props : List HidUdevProperty)
    (hplaced : ∀ m ∈ maps, endsWith m.name arrayName → ∀ d ∈ m.elems, Placed vars d.length) :
    ∃ maps', injectUdevPropertiesInArray maps arrayName vars props = some maps' ∧
      List.Forall₂ (Passed arrayName (effective props) vars) maps maps' := by
  unfold injectUdevPropertiesInArray
  split
  · rename_i hempty
    have hnil : vars = [] := by simpa using hempty
    subst hnil
    refine ⟨maps, rfl, List.forall₂_same.mpr fun m _ => ?_⟩
    have hsame (d : Bytes) : Injected (effective props) [] d d :=
      ⟨rfl, fun _ h => absurd rfl h, nofun, nofun⟩
    exact ⟨rfl, fun _ => List.forall₂_same.mpr fun d _ => hsame d, fun _ => rfl, rfl⟩
  · refine mapM_forall₂ fun m hm => ?_
    by_cases hend : endsWith m.name arrayName
    · obtain ⟨elems, helems, hall⟩ := mapM_forall₂ fun d hd =>
        injectElement_injected props (hplaced m hm hend d hd)
      exact ⟨{ m with elems := elems }, by simp [hend, helems], rfl, fun _ => hall,
        fun h => absurd hend h, rfl⟩
    · exact ⟨m, by simp [hend], rfl, fun h => absurd h hend, fun _ => rfl, rfl⟩

/-- The order of the metadata does not show. -/
theorem injectUdevPropertiesInArray_perm {maps : List LoadedMap} {arrayName : String}
    {vars vars' : List VariableMetadata} (props : List HidUdevProperty)
    (hplaced : ∀ m ∈ maps, endsWith m.name arrayName → ∀ d ∈ m.elems, Placed vars d.length)
    (hp : vars'.Perm vars) : injectUdevPropertiesInArray maps arrayName vars' props =
      injectUdevPropertiesInArray maps arrayName vars props := by
  obtain ⟨maps', hmaps', hall⟩ := injectUdevPropertiesInArray_passed props hplaced
  have hplaced' : ∀ m ∈ maps, endsWith m.name arrayName → ∀ d ∈ m.elems, Placed vars' d.length :=
    fun m hm hend d hd => placed_perm (hplaced m hm hend d hd) hp
  obtain ⟨maps'', hmaps'', hall'⟩ := injectUdevPropertiesInArray_passed props hplaced'
  have hsame := Passed.unique.forall₂ hall (hall'.imp fun _ _ h => h.perm hp.symm)
  rw [hmaps', hmaps'', hsame]

def afterInjection (props : List HidUdevProperty) (pm : UdevPropertyMap) (m : LoadedMap) :
    LoadedMap :=
  match effective props pm.name with
  | none => m
  | some prop => injectValue prop.value m

theorem mapName_inj {a b : String} : mapName a = mapName b ↔ a = b := by
  simp [mapName, String.ext_iff]

theorem injectValue_name (value : String) (m : LoadedMap) : (injectValue value m).name = m.name := by
  unfold injectValue
  simp only
  split <;> rfl

theorem updateMap_frame {maps : List LoadedMap} {name : String} {f : LoadedMap → LoadedMap}
    {i : ℕ} {m : LoadedMap} (hi : maps[i]? = some m) (hne : m.name ≠ name) :
    (updateMap maps name f)[i]? = some m := by
  induction maps generalizing i with
  | nil => cases hi
  | cons q qs ih =>
    rw [updateMap]
    cases i with
    | zero =>
      cases hi
      rw [if_neg hne]
      rfl
    | succ i =>
      split
      · exact hi
      · exact ih hi

theorem updateMap_find? {maps : List LoadedMap} {name : String} {f : LoadedMap → LoadedMap}
    (hf : ∀ m, (f m).name = m.name) (other : String) :
    (updateMap maps name f).find? (fun m => m.name = other) =
      (maps.find? fun m => m.name = other).map fun m => if name = other then f m else m := by
  induction maps with
  | nil => rfl
  | cons q qs ih =>
    rw [updateMap]
    by_cases hq : q.name = name
    · subst hq
      rw [if_pos rfl]
      by_cases ho : q.name = other
      · simp [hf, ho]
      · rw [List.find?_cons_of_neg (by simpa [hf] using ho), List.find?_cons_of_neg (by simpa using ho)]
        simp [ho]
    · rw [if_neg hq]
      by_cases ho : q.name = other
      · subst ho
        simp [Ne.symm hq]
      · rw [List.find?_cons_of_neg (by simpa using ho), List.find?_cons_of_neg (by simpa using ho), ih]

theorem injectUdevPropertiesToMaps_frame {maps : List LoadedMap}
    {propertyMaps : List UdevPropertyMap} {props : List HidUdevProperty} {i : ℕ} {m : LoadedMap}
    (hi : maps[i]? = some m)
    (hno : ∀ pm ∈ propertyMaps, mapName pm.name = m.name → effective props pm.name = none) :
    (injectUdevPropertiesToMaps maps propertyMaps props)[i]? = some m := by
  unfold injectUdevPropertiesToMaps
  induction propertyMaps generalizing maps with
  | nil => exact hi
  | cons pm pms ih =>
    rw [List.foldl_cons]
    refine ih ?_ fun q hq => hno q (List.mem_cons_of_mem _ hq)
    cases he : effective props pm.name with
    | none => exact hi
    | some prop =>
      refine updateMap_frame hi fun hname => ?_
      rw [hno pm List.mem_cons_self hname.symm] at he
      cases he

theorem injectUdevPropertiesToMaps_find? {propertyMaps : List UdevPropertyMap}
    (props : List HidUdevProperty) (name : String)
    (hno : ∀ pm ∈ propertyMaps, mapName pm.name ≠ name) (maps : List LoadedMap) :
    (injectUdevPropertiesToMaps maps propertyMaps props).find? (fun m => m.name = name) =
      maps.find? fun m => m.name = name := by
  unfold injectUdevPropertiesToMaps
  induction propertyMaps generalizing maps with
  | nil => rfl
  | cons pm pms ih =>
    rw [List.foldl_cons, ih fun q hq => hno q (List.mem_cons_of_mem _ hq)]
    cases effective props pm.name with
    | none => rfl
    | some prop =>
      simp only
      rw [updateMap_find? (injectValue_name prop.value)]
      simp [hno pm List.mem_cons_self]

theorem injectUdevPropertiesToMaps_named {propertyMaps : List UdevPropertyMap}
    {props : List HidUdevProperty} (hnodup : (propertyMaps.map UdevPropertyMap.name).Nodup)
    {pm : UdevPropertyMap} (hpm : pm ∈ propertyMaps) (maps : List LoadedMap) :
    (injectUdevPropertiesToMaps maps propertyMaps props).find? (fun m => m.name = mapName pm.name) =
      (maps.find? fun m => m.name = mapName pm.name).map (afterInjection props pm) := by
  induction propertyMaps generalizing maps with
  | nil => cases hpm
  | cons q qs ih =>
    obtain ⟨hq, hqs⟩ := List.nodup_cons.mp hnodup
    have hstep : injectUdevPropertiesToMaps maps (q :: qs) props =
        injectUdevPropertiesToMaps (match effective props q.name with
          | none => maps
          | some prop => updateMap maps (mapName q.name) (injectValue prop.value)) qs props := rfl
    rw [hstep]
    rcases List.mem_cons.mp hpm with rfl | hpm
    · -- the later maps have other names
      rw [injectUdevPropertiesToMaps_find? props _ fun p hp hn =>
        hq (List.mem_map.mpr ⟨p, hp, mapName_inj.mp hn⟩)]
      unfold afterInjection
      cases effective props pm.name with
      | none => simp
      | some prop =>
        simp only
        rw [updateMap_find? (injectValue_name prop.value)]
        simp
    · have hne : mapName q.name ≠ mapName pm.name :=
        fun hn => hq (List.mem_map.mpr ⟨pm, hpm, (mapName_inj.mp hn).symm⟩)
      rw [ih hqs hpm]
      cases effective props q.name with
      | none => rfl
      | some prop =>
        simp only
        rw [updateMap_find? (injectValue_name prop.value)]
        simp [hne]

def BpfMetadata.sections (metadata : BpfMetadata) : List (String × List VariableMetadata) :=
  [(".bss", metadata.udevPropertiesBss), (".data", metadata.udevPropertiesData)]

theorem endsWith_one {s : String} (hbss : endsWith s ".bss") : ¬ endsWith s ".data" := by
  intro hdata
  unfold endsWith at hbss hdata
  rw [List.isSuffixOf_iff_suffix] at hbss hdata
  rcases List.suffix_or_suffix_of_suffix hbss hdata with h | h
  · exact absurd h (by decide)
  · exact absurd h (by decide)

theorem section_ne_mapName {s name : String} (hname : '.' ∉ name.toList)
    (hs : endsWith s ".bss" ∨ endsWith s ".data") : mapName name ≠ s := by
  rintro rfl
  unfold endsWith at hs
  rw [List.isSuffixOf_iff_suffix, List.isSuffixOf_iff_suffix] at hs
  have hdot : '.' ∈ (mapName name).toList := by
    rcases hs with h | h
    · exact h.subset (by decide)
    · exact h.subset (by decide)
  rw [mapName, String.toList_append, List.mem_append] at hdot
  rcases hdot with h | h
  · exact absurd h (by decide)
  · exact hname h

/-- Bytes change inside variables whose property fits and nowhere else, whatever the order
of the variables, and no slice is out of range. -/
theorem inject_udev_properties_frame (maps : List LoadedMap) (metadata : BpfMetadata)
    (device extraProps : List HidUdevProperty)
    (hplaced : ∀ m ∈ maps, ∀ sec ∈ metadata.sections, endsWith m.name sec.1 →
      ∀ d ∈ m.elems, Placed sec.2 d.length)
    (hnames : ∀ pm ∈ metadata.udevPropertyMaps, '.' ∉ pm.name.toList) :
    ∃ maps', injectUdevProperties maps metadata device extraProps = some maps' ∧
      (∀ sec ∈ metadata.sections, ∀ (i : ℕ) (m : LoadedMap), maps[i]? = some m →
        endsWith m.name sec.1 → ∃ m' : LoadedMap, maps'[i]? = some m' ∧ m'.name = m.name ∧
          List.Forall₂ (Injected (effectiveProperty device extraProps) sec.2) m.elems m'.elems) ∧
      ∀ bss data, bss.Perm metadata.udevPropertiesBss → data.Perm metadata.udevPropertiesData →
        injectUdevProperties maps ⟨bss, data, metadata.udevPropertyMaps⟩ device extraProps =
          some maps' := by
  have hbss : ∀ m ∈ maps, endsWith m.name ".bss" → ∀ d ∈ m.elems,
      Placed metadata.udevPropertiesBss d.length :=
    fun m hm => hplaced m hm (".bss", metadata.udevPropertiesBss) (.head _)
  obtain ⟨maps₁, hmaps₁, hall₁⟩ :=
    injectUdevPropertiesInArray_passed (udevProperties device extraProps) hbss
  -- the first pass leaves the maps of the second alone
  have hdata : ∀ m ∈ maps₁, endsWith m.name ".data" → ∀ d ∈ m.elems,
      Placed metadata.udevPropertiesData d.length := by
    intro m₁ hm₁ hend
    obtain ⟨m, hm, hpassed⟩ := forall₂_mem_right hall₁ hm₁
    have hsame : m₁ = m := hpassed.other fun h => endsWith_one (hpassed.name ▸ h) hend
    subst hsame
    exact hplaced m₁ hm (".data", metadata.udevPropertiesData) (.tail _ (.head _)) hend
  obtain ⟨maps₂, hmaps₂, hall₂⟩ :=
    injectUdevPropertiesInArray_passed (udevProperties device extraProps) hdata
  rw [effective_udevProperties] at hall₁ hall₂
  have hrun : ∀ bss data, bss.Perm metadata.udevPropertiesBss →
      data.Perm metadata.udevPropertiesData →
      injectUdevProperties maps ⟨bss, data, metadata.udevPropertyMaps⟩ device extraProps =
        some (injectUdevPropertiesToMaps maps₂ metadata.udevPropertyMaps
          (udevProperties device extraProps)) := by
    intro bss data hpbss hpdata
    simp only [injectUdevProperties]
    rw [injectUdevPropertiesInArray_perm _ hbss hpbss, hmaps₁, Option.bind_eq_bind,
      Option.bind_some, injectUdevPropertiesInArray_perm _ hdata hpdata, hmaps₂,
      Option.bind_some]
  refine ⟨_, hrun _ _ (.refl _) (.refl _), fun sec hsec i m hi hend => ?_, hrun⟩
  obtain ⟨m₁, hi₁, h₁⟩ := forall₂_getElem? hall₁ hi
  obtain ⟨m₂, hi₂, h₂⟩ := forall₂_getElem? hall₂ hi₁
  have hname : m₂.name = m.name := h₂.name.trans h₁.name
  have hkept (hsuffix : endsWith m₂.name ".bss" ∨ endsWith m₂.name ".data") :
      (injectUdevPropertiesToMaps maps₂ metadata.udevPropertyMaps
        (udevProperties device extraProps))[i]? = some m₂ :=
    injectUdevPropertiesToMaps_frame hi₂ fun pm hpm h =>
      absurd h (section_ne_mapName (hnames pm hpm) hsuffix)
  rcases List.mem_cons.mp hsec with rfl | hsec
  · have hsame : m₂ = m₁ := h₂.other fun h => endsWith_one hend (h₁.name ▸ h)
    exact ⟨m₂, hkept (.inl (hname ▸ hend)), hname, hsame ▸ h₁.written hend⟩
  · obtain rfl := List.mem_singleton.mp hsec
    have hsame : m₁ = m := h₁.other fun h => endsWith_one h hend
    subst hsame
    exact ⟨m₂, hkept (.inr (hname ▸ hend)), hname, h₂.written hend⟩

/-- Two variables in `.bss`, the second named by the command line and the device. -/
theorem inject_udev_properties_frame_two_names :
    ∃ maps', injectUdevProperties [⟨"prog.bss", 8, [[0, 0, 0, 0, 0, 0, 0, 0]]⟩]
        ⟨[⟨"SUBSYSTEM", 0, 4⟩, ⟨"HID_UNIQ", 4, 4⟩], [], []⟩
        [⟨"HID_UNIQ", "dev"⟩, ⟨"SUBSYSTEM", "hid-bus"⟩] [⟨"HID_UNIQ", "cmd"⟩] = some maps' ∧
      ∃ m', maps'[0]? = some m' ∧ m'.name = "prog.bss" ∧
        List.Forall₂ (Injected (effectiveProperty
            [⟨"HID_UNIQ", "dev"⟩, ⟨"SUBSYSTEM", "hid-bus"⟩] [⟨"HID_UNIQ", "cmd"⟩])
          [⟨"SUBSYSTEM", 0, 4⟩, ⟨"HID_UNIQ", 4, 4⟩]) [[0, 0, 0, 0, 0, 0, 0, 0]] m'.elems := by
  have hplaced : Placed [⟨"SUBSYSTEM", 0, 4⟩, ⟨"HID_UNIQ", 4, 4⟩] 8 := ⟨by decide, by decide⟩
  obtain ⟨maps', hmaps', hsec, -⟩ := inject_udev_properties_frame
    [⟨"prog.bss", 8, [[0, 0, 0, 0, 0, 0, 0, 0]]⟩]
    ⟨[⟨"SUBSYSTEM", 0, 4⟩, ⟨"HID_UNIQ", 4, 4⟩], [], []⟩
    [⟨"HID_UNIQ", "dev"⟩, ⟨"SUBSYSTEM", "hid-bus"⟩] [⟨"HID_UNIQ", "cmd"⟩]
    (by
      intro m hm sec hsec hend d hd
      obtain rfl := List.mem_singleton.mp hm
      obtain rfl := List.mem_singleton.mp hd
      rcases List.mem_cons.mp hsec with rfl | hsec
      · exact hplaced
      · obtain rfl := List.mem_singleton.mp hsec
        exact absurd hend (by decide))
    (by decide)
  exact ⟨maps', hmaps', hsec _ (.head _) 0 _ rfl (by decide)⟩

/-- An array map as the kernel keeps it: a value at key 0, each of the value size. -/
structure Sized (m : LoadedMap) : Prop where
  key : m.elems ≠ []
  size : ∀ d ∈ m.elems, d.length = m.valueSize

theorem readUdevPropertyMap_unsized {m : LoadedMap} (h : Sized m) (hz : m.valueSize = 0) :
    readUdevPropertyMap m = none := by
  obtain ⟨name, valueSize, elems⟩ := m
  cases elems with
  | nil => exact absurd rfl h.key
  | cons d ds =>
    have hd : d = [] := List.eq_nil_of_length_eq_zero ((h.size d List.mem_cons_self).trans hz)
    subst hd
    rfl

theorem asBytes_eq_nil {s : String} : asBytes s = [] ↔ s = "" := by
  constructor
  · intro h
    have hs := fromUTF8?_asBytes s
    rw [h] at hs
    exact (Option.some.inj hs).symm
  · rintro rfl
    rfl

/-- A property that fits is what the map yields, the empty one yields nothing, and otherwise
the map yields what it did before. -/
theorem map_properties_round_trip (maps : List LoadedMap) (propertyMaps : List UdevPropertyMap)
    (props : List HidUdevProperty) (hnodup : (propertyMaps.map UdevPropertyMap.name).Nodup)
    (hsized : ∀ pm ∈ propertyMaps, ∀ m ∈ maps, m.name = mapName pm.name → Sized m) :
    (∀ pm ∈ propertyMaps, ∀ m : LoadedMap, maps.find? (fun m => m.name = mapName pm.name) = some m →
      ∃ m' : LoadedMap, (injectUdevPropertiesToMaps maps propertyMaps props).find?
          (fun m => m.name = mapName pm.name) = some m' ∧
        (∀ prop, effective props pm.name = some prop →
          (prop.value ≠ "" → 0 ∉ asBytes prop.value →
            (asBytes prop.value).length < m.valueSize →
            readUdevPropertyMap m' = some prop.value) ∧
          (prop.value = "" → readUdevPropertyMap m' = none) ∧
          (m.valueSize ≤ (asBytes prop.value).length →
            readUdevPropertyMap m' = readUdevPropertyMap m)) ∧
        (effective props pm.name = none → readUdevPropertyMap m' = readUdevPropertyMap m)) ∧
    ∀ (i : ℕ) (m : LoadedMap), maps[i]? = some m →
      (∀ pm ∈ propertyMaps, mapName pm.name = m.name → effective props pm.name = none) →
      (injectUdevPropertiesToMaps maps propertyMaps props)[i]? = some m := by
  refine ⟨fun pm hpm m hm => ?_, fun i m hi hno => injectUdevPropertiesToMaps_frame hi hno⟩
  have hwf : Sized m := hsized pm hpm m (List.mem_of_find?_eq_some hm)
    (by simpa using List.find?_some hm)
  refine ⟨afterInjection props pm m, ?_, fun prop he => ⟨?_, ?_, ?_⟩, fun he => ?_⟩
  · rw [injectUdevPropertiesToMaps_named hnodup hpm, hm, Option.map_some]
  · intro hne hnul hfit
    rw [afterInjection, he, readUdevPropertyMap_injectValue hwf.key hnul hfit,
      if_neg (mt asBytes_eq_nil.mp hne)]
  · intro hempty
    have hnil : asBytes prop.value = [] := asBytes_eq_nil.mpr hempty
    rw [afterInjection, he]
    by_cases hz : m.valueSize = 0
    · simpa [injectValue, hnil, hz] using readUdevPropertyMap_unsized hwf hz
    · rw [readUdevPropertyMap_injectValue hwf.key (by simp [hnil])
        (by rw [hnil]; exact Nat.pos_of_ne_zero hz), if_pos hnil]
  · intro hbig
    rw [afterInjection, he]
    simp [injectValue, Nat.not_lt.mpr hbig]
  · rw [afterInjection, he]

/-- A short value over a longer one. -/
theorem map_properties_round_trip_shorter :
    ∃ m', (injectUdevPropertiesToMaps [⟨"UDEV_PROP_TYPE", 4, [[97, 98, 99, 0]]⟩] [⟨"TYPE", 4⟩]
        [⟨"TYPE", "x"⟩]).find? (fun m => m.name = mapName "TYPE") = some m' ∧
      readUdevPropertyMap m' = some "x" := by
  obtain ⟨hnamed, -⟩ := map_properties_round_trip [⟨"UDEV_PROP_TYPE", 4, [[97, 98, 99, 0]]⟩]
    [⟨"TYPE", 4⟩] [⟨"TYPE", "x"⟩] (by decide)
    (by
      intro pm hpm m hm hname
      obtain rfl := List.mem_singleton.mp hm
      exact ⟨by decide, by decide⟩)
  obtain ⟨m', hm', hread, -⟩ := hnamed ⟨"TYPE", 4⟩ (.head _)
    ⟨"UDEV_PROP_TYPE", 4, [[97, 98, 99, 0]]⟩ (by decide)
  exact ⟨m', hm', (hread ⟨"TYPE", "x"⟩ (by decide)).1 (by decide) (by decide) (by decide)⟩

end UdevInjection
