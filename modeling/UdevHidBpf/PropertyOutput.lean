import Mathlib.Data.List.TakeWhile
import UdevHidBpf.ListLoaded
import UdevHidBpf.LoadBpfFiles

/-! # What udev imports

`add` and `list-loaded` print a property per line; `HidUdevProperty` reads one from a line. -/
namespace PropertyOutput

open BpffsPaths ListLoaded ListSplits LoadBpfFiles LoadPrograms StemSorting
open UdevProperties (HidUdevProperty decodeValue)

/-- `char::is_whitespace` -/
def isWhitespace (c : Char) : Bool :=
  let n := c.toNat
  (9 ≤ n && n ≤ 13) || (8192 ≤ n && n ≤ 8202) ||
    n ∈ [32, 133, 160, 5760, 8232, 8233, 8239, 8287, 12288]

/-- `HidUdevProperty::try_from` -/
def tryFrom (s : String) : Except String HidUdevProperty :=
  let prop := (splitOnce s '=').bind fun (name, value) =>
    if name.toList.any isWhitespace then none else some ⟨name, value⟩
  prop.elim (.error "Invalid property format") .ok

/-- What a sequence of `println!` writes. -/
def printed (output : List String) : List Char :=
  (output.map String.toList).flatMap (· ++ ['\n'])

def parseLines (finish : List Char → List Char) (output : List String) :
    Option (List HidUdevProperty) :=
  (linesBy finish (printed output)).mapM fun line => (tryFrom (String.ofList line)).toOption

def toProperty (p : String × String) : HidUdevProperty := ⟨p.1, p.2⟩

/-- The two places that print properties, and what they have read. -/
inductive Prints : List String → Properties → Prop where
  | add (env : Env) (object : Object) (sysname : String) (path : PathBuf) (props : Properties)
    (hread : readUdevPropertyMaps env object.maps object.propertyMaps = .ok props)
    (hok : (loadPrograms env object sysname path).result = .ok ()) :
    Prints (loadPrograms env object sysname path).output props
  | listLoaded {E OsString : Type} (fs : FileSystem E OsString)
    (fromSyspath : String → Option String) (filterSyspath : Option String) (props : Properties)
    (output : List String) (hroot : fs.pathExists bpffsRoot = true)
    (hread : collectUdevProperties fs [] (filterSyspath.map (filterBpffsName fromSyspath)) =
      .ok props)
    (hout : cmdListLoaded fs fromSyspath filterSyspath "udev" = .ok (.udev output)) :
    Prints output props

def IsIdentifier (name : String) : Prop := ∀ c ∈ name.toList, c.isAlphanum ∨ c = '_'

theorem IsIdentifier.not_mem {name : String} (h : IsIdentifier name) {c : Char}
    (hc : c.isAlphanum = false ∧ c ≠ '_') : c ∉ name.toList := by
  intro hmem
  rcases h c hmem with h | h
  · rw [hc.1] at h
    cases h
  · exact hc.2 h

theorem toNat_of_isAlphanum {c : Char} (h : c.isAlphanum) : 48 ≤ c.toNat ∧ c.toNat ≤ 122 := by
  have hclasses : ((c.isUpper || c.isLower) || c.isDigit) = true := h
  have hupper (hu : c.isUpper = true) : 'A'.val ≤ c.val ∧ c.val ≤ 'Z'.val := of_decide_eq_true hu
  have hlower (hl : c.isLower = true) : 'a'.val ≤ c.val ∧ c.val ≤ 'z'.val := by
    have hboth := (Bool.and_eq_true _ _).mp hl
    exact ⟨of_decide_eq_true hboth.1, of_decide_eq_true hboth.2⟩
  have hn : c.val.toNat = c.toNat := rfl
  simp only [UInt32.le_iff_toNat_le, Char.reduceVal, UInt32.reduceToNat, hn] at hupper hlower
  rw [Bool.or_eq_true, Bool.or_eq_true] at hclasses
  rcases hclasses with (hu | hl) | hd
  · have hrange := hupper hu
    omega
  · have hrange := hlower hl
    omega
  · have hrange : 48 ≤ c.toNat ∧ c.toNat ≤ 57 := Char.isDigit_iff_toNat.mp hd
    omega

theorem IsIdentifier.no_whitespace {name : String} (h : IsIdentifier name) :
    name.toList.any isWhitespace = false := by
  rw [List.any_eq_false]
  intro c hc hw
  have hrange : 48 ≤ c.toNat ∧ c.toNat ≤ 122 := by
    rcases h c hc with hc | rfl
    · exact toNat_of_isAlphanum hc
    · decide
  simp only [isWhitespace, Bool.or_eq_true, Bool.and_eq_true, decide_eq_true_eq, List.mem_cons,
    List.not_mem_nil, or_false] at hw
  omega

theorem splitOnce_eq_some_iff {s name value : String} {sep : Char} :
    splitOnce s sep = some (name, value) ↔
      s.toList = name.toList ++ sep :: value.toList ∧ sep ∉ name.toList := by
  unfold splitOnce
  constructor
  · intro h
    split at h
    · cases h
    · rename_i x rest hrest
      simp only [Option.some.injEq, Prod.mk.injEq] at h
      obtain ⟨rfl, rfl⟩ := h
      obtain rfl : x = sep := by
        have hhead := List.head?_dropWhile_not (fun y => decide (y ≠ sep)) s.toList
        rw [hrest] at hhead
        simpa using hhead
      rw [String.toList_ofList, String.toList_ofList, ← hrest, List.takeWhile_append_dropWhile]
      refine ⟨rfl, ?_⟩
      intro hmem
      simpa using List.mem_takeWhile_imp hmem
  · rintro ⟨hs, hsep⟩
    rw [hs, dropWhile_sep hsep, takeWhile_sep hsep]
    simp

theorem tryFrom_eq_ok_iff {s : String} {prop : HidUdevProperty} :
    tryFrom s = .ok prop ↔ s.toList = prop.name.toList ++ '=' :: prop.value.toList ∧
      '=' ∉ prop.name.toList ∧ prop.name.toList.any isWhitespace = false := by
  rw [← and_assoc, ← splitOnce_eq_some_iff]
  unfold tryFrom
  cases splitOnce s '=' with
  | none => simp
  | some p =>
    obtain ⟨name, value⟩ := p
    obtain ⟨name', value'⟩ := prop
    by_cases hw : name.toList.any isWhitespace
    · simp only [Option.bind_some, hw, if_true, Option.elim_none]
      constructor
      · exact nofun
      · rintro ⟨⟨⟩, hw'⟩
        cases hw.symm.trans hw'
    · rw [Bool.not_eq_true] at hw
      simp only [Option.bind_some, hw]
      constructor
      · rintro ⟨⟩
        exact ⟨rfl, hw⟩
      · rintro ⟨⟨⟩, -⟩
        rfl

theorem Prints.output_eq {output : List String} {props : Properties} (h : Prints output props) :
    output = formatProperties props := by
  cases h with
  | add env object sysname path props hread hok =>
    exact loadPrograms_output env object sysname path hread hok
  | listLoaded fs fromSyspath filterSyspath props output hroot hread hout =>
    have hudev : ¬ ("udev" ≠ "json" ∧ "udev" ≠ "udev") := by decide
    rw [cmdListLoaded, if_neg hudev, hroot, if_neg (by decide)] at hout
    simp only [if_true, hread] at hout
    cases hout
    rfl

def propertyLine (p : String × String) : List Char := p.1.toList ++ '=' :: p.2.toList

theorem printed_formatProperties (props : Properties) :
    printed (formatProperties props) = (props.map propertyLine).flatMap (· ++ ['\n']) := by
  have hline (p : String × String) : (p.1 ++ "=" ++ p.2).toList = propertyLine p := by
    simp [propertyLine]
  simp only [printed, formatProperties, List.map_map, Function.comp_def, hline]

/-- A line is read as the property it was printed for only if nothing has happened to it. -/
theorem tryFrom_toProperty_iff {p : String × String} (hname : IsIdentifier p.1)
    {line : List Char} :
    (tryFrom (String.ofList line)).toOption = some (toProperty p) ↔ line = propertyLine p := by
  have hok : (tryFrom (String.ofList line)).toOption = some (toProperty p) ↔
      tryFrom (String.ofList line) = .ok (toProperty p) := by
    cases tryFrom (String.ofList line) <;> simp [Except.toOption]
  rw [hok, tryFrom_eq_ok_iff, String.toList_ofList]
  refine and_iff_left ⟨hname.not_mem (by decide), hname.no_whitespace⟩

section parsing

variable {props : Properties} (hnames : ∀ p ∈ props, IsIdentifier p.1)
variable (finish : List Char → List Char)
include hnames

theorem newline_mem_line {p : String × String} (hp : p ∈ props) :
    '\n' ∈ propertyLine p ↔ '\n' ∈ p.2.toList := by
  have hname : '\n' ∉ p.1.toList := (hnames p hp).not_mem (by decide)
  simp [propertyLine, hname]

theorem parseLines_iff :
    parseLines finish (formatProperties props) = some (props.map toProperty) ↔
      ∀ p ∈ props, '\n' ∉ p.2.toList ∧ finish (propertyLine p) = propertyLine p := by
  rw [parseLines, printed_formatProperties]
  constructor
  · intro h
    have hall := OptionLists.forall₂_of_mapM h
    have hfree : ∀ piece ∈ props.map propertyLine, '\n' ∉ piece := by
      apply not_mem_of_length_linesBy finish
      rw [hall.length_eq, List.length_map, List.length_map]
    rw [linesBy_of_not_mem finish hfree, List.map_map, List.forall₂_map_left_iff,
      List.forall₂_map_right_iff, List.forall₂_same] at hall
    intro p hp
    refine ⟨?_, (tryFrom_toProperty_iff (hnames p hp)).mp (hall p hp)⟩
    rw [← newline_mem_line hnames hp]
    exact hfree _ (List.mem_map_of_mem hp)
  · intro h
    have hfree : ∀ piece ∈ props.map propertyLine, '\n' ∉ piece := by
      intro piece hpiece
      obtain ⟨p, hp, rfl⟩ := List.mem_map.mp hpiece
      rw [newline_mem_line hnames hp]
      exact (h p hp).1
    have hfinish : (props.map propertyLine).map finish = props.map propertyLine := by
      rw [List.map_map]
      exact List.map_congr_left fun p hp => (h p hp).2
    have hline : ∀ p ∈ props,
        (tryFrom (String.ofList (propertyLine p))).toOption = some (toProperty p) := by
      intro p hp
      exact (tryFrom_toProperty_iff (hnames p hp)).mpr rfl
    rw [linesBy_of_not_mem finish hfree, hfinish, List.mapM_map]
    exact OptionLists.mapM_eq_map hline

end parsing

theorem stripReturn_line_iff (p : String × String) :
    stripReturn (propertyLine p) = propertyLine p ↔ p.2.toList.getLast? ≠ some '\r' := by
  rw [stripReturn_eq_self_iff, propertyLine, List.getLast?_append_cons]
  cases p.2.toList with
  | nil => simp
  | cons c cs => rw [List.getLast?_cons_cons]

/-- Reading the lines gives the properties back exactly when no value contains a newline;
a reader that takes a carriage return for a part of the line ending asks that none ends in one. -/
theorem output_parses_iff (output : List String) (props : Properties)
    (h : Prints output props) (hnames : ∀ p ∈ props, IsIdentifier p.1) :
    (parseLines stripReturn output = some (props.map toProperty) ↔
      ∀ p ∈ props, '\n' ∉ p.2.toList ∧ p.2.toList.getLast? ≠ some '\r') ∧
    (parseLines id output = some (props.map toProperty) ↔ ∀ p ∈ props, '\n' ∉ p.2.toList) := by
  rw [h.output_eq]
  refine ⟨?_, ?_⟩
  · simp only [parseLines_iff hnames, stripReturn_line_iff]
  · simp only [parseLines_iff hnames, id, and_true]

def exporting : Object where
  progs := []
  maps := [⟨4, "mouse", .structOps⟩, ⟨5, "UDEV_PROP_DPI", .other⟩]
  propertyMaps := [⟨"DPI", 8⟩]

def holding (data : UdevProperties.Bytes) : Env :=
  { working with lookup := fun _ => .ok (some data) }

def oneLine : UdevProperties.Bytes := [49, 0, 0, 0, 0, 0, 0, 0]

def twoLines : UdevProperties.Bytes := [49, 10, 88, 61, 50, 0, 0, 0]

theorem isIdentifier_dpi : IsIdentifier "DPI" := by
  intro c hc
  simp only [String.reduceToList, List.mem_cons, List.not_mem_nil, or_false] at hc
  rcases hc with rfl | rfl | rfl <;> exact .inl rfl

theorem output_parses_dpi :
    parseLines stripReturn (loadPrograms (holding oneLine) exporting sysname newer).output =
      some [⟨"DPI", "1"⟩] := by
  refine (output_parses_iff _ [("DPI", "1")] (.add _ _ _ _ _ rfl rfl) ?_).1.mpr ?_
  · intro p hp
    rw [List.mem_singleton.mp hp]
    exact isIdentifier_dpi
  · intro p hp
    rw [List.mem_singleton.mp hp]
    decide

/-- A value with a newline is read back as two properties. -/
theorem newline_makes_property :
    Prints (loadPrograms (holding twoLines) exporting sysname newer).output [("DPI", "1\nX=2")] ∧
      IsIdentifier "DPI" ∧
      parseLines stripReturn (loadPrograms (holding twoLines) exporting sysname newer).output =
        some [⟨"DPI", "1"⟩, ⟨"X", "2"⟩] := by
  have hout : (loadPrograms (holding twoLines) exporting sysname newer).output =
      ["DPI=1\nX=2"] := rfl
  refine ⟨.add _ _ _ _ _ rfl rfl, isIdentifier_dpi, ?_⟩
  rw [hout]
  decide

end PropertyOutput
