import UdevHidBpf.ByteSlices
import UdevHidBpf.ConfigMetadata

/-! # `Modalias::from_str`

The text is cut at fixed bytes. What stands in front of a field is not looked at, a bad
number is an error, an unknown bus or group and a cut inside a character are a panic. -/
namespace ModaliasParsing

open String (utf8Len)
open BtfGraph ByteSlices ConfigMetadata Modaliases RadixText

inductive Result (α : Type) where
  | ok (a : α)
  | error (message : Text)
  | panicked
  deriving DecidableEq, Repr

def Result.bind {α β : Type} : Result α → (α → Result β) → Result β
  | .ok a, f => f a
  | .error message, _ => .error message
  | .panicked, _ => .panicked

instance : Monad Result where
  pure := .ok
  bind := .bind

/-- `modalias.trim_start_matches("hid:")` -/
def trimStartHid : Text → Text
  | 'h' :: 'i' :: 'd' :: ':' :: rest => trimStartHid rest
  | t => t

def invalidModalias (modalias : Text) : Text :=
  "Invalid modalias '".toList ++ modalias ++ "'".toList

/-- `&modalias[i..j]` -/
def slice (modalias : Text) (i j : ℕ) : Result Text :=
  match byteSlice modalias i j with
  | some field => .ok field
  | none => .panicked

/-- `from_str_radix(field, 16).map_err(econvert)?` for a type of that many values. -/
def fromHex (values : ℕ) (modalias field : Text) : Result ℕ :=
  match (fromStrRadix 16 field).filter (· < values) with
  | some n => .ok n
  | none => .error (invalidModalias modalias)

def unwrap {α : Type} : Except String α → Result α
  | .ok a => .ok a
  | .error _ => .panicked

def fromStr (s : Text) : Result Modalias :=
  let modalias := trimStartHid s
  if utf8Len modalias ≠ 28 then .error (invalidModalias modalias)
  else do
    let bus ← unwrap (Bus.tryFrom (← fromHex (2 ^ 64) modalias (← slice modalias 1 5)))
    let group ← unwrap (Group.tryFrom (← fromHex (2 ^ 64) modalias (← slice modalias 6 10)))
    let vid ← fromHex (2 ^ 32) modalias (← slice modalias 11 19)
    let pid ← fromHex (2 ^ 32) modalias (← slice modalias 20 28)
    return ⟨bus, group, UInt32.ofNat vid, UInt32.ofNat pid⟩

section steps

variable {α β : Type}

theorem bind_eq_ok {x : Result α} {f : α → Result β} {b : β} :
    (x >>= f) = .ok b ↔ ∃ a, x = .ok a ∧ f a = .ok b := by
  cases x with
  | ok a => exact ⟨fun h => ⟨a, rfl, h⟩, fun ⟨_, rfl, h⟩ => h⟩
  | error message => exact ⟨nofun, nofun⟩
  | panicked => exact ⟨nofun, nofun⟩

theorem bind_eq_panicked {x : Result α} {f : α → Result β} :
    (x >>= f) = .panicked ↔ x = .panicked ∨ ∃ a, x = .ok a ∧ f a = .panicked := by
  cases x with
  | ok a => exact ⟨fun h => .inr ⟨a, rfl, h⟩, fun h => h.elim nofun fun ⟨_, rfl, h⟩ => h⟩
  | error message => exact ⟨nofun, fun h => h.elim nofun nofun⟩
  | panicked => exact ⟨fun _ => .inl rfl, fun _ => rfl⟩

theorem slice_eq_ok {t field : Text} {i j : ℕ} :
    slice t i j = .ok field ↔ byteSlice t i j = some field := by
  unfold slice
  cases byteSlice t i j <;> simp

theorem slice_eq_panicked {t : Text} {i j : ℕ} :
    slice t i j = .panicked ↔ byteSlice t i j = none := by
  unfold slice
  cases byteSlice t i j <;> simp

theorem fromHex_eq_ok {values n : ℕ} {t field : Text} :
    fromHex values t field = .ok n ↔ fromStrRadix 16 field = some n ∧ n < values := by
  have hfilter : (fromStrRadix 16 field).filter (· < values) = some n ↔
      fromStrRadix 16 field = some n ∧ n < values := by
    simp [Option.filter_eq_some_iff]
  rw [← hfilter]
  unfold fromHex
  cases (fromStrRadix 16 field).filter (· < values) <;> simp

theorem fromHex_ne_panicked {values : ℕ} {t field : Text} :
    fromHex values t field ≠ .panicked := by
  unfold fromHex
  split <;> exact nofun

theorem unwrap_eq_ok {x : Except String α} {a : α} : unwrap x = .ok a ↔ x = .ok a := by
  cases x <;> simp [unwrap]

theorem unwrap_eq_panicked {x : Except String α} : unwrap x = .panicked ↔ ∃ e, x = .error e := by
  cases x <;> simp [unwrap]

end steps

/-- Four fields and the characters in front of them. -/
structure Fields where
  letters : Char × Char × Char × Char
  bus : Text
  group : Text
  vid : Text
  pid : Text

def Fields.text (f : Fields) : Text :=
  f.letters.1 :: (f.bus ++ f.letters.2.1 :: (f.group ++ f.letters.2.2.1 :: (f.vid ++
    f.letters.2.2.2 :: f.pid)))

/-- The letters are one byte wide, and the fields are where the slices are. -/
structure Fields.Aligned (f : Fields) : Prop where
  letters : f.letters.1.utf8Size = 1 ∧ f.letters.2.1.utf8Size = 1 ∧
    f.letters.2.2.1.utf8Size = 1 ∧ f.letters.2.2.2.utf8Size = 1
  bus : utf8Len f.bus = 4
  group : utf8Len f.group = 4
  vid : utf8Len f.vid = 8
  pid : utf8Len f.pid = 8

section cutting

variable {f : Fields}

theorem Fields.Aligned.utf8Len_text (h : f.Aligned) : utf8Len f.text = 28 := by
  simp only [Fields.text, String.utf8Len_cons, String.utf8Len_append, h.bus, h.group, h.vid, h.pid,
    h.letters]

theorem Fields.Aligned.slices (h : f.Aligned) :
    byteSlice f.text 1 5 = some f.bus ∧ byteSlice f.text 6 10 = some f.group ∧
      byteSlice f.text 11 19 = some f.vid ∧ byteSlice f.text 20 28 = some f.pid := by
  simp only [byteSlice_eq_some_iff]
  refine ⟨⟨[f.letters.1], f.letters.2.1 :: (f.group ++ f.letters.2.2.1 :: (f.vid ++
      f.letters.2.2.2 :: f.pid)), rfl, ?_, h.bus⟩,
    ⟨f.letters.1 :: (f.bus ++ [f.letters.2.1]), f.letters.2.2.1 :: (f.vid ++
      f.letters.2.2.2 :: f.pid), ?_, ?_, h.group⟩,
    ⟨f.letters.1 :: (f.bus ++ f.letters.2.1 :: (f.group ++ [f.letters.2.2.1])),
      f.letters.2.2.2 :: f.pid, ?_, ?_, h.vid⟩,
    ⟨f.letters.1 :: (f.bus ++ f.letters.2.1 :: (f.group ++ f.letters.2.2.1 :: (f.vid ++
      [f.letters.2.2.2]))), [], ?_, ?_, h.pid⟩⟩
  all_goals simp [Fields.text, h.bus, h.group, h.vid, h.letters]

theorem exists_fields {t bus group vid pid : Text} (hlen : utf8Len t = 28)
    (hbus : byteSlice t 1 5 = some bus) (hgroup : byteSlice t 6 10 = some group)
    (hvid : byteSlice t 11 19 = some vid) (hpid : byteSlice t 20 28 = some pid) :
    ∃ letters, t = Fields.text ⟨letters, bus, group, vid, pid⟩ ∧
      Fields.Aligned ⟨letters, bus, group, vid, pid⟩ := by
  obtain ⟨c₀, r, rfl, hc₀, hb⟩ := byteSlice_one_eq_some_iff.mp hbus
  have hpre : utf8Len (c₀ :: bus) = 5 := by rw [String.utf8Len_cons, hb, hc₀]
  have hgroup' : byteSlice r 1 5 = some group := by
    rw [← byteSlice_add (c₀ :: bus), hpre]
    exact hgroup
  obtain ⟨c₁, r, rfl, hc₁, hg⟩ := byteSlice_one_eq_some_iff.mp hgroup'
  have hpre : utf8Len (c₀ :: (bus ++ c₁ :: group)) = 10 := by
    simp [hb, hc₀, hg, hc₁]
  have hvid' : byteSlice r 1 9 = some vid := by
    rw [← byteSlice_add (c₀ :: (bus ++ c₁ :: group)), hpre]
    simpa using hvid
  obtain ⟨c₂, r, rfl, hc₂, hv⟩ := byteSlice_one_eq_some_iff.mp hvid'
  have hpre : utf8Len (c₀ :: (bus ++ c₁ :: (group ++ c₂ :: vid))) = 19 := by
    simp [hb, hc₀, hg, hc₁, hv, hc₂]
  have hpid' : byteSlice r 1 9 = some pid := by
    rw [← byteSlice_add (c₀ :: (bus ++ c₁ :: (group ++ c₂ :: vid))), hpre]
    simpa using hpid
  obtain ⟨c₃, r, rfl, hc₃, hp⟩ := byteSlice_one_eq_some_iff.mp hpid'
  obtain rfl : r = [] := by
    apply String.utf8Len_eq_zero.mp
    simp only [String.utf8Len_cons, String.utf8Len_append, hb, hc₀, hg, hc₁, hv, hc₂, hp,
      hc₃] at hlen
    omega
  exact ⟨(c₀, c₁, c₂, c₃), by simp [Fields.text], ⟨hc₀, hc₁, hc₂, hc₃⟩, hb, hg, hv, hp⟩

theorem Fields.text_inj {f f' : Fields} (hf : f.Aligned) (hf' : f'.Aligned)
    (h : f.text = f'.text) : f = f' := by
  obtain ⟨hbus, hgroup, hvid, hpid⟩ := hf.slices
  obtain ⟨hbus', hgroup', hvid', hpid'⟩ := hf'.slices
  rw [h] at hbus hgroup hvid hpid
  obtain ⟨⟨c₀, c₁, c₂, c₃⟩, bus, group, vid, pid⟩ := f
  obtain ⟨⟨d₀, d₁, d₂, d₃⟩, bus', group', vid', pid'⟩ := f'
  obtain rfl := Option.some.inj (hbus.symm.trans hbus')
  obtain rfl := Option.some.inj (hgroup.symm.trans hgroup')
  obtain rfl := Option.some.inj (hvid.symm.trans hvid')
  obtain rfl := Option.some.inj (hpid.symm.trans hpid')
  simpa [Fields.text] using h

end cutting

/-- The values of the fields, each with or without a sign. -/
structure Fields.Gives (f : Fields) (m : Modalias) : Prop where
  bus : fromStrRadix 16 f.bus = some m.bus.toNat
  group : fromStrRadix 16 f.group = some m.group.toNat
  vid : fromStrRadix 16 f.vid = some m.vid.toNat
  pid : fromStrRadix 16 f.pid = some m.pid.toNat

theorem utf8Size_of_isSome_digitValue {c : Char} (h : (digitValue 16 c).isSome) :
    c.utf8Size = 1 := by
  obtain ⟨d, hd⟩ := Option.isSome_iff_exists.mp h
  rw [digitValue_eq_some_iff] at hd
  apply utf8Size_of_lt
  omega

theorem utf8Len_of_number {t : Text} {n : ℕ} (h : fromStrRadix 16 t = some n) :
    utf8Len t = t.length := by
  apply utf8Len_of_ascii
  intro c hc
  by_cases hplus : c = '+'
  · rw [hplus]
    decide
  · exact utf8Size_of_isSome_digitValue (isSome_of_fromStrRadix h c hc hplus)

theorem fromStr_eq_ok_iff {s : Text} {m : Modalias} :
    fromStr s = .ok m ↔ ∃ f : Fields, trimStartHid s = f.text ∧ f.Aligned ∧ f.Gives m := by
  constructor
  · intro h
    unfold fromStr at h
    simp only at h
    split at h
    · cases h
    rename_i hlen
    rw [not_not] at hlen
    simp only [bind_eq_ok, slice_eq_ok, fromHex_eq_ok, unwrap_eq_ok, Bus.tryFrom_eq_ok,
      Group.tryFrom_eq_ok] at h
    obtain ⟨busText, hbusText, -, ⟨hbus, -⟩, bus, rfl, groupText, hgroupText, -, ⟨hgroup, -⟩, group,
      rfl, vidText, hvidText, vid, ⟨hvid, hvidlt⟩, pidText, hpidText, pid, ⟨hpid, hpidlt⟩, hm⟩ := h
    obtain rfl := Result.ok.inj hm
    obtain ⟨letters, htext, hf⟩ := exists_fields hlen hbusText hgroupText hvidText hpidText
    refine ⟨_, htext, hf, ⟨hbus, hgroup, ?_, ?_⟩⟩
    · rw [UInt32.toNat_ofNat_of_lt' hvidlt]
      exact hvid
    · rw [UInt32.toNat_ofNat_of_lt' hpidlt]
      exact hpid
  · rintro ⟨f, htrim, hf, hm⟩
    obtain ⟨hbus, hgroup, hvid, hpid⟩ := hf.slices
    unfold fromStr
    simp only [htrim, hf.utf8Len_text, ne_eq, not_true_eq_false, if_false]
    simp only [bind_eq_ok, slice_eq_ok, fromHex_eq_ok, unwrap_eq_ok, Bus.tryFrom_eq_ok,
      Group.tryFrom_eq_ok]
    refine ⟨f.bus, hbus, _, ⟨hm.bus, ?_⟩, m.bus, rfl, f.group, hgroup, _, ⟨hm.group, ?_⟩, m.group,
      rfl, f.vid, hvid, _, ⟨hm.vid, m.vid.toNat_lt⟩, f.pid, hpid, _, ⟨hm.pid, m.pid.toNat_lt⟩, ?_⟩
    · exact (Bus.toNat_lt m.bus).trans (by decide)
    · exact (Group.toNat_lt m.group).trans (by decide)
    · rw [UInt32.ofNat_toNat, UInt32.ofNat_toNat]
      rfl

def HexField (w : ℕ) (t : Text) (n : ℕ) : Prop := t.length = w ∧ readDigits 16 t = some n

/-- A modalias as the kernel writes it, at most one prefix in front. -/
def Grammar (s : Text) (m : Modalias) : Prop :=
  ∃ bus group vid pid, (s = fieldsText bus group vid pid ∨
      s = "hid:".toList ++ fieldsText bus group vid pid) ∧
    HexField 4 bus m.bus.toNat ∧ HexField 4 group m.group.toNat ∧
    HexField 8 vid m.vid.toNat ∧ HexField 8 pid m.pid.toNat

/-- One prefix at most, the letters of the kernel and no sign. -/
structure Exact (s : Text) (f : Fields) : Prop where
  once : s = f.text ∨ s = "hid:".toList ++ f.text
  letters : f.letters = ('b', 'g', 'v', 'p')
  unsigned : ∀ field ∈ [f.bus, f.group, f.vid, f.pid], '+' ∉ field

/-- The fields are readable and the rest is not as the kernel writes it. -/
def NearMiss (s : Text) : Prop :=
  ∃ f m, trimStartHid s = f.text ∧ f.Aligned ∧ f.Gives m ∧ ¬ Exact s f

theorem kernelLetters_narrow : 'b'.utf8Size = 1 ∧ 'g'.utf8Size = 1 ∧ 'v'.utf8Size = 1 ∧
    'p'.utf8Size = 1 := by
  decide

theorem HexField.number {w n : ℕ} {t : Text} (h : HexField w t n) :
    fromStrRadix 16 t = some n ∧ '+' ∉ t := readDigits_eq_some_iff.mp h.2

theorem HexField.utf8Len {w n : ℕ} {t : Text} (h : HexField w t n) : utf8Len t = w :=
  (utf8Len_of_number h.number.1).trans h.1

theorem trimStartHid_fieldsText (bus group vid pid : Text) :
    trimStartHid (fieldsText bus group vid pid) = fieldsText bus group vid pid ∧
      trimStartHid ("hid:".toList ++ fieldsText bus group vid pid) =
        fieldsText bus group vid pid := by
  constructor <;> simp [fieldsText, trimStartHid]

theorem grammar_iff {s : Text} {m : Modalias} :
    Grammar s m ↔ ∃ f : Fields, trimStartHid s = f.text ∧ f.Aligned ∧ f.Gives m ∧ Exact s f := by
  constructor
  · rintro ⟨bus, group, vid, pid, hs, hbus, hgroup, hvid, hpid⟩
    refine ⟨⟨('b', 'g', 'v', 'p'), bus, group, vid, pid⟩, ?_,
      ⟨kernelLetters_narrow, hbus.utf8Len, hgroup.utf8Len, hvid.utf8Len, hpid.utf8Len⟩,
      ⟨hbus.number.1, hgroup.number.1, hvid.number.1, hpid.number.1⟩, ⟨hs, rfl, ?_⟩⟩
    · rcases hs with rfl | rfl
      · exact (trimStartHid_fieldsText bus group vid pid).1
      · exact (trimStartHid_fieldsText bus group vid pid).2
    · simp [hbus.number.2, hgroup.number.2, hvid.number.2, hpid.number.2]
  · rintro ⟨⟨letters, bus, group, vid, pid⟩, -, hf, hm, hexact⟩
    have hfield {w n : ℕ} {t : Text} (ht : t ∈ [bus, group, vid, pid])
        (hlen : String.utf8Len t = w) (hn : fromStrRadix 16 t = some n) : HexField w t n :=
      ⟨(utf8Len_of_number hn).symm.trans hlen,
        readDigits_eq_some_iff.mpr ⟨hn, hexact.unsigned t ht⟩⟩
    obtain rfl : letters = ('b', 'g', 'v', 'p') := hexact.letters
    exact ⟨bus, group, vid, pid, hexact.once, hfield (by simp) hf.bus hm.bus,
      hfield (by simp) hf.group hm.group, hfield (by simp) hf.vid hm.vid,
      hfield (by simp) hf.pid hm.pid⟩

/-- The parser accepts what the kernel writes and nothing else, unless the text is readable
but has a second prefix, another letter in front of a field or a sign in one. -/
theorem fromStr_grammar_iff (s : Text) :
    (∀ m, fromStr s = .ok m ↔ Grammar s m) ↔ ¬ NearMiss s := by
  constructor
  · rintro h ⟨f, m, htrim, hf, hm, hexact⟩
    have hgrammar := (h m).mp (fromStr_eq_ok_iff.mpr ⟨f, htrim, hf, hm⟩)
    obtain ⟨f', htrim', hf', -, hexact'⟩ := grammar_iff.mp hgrammar
    obtain rfl := Fields.text_inj hf hf' (htrim.symm.trans htrim')
    exact hexact hexact'
  · intro h m
    rw [fromStr_eq_ok_iff, grammar_iff]
    constructor
    · rintro ⟨f, htrim, hf, hm⟩
      refine ⟨f, htrim, hf, hm, ?_⟩
      by_contra hexact
      exact h ⟨f, m, htrim, hf, hm, hexact⟩
    · rintro ⟨f, htrim, hf, hm, -⟩
      exact ⟨f, htrim, hf, hm⟩

/-- Other letters in front of the fields. -/
theorem fromStr_other_letters :
    fromStr "x0003x0001x000004D9x0000A09F".toList = .ok ⟨.usb, .generic, 0x4D9, 0xA09F⟩ ∧
      ¬ Grammar "x0003x0001x000004D9x0000A09F".toList ⟨.usb, .generic, 0x4D9, 0xA09F⟩ := by
  refine ⟨by decide, ?_⟩
  rintro ⟨bus, group, vid, pid, hs | hs, -⟩
  · exact absurd (List.cons.inj hs).1 (by decide)
  · exact absurd (List.cons.inj hs).1 (by decide)

/-- From left to right, up to the first field that is no number: every cut is between two
characters and the bus and the group are known. -/
def Survives (t : Text) : Prop :=
  utf8Len t ≠ 28 ∨
    ∃ bus, byteSlice t 1 5 = some bus ∧ ∀ n, fromStrRadix 16 bus = some n →
      (∃ b : Bus, n = b.toNat) ∧
      ∃ group, byteSlice t 6 10 = some group ∧ ∀ n, fromStrRadix 16 group = some n →
        (∃ g : Group, n = g.toNat) ∧
        ∃ vid, byteSlice t 11 19 = some vid ∧ ∀ n, fromStrRadix 16 vid = some n →
          ∃ pid, byteSlice t 20 28 = some pid

section survival

variable {α β : Type} {f : α → Result β}

theorem slice_bind_survives {t : Text} {i j : ℕ} {f : Text → Result β} :
    (slice t i j >>= f) ≠ .panicked ↔
      ∃ field, byteSlice t i j = some field ∧ f field ≠ .panicked := by
  rw [Ne, bind_eq_panicked, slice_eq_panicked]
  cases h : byteSlice t i j <;> simp [slice_eq_ok, h]

theorem fromHex_bind_survives {values : ℕ} {t field : Text} {f : ℕ → Result β}
    (hlt : ∀ n, fromStrRadix 16 field = some n → n < values) :
    (fromHex values t field >>= f) ≠ .panicked ↔
      ∀ n, fromStrRadix 16 field = some n → f n ≠ .panicked := by
  rw [Ne, bind_eq_panicked, not_or, not_exists]
  simp only [fromHex_ne_panicked, not_false_eq_true, true_and, fromHex_eq_ok, not_and]
  exact ⟨fun h n hn => h n ⟨hn, hlt n hn⟩, fun h n hn => h n hn.1⟩

theorem unwrap_bind_survives {x : Except String α} :
    (unwrap x >>= f) ≠ .panicked ↔ ∃ a, x = .ok a ∧ f a ≠ .panicked := by
  rw [Ne, bind_eq_panicked, unwrap_eq_panicked]
  cases x <;> simp [unwrap_eq_ok]

end survival

theorem number_lt {t field : Text} {n i j : ℕ} (hslice : byteSlice t i j = some field)
    (h : fromStrRadix 16 field = some n) : n < 16 ^ (j - i) := by
  obtain ⟨-, -, -, -, hlen⟩ := byteSlice_eq_some_iff.mp hslice
  rw [← hlen, utf8Len_of_number h]
  exact fromStrRadix_lt (by decide) h

theorem unwrap_known_survives {α β : Type} {x : Except String α} {known : α → Prop}
    {f : α → Result β} {P : Prop} (hx : ∀ a, x = .ok a ↔ known a)
    (hf : ∀ a, f a ≠ .panicked ↔ P) :
    (unwrap x >>= f) ≠ .panicked ↔ (∃ a, known a) ∧ P := by
  rw [unwrap_bind_survives]
  simp only [hx, hf, exists_and_right]

theorem fromStr_survives_iff (s : Text) :
    fromStr s ≠ .panicked ↔ Survives (trimStartHid s) := by
  unfold fromStr Survives
  simp only
  split
  · rename_i hlen
    exact ⟨fun _ => .inl hlen, fun _ => nofun⟩
  rename_i hlen
  simp only [hlen, false_or]
  rw [slice_bind_survives]
  refine exists_congr fun busText => and_congr_right fun hbus => ?_
  rw [fromHex_bind_survives fun n hn => (number_lt hbus hn).trans (by decide)]
  refine forall₂_congr fun n _ => unwrap_known_survives (fun a => Bus.tryFrom_eq_ok) fun bus => ?_
  rw [slice_bind_survives]
  refine exists_congr fun groupText => and_congr_right fun hgroup => ?_
  rw [fromHex_bind_survives fun n hn => (number_lt hgroup hn).trans (by decide)]
  refine forall₂_congr fun n _ =>
    unwrap_known_survives (fun a => Group.tryFrom_eq_ok) fun group => ?_
  rw [slice_bind_survives]
  refine exists_congr fun vidText => and_congr_right fun hvid => ?_
  rw [fromHex_bind_survives fun n hn => (number_lt hvid hn).trans_le (by decide)]
  refine forall₂_congr fun vid _ => ?_
  rw [slice_bind_survives]
  refine exists_congr fun pidText => and_iff_left_of_imp fun hpid => ?_
  rw [fromHex_bind_survives fun n hn => (number_lt hpid hn).trans_le (by decide)]
  exact fun n hn => nofun

/-- Reading a modalias does not panic exactly when it is cut between characters and its bus
and group are known; listing the devices of an object, when the buses and groups are. -/
theorem foreign_modalias_iff (s : Text) (btf : Btf) (members : List Member)
    (h : DeviceUnion btf members) :
    (fromStr s ≠ .panicked ↔ Survives (trimStartHid s)) ∧
      ((modaliases btf members).isSome ↔
        ∀ entry ∈ members, ∀ size fields, btf.typeById entry.ty = some (.struct size fields) →
          ∀ field ∈ fields, ∀ name capacity, PointsToArray btf field name capacity →
            KnownNumber name capacity) :=
  ⟨fromStr_survives_iff s, isSome_modaliases_iff h⟩

def unknownBusBtf : Btf where
  types := [.other, .array 1 0x21, .reference .ptr 1, .struct 40 [field "bus" 2], .array 1 3,
    .reference .ptr 4, .struct 40 [field "bus" 5]]

theorem deviceUnion_unknownBus {entries : List Member}
    (h : ∀ entry ∈ entries, entry ∈ [field "_entry1" 3, field "_entry2" 6]) :
    DeviceUnion unknownBusBtf entries := by
  intro entry hentry
  have hmem := h entry hentry
  simp only [List.mem_cons, List.not_mem_nil, or_false] at hmem
  rcases hmem with rfl | rfl
  · refine ⟨40, [field "bus" 2], rfl, ?_⟩
    intro member hmember
    rw [List.mem_singleton.mp hmember]
    exact ⟨"bus", 0x21, rfl, 1, 1, rfl, rfl⟩
  · refine ⟨40, [field "bus" 5], rfl, ?_⟩
    intro member hmember
    rw [List.mem_singleton.mp hmember]
    exact ⟨"bus", 3, rfl, 4, 1, rfl, rfl⟩

theorem foreign_modalias_known :
    Survives "b0003g0001v000004D9p0000A09F".toList ∧ KnownNumber "bus" 3 := by
  obtain ⟨hstr, hbtf⟩ := foreign_modalias_iff "hid:b0003g0001v000004D9p0000A09F".toList
    unknownBusBtf [field "_entry2" 6] (deviceUnion_unknownBus (by simp))
  exact ⟨hstr.mp (by decide), hbtf.mp (by decide) _ List.mem_cons_self 40 _ rfl _
    List.mem_cons_self "bus" 3 ⟨rfl, 4, 1, rfl, rfl⟩⟩

/-- An unknown bus in a modalias, one in an object, and a character that is cut through. -/
theorem foreign_modalias_panics :
    fromStr "hid:b0021g0001v000004D9p0000A09F".toList = .panicked ∧
      fromStr "é003g0001v000004D9p0000A09F".toList = .panicked ∧
      DeviceUnion unknownBusBtf [field "_entry1" 3, field "_entry2" 6] ∧
      modaliases unknownBusBtf [field "_entry1" 3, field "_entry2" 6] = none :=
  ⟨by decide, by decide, deviceUnion_unknownBus (by simp), by decide⟩

def SameLetters (t u : Text) : Prop := t.map Char.toLower = u.map Char.toLower

/-- No field stands for anything. -/
structure Complete (m : Modalias) : Prop where
  bus : m.bus ≠ .any
  group : m.group ≠ .any
  vid : m.vid ≠ 0
  pid : m.pid ≠ 0

/-- So many hexadecimal digits. -/
structure HexDigits (w : ℕ) (t : Text) : Prop where
  length : t.length = w
  digits : ∀ c ∈ t, (digitValue 16 c).isSome

theorem Bus.toNat_eq_zero_iff {bus : Bus} : bus.toNat = 0 ↔ bus = .any := by
  cases bus <;> decide

theorem Group.toNat_eq_zero_iff {group : Group} : group.toNat = 0 ↔ group = .any := by
  cases group <;> decide

theorem hexField_padded {w n : ℕ} (hw : 0 < w) (hn : n < 16 ^ w) : HexField w (padded 16 w n) n :=
  ⟨(length_padded_iff (by decide) hw).mpr hn, readDigits_padded (by decide) (by decide) w n⟩

theorem HexField.of_sameLetters {w n : ℕ} {t u : Text} (h : SameLetters t u)
    (hu : HexField w u n) : HexField w t n := by
  refine ⟨?_, (readDigits_of_toLower_eq h).trans hu.2⟩
  have hlen := congrArg List.length h
  rw [List.length_map, List.length_map] at hlen
  exact hlen.trans hu.1

theorem HexField.sameLetters {w n : ℕ} {t u : Text} (ht : HexField w t n) (hu : HexField w u n) :
    SameLetters t u :=
  map_toLower_of_parseDigits (ht.1.trans hu.1.symm) (parseDigits_of_readDigits ht.2)
    (parseDigits_of_readDigits hu.2)

section printing

variable {m : Modalias}

theorem Complete.text (h : Complete m) :
    m.text = Fields.text ⟨('b', 'g', 'v', 'p'), padded 16 4 m.bus.toNat, padded 16 4 m.group.toNat,
      padded 16 8 m.vid.toNat, padded 16 8 m.pid.toNat⟩ := by
  have hbus : m.bus.toNat ≠ 0 := fun h0 => h.bus (Bus.toNat_eq_zero_iff.mp h0)
  have hgroup : m.group.toNat ≠ 0 := fun h0 => h.group (Group.toNat_eq_zero_iff.mp h0)
  have hvid : m.vid.toNat ≠ 0 := fun h0 => h.vid (UInt32.toNat_inj.mp h0)
  have hpid : m.pid.toNat ≠ 0 := fun h0 => h.pid (UInt32.toNat_inj.mp h0)
  simp only [Modalias.text, orAny, if_neg hbus, if_neg hgroup, if_neg hvid, if_neg hpid]
  rfl

theorem exists_sameLetters_fields {t : Text} {f : Fields} (h : SameLetters t f.text) :
    ∃ f' : Fields, t = f'.text ∧ f'.letters.1.toLower = f.letters.1.toLower ∧
      f'.letters.2.1.toLower = f.letters.2.1.toLower ∧
      f'.letters.2.2.1.toLower = f.letters.2.2.1.toLower ∧
      f'.letters.2.2.2.toLower = f.letters.2.2.2.toLower ∧
      SameLetters f'.bus f.bus ∧ SameLetters f'.group f.group ∧ SameLetters f'.vid f.vid ∧
      SameLetters f'.pid f.pid := by
  rw [SameLetters, Fields.text] at h
  simp only [List.map_cons, List.map_append] at h
  obtain ⟨c₀, t, rfl, hc₀, h⟩ := List.map_eq_cons_iff.mp h
  obtain ⟨bus, t, rfl, hbus, h⟩ := List.map_eq_append_iff.mp h
  obtain ⟨c₁, t, rfl, hc₁, h⟩ := List.map_eq_cons_iff.mp h
  obtain ⟨group, t, rfl, hgroup, h⟩ := List.map_eq_append_iff.mp h
  obtain ⟨c₂, t, rfl, hc₂, h⟩ := List.map_eq_cons_iff.mp h
  obtain ⟨vid, t, rfl, hvid, h⟩ := List.map_eq_append_iff.mp h
  obtain ⟨c₃, pid, rfl, hc₃, hpid⟩ := List.map_eq_cons_iff.mp h
  exact ⟨⟨(c₀, c₁, c₂, c₃), bus, group, vid, pid⟩, rfl, hc₀, hc₁, hc₂, hc₃, hbus, hgroup, hvid,
    hpid⟩

theorem utf8Size_of_toLower {c d : Char} (h : c.toLower = d.toLower) (hd : d.toNat < 128) :
    c.utf8Size = 1 := by
  have hnat := congrArg Char.toNat h
  rw [toNat_toLower, toNat_toLower] at hnat
  apply utf8Size_of_lt
  split at hnat <;> split at hnat <;> omega

theorem fromStr_hid (t : Text) : fromStr ("hid:".toList ++ t) = fromStr t := rfl

theorem trimStartHid_of_head {c : Char} (hc : c ≠ 'h') (t : Text) :
    trimStartHid (c :: t) = c :: t := by
  unfold trimStartHid
  split
  · rename_i heq
    exact absurd (List.cons.inj heq).1 hc
  · rfl

/-- What is printed is read, whatever the case of its letters. -/
theorem fromStr_sameLetters (h : Complete m) {t : Text} (ht : SameLetters t m.text) :
    fromStr t = .ok m := by
  rw [h.text] at ht
  obtain ⟨f, rfl, hc₀, hc₁, hc₂, hc₃, hbus, hgroup, hvid, hpid⟩ := exists_sameLetters_fields ht
  have hbus := HexField.of_sameLetters hbus (hexField_padded (by decide) (Bus.toNat_lt m.bus))
  have hgroup :=
    HexField.of_sameLetters hgroup (hexField_padded (by decide) (Group.toNat_lt m.group))
  have hvid := HexField.of_sameLetters hvid (hexField_padded (by decide) m.vid.toNat_lt)
  have hpid := HexField.of_sameLetters hpid (hexField_padded (by decide) m.pid.toNat_lt)
  have hhead : f.letters.1 ≠ 'h' := by
    have hb : f.letters.1.toLower = 'b' := hc₀
    intro he
    rw [he] at hb
    exact absurd hb (by decide)
  refine fromStr_eq_ok_iff.mpr ⟨f, trimStartHid_of_head hhead _, ⟨⟨?_, ?_, ?_, ?_⟩,
    hbus.utf8Len, hgroup.utf8Len, hvid.utf8Len, hpid.utf8Len⟩,
    ⟨hbus.number.1, hgroup.number.1, hvid.number.1, hpid.number.1⟩⟩
  · exact utf8Size_of_toLower (d := 'b') hc₀ (by decide)
  · exact utf8Size_of_toLower (d := 'g') hc₁ (by decide)
  · exact utf8Size_of_toLower (d := 'v') hc₂ (by decide)
  · exact utf8Size_of_toLower (d := 'p') hc₃ (by decide)

end printing

theorem HexDigits.utf8Len {w : ℕ} {t : Text} (h : HexDigits w t) : String.utf8Len t = w := by
  rw [utf8Len_of_ascii fun c hc => utf8Size_of_isSome_digitValue (h.digits c hc), h.length]

theorem HexDigits.hexField {w n : ℕ} {t : Text} (h : HexDigits w t)
    (hn : fromStrRadix 16 t = some n) : HexField w t n := by
  refine ⟨h.length, readDigits_eq_some_iff.mpr ⟨hn, ?_⟩⟩
  intro hplus
  exact absurd (h.digits '+' hplus) (by decide)

/-- What is read from a modalias of the kernel is printed as that modalias. -/
theorem text_of_fromStr {bus group vid pid : Text} {m : Modalias} (hbus : HexDigits 4 bus)
    (hgroup : HexDigits 4 group) (hvid : HexDigits 8 vid) (hpid : HexDigits 8 pid)
    (hne : ∀ field ∈ [bus, group, vid, pid], readDigits 16 field ≠ some 0)
    (h : fromStr (fieldsText bus group vid pid) = .ok m) :
    SameLetters m.text (fieldsText bus group vid pid) := by
  obtain ⟨f, htrim, hf, hm⟩ := fromStr_eq_ok_iff.mp h
  rw [(trimStartHid_fieldsText bus group vid pid).1] at htrim
  have hkernel : Fields.Aligned ⟨('b', 'g', 'v', 'p'), bus, group, vid, pid⟩ :=
    ⟨kernelLetters_narrow, hbus.utf8Len, hgroup.utf8Len, hvid.utf8Len, hpid.utf8Len⟩
  obtain rfl := Fields.text_inj hkernel hf htrim
  have hbus := hbus.hexField hm.bus
  have hgroup := hgroup.hexField hm.group
  have hvid := hvid.hexField hm.vid
  have hpid := hpid.hexField hm.pid
  have hcomplete : Complete m := by
    constructor
    · intro h0
      exact hne bus (by simp) (hbus.2.trans (by rw [h0]; rfl))
    · intro h0
      exact hne group (by simp) (hgroup.2.trans (by rw [h0]; rfl))
    · intro h0
      exact hne vid (by simp) (hvid.2.trans (by rw [h0]; rfl))
    · intro h0
      exact hne pid (by simp) (hpid.2.trans (by rw [h0]; rfl))
  have hbus' := (hexField_padded (by decide) (Bus.toNat_lt m.bus)).sameLetters hbus
  have hgroup' := (hexField_padded (by decide) (Group.toNat_lt m.group)).sameLetters hgroup
  have hvid' := (hexField_padded (by decide) m.vid.toNat_lt).sameLetters hvid
  have hpid' := (hexField_padded (by decide) m.pid.toNat_lt).sameLetters hpid
  rw [SameLetters] at *
  rw [hcomplete.text]
  simp only [Fields.text, fieldsText, List.map_cons, List.map_append, hbus', hgroup', hvid', hpid']

/-- Printing and reading are inverse up to the case of letters and the prefix. -/
theorem modalias_round_trip :
    (∀ m, Complete m → ∀ t, SameLetters t m.text →
        fromStr t = .ok m ∧ fromStr ("hid:".toList ++ t) = .ok m) ∧
      ∀ bus group vid pid, HexDigits 4 bus → HexDigits 4 group → HexDigits 8 vid →
        HexDigits 8 pid → (∀ field ∈ [bus, group, vid, pid], readDigits 16 field ≠ some 0) →
        ∀ s n, (s = fieldsText bus group vid pid ∨
            s = "hid:".toList ++ fieldsText bus group vid pid) →
          fromStr s = .ok n → SameLetters n.text (fieldsText bus group vid pid) := by
  constructor
  · intro m h t ht
    rw [fromStr_hid]
    exact ⟨fromStr_sameLetters h ht, fromStr_sameLetters h ht⟩
  · intro bus group vid pid hbus hgroup hvid hpid hne s n hs hok
    rcases hs with rfl | rfl
    · exact text_of_fromStr hbus hgroup hvid hpid hne hok
    · rw [fromStr_hid] at hok
      exact text_of_fromStr hbus hgroup hvid hpid hne hok

theorem modalias_round_trip_receiver :
    fromStr "b0003g0102v0000046dp0000c52b".toList = .ok ⟨.usb, .logitechDJ, 0x46D, 0xC52B⟩ :=
  (modalias_round_trip.1 ⟨.usb, .logitechDJ, 0x46D, 0xC52B⟩
    ⟨by decide, by decide, by decide, by decide⟩ _ (by unfold SameLetters; decide)).1

end ModaliasParsing
