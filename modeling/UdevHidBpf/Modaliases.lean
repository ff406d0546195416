import UdevHidBpf.Glob
import UdevHidBpf.RadixText

/-! # Modaliases

The devices a program declares, as `inspect` prints them, and the modalias the kernel
gives a device. A zero field of a declared device stands for any value. -/
namespace Modaliases

open RadixText Glob

inductive Bus where
  | any | pci | isaPnP | usb | hil | bluetooth | virtual | isa | i8042 | xtKbd | rs232
  | gamePort | parPort | amiga | adb | i2c | host | gsc | atari | spi | rmi | cec | intelIshtp
  | amdSfh
  deriving DecidableEq, Repr

def Bus.toNat : Bus → ℕ
  | .any => 0x00
  | .pci => 0x01
  | .isaPnP => 0x02
  | .usb => 0x03
  | .hil => 0x04
  | .bluetooth => 0x05
  | .virtual => 0x06
  | .isa => 0x10
  | .i8042 => 0x11
  | .xtKbd => 0x12
  | .rs232 => 0x13
  | .gamePort => 0x14
  | .parPort => 0x15
  | .amiga => 0x16
  | .adb => 0x17
  | .i2c => 0x18
  | .host => 0x19
  | .gsc => 0x1A
  | .atari => 0x1B
  | .spi => 0x1C
  | .rmi => 0x1D
  | .cec => 0x1E
  | .intelIshtp => 0x1F
  | .amdSfh => 0x20

def Bus.tryFrom : ℕ → Except String Bus
  | 0x00 => .ok .any
  | 0x01 => .ok .pci
  | 0x02 => .ok .isaPnP
  | 0x03 => .ok .usb
  | 0x04 => .ok .hil
  | 0x05 => .ok .bluetooth
  | 0x06 => .ok .virtual
  | 0x10 => .ok .isa
  | 0x11 => .ok .i8042
  | 0x12 => .ok .xtKbd
  | 0x13 => .ok .rs232
  | 0x14 => .ok .gamePort
  | 0x15 => .ok .parPort
  | 0x16 => .ok .amiga
  | 0x17 => .ok .adb
  | 0x18 => .ok .i2c
  | 0x19 => .ok .host
  | 0x1A => .ok .gsc
  | 0x1B => .ok .atari
  | 0x1C => .ok .spi
  | 0x1D => .ok .rmi
  | 0x1E => .ok .cec
  | 0x1F => .ok .intelIshtp
  | 0x20 => .ok .amdSfh
  | _ => .error "Invalid bus type"

inductive Group where
  | any | generic | multitouch | sensorHub | multitouchWin8 | rmi | wacom | logitechDJ | steam
  | logitech27mhz | vivaldi
  deriving DecidableEq, Repr

def Group.toNat : Group → ℕ
  | .any => 0x0000
  | .generic => 0x0001
  | .multitouch => 0x0002
  | .sensorHub => 0x0003
  | .multitouchWin8 => 0x0004
  | .rmi => 0x0100
  | .wacom => 0x0101
  | .logitechDJ => 0x0102
  | .steam => 0x0103
  | .logitech27mhz => 0x0104
  | .vivaldi => 0x0105

def Group.tryFrom : ℕ → Except String Group
  | 0x0000 => .ok .any
  | 0x0001 => .ok .generic
  | 0x0002 => .ok .multitouch
  | 0x0003 => .ok .sensorHub
  | 0x0004 => .ok .multitouchWin8
  | 0x0100 => .ok .rmi
  | 0x0101 => .ok .wacom
  | 0x0102 => .ok .logitechDJ
  | 0x0103 => .ok .steam
  | 0x0104 => .ok .logitech27mhz
  | 0x0105 => .ok .vivaldi
  | _ => .error "Invalid group type"

structure Modalias where
  bus : Bus
  group : Group
  vid : UInt32
  pid : UInt32
  deriving DecidableEq, Repr

def Modalias.new : Modalias := ⟨.any, .any, 0, 0⟩

/-- `InspectionDevice`: the fields are text. -/
structure InspectionDevice where
  bus : Text
  group : Text
  vid : Text
  pid : Text
  deriving DecidableEq, Repr

/-- `format!("0x{:04X}", …)` -/
def hex0x (n : ℕ) : Text := '0' :: 'x' :: padded 16 4 n

/-- What `inspect` makes of a declared device. -/
def inspectionDevice (m : Modalias) : InspectionDevice :=
  ⟨hex0x m.bus.toNat, hex0x m.group.toNat, hex0x m.vid.toNat, hex0x m.pid.toNat⟩

/-- An object file, by the devices it declares. -/
structure ObjectFile where
  filename : Text
  entries : List Modalias
  deriving DecidableEq, Repr

/-- The part of the `inspect` output that names the object and its devices. -/
structure InspectionData where
  filename : Text
  devices : List InspectionDevice
  deriving DecidableEq, Repr

def inspect (obj : ObjectFile) : InspectionData :=
  ⟨obj.filename, obj.entries.map inspectionDevice⟩

def orAny (v : ℕ) (text : Text) : Text := if v = 0 then ['*'] else text

/-- `b{}g{}v{}p{}` -/
def fieldsText (bus group vid pid : Text) : Text :=
  'b' :: (bus ++ 'g' :: (group ++ 'v' :: (vid ++ 'p' :: pid)))

/-- `String::from(modalias)` -/
def Modalias.text (m : Modalias) : Text :=
  fieldsText (orAny m.bus.toNat (padded 16 4 m.bus.toNat))
    (orAny m.group.toNat (padded 16 4 m.group.toNat))
    (orAny m.vid.toNat (padded 16 8 m.vid.toNat)) (orAny m.pid.toNat (padded 16 8 m.pid.toNat))

/-- A HID device of the kernel, by the fields of its modalias. -/
structure KernelDevice where
  bus : UInt16
  group : UInt16
  vid : UInt32
  pid : UInt32
  deriving DecidableEq, Repr

/-- `hid:b%04Xg%04Xv%08Xp%08X` -/
def KernelDevice.modalias (d : KernelDevice) : Text :=
  "hid:".toList ++ fieldsText (padded 16 4 d.bus.toNat) (padded 16 4 d.group.toNat)
    (padded 16 8 d.vid.toNat) (padded 16 8 d.pid.toNat)

def Selects (v n : ℕ) : Prop := v ≠ 0 → v = n

instance (v n : ℕ) : Decidable (Selects v n) := inferInstanceAs (Decidable (_ → _))

/-- Every non-zero field of the declared device is the device's. -/
structure Modalias.Matches (m : Modalias) (d : KernelDevice) : Prop where
  bus : Selects m.bus.toNat d.bus.toNat
  group : Selects m.group.toNat d.group.toNat
  vid : Selects m.vid.toNat d.vid.toNat
  pid : Selects m.pid.toNat d.pid.toNat

theorem Modalias.matches_iff {m : Modalias} {d : KernelDevice} : m.Matches d ↔
    Selects m.bus.toNat d.bus.toNat ∧ Selects m.group.toNat d.group.toNat ∧
      Selects m.vid.toNat d.vid.toNat ∧ Selects m.pid.toNat d.pid.toNat :=
  ⟨fun h => ⟨h.bus, h.group, h.vid, h.pid⟩, fun ⟨hb, hg, hv, hp⟩ => ⟨hb, hg, hv, hp⟩⟩

instance (m : Modalias) (d : KernelDevice) : Decidable (m.Matches d) :=
  decidable_of_iff _ Modalias.matches_iff.symm

theorem Bus.tryFrom_toNat (b : Bus) : Bus.tryFrom b.toNat = .ok b := by
  cases b <;> rfl

theorem Group.tryFrom_toNat (g : Group) : Group.tryFrom g.toNat = .ok g := by
  cases g <;> rfl

theorem Bus.tryFrom_eq_ok {n : ℕ} {bus : Bus} : Bus.tryFrom n = .ok bus ↔ n = bus.toNat := by
  constructor
  · intro h
    unfold Bus.tryFrom at h
    split at h <;> cases h <;> rfl
  · rintro rfl
    exact Bus.tryFrom_toNat bus

theorem Group.tryFrom_eq_ok {n : ℕ} {group : Group} :
    Group.tryFrom n = .ok group ↔ n = group.toNat := by
  constructor
  · intro h
    unfold Group.tryFrom at h
    split at h <;> cases h <;> rfl
  · rintro rfl
    exact Group.tryFrom_toNat group

theorem Bus.toNat_lt (b : Bus) : b.toNat < 16 ^ 4 := by
  cases b <;> decide

theorem Group.toNat_lt (g : Group) : g.toNat < 16 ^ 4 := by
  cases g <;> decide

def Separate (t : Text) : Prop := ∀ c ∈ ['g', 'v', 'p'], c ∉ t

theorem separate_padded (w n : ℕ) : Separate (padded 16 w n) := by
  intro c hc
  apply not_mem_padded (by decide) (by decide)
  simp only [List.mem_cons, List.not_mem_nil, or_false] at hc
  rcases hc with rfl | rfl | rfl <;> decide

theorem ofText_padded (w n : ℕ) : ofText (padded 16 w n) = literal (padded 16 w n) :=
  ofText_literal (not_mem_padded (by decide) (by decide) (by decide))

/-- Field by field, whatever the wildcards swallow. -/
theorem accepts_fieldsText {pre b g v p B G V P : Text} (hpre : '*' ∉ pre) (hB : Separate B)
    (hG : Separate G) (hV : Separate V) (hP : Separate P) :
    accepts (ofText (pre ++ fieldsText b g v p)) (pre ++ fieldsText B G V P) ↔
      accepts (ofText b) B ∧ accepts (ofText g) G ∧ accepts (ofText v) V ∧
        accepts (ofText p) P := by
  have hcons (c : Char) (t : Text) (h : c ≠ '*') : ofText (c :: t) = .lit c :: ofText t := by
    simp [ofText, h]
  have hpV : 'p' ∉ V := hV 'p' (by decide)
  have hvG : 'v' ∉ G := hG 'v' (by decide)
  have hgB : 'g' ∉ B := hB 'g' (by decide)
  have hvR : 'v' ∉ V ++ 'p' :: P := by
    simpa [hV 'v' (by decide)] using hP 'v' (by decide)
  have hgR : 'g' ∉ G ++ 'v' :: (V ++ 'p' :: P) := by
    simpa [hG 'g' (by decide), hV 'g' (by decide)] using hP 'g' (by decide)
  rw [ofText_append, ofText_literal hpre, accepts_literal_append, fieldsText, fieldsText,
    hcons _ _ (by decide), accepts_lit]
  simp only [List.cons.injEq, true_and, exists_eq_left']
  rw [ofText_append, hcons _ _ (by decide), accepts_field hgB hgR, ofText_append,
    hcons _ _ (by decide), accepts_field hvG hvR, ofText_append, hcons _ _ (by decide),
    accepts_field hpV (hP 'p' (by decide))]

theorem accepts_orAny (w v n : ℕ) :
    accepts (ofText (orAny v (padded 16 w v))) (padded 16 w n) ↔ Selects v n := by
  by_cases hv : v = 0
  · simp only [orAny, hv, if_true, Selects, ne_eq, not_true, false_implies, iff_true]
    exact accepts_any _
  · rw [orAny, if_neg hv, ofText_padded, accepts_literal]
    constructor
    · intro h _
      exact (padded_injective (by decide) (by decide) h).symm
    · intro h
      rw [h hv]

theorem accepts_zeros_orAny {w v n : ℕ} (hw : 0 < w) (hn : n < 16 ^ (w + w)) :
    accepts (ofText (List.replicate w '0' ++ orAny v (padded 16 w v))) (padded 16 (w + w) n) ↔
      Selects v n ∧ n < 16 ^ w := by
  have hzeros : ofText (List.replicate w '0') = literal (List.replicate w '0') :=
    ofText_literal fun h => absurd (List.eq_of_mem_replicate h) (by decide)
  rw [ofText_append, hzeros]
  by_cases hv : v = 0
  · have hstar : ofText ['*'] = [.star] := rfl
    rw [orAny, if_pos hv, hstar, accepts_prefix,
      zeros_prefix_padded (by decide) (by decide) hw hn]
    simp [Selects, hv]
  · have happend : literal (List.replicate w '0') ++ literal (padded 16 w v) =
        literal (List.replicate w '0' ++ padded 16 w v) := List.map_append.symm
    rw [orAny, if_neg hv, ofText_padded, happend, accepts_literal,
      zeros_padded_eq (by decide) (by decide) hw hn, Selects, eq_comm]
    simp [hv]

end Modaliases
