import UdevHidBpf.ConfigMetadata
import UdevHidBpf.HidDevices
import UdevHidBpf.UdevRules

/-! # The device entries of `list-devices`

For each device `list-devices` prints the `HID_DEVICE` entry that a program for it needs. The
entry is C source: names that `hid_bpf_helpers.h` defines, and numbers. -/
namespace ListDevices

open BtfGraph ConfigMetadata HidDevices Modaliases RadixText UdevRules

/-- `[A-Z0-9]` -/
def isUpperAlnum (c : Char) : Bool := ('A' ≤ c && c ≤ 'Z') || ('0' ≤ c && c ≤ '9')

def expect (pre t : Text) : Option Text :=
  if pre.isPrefixOf t then some (t.drop pre.length) else none

/-- `([A-Z0-9]{4})` -/
def fourOf (t : Text) : Option (Text × Text) :=
  if (t.take 4).length = 4 ∧ (t.take 4).all isUpperAlnum then some (t.take 4, t.drop 4) else none

structure Matches where
  bus : Text
  group : Text
  vid : Text
  pid : Text
  deriving DecidableEq, Repr

def busNames : List (String × String) := [
  ("0001", "BUS_PCI"), ("0002", "BUS_ISAPNP"), ("0003", "BUS_USB"), ("0004", "BUS_HIL"),
  ("0005", "BUS_BLUETOOTH"), ("0006", "BUS_VIRTUAL"), ("0010", "BUS_ISA"), ("0011", "BUS_I8042"),
  ("0012", "BUS_XTKBD"), ("0013", "BUS_RS232"), ("0014", "BUS_GAMEPORT"), ("0015", "BUS_PARPORT"),
  ("0016", "BUS_AMIGA"), ("0017", "BUS_ADB"), ("0018", "BUS_I2C"), ("0019", "BUS_HOST"),
  ("001A", "BUS_GSC"), ("001B", "BUS_ATARI"), ("001C", "BUS_SPI"), ("001D", "BUS_RMI"),
  ("001E", "BUS_CEC"), ("001F", "BUS_INTEL_ISHTP"), ("0020", "BUS_AMD_SFH")]

def groupNames : List (String × String) := [
  ("0001", "HID_GROUP_GENERIC"), ("0002", "HID_GROUP_MULTITOUCH"),
  ("0003", "HID_GROUP_SENSOR_HUB"), ("0004", "HID_GROUP_MULTITOUCH_WIN_8"),
  ("0100", "HID_GROUP_RMI"), ("0101", "HID_GROUP_WACOM"),
  ("0102", "HID_GROUP_LOGITECH_DJ_DEVICE"), ("0103", "HID_GROUP_STEAM"),
  ("0104", "HID_GROUP_LOGITECH_27MHZ_DEVICE"), ("0105", "HID_GROUP_VIVALDI")]

/-- One of the two `match`es; a text without a name is printed as it is. -/
def nameOf (names : List (String × String)) (t : Text) : Text :=
  match names.find? fun entry => entry.1.toList = t with
  | some entry => entry.2.toList
  | none => t

/-- The arguments of the printed `HID_DEVICE`. -/
structure DeviceEntry where
  bus : Text
  group : Text
  vid : Text
  pid : Text
  deriving DecidableEq, Repr

/-- The `#define`s of `hid_bpf_helpers.h`. -/
def defines : List (String × ℕ) := [
  ("BUS_ANY", 0x00), ("BUS_PCI", 0x01), ("BUS_ISAPNP", 0x02), ("BUS_USB", 0x03),
  ("BUS_HIL", 0x04), ("BUS_BLUETOOTH", 0x05), ("BUS_VIRTUAL", 0x06), ("BUS_ISA", 0x10),
  ("BUS_I8042", 0x11), ("BUS_XTKBD", 0x12), ("BUS_RS232", 0x13), ("BUS_GAMEPORT", 0x14),
  ("BUS_PARPORT", 0x15), ("BUS_AMIGA", 0x16), ("BUS_ADB", 0x17), ("BUS_I2C", 0x18),
  ("BUS_HOST", 0x19), ("BUS_GSC", 0x1A), ("BUS_ATARI", 0x1B), ("BUS_SPI", 0x1C),
  ("BUS_RMI", 0x1D), ("BUS_CEC", 0x1E), ("BUS_INTEL_ISHTP", 0x1F), ("BUS_AMD_SFH", 0x20),
  ("HID_GROUP_ANY", 0x0000), ("HID_GROUP_GENERIC", 0x0001), ("HID_GROUP_MULTITOUCH", 0x0002),
  ("HID_GROUP_SENSOR_HUB", 0x0003), ("HID_GROUP_MULTITOUCH_WIN_8", 0x0004),
  ("HID_GROUP_RMI", 0x0100), ("HID_GROUP_WACOM", 0x0101),
  ("HID_GROUP_LOGITECH_DJ_DEVICE", 0x0102), ("HID_GROUP_STEAM", 0x0103),
  ("HID_GROUP_LOGITECH_27MHZ_DEVICE", 0x0104), ("HID_GROUP_VIVALDI", 0x0105),
  ("HID_VID_ANY", 0x0000), ("HID_PID_ANY", 0x0000)]

/-- An integer constant of C: hexadecimal, octal behind a zero, or decimal. -/
def integerConstant (t : Text) : Option ℕ :=
  match t with
  | '0' :: 'x' :: digits => readDigits 16 digits
  | '0' :: _ => readDigits 8 t
  | _ => readDigits 10 t

/-- The value of an argument; `none` does not compile. -/
def argument (t : Text) : Option ℕ :=
  match defines.find? fun define => define.1.toList = t with
  | some define => some define.2
  | none => integerConstant t

def DeviceEntry.numbers (entry : DeviceEntry) : Option (ℕ × ℕ × ℕ × ℕ) := do
  some (← argument entry.bus, ← argument entry.group, ← argument entry.vid, ← argument entry.pid)

def modaliasNumbers (m : Modalias) : ℕ × ℕ × ℕ × ℕ :=
  (m.bus.toNat, m.group.toNat, m.vid.toNat, m.pid.toNat)

/-- A number has a name, or its four digits say the same in octal. -/
def Written (names : List (String × String)) (n : ℕ) : Prop :=
  (∃ entry ∈ names, entry.1.toList = padded 16 4 n) ∨ n < 8

section matching

variable {d : KernelDevice}

end matching

section arguments

end arguments

/-- The entry is a configuration of its own. -/
structure Pasted (entry : DeviceEntry) (btf : ConfigBtf) (m : Modalias) (members : List Member) :
    Prop where
  encodes : EncodesConfig btf [m] members
  numbers : entry.numbers = some (modaliasNumbers m)

theorem Pasted.loaded {entry : DeviceEntry} {btf : ConfigBtf} {m : Modalias}
    {members : List Member} (h : Pasted entry btf m members) : ∃ n, ∀ fuel ≥ n,
      metadataFromBtf btf fuel = some (some members) ∧ modaliases btf.toBtf members = some [m] := by
  obtain ⟨before, var, after, size, hsec, hbefore, hvar⟩ := h.encodes.section_
  obtain ⟨n, hn⟩ := findUnion_encoded after hbefore hvar
  refine ⟨n, fun fuel hfuel => ⟨?_, modaliases_encoded h.encodes.devices⟩⟩
  rw [metadataFromBtf, hsec]
  exact hn fuel hfuel

def Named (d : KernelDevice) : Prop :=
  Written busNames d.bus.toNat ∧ Written groupNames d.group.toNat

end ListDevices
