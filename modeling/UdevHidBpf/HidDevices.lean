import UdevHidBpf.ByteSlices
import UdevHidBpf.LittleEndian
import UdevHidBpf.SysfsDevices

/-! # The number of a HID device

The kernel numbers its HID devices; the number is the last field of the name, and what the
loader hands to the kernel. `none` is a panic. -/
namespace HidDevices

open String (utf8Len)
open ByteSlices Modaliases RadixText SysfsDevices

abbrev Bytes := List UInt8

/-- `u32::from_str_radix(text, 16)` -/
def u32FromStrRadix (text : Text) : Option UInt32 :=
  ((fromStrRadix 16 text).filter (· < 2 ^ 32)).map UInt32.ofNat

/-- `HidUdev::id`, from the name of the device. -/
def id (sysname : Text) : Option UInt32 := (dropBytes 15 sysname).bind u32FromStrRadix

/-- `hid_bpf_probe_args` -/
structure ProbeArgs where
  hid : UInt32
  rdescSize : UInt32
  rdesc : Bytes
  retval : Int32
  deriving DecidableEq, Repr

def probeArgs (sysname : Text) (rdescBytes : Bytes) : Option ProbeArgs :=
  let length := min rdescBytes.length 4096
  (id sysname).map fun hid =>
    ⟨hid, UInt32.ofNat length, rdescBytes.take length ++ List.replicate (4096 - length) 0, -1⟩

/-- `data[0..4].copy_from_slice(&bytes_hid_id)` -/
def setHidId (hid : UInt32) (data : Bytes) : Option Bytes :=
  if 4 ≤ data.length then some (LittleEndian.bytes 4 hid.toNat ++ data.drop 4) else none

/-- `HidBPFStructOps::load`, up to the loading: the struct_ops maps that have a value. -/
def loadStructOps (sysname : Text) (maps : List (Option Bytes)) : Option (List (Option Bytes)) :=
  (id sysname).bind fun hid => maps.mapM fun
    | some data => (setHidId hid data).map some
    | none => some none

theorem utf8Len_padded (w n : ℕ) : utf8Len (padded 16 w n) = (padded 16 w n).length := by
  apply utf8Len_of_ascii
  intro c hc
  obtain ⟨d, hd, rfl⟩ := mem_padded (by decide) hc
  exact (by decide : ∀ d < 16, (upperDigit d).utf8Size = 1) d hd

theorem le_length_padded (w n : ℕ) : w ≤ (padded 16 w n).length := by
  rw [padded, List.length_leftpad]
  exact le_max_left _ _

theorem u32FromStrRadix_padded (n : UInt32) : u32FromStrRadix (padded 16 4 n.toNat) = some n := by
  rw [u32FromStrRadix, fromStrRadix_padded (by decide) (by decide),
    Option.filter_some_pos (by simpa using n.toNat_lt)]
  simp

theorem u32FromStrRadix_of_dot {t : Text} (ht : '.' ∈ t) : u32FromStrRadix t = none := by
  rw [u32FromStrRadix]
  cases h : fromStrRadix 16 t with
  | none => rfl
  | some n =>
    have hdigit := isSome_of_fromStrRadix h '.' ht (by decide)
    exact absurd hdigit (by decide)

def front (d : KernelDevice) : Text :=
  padded 16 4 d.bus.toNat ++ ':' :: (padded 16 4 d.vid.toNat ++
    ':' :: (padded 16 4 d.pid.toNat ++ ['.']))

theorem sysname_eq (d : KernelDevice) (inst : UInt32) :
    sysname d inst = front d ++ padded 16 4 inst.toNat := by
  simp [sysname, front]

theorem utf8Len_front (d : KernelDevice) :
    utf8Len (front d) =
      7 + (padded 16 4 d.vid.toNat).length + (padded 16 4 d.pid.toNat).length := by
  have hbus : (padded 16 4 d.bus.toNat).length = 4 :=
    (length_padded_iff (by decide) (by decide)).mpr d.bus.toNat_lt
  have hcolon : ':'.utf8Size = 1 := by decide
  have hdot : '.'.utf8Size = 1 := by decide
  simp only [front, String.utf8Len_append, String.utf8Len_cons, String.utf8Len_nil,
    utf8Len_padded, hbus, hcolon, hdot]
  omega

def Narrow (d : KernelDevice) : Prop := d.vid.toNat < 16 ^ 4 ∧ d.pid.toNat < 16 ^ 4

instance (d : KernelDevice) : Decidable (Narrow d) := inferInstanceAs (Decidable (_ ∧ _))

theorem narrow_iff (d : KernelDevice) : Narrow d ↔ utf8Len (front d) = 15 := by
  have hvid := le_length_padded 4 d.vid.toNat
  have hpid := le_length_padded 4 d.pid.toNat
  rw [Narrow, ← length_padded_iff (by decide) (by decide : 0 < 4),
    ← length_padded_iff (by decide) (by decide : 0 < 4), utf8Len_front]
  omega

theorem id_of_narrow {d : KernelDevice} (h : Narrow d) (inst : UInt32) :
    id (sysname d inst) = some inst := by
  rw [id, sysname_eq, ← (narrow_iff d).mp h, dropBytes_utf8Len, Option.bind_some,
    u32FromStrRadix_padded]

theorem id_of_wide {d : KernelDevice} (h : ¬ Narrow d) (inst : UInt32) :
    id (sysname d inst) = none := by
  obtain ⟨fields, hfields⟩ : ∃ fields, front d = fields ++ ['.'] :=
    ⟨padded 16 4 d.bus.toNat ++ ':' :: (padded 16 4 d.vid.toNat ++ ':' :: padded 16 4 d.pid.toNat),
      by simp [front]⟩
  have hlen : 15 ≤ utf8Len fields := by
    have hvid := le_length_padded 4 d.vid.toNat
    have hpid := le_length_padded 4 d.pid.toNat
    have hfront := utf8Len_front d
    have hdot : '.'.utf8Size = 1 := by decide
    rw [narrow_iff] at h
    rw [hfields, String.utf8Len_append, String.utf8Len_cons, String.utf8Len_nil, hdot] at h hfront
    omega
  rw [id, sysname_eq, hfields, List.append_assoc, dropBytes_append hlen]
  cases dropBytes 15 fields with
  | none => rfl
  | some t => exact u32FromStrRadix_of_dot (by simp)

/-- The number of a device is read from its name exactly when vendor and product fit into
four digits, and otherwise reading it panics. Where it is read, the kernel gets it. -/
theorem hid_id_iff (d : KernelDevice) (inst : UInt32) :
    (id (sysname d inst) = some inst ↔ d.vid.toNat < 16 ^ 4 ∧ d.pid.toNat < 16 ^ 4) ∧
    (¬ (d.vid.toNat < 16 ^ 4 ∧ d.pid.toNat < 16 ^ 4) → id (sysname d inst) = none) ∧
    (d.vid.toNat < 16 ^ 4 ∧ d.pid.toNat < 16 ^ 4 →
      (∀ rdesc, ∃ args, probeArgs (sysname d inst) rdesc = some args ∧ args.hid = inst) ∧
      ∀ maps : List (Option Bytes), (∀ data, some data ∈ maps → 4 ≤ data.length) →
        loadStructOps (sysname d inst) maps = some (maps.map fun data =>
          data.map fun data => LittleEndian.bytes 4 inst.toNat ++ data.drop 4)) := by
  refine ⟨⟨?_, fun h => id_of_narrow h inst⟩, fun h => id_of_wide h inst, ?_⟩
  · intro h
    by_contra hwide
    rw [id_of_wide hwide] at h
    cases h
  · intro h
    constructor
    · intro rdesc
      rw [probeArgs, id_of_narrow h]
      exact ⟨_, rfl, rfl⟩
    · intro maps hmaps
      rw [loadStructOps, id_of_narrow h, Option.bind_some]
      apply OptionLists.mapM_eq_map
      intro data hdata
      cases data with
      | none => rfl
      | some data => simp [setHidId, hmaps data hdata]

/-- A vendor of five digits: what is read as a number begins with the dot. -/
theorem id_of_wide_vendor :
    sysname ⟨3, 1, 0x12345, 0x6789⟩ 0x10 = "0003:12345:6789.0010".toList ∧
      id (sysname ⟨3, 1, 0x12345, 0x6789⟩ 0x10) = none := by
  decide

end HidDevices
