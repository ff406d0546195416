import UdevHidBpf.GenerateHwdb

/-! # The udev rule of an installed program

`write_udev_rule` writes rules for each device a program declares, the database has a record
for it. `none` is a panic. -/
namespace UdevRules

open RadixText Glob Modaliases OptionLists GenerateHwdb

structure InstallTarget where
  dir : Text
  fileName : Text
  deriving DecidableEq, Repr

def InstallTarget.path (target : InstallTarget) : Text := target.dir ++ '/' :: target.fileName

/-- `u32::from_str_radix(&field[2..], 16).unwrap()` -/
def u32Field (field : Text) : Option ℕ := (fromStrRadix 16 (field.drop 2)).filter (· < 2 ^ 32)

def ruleGlob (dev : InspectionDevice) : Option Text := do
  let bus ← u32Field dev.bus
  let vid ← u32Field dev.vid
  let pid ← u32Field dev.pid
  let grp ← u32Field dev.group
  return "hid:".toList ++ fieldsText (orAny bus (padded 16 4 bus)) (orAny grp (padded 16 4 grp))
    (orAny vid (padded 16 8 vid)) (orAny pid (padded 16 8 pid))

def kernelMatch (glob : Text) : Text := "ENV\x7bMODALIAS\x7d==\"".toList ++ glob ++ ['"']

def actionRule (bindir glob : Text) (action cmd : Text) (bpfO : Text) : Text :=
  "ACTION==\"".toList ++ action ++ "\",".toList ++ kernelMatch glob ++ ", ".toList ++ cmd ++
    "\x7bprogram\x7d+=\"".toList ++ bindir ++ "/udev-hid-bpf ".toList ++ action ++
    " $sys$devpath ".toList ++ bpfO ++ ['"']

def deviceRules (bindir : Text) (target : InstallTarget) (glob : Text) : List Text :=
  ["# ".toList ++ target.fileName ++ [' '],
    actionRule bindir glob "add".toList "IMPORT".toList target.path,
    actionRule bindir glob "remove".toList "RUN".toList [],
    [],
    "# bind/unbind clears the properties set during the previous add/bind stage, so".toList,
    "# let's import them to keep them alive".toList,
    [],
    "ACTION==\"bind|unbind\",".toList ++ kernelMatch glob ++
      ", IMPORT\x7bprogram\x7d+=\"".toList ++ bindir ++
      "/udev-hid-bpf list-loaded --format udev --syspath $sys$devpath\"".toList]

def ruleHeader : List Text :=
  ["# This udev rule was generated by udev-hid-bpf install".toList,
    "ACTION!=\"add|remove|bind|unbind\", GOTO=\"hid_bpf_end\"".toList,
    "SUBSYSTEM!=\"hid\", GOTO=\"hid_bpf_end\"".toList, []]

def ruleFooter : List Text := [[], "LABEL=\"hid_bpf_end\"".toList]

def writeUdevRule (bindir : Text) (target : InstallTarget) (devices : List InspectionDevice) :
    Option (List Text) :=
  (devices.mapM ruleGlob).map fun globs =>
    ruleHeader ++ globs.flatMap (deviceRules bindir target) ++ ruleFooter

theorem u32Field_hex0x {n : ℕ} (h : n < 2 ^ 32) : u32Field (hex0x n) = some n := by
  have hdrop : (hex0x n).drop 2 = padded 16 4 n := rfl
  rw [u32Field, hdrop, fromStrRadix_padded (by decide) (by decide)]
  exact Option.filter_some_pos (decide_eq_true h)

/-- The rules of a declared device match on its own modalias, wildcards included. -/
theorem ruleGlob_inspectionDevice (m : Modalias) :
    ruleGlob (inspectionDevice m) = some ("hid:".toList ++ m.text) := by
  have hbus : m.bus.toNat < 2 ^ 32 := m.bus.toNat_lt.trans (by decide)
  have hgroup : m.group.toNat < 2 ^ 32 := m.group.toNat_lt.trans (by decide)
  simp only [ruleGlob, inspectionDevice, u32Field_hex0x hbus, u32Field_hex0x hgroup,
    u32Field_hex0x m.vid.toNat_lt, u32Field_hex0x m.pid.toNat_lt]
  rfl

theorem writeUdevRule_inspect (bindir : Text) (target : InstallTarget) (entries : List Modalias) :
    writeUdevRule bindir target (entries.map inspectionDevice) =
      some (ruleHeader ++ (entries.flatMap fun m =>
        deviceRules bindir target ("hid:".toList ++ m.text)) ++ ruleFooter) := by
  have hglobs : (entries.map inspectionDevice).mapM ruleGlob =
      some (entries.map fun m => "hid:".toList ++ m.text) := by
    rw [List.mapM_map]
    exact mapM_eq_map fun m _ => ruleGlob_inspectionDevice m
  rw [writeUdevRule, hglobs, Option.map_some, List.flatMap_map]

theorem accepts_ruleGlob (m : Modalias) (dev : KernelDevice) :
    accepts (ofText ("hid:".toList ++ m.text)) dev.modalias ↔ m.Matches dev := by
  refine (accepts_fieldsText (by decide) (separate_padded _ _) (separate_padded _ _)
    (separate_padded _ _) (separate_padded _ _)).trans ?_
  rw [Modalias.matches_iff]
  exact and_congr (accepts_orAny ..) (and_congr (accepts_orAny ..)
    (and_congr (accepts_orAny ..) (accepts_orAny ..)))

def HwdbSelects (entry : Modalias) (dev : KernelDevice) : Prop :=
  ∀ filename, ∃ d, extractDevice filename (inspectionDevice entry) = some d ∧
    accepts (ofText (globLine d)) (lookupKey dev)

def RuleSelects (entry : Modalias) (dev : KernelDevice) : Prop :=
  ∃ glob, ruleGlob (inspectionDevice entry) = some glob ∧ accepts (ofText glob) dev.modalias

theorem hwdbSelects_iff (entry : Modalias) (dev : KernelDevice) : HwdbSelects entry dev ↔
    entry.Matches dev ∧ dev.vid.toNat < 0x10000 ∧ dev.pid.toNat < 0x10000 := by
  constructor
  · intro h
    obtain ⟨d, hd, hglob⟩ := h []
    rw [extractDevice_inspectionDevice, Option.some.injEq] at hd
    subst hd
    exact (accepts_globLine entry [] dev).mp hglob
  · intro h filename
    exact ⟨_, extractDevice_inspectionDevice filename entry,
      (accepts_globLine entry filename dev).mpr h⟩

theorem ruleSelects_iff (entry : Modalias) (dev : KernelDevice) :
    RuleSelects entry dev ↔ entry.Matches dev := by
  rw [← accepts_ruleGlob]
  constructor
  · rintro ⟨glob, hglob, h⟩
    rw [ruleGlob_inspectionDevice, Option.some.injEq] at hglob
    exact hglob ▸ h
  · intro h
    exact ⟨_, ruleGlob_inspectionDevice entry, h⟩

/-- Both select the devices the entry is for, except where an id has more than four digits. -/
theorem install_ways_agree_iff (entry : Modalias) (dev : KernelDevice) :
    ((HwdbSelects entry dev ↔ RuleSelects entry dev) ∧
      (RuleSelects entry dev ↔ entry.Matches dev)) ↔
    (entry.Matches dev → dev.vid.toNat < 0x10000 ∧ dev.pid.toNat < 0x10000) := by
  rw [hwdbSelects_iff, ruleSelects_iff]
  simp only [and_iff_left_iff_imp, iff_self, and_true]

/-- A virtual USB device may have any vendor. -/
theorem install_ways_disagree_wide_vendor : ¬ ∀ (entry : Modalias) (dev : KernelDevice),
    (HwdbSelects entry dev ↔ RuleSelects entry dev) ∧
      (RuleSelects entry dev ↔ entry.Matches dev) := by
  intro h
  have hrule : RuleSelects ⟨.usb, .any, 0, 0⟩ ⟨3, 1, 0x12345, 1⟩ :=
    (ruleSelects_iff _ _).mpr (by decide)
  have hhwdb := (hwdbSelects_iff _ _).mp ((h _ _).1.mpr hrule)
  exact absurd hhwdb.2.1 (by decide)

end UdevRules
