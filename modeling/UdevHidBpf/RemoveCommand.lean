import UdevHidBpf.BpffsWorkers
import UdevHidBpf.ListDevices

/-! # `remove` on the command line

Each device has its directory removed. A device that is gone has the name that its path ends
in, if that looks like one. -/
namespace RemoveCommand

open BpfErrors BpffsNames BpffsPaths BpffsWorkers Interleavings ListDevices LoadPrograms RadixText

abbrev Trace := List (String × BpffsOp)

/-- What `cmd_remove` meets: libudev, the links, and the pins that the n-th removal leaves. -/
structure Surroundings where
  fromSyspath : Text → Except (Option ℕ) String
  readLink : Text → Option Text
  kept : ℕ → List Pin

/-- What is behind `[A-Z0-9]{4}:[A-Z0-9]{4}:[A-Z0-9]{4}\.[A-Z0-9]{4}` at the start of a text. -/
def sysnameAt (t : Text) : Option Text := do
  let (_, t) ← fourOf t
  let t ← expect [':'] t
  let (_, t) ← fourOf t
  let t ← expect [':'] t
  let (_, t) ← fourOf t
  let t ← expect ['.'] t
  let (_, t) ← fourOf t
  some t

/-- The expression has no anchors. -/
def looksLikeSysname (name : String) : Bool := name.toList.tails.any fun t => (sysnameAt t).isSome

section command

variable (m : Surroundings)

def sysnameFromSyspath (syspath : Text) : Except (Option ℕ) String :=
  let abspath := (m.readLink syspath).getD syspath
  match (lastName (String.ofList abspath)).filter looksLikeSysname with
  | some name => .ok name
  | none => .error (some EINVAL)

def removedSysname (syspath : Text) : Except (Option ℕ) String :=
  match m.fromSyspath syspath with
  | .ok sysname => .ok sysname
  | .error e => if e = some ENODEV then sysnameFromSyspath m syspath else .error e

/-- The removals, each under the name of its device, and the result; `n` came before. -/
def cmdRemove : ℕ → List Text → Trace × Except (Option ℕ) Unit
  | _, [] => ([], .ok ())
  | n, syspath :: syspaths =>
    match removedSysname m syspath with
    | .error e => ([], .error e)
    | .ok d =>
      let rest := cmdRemove (n + 1) syspaths
      ((d, .removeObjects d (m.kept n)) :: rest.1, rest.2)

end command

section names

theorem expect_eq_some {pre t rest : Text} (h : expect pre t = some rest) : t = pre ++ rest := by
  rw [expect] at h
  split_ifs at h with hpre
  obtain ⟨later, rfl⟩ := List.isPrefixOf_iff_prefix.mp hpre
  rw [List.drop_left, Option.some.injEq] at h
  rw [h]

theorem fourOf_eq_some {t four rest : Text} (h : fourOf t = some (four, rest)) :
    t = four ++ rest := by
  rw [fourOf] at h
  split_ifs at h
  cases h
  exact (List.take_append_drop 4 t).symm

/-- The expression matches nothing without the separators of a device. -/
theorem shaped_of_match {name : String} (hslash : '/' ∉ name.toList)
    (h : looksLikeSysname name = true) : Shaped name := by
  refine ⟨hslash, ?_⟩
  obtain ⟨t, ht, hmatch⟩ := List.any_eq_true.mp h
  obtain ⟨before, hname⟩ := (List.mem_tails _ _).mp ht
  obtain ⟨rest, hparts⟩ := Option.isSome_iff_exists.mp hmatch
  simp only [sysnameAt, Option.bind_eq_bind, Option.bind_eq_some_iff, Prod.exists] at hparts
  obtain ⟨bus, t₁, hbus, t₂, hcolon, vendor, t₃, hvendor, t₄, hcolon', product, t₅, hproduct,
    t₆, hdot, instance_, t₇, hinstance, -⟩ := hparts
  refine ⟨before ++ bus, vendor, product, t₆, String.toList_inj.mp ?_⟩
  rw [joinSysname, String.toList_ofList, ← hname, fourOf_eq_some hbus, expect_eq_some hcolon,
    fourOf_eq_some hvendor, expect_eq_some hcolon', fourOf_eq_some hproduct, expect_eq_some hdot]
  simp

theorem lastName_no_slash {path name : String} (h : lastName path = some name) :
    '/' ∉ name.toList := by
  obtain ⟨hlast, -⟩ := Option.filter_eq_some_iff.mp h
  obtain ⟨piece, hpiece, rfl⟩ := List.mem_map.mp (List.mem_of_getLast? hlast)
  rw [String.toList_ofList]
  exact ListSplits.not_mem_of_mem_splitOn (List.mem_of_mem_filter hpiece)

end names

section removing

variable {m : Surroundings} {syspaths : List Text} {n : ℕ}

def Kernel (m : Surroundings) : Prop :=
  ∀ syspath sysname, m.fromSyspath syspath = .ok sysname → KernelSysname sysname

theorem removedSysname_shaped (hkernel : Kernel m) {syspath : Text} {d : String}
    (h : removedSysname m syspath = .ok d) : Shaped d := by
  rw [removedSysname] at h
  cases hdev : m.fromSyspath syspath with
  | ok sysname =>
    rw [hdev] at h
    cases h
    exact (hkernel _ _ hdev).shaped
  | error e =>
    simp only [hdev] at h
    split_ifs at h
    rw [sysnameFromSyspath] at h
    split at h
    · rename_i name hname
      cases h
      obtain ⟨hlast, hmatch⟩ := Option.filter_eq_some_iff.mp hname
      exact shaped_of_match (lastName_no_slash hlast) hmatch
    · cases h

theorem mem_cmdRemove (hkernel : Kernel m) {d : String} {op : BpffsOp}
    (h : (d, op) ∈ (cmdRemove m n syspaths).1) :
    Shaped d ∧ ∃ kept, op = .removeObjects d kept := by
  induction syspaths generalizing n with
  | nil => cases h
  | cons syspath syspaths ih =>
    rw [cmdRemove] at h
    cases hname : removedSysname m syspath with
    | error e =>
      rw [hname] at h
      cases h
    | ok e =>
      rw [hname] at h
      rcases List.mem_cons.mp h with heq | htail
      · cases heq
        exact ⟨removedSysname_shaped hkernel hname, _, rfl⟩
      · exact ih htail

end removing

end RemoveCommand
