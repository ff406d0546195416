import UdevHidBpf.LittleEndian
import UdevHidBpf.OptionLists
import Mathlib.Data.List.GetD
import Mathlib.Data.Vector.Basic

/-! # Raw memory with unset bytes

Values placed into a memory and read back. `none` is a byte nobody has written. -/
namespace RawMemory

open LittleEndian

abbrev Memory := List (Option UInt8)

/-- `bs` stands in `mem` from `base` on. -/
def At (mem : Memory) (base : ℕ) (bs : Memory) : Prop := ∀ i < bs.length, mem[base + i]? = bs[i]?

theorem At.all (mem : Memory) : At mem 0 mem := fun i _ => by rw [Nat.zero_add]

theorem At.left {mem bs cs : Memory} {base : ℕ} (h : At mem base (bs ++ cs)) : At mem base bs := by
  intro i hi
  rw [h i (by rw [List.length_append]; omega), List.getElem?_append_left hi]

theorem At.right {mem bs cs : Memory} {base : ℕ} (h : At mem base (bs ++ cs)) :
    At mem (base + bs.length) cs := by
  intro i hi
  rw [Nat.add_assoc, h (bs.length + i) (by rw [List.length_append]; omega),
    List.getElem?_append_right (Nat.le_add_right _ _), Nat.add_sub_cancel_left]

theorem At.piece {mem : Memory} {ps : List Memory} {base : ℕ} (h : At mem base ps.flatten) (k : ℕ)
    {p : Memory} (hp : ps[k]? = some p) : At mem (base + ((ps.take k).map List.length).sum) p := by
  induction ps generalizing k base with
  | nil => simp at hp
  | cons q ps ih =>
    rw [List.flatten_cons] at h
    cases k with
    | zero =>
      obtain rfl : q = p := by simpa using hp
      simpa using h.left
    | succ k =>
      have hrest := ih h.right k (by simpa using hp)
      simpa [Nat.add_assoc] using hrest

theorem At.element {mem : Memory} {β : Type*} {enc : β → Memory} {size : ℕ} {l : List β} {base : ℕ}
    (hsize : ∀ b ∈ l, (enc b).length = size) (h : At mem base (l.flatMap enc)) {i : ℕ} {b : β}
    (hb : l[i]? = some b) : At mem (base + i * size) (enc b) := by
  induction l generalizing i base with
  | nil => simp at hb
  | cons c l ih =>
    rw [List.flatMap_cons] at h
    cases i with
    | zero =>
      obtain rfl : c = b := by simpa using hb
      simpa using h.left
    | succ i =>
      have hrest := ih (fun d hd => hsize d (List.mem_cons_of_mem _ hd)) h.right (by simpa using hb)
      rw [hsize c List.mem_cons_self] at hrest
      rwa [show base + (i + 1) * size = base + size + i * size by ring]

/-- The number of `w` bytes at `base`; `none` outside the memory or where a byte is unset. -/
def readLE (mem : Memory) (w base : ℕ) : Option ℕ :=
  ((List.range w).mapM fun i => (mem[base + i]?).join).map value

def writeLE (w n : ℕ) : Memory := (bytes w n).map some

@[simp] theorem length_writeLE (w n : ℕ) : (writeLE w n).length = w := by simp [writeLE]

theorem readLE_writeLE {mem : Memory} {w n base : ℕ} (h : At mem base (writeLE w n)) :
    readLE mem w base = some (n % 2 ^ (8 * w)) := by
  have hbyte : ∀ i ∈ List.range w, (mem[base + i]?).join = some ((bytes w n).getD i 0) := by
    intro i hi
    have hi := List.mem_range.mp hi
    rw [h i (by simpa using hi), writeLE, List.getElem?_map,
      List.getElem?_eq_getElem (by simpa using hi), Option.map_some, Option.join_some,
      List.getD_eq_getElem]
  have hbytes : (List.range w).mapM (fun i => (mem[base + i]?).join) = some (bytes w n) := by
    rw [OptionLists.mapM_eq_map hbyte]
    refine congrArg some (List.ext_getElem (by simp) fun i hi hi' => ?_)
    rw [List.getElem_map, List.getElem_range, List.getD_eq_getElem]
  rw [readLE, hbytes, Option.map_some, value_bytes]

/-- An array of `n` elements read one by one. -/
def readArray {β : Type*} (n : ℕ) (read : ℕ → Option β) : Option (Vector β n) :=
  if h : ∀ i : Fin n, (read i).isSome then some (Vector.ofFn fun i => (read i).get (h i)) else none

theorem readArray_eq {β : Type*} {n : ℕ} {read : ℕ → Option β} {v : Vector β n}
    (h : ∀ (i : ℕ) (hi : i < n), read i = some v[i]) : readArray n read = some v := by
  have hsome : ∀ i : Fin n, (read i).isSome := fun i => by rw [h i i.isLt]; rfl
  rw [readArray, dif_pos hsome]
  refine congrArg some (Vector.ext fun i hi => ?_)
  simp [h i hi]

end RawMemory
