import UdevHidBpf.LittleEndian
import Mathlib.Tactic.Common

/-! # Short items

The items of a report descriptor: a tag whose low two bits are the size of the payload, and
the payload with its least significant byte first. -/
namespace ShortItems

open LittleEndian

structure Item where
  tag : UInt8
  payload : ℕ
  deriving DecidableEq, Repr

def payloadSize (tag : UInt8) : ℕ := if tag.toNat % 4 = 3 then 4 else tag.toNat % 4

def Item.WellSized (i : Item) : Prop := i.payload < 2 ^ (8 * payloadSize i.tag)

instance (i : Item) : Decidable i.WellSized := inferInstanceAs (Decidable (_ < _))

def encode (i : Item) : List UInt8 := i.tag :: bytes (payloadSize i.tag) i.payload

def parseItems : ℕ → List UInt8 → Option (List Item)
  | _, [] => some []
  | 0, _ :: _ => none
  | fuel + 1, tag :: rest =>
    if rest.length < payloadSize tag then none
    else (parseItems fuel (rest.drop (payloadSize tag))).map
      (⟨tag, value (rest.take (payloadSize tag))⟩ :: ·)

/-- All items up to the end; `none` where a payload runs over it. -/
def parse (descriptor : List UInt8) : Option (List Item) :=
  parseItems descriptor.length descriptor

inductive Bracket where
  | collection
  | push
  deriving DecidableEq, Repr

def close (b : Bracket) : List Bracket → Option (List Bracket)
  | [] => none
  | c :: stack => if c = b then some stack else none

def nestItem (stack : List Bracket) (i : Item) : Option (List Bracket) :=
  match i.tag.toNat / 4 with
  | 0x28 => some (.collection :: stack)
  | 0x29 => some (.push :: stack)
  | 0x30 => close .collection stack
  | 0x2d => close .push stack
  | _ => some stack

def nest (stack : List Bracket) (items : List Item) : Option (List Bracket) :=
  items.foldlM nestItem stack

/-- Collection and EndCollection, Push and Pop close what they opened. -/
def Balanced (items : List Item) : Prop := nest [] items = some []

instance (items : List Item) : Decidable (Balanced items) :=
  inferInstanceAs (Decidable (_ = _))

theorem parseItems_encode {i : Item} (h : i.WellSized) (fuel : ℕ) (rest : List UInt8) :
    parseItems (fuel + 1) (encode i ++ rest) = (parseItems fuel rest).map (i :: ·) := by
  have hlen : (bytes (payloadSize i.tag) i.payload).length = payloadSize i.tag :=
    length_bytes _ _
  rw [encode, List.cons_append, parseItems, if_neg (by simp [hlen]),
    List.drop_left' hlen, List.take_left' hlen, value_bytes, Nat.mod_eq_of_lt h]

theorem parseItems_encodes {items : List Item} (h : ∀ i ∈ items, i.WellSized) {fuel : ℕ}
    (hfuel : items.length ≤ fuel) : parseItems fuel (items.flatMap encode) = some items := by
  induction items generalizing fuel with
  | nil => cases fuel <;> rfl
  | cons i items ih =>
    obtain ⟨fuel, rfl⟩ := Nat.exists_eq_add_of_le' (Nat.le_of_add_left_le hfuel)
    rw [List.length_cons, Nat.add_le_add_iff_right] at hfuel
    rw [List.flatMap_cons, parseItems_encode (h i List.mem_cons_self),
      ih (fun j hj => h j (List.mem_cons_of_mem _ hj)) hfuel]
    rfl

/-- What is written item by item is read item by item, to the last byte. -/
theorem parse_encodes {items : List Item} (h : ∀ i ∈ items, i.WellSized) :
    parse (items.flatMap encode) = some items := by
  apply parseItems_encodes h
  induction items with
  | nil => exact Nat.le_refl 0
  | cons i items ih =>
    have hitems := ih fun j hj => h j (List.mem_cons_of_mem _ hj)
    rw [List.flatMap_cons, List.length_append, encode, List.length_cons, List.length_cons]
    omega

theorem parseItems_eq_cons {fuel : ℕ} {descriptor : List UInt8} {i : Item} {items : List Item}
    (h : parseItems fuel descriptor = some (i :: items)) : ∃ fuel' rest, fuel = fuel' + 1 ∧
      descriptor = i.tag :: rest ∧ payloadSize i.tag ≤ rest.length ∧
        i.payload = value (rest.take (payloadSize i.tag)) ∧
          parseItems fuel' (rest.drop (payloadSize i.tag)) = some items := by
  cases descriptor with
  | nil => cases fuel <;> cases h
  | cons tag rest =>
    cases fuel with
    | zero => cases h
    | succ fuel =>
      rw [parseItems] at h
      split_ifs at h with hshort
      obtain ⟨tail, htail, hcons⟩ := Option.map_eq_some_iff.mp h
      obtain ⟨rfl, rfl⟩ := List.cons.inj hcons
      exact ⟨fuel, rest, rfl, rfl, Nat.not_lt.mp hshort, rfl, htail⟩

def width (items : List Item) : ℕ := (items.map fun i => 1 + payloadSize i.tag).sum

theorem width_cons (i : Item) (items : List Item) :
    width (i :: items) = 1 + payloadSize i.tag + width items := by
  rw [width, List.map_cons, List.sum_cons, width]

theorem width_append (l m : List Item) : width (l ++ m) = width l + width m := by
  rw [width, List.map_append, List.sum_append, width, width]

theorem parseItems_set {pre post : List Item} {i : Item} (hi : payloadSize i.tag = 1) (v : UInt8)
    {fuel : ℕ} {descriptor : List UInt8}
    (h : parseItems fuel descriptor = some (pre ++ i :: post)) :
    (∃ b : UInt8, descriptor[width pre]? = some i.tag ∧
      descriptor[width pre + 1]? = some b ∧ i.payload = b.toNat) ∧
    parseItems fuel (descriptor.set (width pre + 1) v) =
      some (pre ++ ⟨i.tag, v.toNat⟩ :: post) := by
  induction pre generalizing fuel descriptor with
  | nil =>
    obtain ⟨fuel, rest, rfl, rfl, hlen, hpayload, htail⟩ := parseItems_eq_cons h
    rw [hi] at hlen hpayload htail
    cases rest with
    | nil => exact absurd hlen (by decide)
    | cons b rest =>
      refine ⟨⟨b, rfl, rfl, by simpa [value] using hpayload⟩, ?_⟩
      have hset : (i.tag :: b :: rest).set (width [] + 1) v = i.tag :: v :: rest := rfl
      rw [hset, parseItems, hi, if_neg (by simp)]
      simpa [value] using htail
  | cons j pre ih =>
    obtain ⟨fuel, rest, rfl, rfl, hlen, hpayload, htail⟩ := parseItems_eq_cons h
    obtain ⟨⟨b, htag, hb, hold⟩, hnew⟩ := ih htail
    have hwidth := width_cons j pre
    have hset : (j.tag :: rest).set (width (j :: pre) + 1) v =
        j.tag :: rest.set (payloadSize j.tag + (width pre + 1)) v := by
      rw [show width (j :: pre) + 1 = payloadSize j.tag + (width pre + 1) + 1 by omega,
        List.set_cons_succ]
    constructor
    · refine ⟨b, ?_, ?_, hold⟩
      · rw [show width (j :: pre) = payloadSize j.tag + width pre + 1 by omega,
          List.getElem?_cons_succ, ← List.getElem?_drop, htag]
      · rw [show width (j :: pre) + 1 = payloadSize j.tag + (width pre + 1) + 1 by omega,
          List.getElem?_cons_succ, ← List.getElem?_drop, hb]
    · have hlong : ¬ (rest.set (payloadSize j.tag + (width pre + 1)) v).length <
          payloadSize j.tag := by
        rw [List.length_set]
        exact Nat.not_lt.mpr hlen
      rw [hset, parseItems, if_neg hlong, List.take_set_of_le (Nat.le_add_right _ _),
        List.drop_set, if_neg (Nat.not_lt.mpr (Nat.le_add_right _ _)), Nat.add_sub_cancel_left,
        hnew, ← hpayload]
      rfl

def bracketCodes : List ℕ := [0x28, 0x29, 0x30, 0x2d]

theorem nestItem_other {i : Item} (h : i.tag.toNat / 4 ∉ bracketCodes) (stack : List Bracket) :
    nestItem stack i = some stack := by
  unfold nestItem
  split
  case h_5 => rfl
  all_goals
    rename_i hcode
    exact absurd (hcode ▸ by decide) h

theorem nest_append (stack : List Bracket) (l m : List Item) :
    nest stack (l ++ m) = (nest stack l).bind (nest · m) := by
  rw [nest, List.foldlM_append]
  rfl

end ShortItems
