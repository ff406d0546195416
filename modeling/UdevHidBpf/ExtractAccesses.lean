import UdevHidBpf.ExtractBits

/-! # The accesses of `extract_bits`

Every read of the buffer and every shift, in the order in which they are made. The checked
reader of `ExtractBits` comes back exactly where all of them are defined. -/
namespace ExtractAccesses

open ExtractBits RdescHelpers

inductive Access where
  | read (index : ℕ)
  | shift (width : ℕ) (amount : ℤ)
  deriving DecidableEq, Repr

/-- A read below `size`; a shift by less than the width of its type. -/
def Access.Safe (size : ℕ) : Access → Prop
  | .read index => index < size
  | .shift width amount => 0 ≤ amount ∧ amount < width

def Access.isRead : Access → Bool
  | .read _ => true
  | .shift _ _ => false

/-- The first `n` rounds of the loop: each reads one byte and moves it to its place. -/
def loopAccesses (start n : ℕ) : List Access :=
  (List.range n).flatMap fun k => [.read (start + k), .shift 64 (k * 8)]

def accesses (size : ℕ) (field : HidRdescField) : List Access :=
  let nbits : ℤ := field.bitsEnd.toNat - field.bitsStart.toNat
  let start := fieldStartByte field
  let end_ := fieldEndByte field
  let baseShift := field.bitsStart.toNat % 8
  if nbits ≤ 0 ∨ nbits > 32 ∨ start ≥ size ∨ end_ ≥ size then []
  else if baseShift = 0 ∧ nbits = 8 ∧ start < size then [.read start]
  else if baseShift = 0 ∧ nbits = 16 ∧ start < size ∧ start + 1 < size then
    [.read start, .read (start + 1), .shift 32 8]
  else if baseShift = 0 ∧ nbits = 32 ∧ start < size ∧ start + 1 < size ∧ start + 2 < size ∧
      start + 3 < size then
    [.read start, .read (start + 1), .shift 32 8, .read (start + 2), .shift 32 16,
      .read (start + 3), .shift 32 24]
  else .shift 32 (32 - nbits) :: loopAccesses start (end_ + 1 - start) ++ [.shift 64 baseShift]

theorem isSome_readByte_iff (buffer : List UInt8) (i : ℕ) :
    (readByte buffer i).isSome ↔ (Access.read i).Safe buffer.length := by
  simp [readByte, Access.Safe]

theorem isSome_shl_iff (w x : ℕ) (s : ℤ) (size : ℕ) :
    (shl w x s).isSome ↔ (Access.shift w s).Safe size := by
  rw [shl]
  split_ifs with h
  · exact iff_of_true rfl h
  · exact iff_of_false Bool.false_ne_true h

theorem isSome_shr_iff (w x : ℕ) (s : ℤ) (size : ℕ) :
    (shr w x s).isSome ↔ (Access.shift w s).Safe size := by
  rw [shr]
  split_ifs with h
  · exact iff_of_true rfl h
  · exact iff_of_false Bool.false_ne_true h

theorem isSome_some_iff {α : Type*} (a : α) : (some a).isSome ↔ True := iff_of_true rfl trivial

theorem isSome_bind_iff {α β : Type*} {x : Option α} {f : α → Option β} {p q : Prop}
    (hx : x.isSome ↔ p) (hf : ∀ a, (f a).isSome ↔ q) : (x.bind f).isSome ↔ p ∧ q := by
  rw [← hx]
  cases x with
  | none => simp
  | some a => simp [hf]

theorem isSome_readShifted_iff (buffer : List UInt8) (i w : ℕ) (s : ℤ) :
    ((readByte buffer i).bind (shl w · s)).isSome ↔
      (Access.read i).Safe buffer.length ∧ (Access.shift w s).Safe buffer.length :=
  isSome_bind_iff (isSome_readByte_iff buffer i) fun b => isSome_shl_iff w b s buffer.length

theorem isSome_gather_iff (buffer : List UInt8) (start n : ℕ) :
    (gather buffer start n).isSome ↔ ∀ a ∈ loopAccesses start n, a.Safe buffer.length := by
  induction n with
  | zero => simp [gather, loopAccesses]
  | succ n ih =>
    rw [gather, Option.bind_eq_bind]
    rw [isSome_bind_iff ih fun value => isSome_bind_iff (isSome_readByte_iff _ _) fun byte =>
      isSome_bind_iff (isSome_shl_iff _ _ _ buffer.length) fun shifted => isSome_some_iff _]
    simp [loopAccesses, List.range_succ, or_imp, forall_and]

theorem isSome_extractBits_iff (buffer : List UInt8) (size : ℕ) (field : HidRdescField) :
    (extractBits buffer size field).isSome ↔
      ∀ a ∈ accesses size field, a.Safe buffer.length := by
  simp only [extractBits, accesses, Option.bind_eq_bind]
  split_ifs
  · simp
  · rw [isSome_bind_iff (isSome_readByte_iff _ _) fun b0 => isSome_some_iff _]
    simp
  · rw [isSome_bind_iff (isSome_readByte_iff _ _) fun b0 =>
      isSome_bind_iff (isSome_readShifted_iff _ _ _ _) fun b1 => isSome_some_iff _]
    simp
  · rw [isSome_bind_iff (isSome_readByte_iff _ _) fun b0 =>
      isSome_bind_iff (isSome_readShifted_iff _ _ _ _) fun b1 =>
      isSome_bind_iff (isSome_readShifted_iff _ _ _ _) fun b2 =>
      isSome_bind_iff (isSome_readShifted_iff _ _ _ _) fun b3 => isSome_some_iff _]
    simp [and_assoc]
  · rw [isSome_bind_iff (isSome_shr_iff _ _ _ buffer.length) fun mask =>
      isSome_bind_iff (isSome_gather_iff _ _ _) fun value =>
      isSome_bind_iff (isSome_shr_iff _ _ _ buffer.length) fun shifted => isSome_some_iff _]
    simp [or_imp, forall_and]

theorem mem_loopAccesses {start n : ℕ} {a : Access} : a ∈ loopAccesses start n ↔
    ∃ k < n, a = .read (start + k) ∨ a = .shift 64 (k * 8) := by
  simp [loopAccesses]

theorem length_reads_loop (start n : ℕ) :
    ((loopAccesses start n).filter Access.isRead).length = n := by
  induction n with
  | zero => rfl
  | succ n ih =>
    have hround : loopAccesses start (n + 1) =
        loopAccesses start n ++ [.read (start + n), .shift 64 (n * 8)] := by
      simp [loopAccesses, List.range_succ]
    rw [hround, List.filter_append, List.length_append, ih]
    rfl

/-- A field that passes the guard spans at most five bytes, the last of them below `size`. -/
theorem spanned_bytes (size : ℕ) (field : HidRdescField)
    (hpos : field.bitsStart.toNat < field.bitsEnd.toNat)
    (h32 : field.bitsEnd.toNat ≤ field.bitsStart.toNat + 32)
    (hend : fieldEndByte field < size) :
    fieldEndByte field + 1 - fieldStartByte field ≤ 5 ∧
      fieldStartByte field + (fieldEndByte field + 1 - fieldStartByte field) ≤ size := by
  rw [fieldEndByte_eq hpos] at hend ⊢
  rw [fieldStartByte]
  omega

theorem accesses_safe (size : ℕ) (field : HidRdescField) :
    ∀ a ∈ accesses size field, a.Safe size := by
  simp only [accesses]
  split_ifs with hguard h8 h16 h32
  · simp
  · simp [Access.Safe, h8.2.2]
  · simp [Access.Safe, h16.2.2.1, h16.2.2.2]
  · simp [Access.Safe, h32.2.2.1, h32.2.2.2.1, h32.2.2.2.2.1, h32.2.2.2.2.2]
  · obtain ⟨hfive, hspan⟩ := spanned_bytes size field (by omega) (by omega) (by omega)
    intro a ha
    rw [List.mem_append, List.mem_cons, mem_loopAccesses, List.mem_singleton] at ha
    rcases ha with (rfl | ⟨k, hk, rfl | rfl⟩) | rfl
    · exact ⟨by omega, by push_cast; omega⟩
    · exact lt_of_lt_of_le (Nat.add_lt_add_left hk _) hspan
    · exact ⟨by omega, by push_cast; omega⟩
    · exact ⟨by omega, by push_cast; omega⟩

theorem reads_le_five (size : ℕ) (field : HidRdescField) :
    ((accesses size field).filter Access.isRead).length ≤ 5 := by
  simp only [accesses]
  split_ifs with hguard h8 h16 h32
  · exact (by decide : 0 ≤ 5)
  · exact (by decide : 1 ≤ 5)
  · exact (by decide : 2 ≤ 5)
  · exact (by decide : 4 ≤ 5)
  · obtain ⟨hfive, -⟩ := spanned_bytes size field (by omega) (by omega) (by omega)
    have hloop := length_reads_loop (fieldStartByte field)
      (fieldEndByte field + 1 - fieldStartByte field)
    simpa [List.filter_cons, Access.isRead, hloop] using hfive

/-- Whatever range a field has, no access is out of bounds and no shift undefined, and the
loop reads five bytes at most. -/
theorem extract_bits_safe (size : ℕ) (field : HidRdescField) :
    (∀ a ∈ accesses size field, a.Safe size) ∧
      ((accesses size field).filter Access.isRead).length ≤ 5 ∧
      ∀ buffer : List UInt8, size ≤ buffer.length → (extractBits buffer size field).isSome := by
  refine ⟨accesses_safe size field, reads_le_five size field, ?_⟩
  intro buffer hsize
  rw [isSome_extractBits_iff]
  intro a ha
  have hsafe := accesses_safe size field a ha
  cases a with
  | read index => exact lt_of_lt_of_le hsafe hsize
  | shift width amount => exact hsafe

end ExtractAccesses
