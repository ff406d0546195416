import UdevHidBpf.CStrings
import UdevHidBpf.DeviceEvents
import Mathlib.Data.List.Basic

/-! # `hid_bpf_printk_event`

The trace of an event, in lines of 64 bytes. All lines are formatted into one string that
outlives the call, and the last line of an event of whole packets has no byte to format. -/
namespace PrintkEvent

open CStrings DeviceEvents

def PRINTK_PACKET_SIZE : ℕ := 64

/-- 16kb, from `include/linux/hid.h` -/
def HID_MAX_BUFFER_SIZE : ℕ := 16384

def NUL : Char := Char.ofNat 0

/-- The characters of `__printk_str`. -/
structure PrintkStr where
  chars : List Char
  length_chars : chars.length = PRINTK_PACKET_SIZE * 3 + 1

/-- What `%s` prints. -/
def PrintkStr.text (str : PrintkStr) : List Char := cString NUL str.chars

def PrintkStr.zeroed : PrintkStr := ⟨List.replicate 193 NUL, List.length_replicate⟩

/-- An event in its buffer, which is allocated in whole packets. -/
structure Event where
  data : List UInt8
  size : ℕ
  chunked : PRINTK_PACKET_SIZE ∣ data.length
  size_le : size ≤ data.length
  size_le_max : size ≤ HID_MAX_BUFFER_SIZE

/-- The calls of `bpf_printk`. -/
inductive Line where
  | sizeError (size : ℤ)
  | size (length : ℕ)
  | packet (offset : ℕ) (text : List Char)
  deriving DecidableEq, Repr

/-- `"%02x "` -/
def hexByte (b : UInt8) : List Char :=
  [Nat.digitChar (b.toNat / 16), Nat.digitChar (b.toNat % 16), ' ']

def formatPacket (size offset : ℕ) (data : List UInt8) (chars : List Char) : List Char :=
  (List.range PRINTK_PACKET_SIZE).foldl (fun chars i =>
    if i + offset < size then snprintf NUL chars (i * 3) 4 (hexByte (byte data i)) else chars) chars

theorem foldl_range_of_guard {S : Type*} {P : ℕ → Prop} [DecidablePred P] {m n : ℕ} (hm : m ≤ n)
    (hP : ∀ i < n, P i ↔ i < m) (f : S → ℕ → S) (s : S) :
    (List.range n).foldl (fun s i => if P i then f s i else s) s = (List.range m).foldl f s := by
  obtain ⟨k, rfl⟩ := Nat.exists_eq_add_of_le hm
  induction k with
  | zero =>
    apply List.foldl_ext
    intro s i hi
    exact if_pos ((hP i (List.mem_range.1 hi)).2 (List.mem_range.1 hi))
  | succ k ih =>
    have hlast : ¬ P (m + k) := fun h => absurd ((hP (m + k) (by omega)).1 h) (by omega)
    rw [← Nat.add_assoc, List.range_succ, List.foldl_append,
      ih (by omega) fun i hi => hP i (by omega)]
    simp only [List.foldl_cons, List.foldl_nil, if_neg hlast]

def packetBytes (size offset : ℕ) : ℕ := min PRINTK_PACKET_SIZE (size - offset)

theorem formatPacket_eq (size offset : ℕ) (data : List UInt8) (chars : List Char) :
    formatPacket size offset data chars =
      printCells NUL 3 (fun i => hexByte (byte data i)) chars (packetBytes size offset) := by
  apply foldl_range_of_guard
  · exact Nat.min_le_left _ _
  · intro i hi
    rw [packetBytes]
    omega

theorem length_formatPacket {size offset : ℕ} {data : List UInt8} {chars : List Char}
    (h : chars.length = PRINTK_PACKET_SIZE * 3 + 1) :
    (formatPacket size offset data chars).length = PRINTK_PACKET_SIZE * 3 + 1 := by
  have hle : packetBytes size offset ≤ PRINTK_PACKET_SIZE := Nat.min_le_left _ _
  rw [formatPacket_eq, length_printCells (by omega), h]

def PrintkStr.format (str : PrintkStr) (size offset : ℕ) (data : List UInt8) : PrintkStr :=
  ⟨formatPacket size offset data str.chars, length_formatPacket str.length_chars⟩

@[simp] theorem PrintkStr.chars_format (str : PrintkStr) (size offset : ℕ) (data : List UInt8) :
    (str.format size offset data).chars = formatPacket size offset data str.chars := rfl

section event

variable (data : List UInt8) (size : ℕ)

def printPackets : List ℕ → PrintkStr → PrintkStr × List Line
  | [], str => (str, [])
  | p :: ps, str =>
    let offset := p * PRINTK_PACKET_SIZE
    match hidBpfGetData data offset PRINTK_PACKET_SIZE with
    | none => (str, [])
    | some packet =>
      let formatted := str.format size offset packet
      let rest := printPackets ps formatted
      (rest.1, .packet offset formatted.text :: rest.2)

end event

def hidBpfPrintkEvent (size : ℤ) (data : List UInt8) (str : PrintkStr) :
    PrintkStr × List Line :=
  if size < 0 then (str, [.sizeError size])
  else
    let length := size.toNat
    let packetCount := length / PRINTK_PACKET_SIZE + 1
    let packets := printPackets data length (List.range packetCount) str
    (packets.1, .size length :: packets.2)

def Line.hexText : Line → List Char
  | .packet _ text => text
  | .sizeError _ | .size _ => []

/-- The lines of an event, put together, are its bytes. -/
def PrintsOnce (str : PrintkStr) (event : Event) : Prop :=
  (hidBpfPrintkEvent event.size event.data str).2.flatMap Line.hexText =
    (event.data.take event.size).flatMap hexByte

def strAfter (events : List Event) : PrintkStr :=
  events.foldl (fun str event => (hidBpfPrintkEvent event.size event.data str).1) .zeroed

theorem not_mem_hexByte (b : UInt8) : NUL ∉ hexByte b := by
  have hdigits : ∀ d < 16, Nat.digitChar d ≠ NUL := by decide
  have hb := b.toNat_lt
  have hhigh := hdigits (b.toNat / 16) (by omega)
  have hlow := hdigits (b.toNat % 16) (by omega)
  simp only [hexByte, List.mem_cons, List.not_mem_nil, or_false, not_or]
  exact ⟨hhigh.symm, hlow.symm, by decide⟩

theorem flatMap_hexByte_eq_nil {bytes : List UInt8} :
    bytes.flatMap hexByte = [] ↔ bytes = [] := by
  cases bytes with
  | nil => simp
  | cons b bytes => simp [hexByte]

def packet (data : List UInt8) (size offset : ℕ) : List UInt8 :=
  ((data.take size).drop offset).take PRINTK_PACKET_SIZE

theorem packet_ne_nil {data : List UInt8} {size offset : ℕ} (hsize : size ≤ data.length)
    (h : offset < size) : packet data size offset ≠ [] := by
  rw [← List.length_pos_iff, packet, List.length_take, List.length_drop, List.length_take,
    PRINTK_PACKET_SIZE]
  omega

theorem packet_eq {data : List UInt8} {size offset : ℕ}
    (hroom : offset + PRINTK_PACKET_SIZE ≤ data.length) : packet data size offset =
      (List.range (packetBytes size offset)).map (byte (data.drop offset)) := by
  have hle : 0 + packetBytes size offset ≤ (data.drop offset).length := by
    rw [packetBytes, List.length_drop]
    omega
  rw [List.range_eq_range', ← bytes_at hle, List.drop_zero, packetBytes, packet, List.drop_take,
    List.take_take]

theorem text_format (str : PrintkStr) {data : List UInt8} {size offset : ℕ} (h : offset < size)
    (hroom : offset + PRINTK_PACKET_SIZE ≤ data.length) :
    (str.format size offset (data.drop offset)).text =
      (packet data size offset).flatMap hexByte := by
  have hpos : 0 < packetBytes size offset := by
    rw [packetBytes, PRINTK_PACKET_SIZE]
    omega
  rw [packet_eq hroom, List.flatMap_map, PrintkStr.text, PrintkStr.chars_format, formatPacket_eq]
  apply cString_printCells _ _ hpos
  · intro i
    rfl
  · intro i
    exact not_mem_hexByte _

theorem format_of_le (str : PrintkStr) {packet : List UInt8} {size offset : ℕ}
    (h : size ≤ offset) : str.format size offset packet = str := by
  have hnone : packetBytes size offset = 0 := by
    rw [packetBytes]
    omega
  obtain ⟨chars, hchars⟩ := str
  simp only [PrintkStr.format, formatPacket_eq, hnone]
  rfl

theorem printPackets_cons {data : List UInt8} {size p : ℕ} (ps : List ℕ) (str : PrintkStr)
    (h : p * PRINTK_PACKET_SIZE + PRINTK_PACKET_SIZE ≤ data.length) :
    printPackets data size (p :: ps) str =
      let offset := p * PRINTK_PACKET_SIZE
      let formatted := str.format size offset (data.drop offset)
      let rest := printPackets data size ps formatted
      (rest.1, .packet offset formatted.text :: rest.2) := by
  rw [printPackets, hidBpfGetData, if_pos h]

theorem printPackets_append {data : List UInt8} {size : ℕ} {ps : List ℕ}
    (h : ∀ p ∈ ps, p * PRINTK_PACKET_SIZE + PRINTK_PACKET_SIZE ≤ data.length) (qs : List ℕ)
    (str : PrintkStr) :
    printPackets data size (ps ++ qs) str =
      let front := printPackets data size ps str
      let back := printPackets data size qs front.1
      (back.1, front.2 ++ back.2) := by
  induction ps generalizing str with
  | nil => rfl
  | cons p ps ih =>
    obtain ⟨hp, hps⟩ := List.forall_mem_cons.1 h
    rw [List.cons_append, printPackets_cons _ _ hp, printPackets_cons _ _ hp]
    simp only [ih hps, List.cons_append]

/-- Packets that each have a byte of the event print these, in order. -/
theorem hexText_printPackets {data : List UInt8} {size n : ℕ} (p : ℕ) (str : PrintkStr)
    (hp : ∀ q < p + n, q * PRINTK_PACKET_SIZE < size)
    (hroom : ∀ q < p + n, q * PRINTK_PACKET_SIZE + PRINTK_PACKET_SIZE ≤ data.length) :
    (printPackets data size (List.range' p n) str).2.flatMap Line.hexText =
      (((data.take size).drop (p * PRINTK_PACKET_SIZE)).take (n * PRINTK_PACKET_SIZE)).flatMap
        hexByte := by
  induction n generalizing p str with
  | zero => simp [printPackets]
  | succ n ih =>
    have hrest := ih (p + 1) (str.format size (p * PRINTK_PACKET_SIZE)
      (data.drop (p * PRINTK_PACKET_SIZE))) (fun q hq => hp q (by omega))
      (fun q hq => hroom q (by omega))
    rw [List.range'_succ, printPackets_cons _ _ (hroom p (by omega)), List.flatMap_cons, hrest,
      Line.hexText, text_format str (hp p (by omega)) (hroom p (by omega)), packet,
      ← List.flatMap_append, Nat.add_one_mul n, Nat.add_comm (n * PRINTK_PACKET_SIZE),
      List.take_add, List.drop_drop, Nat.add_one_mul p]

theorem text_printPackets_ne_nil {data : List UInt8} {size n : ℕ} (p : ℕ) (str : PrintkStr)
    (hn : 0 < n) (hsize : size ≤ data.length)
    (hp : ∀ q < p + n, q * PRINTK_PACKET_SIZE < size)
    (hroom : ∀ q < p + n, q * PRINTK_PACKET_SIZE + PRINTK_PACKET_SIZE ≤ data.length) :
    (printPackets data size (List.range' p n) str).1.text ≠ [] := by
  induction n generalizing p str with
  | zero => exact absurd hn (Nat.lt_irrefl 0)
  | succ n ih =>
    rw [List.range'_succ, printPackets_cons _ _ (hroom p (by omega))]
    cases n with
    | zero =>
      change (str.format _ _ _).text ≠ []
      rw [text_format str (hp p (by omega)) (hroom p (by omega)), ne_eq, flatMap_hexByte_eq_nil]
      exact packet_ne_nil hsize (hp p (by omega))
    | succ n =>
      exact ih (p + 1) _ (Nat.succ_pos n) (fun q hq => hp q (by omega))
        fun q hq => hroom q (by omega)

theorem Event.room (event : Event) {p : ℕ} (hp : p * PRINTK_PACKET_SIZE < event.size) :
    p * PRINTK_PACKET_SIZE + PRINTK_PACKET_SIZE ≤ event.data.length := by
  obtain ⟨packets, hpackets⟩ := event.chunked
  have hsize := event.size_le
  simp only [PRINTK_PACKET_SIZE] at *
  omega

theorem printk_eq (event : Event) (str : PrintkStr) :
    hidBpfPrintkEvent event.size event.data str =
      let packets := printPackets event.data event.size
        (List.range (event.size / PRINTK_PACKET_SIZE + 1)) str
      (packets.1, .size event.size :: packets.2) := by
  rw [hidBpfPrintkEvent, if_neg (Int.not_lt.2 (Int.natCast_nonneg _)), Int.toNat_natCast]

theorem hexText_started (event : Event) (str : PrintkStr) {n : ℕ}
    (hn : ∀ p < n, p * PRINTK_PACKET_SIZE < event.size)
    (hall : event.size ≤ n * PRINTK_PACKET_SIZE) :
    (printPackets event.data event.size (List.range n) str).2.flatMap Line.hexText =
      (event.data.take event.size).flatMap hexByte := by
  have hstarted : ∀ p < 0 + n, p * PRINTK_PACKET_SIZE < event.size :=
    fun p hp => hn p (by omega)
  have htext := hexText_printPackets 0 str hstarted fun p hp => event.room (hstarted p hp)
  rw [List.range_eq_range', htext, Nat.zero_mul, List.drop_zero, List.take_take,
    Nat.min_eq_right hall]

theorem text_started (event : Event) (str : PrintkStr) {n : ℕ} (hpos : 0 < n)
    (hn : ∀ p < n, p * PRINTK_PACKET_SIZE < event.size) :
    (printPackets event.data event.size (List.range n) str).1.text ≠ [] := by
  have hstarted : ∀ p < 0 + n, p * PRINTK_PACKET_SIZE < event.size :=
    fun p hp => hn p (by omega)
  rw [List.range_eq_range']
  exact text_printPackets_ne_nil 0 str hpos event.size_le hstarted
    fun p hp => event.room (hstarted p hp)

theorem printPackets_behind {data : List UInt8} {size p : ℕ} (hp : p * PRINTK_PACKET_SIZE = size)
    (str : PrintkStr) : printPackets data size [p] str =
      (str, if size + PRINTK_PACKET_SIZE ≤ data.length then [.packet size str.text] else []) := by
  by_cases hroom : size + PRINTK_PACKET_SIZE ≤ data.length
  · have hpacket : p * PRINTK_PACKET_SIZE + PRINTK_PACKET_SIZE ≤ data.length := by omega
    rw [printPackets_cons _ _ hpacket, if_pos hroom, hp]
    simp only [format_of_le str (Nat.le_refl size), printPackets]
  · have hpacket : ¬ p * PRINTK_PACKET_SIZE + PRINTK_PACKET_SIZE ≤ data.length := by omega
    rw [printPackets, hidBpfGetData, if_neg hpacket, if_neg hroom]

def strWithin (event : Event) (str : PrintkStr) : PrintkStr :=
  (printPackets event.data event.size (List.range (event.size / PRINTK_PACKET_SIZE)) str).1

theorem text_strWithin (event : Event) (str : PrintkStr) (h : PRINTK_PACKET_SIZE ∣ event.size) :
    (strWithin event str).text = [] ↔ event.size = 0 ∧ str.text = [] := by
  obtain ⟨n, hn⟩ := h
  rcases Nat.eq_zero_or_pos event.size with hzero | hpos
  · rw [strWithin, hzero]
    simp [printPackets]
  · have hcount : event.size / PRINTK_PACKET_SIZE = n := by
      rw [hn]
      exact Nat.mul_div_cancel_left n (by decide)
    have hne : (strWithin event str).text ≠ [] := by
      rw [strWithin, hcount]
      simp only [PRINTK_PACKET_SIZE] at *
      apply text_started event str (by omega)
      intro p hp
      simp only [PRINTK_PACKET_SIZE]
      omega
    simp [hne, hpos.ne']

theorem printk_whole (event : Event) (str : PrintkStr) (h : PRINTK_PACKET_SIZE ∣ event.size) :
    (hidBpfPrintkEvent event.size event.data str).1 = strWithin event str ∧
      (hidBpfPrintkEvent event.size event.data str).2.flatMap Line.hexText =
        (event.data.take event.size).flatMap hexByte ++
          if event.size + PRINTK_PACKET_SIZE ≤ event.data.length then (strWithin event str).text
          else [] := by
  have hsize := Nat.div_mul_cancel h
  have hstarted : ∀ p < event.size / PRINTK_PACKET_SIZE, p * PRINTK_PACKET_SIZE < event.size := by
    intro p hp
    simp only [PRINTK_PACKET_SIZE] at *
    omega
  have hroom : ∀ p ∈ List.range (event.size / PRINTK_PACKET_SIZE),
      p * PRINTK_PACKET_SIZE + PRINTK_PACKET_SIZE ≤ event.data.length :=
    fun p hp => event.room (hstarted p (List.mem_range.1 hp))
  rw [printk_eq, List.range_succ, printPackets_append hroom]
  simp only [printPackets_behind hsize]
  refine ⟨rfl, ?_⟩
  rw [List.flatMap_cons, List.flatMap_append, hexText_started event str hstarted hsize.ge]
  split
  · simp [Line.hexText, strWithin]
  · simp [Line.hexText]

theorem printk_other (event : Event) (str : PrintkStr) (h : ¬ PRINTK_PACKET_SIZE ∣ event.size) :
    (hidBpfPrintkEvent event.size event.data str).1.text ≠ [] ∧
      (hidBpfPrintkEvent event.size event.data str).2.flatMap Line.hexText =
        (event.data.take event.size).flatMap hexByte := by
  have hstarted : ∀ p < event.size / PRINTK_PACKET_SIZE + 1,
      p * PRINTK_PACKET_SIZE < event.size := by
    intro p hp
    simp only [PRINTK_PACKET_SIZE] at *
    omega
  have hall : event.size ≤ (event.size / PRINTK_PACKET_SIZE + 1) * PRINTK_PACKET_SIZE := by
    simp only [PRINTK_PACKET_SIZE]
    omega
  rw [printk_eq]
  refine ⟨text_started event str (Nat.succ_pos _) hstarted, ?_⟩
  rw [List.flatMap_cons, hexText_started event str hstarted hall]
  rfl

theorem text_strAfter (events : List Event) :
    (strAfter events).text = [] ↔ ∀ event ∈ events, event.size = 0 := by
  induction events using List.reverseRecOn with
  | nil => simp [strAfter, PrintkStr.zeroed, PrintkStr.text, cString]
  | append_singleton events event ih =>
    have hstep : ∀ str, (hidBpfPrintkEvent event.size event.data str).1.text = [] ↔
        event.size = 0 ∧ str.text = [] := by
      intro str
      by_cases h : PRINTK_PACKET_SIZE ∣ event.size
      · rw [(printk_whole event str h).1, text_strWithin event str h]
      · have hne : event.size ≠ 0 := fun hzero => h (hzero ▸ Nat.dvd_zero _)
        simp [(printk_other event str h).1, hne]
    rw [strAfter, List.foldl_append, ← strAfter]
    change (hidBpfPrintkEvent event.size event.data (strAfter events)).1.text = [] ↔ _
    rw [hstep, ih]
    simp [or_imp, forall_and, and_comm]

theorem printsOnce_iff (str : PrintkStr) (event : Event) :
    PrintsOnce str event ↔
      ¬ PRINTK_PACKET_SIZE ∣ event.size ∨
      event.data.length < event.size + PRINTK_PACKET_SIZE ∨
      event.size = 0 ∧ str.text = [] := by
  by_cases h : PRINTK_PACKET_SIZE ∣ event.size
  · rw [PrintsOnce, (printk_whole event str h).2, List.append_right_eq_self,
      ← text_strWithin event str h]
    by_cases hroom : event.size + PRINTK_PACKET_SIZE ≤ event.data.length
    · have hlt : ¬ event.data.length < event.size + PRINTK_PACKET_SIZE := Nat.not_lt.2 hroom
      simp [h, hroom, hlt]
    · have hlt : event.data.length < event.size + PRINTK_PACKET_SIZE := Nat.not_le.1 hroom
      simp [hroom, hlt]
  · simp [PrintsOnce, (printk_other event str h).2, h]

/-- After any events, one of whole packets is printed once if its buffer ends with it or there
is nothing to repeat. -/
theorem printk_event_once_iff (events : List Event) (event : Event) :
    PrintsOnce (strAfter events) event ↔
      ¬ PRINTK_PACKET_SIZE ∣ event.size ∨
      event.data.length < event.size + PRINTK_PACKET_SIZE ∨
      event.size = 0 ∧ ∀ earlier ∈ events, earlier.size = 0 := by
  rw [printsOnce_iff, text_strAfter]

def onePacket : Event where
  data := List.replicate 128 1
  size := 64
  chunked := by
    rw [List.length_replicate]
    decide
  size_le := by
    rw [List.length_replicate]
    decide
  size_le_max := by decide

/-- The first event, and its line comes twice. -/
theorem printk_event_repeats : ¬ PrintsOnce (strAfter []) onePacket := by
  have hlength : onePacket.data.length = 128 := List.length_replicate
  have hsize : onePacket.size = 64 := rfl
  rw [printsOnce_iff, hlength, hsize]
  decide

end PrintkEvent
