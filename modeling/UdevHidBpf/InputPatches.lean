import UdevHidBpf.BpfErrors
import UdevHidBpf.FixedDescriptors
import UdevHidBpf.HidDevices

/-! # Programs that correct Input items

Some devices are wrong in the flags of single Input items. Their programs write the right flags
over them, at offsets that hold for the descriptors their authors have seen. -/
namespace InputPatches

open BpfErrors DeviceEvents FixedDescriptors HidDevices KamvasPen ReportFields ShortItems

def INPUT : UInt8 := 0x81

/-- `if (data[place] == old) data[place] = new` -/
def patchFlags (old new : UInt8) (data : List UInt8) (place : ℕ) : List UInt8 :=
  if byte data place = old then data.set place new else data

def patchInput (old new : UInt8) (data : List UInt8) (offset : ℕ) : List UInt8 :=
  if byte data offset = INPUT ∧ byte data (offset + 1) = old then data.set (offset + 1) new
  else data

def Matches (old : UInt8) (data : List UInt8) (offset : ℕ) : Prop :=
  byte data offset = INPUT ∧ byte data (offset + 1) = old

def patchInputs (old new : UInt8) (offsets : List ℕ) (data : List UInt8) : List UInt8 :=
  offsets.foldl (patchInput old new) data

def StartsInput (items : List Item) (offset : ℕ) : Prop :=
  ∃ pre i post, items = pre ++ i :: post ∧ i.tag = INPUT ∧ width pre = offset

/-- The item at this place, with the new flags if it has the old ones and the place is listed. -/
def correct (old new : UInt8) (offsets : List ℕ) (place : ℕ) (i : Item) : Item :=
  if i = ⟨INPUT, old.toNat⟩ ∧ place ∈ offsets then ⟨INPUT, new.toNat⟩ else i

/-- All items so; `first` is the place of the first one. -/
def correctFrom (old new : UInt8) (offsets : List ℕ) : ℕ → List Item → List Item
  | _, [] => []
  | first, i :: items => correct old new offsets first i ::
      correctFrom old new offsets (first + (1 + payloadSize i.tag)) items

section items

variable {old new : UInt8} {items : List Item} {data : List UInt8} {offsets : List ℕ}
  {offset first : ℕ}

theorem StartsInput.of_index {n : ℕ} {i : Item} (hn : items[n]? = some i) (hi : i.tag = INPUT) :
    StartsInput items (width (items.take n)) := by
  obtain ⟨hlt, rfl⟩ := List.getElem?_eq_some_iff.mp hn
  refine ⟨items.take n, items[n], items.drop (n + 1), ?_, hi, rfl⟩
  rw [List.getElem_cons_drop, List.take_append_drop]

theorem payloadSize_input : payloadSize INPUT = 1 := by decide

theorem correct_tag (place : ℕ) (i : Item) : (correct old new offsets place i).tag = i.tag := by
  rw [correct]
  split_ifs with h
  · rw [h.1]
  · rfl

theorem correctFrom_append (pre post : List Item) :
    correctFrom old new offsets first (pre ++ post) = correctFrom old new offsets first pre ++
      correctFrom old new offsets (first + width pre) post := by
  induction pre generalizing first with
  | nil => rfl
  | cons i pre ih =>
    rw [List.cons_append, correctFrom, ih, correctFrom, List.cons_append, width_cons,
      Nat.add_assoc first]

theorem width_correctFrom : width (correctFrom old new offsets first items) = width items := by
  induction items generalizing first with
  | nil => rfl
  | cons i items ih => rw [correctFrom, width_cons, width_cons, ih, correct_tag]

theorem StartsInput.corrected (h : StartsInput items offset) :
    StartsInput (correctFrom old new offsets 0 items) offset := by
  obtain ⟨pre, i, post, rfl, hi, rfl⟩ := h
  refine ⟨_, _, _, correctFrom_append pre (i :: post), ?_, width_correctFrom⟩
  rw [correct_tag, hi]

theorem correctFrom_unchanged (h : ∀ pre post, items = pre ++ ⟨INPUT, old.toNat⟩ :: post →
    first + width pre ∉ offsets) : correctFrom old new offsets first items = items := by
  induction items generalizing first with
  | nil => rfl
  | cons i items ih =>
    have hfirst : correct old new offsets first i = i := by
      apply if_neg
      rintro ⟨rfl, hmem⟩
      exact h [] items rfl hmem
    have hrest : correctFrom old new offsets (first + (1 + payloadSize i.tag)) items = items := by
      apply ih
      rintro pre post rfl
      rw [Nat.add_assoc, ← width_cons]
      exact h (i :: pre) post rfl
    rw [correctFrom, hfirst, hrest]

theorem correctFrom_cons (hne : new ≠ old) : correctFrom old new offsets first
    (correctFrom old new [offset] first items) =
      correctFrom old new (offset :: offsets) first items := by
  induction items generalizing first with
  | nil => rfl
  | cons i items ih =>
    have hfirst : correct old new offsets first (correct old new [offset] first i) =
        correct old new (offset :: offsets) first i := by
      have hnew : (⟨INPUT, new.toNat⟩ : Item) ≠ ⟨INPUT, old.toNat⟩ := fun h =>
        hne (UInt8.toNat.inj (congrArg Item.payload h))
      by_cases hi : i = ⟨INPUT, old.toNat⟩
      · by_cases hplace : first = offset
        · simp [correct, hi, hplace, hnew]
        · simp [correct, hi, hplace]
      · simp [correct, hi]
    rw [correctFrom, correctFrom, correctFrom, hfirst, correct_tag, ih]

theorem parsed_input {pre post : List Item} {flags : ℕ}
    (hparse : parse data = some (pre ++ ⟨INPUT, flags⟩ :: post)) :
    byte data (width pre) = INPUT ∧ (byte data (width pre + 1)).toNat = flags := by
  obtain ⟨⟨b, htag, hb, hpayload⟩, -⟩ := parseItems_set payloadSize_input 0 hparse
  rw [byte, byte, List.getD_eq_getElem?_getD, List.getD_eq_getElem?_getD, htag, hb]
  exact ⟨rfl, hpayload.symm⟩

theorem patchInput_parse (hparse : parse data = some items)
    (hs : Matches old data offset → StartsInput items offset) :
    parse (patchInput old new data offset) = some (correctFrom old new [offset] 0 items) := by
  by_cases hmatch : Matches old data offset
  · obtain ⟨pre, ⟨tag, flags⟩, post, rfl, rfl, rfl⟩ := hs hmatch
    have hflags := (parsed_input hparse).2
    rw [hmatch.2] at hflags
    subst hflags
    have hpre : correctFrom old new [width pre] 0 pre = pre := by
      apply correctFrom_unchanged
      rintro l m rfl
      rw [List.mem_singleton, width_append, width_cons]
      omega
    have hpost : correctFrom old new [width pre] (0 + width pre + (1 + payloadSize INPUT)) post =
        post := by
      apply correctFrom_unchanged
      intro l m _
      rw [List.mem_singleton]
      omega
    have hitem : correct old new [width pre] (0 + width pre) ⟨INPUT, old.toNat⟩ =
        ⟨INPUT, new.toNat⟩ := if_pos ⟨rfl, List.mem_singleton.mpr (Nat.zero_add _)⟩
    obtain ⟨-, hset⟩ := parseItems_set payloadSize_input new hparse
    have hround : patchInput old new data (width pre) = data.set (width pre + 1) new := if_pos hmatch
    rw [hround, correctFrom_append, hpre, correctFrom, hitem, hpost, parse,
      List.length_set, hset]
  · have hsame : correctFrom old new [offset] 0 items = items := by
      apply correctFrom_unchanged
      rintro pre post rfl hplace
      obtain ⟨htag, hflags⟩ := parsed_input hparse
      rw [List.mem_singleton, Nat.zero_add] at hplace
      subst hplace
      exact hmatch ⟨htag, UInt8.toNat.inj hflags⟩
    have hround : patchInput old new data offset = data := if_neg hmatch
    rw [hround, hsame, hparse]

end items

/-- Two fields for the same values. -/
structure SamePlace (f g : Field) : Prop where
  reportId : g.reportId = f.reportId
  offset : g.offset = f.offset
  size : g.size = f.size
  signed : g.signed = f.signed

def Agree (usage : ℕ) (f g : Field) : Prop :=
  SamePlace f g ∧ (g.usage = f.usage ∨ f.usage ≠ some usage ∧ g.usage ≠ some usage)

/-- The fields before and after the correction. All keep their places. Those of an Input item have
the usages of its flags, so the others keep theirs; a usage that waits for no corrected item is
read as before. -/
structure Refits (old new : UInt8) (offsets : List ℕ) (items : List Item)
    (fields corrected : List Field) : Prop where
  places : List.Forall₂ SamePlace fields corrected
  own : ∀ pre i post p, items = pre ++ i :: post → i.tag.toNat / 4 = 0x20 →
    readItems .start pre = some p →
      (corrected.drop p.fields.length).take p.globals.reportCount =
        ownFields p (namedBy p (correct old new offsets (width pre) i).payload)
  others : ∀ report usage,
    (∀ pre post p, items = pre ++ ⟨INPUT, old.toNat⟩ :: post → width pre ∈ offsets →
      readItems .start pre = some p → usage ∉ pendingUsages p) →
    decode corrected report usage = decode fields report usage

section fields

variable {old new : UInt8} {offsets : List ℕ} {items : List Item} {fields other : List Field}
  {first : ℕ}

theorem SamePlace.refl (f : Field) : SamePlace f f := ⟨rfl, rfl, rfl, rfl⟩

theorem SamePlace.value {f g : Field} (h : SamePlace f g) (report : List UInt8) :
    g.value report = f.value report := by
  rw [Field.value, Field.value, h.offset, h.size, h.signed]

theorem nextBit_places (h : List.Forall₂ SamePlace fields other) (id : ℕ) :
    nextBit other id = nextBit fields id := by
  have hsizes : (other.filter (·.reportId == id)).map Field.size =
      (fields.filter (·.reportId == id)).map Field.size := by
    induction h with
    | nil => rfl
    | cons hplace _ ih =>
      rw [List.filter_cons, List.filter_cons, hplace.reportId]
      split_ifs
      · rw [List.map_cons, List.map_cons, hplace.size, ih]
      · exact ih
  rw [nextBit, nextBit, hsizes]

theorem own_fields_places (p : Reader) (usages named : List ℕ) :
    List.Forall₂ SamePlace (ownFields p usages) (ownFields p named) :=
  List.forall₂_map_left_iff.mpr (List.forall₂_map_right_iff.mpr
    (List.forall₂_same.mpr fun _ _ => ⟨rfl, rfl, rfl, rfl⟩))

theorem readItem_input (p : Reader) {i : Item} (hi : i.tag.toNat / 4 = 0x20) :
    readItem p i = some (p.input i) := by
  simp [readItem, hi]

theorem readItem_flags (p : Reader) (flags : ℕ) :
    readItem p ⟨INPUT, flags⟩ = some (p.input ⟨INPUT, flags⟩) := by
  have hcode : INPUT.toNat / 4 = 0x20 := by decide
  exact readItem_input p hcode

theorem own_fields_congr {p : Reader} (hbits : ∀ id, nextBit fields id = nextBit p.fields id)
    (usages : List ℕ) : ownFields { p with fields := fields } usages = ownFields p usages := by
  rw [ownFields, hbits, ownFields]

/-- Along a run the corrected items give fields that are related to the old ones in every way
that is kept where an item is corrected. -/
theorem readItems_correctFrom {R : Field → Field → Prop} (hrefl : ∀ f, R f f)
    (hplace : ∀ f g, R f g → SamePlace f g) {p q : Reader}
    (hinput : ∀ pre post m, items = pre ++ ⟨INPUT, old.toNat⟩ :: post →
      first + width pre ∈ offsets → readItems p pre = some m →
        List.Forall₂ R (ownFields m (namedBy m old.toNat)) (ownFields m (namedBy m new.toNat)))
    (hfields : List.Forall₂ R p.fields other) (h : readItems p items = some q) :
    ∃ corrected, readItems { p with fields := other } (correctFrom old new offsets first items) =
      some { q with fields := corrected } ∧ List.Forall₂ R q.fields corrected := by
  induction items generalizing p first other with
  | nil =>
    cases h
    exact ⟨other, rfl, hfields⟩
  | cons i items ih =>
    obtain ⟨mid, hmid, hrest⟩ := readItems_cons h
    have hbits : ∀ id, nextBit other id = nextBit p.fields id :=
      nextBit_places (hfields.imp hplace)
    have hstep : ∃ next, readItem { p with fields := other } (correct old new offsets first i) =
        some { mid with fields := next } ∧ List.Forall₂ R mid.fields next := by
      by_cases hi : i = ⟨INPUT, old.toNat⟩ ∧ first ∈ offsets
      · obtain ⟨rfl, hmem⟩ := hi
        rw [readItem_flags, Option.some.injEq] at hmid
        subst hmid
        refine ⟨other ++ ownFields p (namedBy p new.toNat), ?_, ?_⟩
        · rw [correct, if_pos ⟨rfl, hmem⟩, readItem_flags, Reader.input,
            own_fields_congr hbits]
          rfl
        · exact List.rel_append hfields (hinput [] items p rfl hmem rfl)
      · obtain ⟨more, hmore, hread⟩ := readItem_congr hbits hmid
        refine ⟨other ++ more, by rw [correct, if_neg hi, hread], ?_⟩
        rw [hmore]
        exact List.rel_append hfields (List.forall₂_same.mpr fun f _ => hrefl f)
    obtain ⟨next, hnext, hrelated⟩ := hstep
    obtain ⟨corrected, hread, hlast⟩ := ih (fun pre post m hsplit hmem hpre => by
      refine hinput (i :: pre) post m (congrArg (i :: ·) hsplit) ?_ ?_
      · rw [width_cons, ← Nat.add_assoc]
        exact hmem
      · rw [readItems, List.foldlM_cons, hmid]
        exact hpre) hrelated hrest
    refine ⟨corrected, ?_, hlast⟩
    rw [correctFrom, readItems, List.foldlM_cons, hnext]
    exact hread

theorem layout_correctFrom (hflags : namesUsages new.toNat = namesUsages old.toNat) :
    layout (correctFrom old new offsets first items) = layout items := by
  have hitem (p : Reader) (place : ℕ) (i : Item) :
      readItem p (correct old new offsets place i) = readItem p i := by
    rw [correct]
    split_ifs with h
    · rw [h.1, readItem_flags, readItem_flags, Reader.input, Reader.input, namedBy, namedBy,
        hflags]
    · rfl
  have hread (p : Reader) : readItems p (correctFrom old new offsets first items) =
      readItems p items := by
    induction items generalizing p first with
    | nil => rfl
    | cons i items ih =>
      rw [correctFrom, readItems, List.foldlM_cons, hitem, readItems, List.foldlM_cons]
      exact congrArg (_ >>= ·) (funext ih)
  rw [layout, hread, layout]

theorem Agree.refl (usage : ℕ) (f : Field) : Agree usage f f := ⟨.refl f, .inl rfl⟩

theorem decode_agree {usage : ℕ} (h : List.Forall₂ (Agree usage) fields other)
    (report : List UInt8) : decode other report usage = decode fields report usage := by
  rw [decode, decode]
  induction h with
  | nil => rfl
  | @cons f g fields other hfg _ ih =>
    obtain ⟨hplace, husage⟩ := hfg
    have hmatch : (g.usage == some usage) = (f.usage == some usage) := by
      rcases husage with hsame | ⟨hf, hg⟩
      · rw [hsame]
      · rw [beq_eq_false_iff_ne.mpr hf, beq_eq_false_iff_ne.mpr hg]
    rw [List.find?_cons, List.find?_cons, hplace.reportId, hmatch]
    split
    · rw [Option.map_some, Option.map_some, hplace.value]
    · exact ih

theorem own_fields_agree {p : Reader} {usages named : List ℕ} {usage : ℕ} (h : usage ∉ usages)
    (hnamed : usage ∉ named) :
    List.Forall₂ (Agree usage) (ownFields p usages) (ownFields p named) := by
  have hnone {l : List ℕ} (hl : usage ∉ l) (j : ℕ) : l[min j (l.length - 1)]? ≠ some usage :=
    fun hj => hl (List.mem_of_getElem? hj)
  exact List.forall₂_map_left_iff.mpr (List.forall₂_map_right_iff.mpr (List.forall₂_same.mpr
    fun j _ => ⟨⟨rfl, rfl, rfl, rfl⟩, .inr ⟨hnone h j, hnone hnamed j⟩⟩))

theorem own_fields_length (p : Reader) (usages : List ℕ) :
    (ownFields p usages).length = p.globals.reportCount := by
  rw [ownFields, inputFields, List.length_map, List.length_range]

theorem not_mem_namedBy {p : Reader} {usage : ℕ} (h : usage ∉ pendingUsages p) (flags : ℕ) :
    usage ∉ namedBy p flags := by
  rw [namedBy]
  split_ifs
  · exact h
  · exact List.not_mem_nil

theorem correct_refits (hlayout : layout items = some fields) :
    ∃ corrected, layout (correctFrom old new offsets 0 items) = some corrected ∧
      Refits old new offsets items fields corrected := by
  obtain ⟨q, hq, rfl⟩ := Option.map_eq_some_iff.mp hlayout
  have hplaces (pre post : List Item) (m : Reader) (_ : items = pre ++ ⟨INPUT, old.toNat⟩ :: post)
      (_ : 0 + width pre ∈ offsets) (_ : readItems .start pre = some m) :=
    own_fields_places m (namedBy m old.toNat) (namedBy m new.toNat)
  obtain ⟨corrected, hread, hsame⟩ := readItems_correctFrom SamePlace.refl (fun _ _ h => h)
    hplaces .nil hq
  refine ⟨corrected, congrArg (Option.map Reader.fields) hread, hsame, ?_, ?_⟩
  · rintro pre i post p rfl hi hpre
    have hearlier (l m : List Item) (r : Reader) (_ : pre = l ++ ⟨INPUT, old.toNat⟩ :: m)
        (_ : 0 + width l ∈ offsets) (_ : readItems .start l = some r) :=
      own_fields_places r (namedBy r old.toNat) (namedBy r new.toNat)
    obtain ⟨before, hbefore, hsamebefore⟩ := readItems_correctFrom SamePlace.refl
      (fun _ _ h => h) hearlier .nil hpre
    have hcode : (correct old new offsets (width pre) i).tag.toNat / 4 = 0x20 := by
      rw [correct_tag, hi]
    rw [correctFrom_append, Nat.zero_add, readItems_trans hbefore, correctFrom] at hread
    obtain ⟨mid, hmid, hrest⟩ := readItems_cons hread
    rw [readItem_input _ hcode, Option.some.injEq] at hmid
    obtain ⟨more, hmore, -⟩ := readItems_congr (fun _ => rfl) hrest
    have hall : corrected = before ++
        ownFields p (namedBy p (correct old new offsets (width pre) i).payload) ++ more := by
      rw [← hmid, Reader.input, own_fields_congr (nextBit_places hsamebefore)] at hmore
      exact hmore
    rw [hall, List.append_assoc, hsamebefore.length_eq, List.drop_left,
      List.take_left' (own_fields_length p _)]
  · intro report usage hwaits
    have hinput : ∀ pre post m, items = pre ++ ⟨INPUT, old.toNat⟩ :: post →
        0 + width pre ∈ offsets → readItems .start pre = some m →
          List.Forall₂ (Agree usage) (ownFields m (namedBy m old.toNat))
            (ownFields m (namedBy m new.toNat)) := by
      intro pre post m hsplit hmem hpre
      rw [Nat.zero_add] at hmem
      have hnot := hwaits pre post m hsplit hmem hpre
      exact own_fields_agree (not_mem_namedBy hnot _) (not_mem_namedBy hnot _)
    obtain ⟨corrected', hread', hagree⟩ := readItems_correctFrom (Agree.refl usage)
      (fun _ _ h => h.1) hinput .nil hq
    rw [hread, Option.some.injEq] at hread'
    obtain rfl : corrected = corrected' := congrArg Reader.fields hread'
    exact decode_agree hagree report

end fields

section loop

variable {old new : UInt8} {data : List UInt8} {items : List Item} {offsets : List ℕ}

theorem byte_set_or (data : List UInt8) (k : ℕ) (v : UInt8) (i : ℕ) :
    byte (data.set k v) i = byte data i ∨ byte (data.set k v) i = v := by
  by_cases hk : k = i
  · subst hk
    by_cases hlen : k < data.length
    · exact .inr (byte_set_self hlen v)
    · rw [List.set_eq_of_length_le (not_lt.mp hlen)]
      exact .inl rfl
  · exact .inl (byte_set_ne hk v)

theorem lt_length_of_byte {k : ℕ} (h : byte data k ≠ 0) : k < data.length := by
  by_contra hlong
  exact h (by simp [byte, not_lt.mp hlong])

theorem matches_of_patched (hne : new ≠ old) (hinput : new ≠ INPUT) {o offset : ℕ}
    (h : Matches old (patchInput old new data o) offset) : Matches old data offset := by
  rw [patchInput] at h
  split_ifs at h
  · obtain ⟨htag, hflags⟩ := h
    have htag' := (byte_set_or data (o + 1) new offset).resolve_right fun hset =>
      hinput (hset.symm.trans htag)
    have hflags' := (byte_set_or data (o + 1) new (offset + 1)).resolve_right fun hset =>
      hne (hset.symm.trans hflags)
    exact ⟨htag'.symm.trans htag, hflags'.symm.trans hflags⟩
  · exact h

theorem not_matches_patched (hne : new ≠ old) (hzero : old ≠ 0) (offset : ℕ) :
    ¬ Matches old (patchInput old new data offset) offset := by
  rw [patchInput]
  split_ifs with h
  · rintro ⟨-, hflags⟩
    rw [byte_set_self (lt_length_of_byte (h.2 ▸ hzero))] at hflags
    exact hne hflags
  · exact h

theorem not_matches_rounds (hne : new ≠ old) (hinput : new ≠ INPUT) {offset : ℕ}
    (h : ¬ Matches old data offset) :
    ¬ Matches old (patchInputs old new offsets data) offset := by
  induction offsets generalizing data with
  | nil => exact h
  | cons o offsets ih => exact ih fun hmatch => h (matches_of_patched hne hinput hmatch)

theorem patchInputs_done (hne : new ≠ old) (hinput : new ≠ INPUT) (hzero : old ≠ 0) :
    ∀ o ∈ offsets, ¬ Matches old (patchInputs old new offsets data) o := by
  induction offsets generalizing data with
  | nil => exact fun o ho => absurd ho List.not_mem_nil
  | cons offset offsets ih =>
    intro o ho
    rcases List.mem_cons.mp ho with rfl | ho
    · change ¬ Matches old (patchInputs old new offsets (patchInput old new data o)) o
      exact not_matches_rounds hne hinput (not_matches_patched hne hzero o)
    · exact ih o ho

theorem patchInputs_parse (hne : new ≠ old) (hinput : new ≠ INPUT)
    (hparse : parse data = some items)
    (hstarts : ∀ o ∈ offsets, Matches old data o → StartsInput items o) :
    parse (patchInputs old new offsets data) = some (correctFrom old new offsets 0 items) := by
  induction offsets generalizing data items with
  | nil =>
    rw [correctFrom_unchanged fun _ _ _ => List.not_mem_nil]
    exact hparse
  | cons offset offsets ih =>
    have hround : parse (patchInput old new data offset) =
        some (correctFrom old new [offset] 0 items) :=
      patchInput_parse hparse (hstarts offset List.mem_cons_self)
    have hrest := ih hround fun o ho hmatch =>
      (hstarts o (List.mem_cons_of_mem _ ho) (matches_of_patched hne hinput hmatch)).corrected
    rw [correctFrom_cons hne] at hrest
    exact hrest

theorem matches_kept (hold : old ≠ INPUT) {offset : ℕ} (h : Matches new data offset) (o : ℕ) :
    Matches new (patchInput old new data o) offset := by
  rw [patchInput]
  split_ifs with hround
  · obtain ⟨htag, hflags⟩ := h
    have hne : o + 1 ≠ offset := by
      rintro rfl
      exact hold (hround.2.symm.trans htag)
    refine ⟨(byte_set_ne hne new).trans htag, ?_⟩
    rcases byte_set_or data (o + 1) new (offset + 1) with hsame | hset
    · exact hsame.trans hflags
    · exact hset
  · exact h

theorem matches_rounds (hold : old ≠ INPUT) {offset : ℕ} (h : Matches new data offset) :
    Matches new (patchInputs old new offsets data) offset := by
  induction offsets generalizing data with
  | nil => exact h
  | cons o offsets ih => exact ih (matches_kept hold h o)

theorem matches_round (hzero : old ≠ 0) {offset : ℕ}
    (h : Matches old data offset) : Matches new (patchInput old new data offset) offset := by
  have hlen := lt_length_of_byte (h.2 ▸ hzero)
  have hround : patchInput old new data offset = data.set (offset + 1) new := if_pos h
  rw [hround]
  exact ⟨(byte_set_ne (Nat.succ_ne_self offset) new).trans h.1, byte_set_self hlen new⟩

theorem matches_other_round (hold : old ≠ INPUT) {o offset : ℕ} (hne : o ≠ offset)
    (h : Matches old data offset) : Matches old (patchInput old new data o) offset := by
  rw [patchInput]
  split_ifs with hround
  · have hbefore : o + 1 ≠ offset := by
      rintro rfl
      exact hold (hround.2.symm.trans h.1)
    have hapart : o + 1 ≠ offset + 1 := fun heq => hne (Nat.succ.inj heq)
    exact ⟨(byte_set_ne hbefore new).trans h.1, (byte_set_ne hapart new).trans h.2⟩
  · exact h

/-- Every match of the loop gets the new flags. -/
theorem patchInputs_writes (hold : old ≠ INPUT) (hzero : old ≠ 0) {offset : ℕ}
    (hmem : offset ∈ offsets) (h : Matches old data offset) :
    Matches new (patchInputs old new offsets data) offset := by
  induction offsets generalizing data with
  | nil => exact absurd hmem List.not_mem_nil
  | cons o offsets ih =>
    change Matches new (patchInputs old new offsets (patchInput old new data o)) offset
    by_cases ho : o = offset
    · subst ho
      exact matches_rounds hold (matches_round hzero h)
    · have hrest := (List.mem_cons.mp hmem).resolve_left (Ne.symm ho)
      exact ih hrest (matches_other_round hold ho h)

theorem patchInputs_of_not_matches (h : ∀ o ∈ offsets, ¬ Matches old data o) :
    patchInputs old new offsets data = data := by
  induction offsets generalizing data with
  | nil => rfl
  | cons o offsets ih =>
    have hround : patchInput old new data o = data := if_neg (h o List.mem_cons_self)
    change patchInputs old new offsets (patchInput old new data o) = data
    rw [hround]
    exact ih fun o' ho' => h o' (List.mem_cons_of_mem _ ho')

theorem patchFlags_beyond {place : ℕ} (h : data.length ≤ place) :
    patchFlags old new data place = data := by
  rw [patchFlags, List.set_eq_of_length_le h, ite_self]

theorem patchFlags_take (old new : UInt8) (data : List UInt8) (n place : ℕ) :
    (patchFlags old new data place).take n = patchFlags old new (data.take n) place := by
  by_cases hn : place < n
  · rw [patchFlags, patchFlags, byte_take hn]
    split_ifs
    · exact List.take_set
    · rfl
  · have hlen : (data.take n).length ≤ place := by
      rw [List.length_take]
      omega
    rw [patchFlags_beyond hlen, patchFlags]
    split_ifs
    · rw [List.take_set, List.set_eq_of_length_le hlen]
    · rfl

theorem patchInput_eq (old new : UInt8) (data : List UInt8) (offset : ℕ) :
    patchInput old new data offset =
      if byte data offset = INPUT then patchFlags old new data (offset + 1) else data := by
  rw [patchInput, ite_and]
  rfl

theorem patchInput_take (old new : UInt8) (data : List UInt8) (n offset : ℕ) :
    (patchInput old new data offset).take n = patchInput old new (data.take n) offset := by
  rw [patchInput_eq, patchInput_eq, apply_ite (List.take n), patchFlags_take]
  by_cases hn : offset < n
  · rw [byte_take hn]
  · have hbeyond : patchFlags old new (data.take n) (offset + 1) = data.take n := by
      apply patchFlags_beyond
      rw [List.length_take]
      omega
    rw [hbeyond, ite_self, ite_self]

theorem patchInputs_take (old new : UInt8) (offsets : List ℕ) (data : List UInt8) (n : ℕ) :
    (patchInputs old new offsets data).take n = patchInputs old new offsets (data.take n) := by
  induction offsets generalizing data with
  | nil => rfl
  | cons offset offsets ih =>
    rw [patchInputs, List.foldl_cons, ← patchInputs, ih, patchInput_take]
    rfl

end loop

namespace SpaceNavigator

def offsets : List ℕ := [32, 36, 49, 53]

/-- `hid_fix_rdesc`: Input (Data,Var,Rel) becomes Input (Data,Var,Abs). -/
def hidFixRdesc (b : Buffer) : List UInt8 × ℤ := (patchInputs 0x06 0x02 offsets b.data, 0)

def probe (rdescSize : ℕ) (rdesc : List UInt8) : ℤ :=
  if rdescSize ≠ 202 ∧ rdescSize ≠ 217 ∧ rdescSize ≠ 228 then -EINVAL
  -- the kernel has already applied the fix
  else if (byte rdesc 32 = 0x81 ∧ byte rdesc 33 = 0x02 ∧
        byte rdesc 49 = 0x81 ∧ byte rdesc 50 = 0x02) ∨
      (byte rdesc 36 = 0x81 ∧ byte rdesc 37 = 0x02 ∧
        byte rdesc 53 = 0x81 ∧ byte rdesc 54 = 0x02) then -EINVAL
  else 0

end SpaceNavigator

namespace KaliberMMOmentum

def offsets : List ℕ := [84, 112, 140]

/-- `hid_fix_rdesc`: Input (Cnst,Var,Abs) becomes Input (Data,Var,Abs) on the keyboard. -/
def hidFixRdesc (b : Buffer) : List UInt8 × ℤ :=
  if byte b.data 3 ≠ 0x06 then (b.data, 0)
  else (patchInputs 0x03 0x02 offsets b.data, 0)

end KaliberMMOmentum

namespace TcaYoke

def offsets : List ℕ := [90, 103]

/-- `hid_fix_rdesc_tca_yoke`: two Input items become constants. -/
def hidFixRdescTcaYoke (b : Buffer) : List UInt8 × ℤ :=
  if b.size ≠ 148 then (b.data, 0)
  else if byte b.data 1 ≠ 0x01 ∨ byte b.data 3 ≠ 0x04 then (b.data, 0)
  else if byte b.data 90 = 0x81 ∧ byte b.data 103 = 0x81 then
    ((b.data.set 91 0x03).set 104 0x03, 0)
  else (b.data, 0)

/-- `probe` writes `retval` only to refuse. -/
def probe (args : ProbeArgs) : ProbeArgs :=
  if byte args.rdesc 91 ≠ 0x02 then { args with retval := -22 } else args

end TcaYoke

/-- The items at the offsets are corrected and nothing else is. -/
structure Corrects (old new : UInt8) (offsets : List ℕ) (items : List Item)
    (descriptor fixed : List UInt8) : Prop where
  parsed : parse fixed = some (correctFrom old new offsets 0 items)
  written : ∀ o ∈ offsets, Matches old descriptor o → Matches new fixed o
  again : patchInputs old new offsets fixed = fixed

/-- The fields of the corrected items have these usages, the others are as before. -/
def RenamesInputs (old new : UInt8) (offsets : List ℕ) (items : List Item)
    (descriptor fixed : List UInt8) (usages : Reader → List ℕ) : Prop :=
  ∀ fields, reportFields descriptor = some fields →
    ∃ corrected, reportFields fixed = some corrected ∧
      Refits old new offsets items fields corrected ∧
      ∀ pre post p, items = pre ++ ⟨INPUT, old.toNat⟩ :: post → width pre ∈ offsets →
        readItems .start pre = some p →
          (corrected.drop p.fields.length).take p.globals.reportCount = ownFields p (usages p)

section programs

variable {b : Buffer} {items : List Item}

theorem parsed_in_place (b : Buffer) (data : List UInt8) :
    b.parsed (data, 0) = data.take b.size := by
  rw [Buffer.parsed, if_neg (lt_irrefl (0 : ℤ)), if_pos rfl]

theorem parsed_patchInputs (old new : UInt8) (offsets : List ℕ) (b : Buffer) :
    b.parsed (patchInputs old new offsets b.data, 0) =
      patchInputs old new offsets b.descriptor := by
  rw [parsed_in_place, patchInputs_take, Buffer.descriptor]

theorem reportFields_parsed {data : List UInt8} (hparse : parse data = some items) :
    reportFields data = layout items := by
  rw [reportFields, hparse, Option.bind_some]

theorem patchInputs_corrects {old new : UInt8} {offsets : List ℕ} (hne : new ≠ old)
    (hnew : new ≠ INPUT) (hold : old ≠ INPUT) (hzero : old ≠ 0)
    (hparse : parse b.descriptor = some items)
    (hstarts : ∀ o ∈ offsets, Matches old b.descriptor o → StartsInput items o) :
    Corrects old new offsets items b.descriptor
      (b.parsed (patchInputs old new offsets b.data, 0)) := by
  rw [parsed_patchInputs]
  exact ⟨patchInputs_parse hne hnew hparse hstarts,
    fun o ho hmatch => patchInputs_writes hold hzero ho hmatch,
    patchInputs_of_not_matches (patchInputs_done hne hnew hzero)⟩

theorem Corrects.renames {old new : UInt8} {offsets : List ℕ} {descriptor fixed : List UInt8}
    (h : Corrects old new offsets items descriptor fixed)
    (hparse : parse descriptor = some items) :
    RenamesInputs old new offsets items descriptor fixed (namedBy · new.toNat) := by
  intro fields hfields
  rw [reportFields_parsed hparse] at hfields
  rw [reportFields_parsed h.parsed]
  obtain ⟨corrected, hcorrected, hrefits⟩ := correct_refits hfields
  refine ⟨corrected, hcorrected, hrefits, fun pre post p hsplit hmem hpre => ?_⟩
  have hcode : INPUT.toNat / 4 = 0x20 := by decide
  have hown := hrefits.own pre _ post p hsplit hcode hpre
  rwa [correct, if_pos ⟨rfl, hmem⟩] at hown

def SpaceNavigator.Relative (descriptor : List UInt8) : Prop :=
  (Matches 0x06 descriptor 32 ∧ Matches 0x06 descriptor 49) ∨
    (Matches 0x06 descriptor 36 ∧ Matches 0x06 descriptor 53)

theorem SpaceNavigator.probe_corrected {rdesc : List UInt8} (rdescSize : ℕ)
    (h : (Matches 0x02 rdesc 32 ∧ Matches 0x02 rdesc 49) ∨
      (Matches 0x02 rdesc 36 ∧ Matches 0x02 rdesc 53)) : probe rdescSize rdesc = -EINVAL := by
  rw [probe]
  split_ifs with hsize hfixed
  · rfl
  · rfl
  · refine absurd ?_ hfixed
    rcases h with ⟨⟨h32, h33⟩, h49, h50⟩ | ⟨⟨h36, h37⟩, h53, h54⟩
    · exact .inl ⟨h32, h33, h49, h50⟩
    · exact .inr ⟨h36, h37, h53, h54⟩

/-- Where Input items start at the offsets that match, both loops write their flags. A
SpaceNavigator keeps all its fields, so every report reads as before, and the probe knows it
again; a Kaliber's constants get the usages that wait for them. -/
theorem wrong_inputs_corrected (b : Buffer) :
    (∀ items, parse b.descriptor = some items →
      (∀ o ∈ SpaceNavigator.offsets, Matches 0x06 b.descriptor o → StartsInput items o) →
        Corrects 0x06 0x02 SpaceNavigator.offsets items b.descriptor
          (b.parsed (SpaceNavigator.hidFixRdesc b)) ∧
        reportFields (b.parsed (SpaceNavigator.hidFixRdesc b)) = reportFields b.descriptor) ∧
    (SpaceNavigator.Relative b.descriptor →
      SpaceNavigator.probe b.size (b.parsed (SpaceNavigator.hidFixRdesc b)) = -EINVAL) ∧
    (byte b.data 3 = 0x06 → ∀ items, parse b.descriptor = some items →
      (∀ o ∈ KaliberMMOmentum.offsets, Matches 0x03 b.descriptor o → StartsInput items o) →
        Corrects 0x03 0x02 KaliberMMOmentum.offsets items b.descriptor
          (b.parsed (KaliberMMOmentum.hidFixRdesc b)) ∧
        RenamesInputs 0x03 0x02 KaliberMMOmentum.offsets items b.descriptor
          (b.parsed (KaliberMMOmentum.hidFixRdesc b)) pendingUsages) ∧
    (byte b.data 3 ≠ 0x06 → b.parsed (KaliberMMOmentum.hidFixRdesc b) = b.descriptor) := by
  refine ⟨fun items hparse hstarts => ?_, fun hrelative => ?_,
    fun hkeyboard items hparse hstarts => ?_, fun hother => ?_⟩
  · have hcorrects : Corrects 0x06 0x02 SpaceNavigator.offsets items b.descriptor
        (b.parsed (SpaceNavigator.hidFixRdesc b)) := patchInputs_corrects (by decide) (by decide)
      (by decide) (by decide) hparse hstarts
    refine ⟨hcorrects, ?_⟩
    rw [reportFields_parsed hcorrects.parsed, reportFields_parsed hparse,
      layout_correctFrom (by decide)]
  · apply SpaceNavigator.probe_corrected
    have hwritten (o : ℕ) (ho : o ∈ SpaceNavigator.offsets) (h : Matches 0x06 b.descriptor o) :
        Matches 0x02 (b.parsed (SpaceNavigator.hidFixRdesc b)) o := by
      rw [SpaceNavigator.hidFixRdesc, parsed_patchInputs]
      exact patchInputs_writes (by decide) (by decide) ho h
    rcases hrelative with ⟨h32, h49⟩ | ⟨h36, h53⟩
    · exact .inl ⟨hwritten 32 (by decide) h32, hwritten 49 (by decide) h49⟩
    · exact .inr ⟨hwritten 36 (by decide) h36, hwritten 53 (by decide) h53⟩
  · rw [KaliberMMOmentum.hidFixRdesc, if_neg (not_not.mpr hkeyboard)]
    have hcorrects : Corrects 0x03 0x02 KaliberMMOmentum.offsets items b.descriptor
        (b.parsed (patchInputs 0x03 0x02 KaliberMMOmentum.offsets b.data, 0)) :=
      patchInputs_corrects (by decide) (by decide) (by decide) (by decide) hparse hstarts
    exact ⟨hcorrects, hcorrects.renames hparse⟩
  · rw [KaliberMMOmentum.hidFixRdesc, if_pos hother]
    exact b.parsed_unchanged

theorem TcaYoke.fixes_inputs {data : List UInt8} (h90 : Matches 0x02 data 90)
    (h103 : Matches 0x02 data 103) :
    (data.set 91 0x03).set 104 0x03 = patchInputs 0x02 0x03 offsets data := by
  have hfirst : patchInput 0x02 0x03 data 90 = data.set 91 0x03 := if_pos h90
  have hsecond : patchInput 0x02 0x03 (data.set 91 0x03) 103 = (data.set 91 0x03).set 104 0x03 :=
    if_pos (hfirst ▸ matches_other_round (by decide) (by decide) h103)
  rw [patchInputs, offsets, List.foldl_cons, hfirst, List.foldl_cons, hsecond, List.foldl_nil]

/-- At a length of 148 the fixup makes the two inputs constants: all fields stay in place and
theirs lose their usages. But no device gets it: the probe leaves the -1 of the loader where it
does not refuse itself. -/
theorem tca_yoke_never_accepted (b : Buffer) :
    (∀ items, parse b.descriptor = some items → b.size = 148 → byte b.data 1 = 0x01 →
      byte b.data 3 = 0x04 →
      (∀ o ∈ TcaYoke.offsets, Matches 0x02 b.descriptor o ∧ StartsInput items o) →
        Corrects 0x02 0x03 TcaYoke.offsets items b.descriptor
          (b.parsed (TcaYoke.hidFixRdescTcaYoke b)) ∧
        RenamesInputs 0x02 0x03 TcaYoke.offsets items b.descriptor
          (b.parsed (TcaYoke.hidFixRdescTcaYoke b)) fun _ => []) ∧
    (b.size ≠ 148 → b.parsed (TcaYoke.hidFixRdescTcaYoke b) = b.descriptor) ∧
    ∀ sysname args, probeArgs sysname b.descriptor = some args →
      (TcaYoke.probe args).retval ≠ 0 := by
  refine ⟨?_, fun hsize => ?_, ?_⟩
  · intro items hparse hsize hpage husage hinputs
    have hdata (o : ℕ) (ho : o ∈ TcaYoke.offsets) : Matches 0x02 b.data o := by
      obtain ⟨⟨htag, hflags⟩, -⟩ := hinputs o ho
      have hplaces : ∀ o ∈ TcaYoke.offsets, o + 1 < 148 := by decide
      have hlt : o + 1 < b.size := hsize ▸ hplaces o ho
      rw [Buffer.descriptor, byte_take (Nat.lt_of_succ_lt hlt)] at htag
      rw [Buffer.descriptor, byte_take hlt] at hflags
      exact ⟨htag, hflags⟩
    have h90 := hdata 90 (by decide)
    have h103 := hdata 103 (by decide)
    rw [TcaYoke.hidFixRdescTcaYoke, if_neg (not_not.mpr hsize),
      if_neg (not_or.mpr ⟨not_not.mpr hpage, not_not.mpr husage⟩), if_pos ⟨h90.1, h103.1⟩,
      TcaYoke.fixes_inputs h90 h103]
    have hcorrects : Corrects 0x02 0x03 TcaYoke.offsets items b.descriptor
        (b.parsed (patchInputs 0x02 0x03 TcaYoke.offsets b.data, 0)) := patchInputs_corrects
      (by decide) (by decide) (by decide) (by decide) hparse fun o ho _ => (hinputs o ho).2
    exact ⟨hcorrects, hcorrects.renames hparse⟩
  · rw [TcaYoke.hidFixRdescTcaYoke, if_pos hsize]
    exact b.parsed_unchanged
  · intro sysname args hargs
    obtain ⟨hid, -, rfl⟩ := Option.map_eq_some_iff.mp hargs
    rw [TcaYoke.probe]
    split_ifs
    · change (-22 : Int32) ≠ 0
      decide
    · change (-1 : Int32) ≠ 0
      decide

end programs

def navigator : List UInt8 :=
  [0x05, 0x01, 0x09, 0x08, 0xa1, 0x01, 0xa1, 0x00, 0x85, 0x01, 0x16, 0xa2, 0xfe, 0x26, 0x5e, 0x01,
    0x36, 0x88, 0xfa, 0x46, 0x78, 0x05, 0x55, 0x0c, 0x65, 0x11, 0x09, 0x30, 0x09, 0x31, 0x09, 0x32,
    0x75, 0x10, 0x95, 0x03, 0x81, 0x06, 0xc0, 0xa1, 0x00, 0x85, 0x02, 0x09, 0x33, 0x09, 0x34, 0x09,
    0x35, 0x75, 0x10, 0x95, 0x03, 0x81, 0x06, 0xc0, 0xa1, 0x02, 0x85, 0x03, 0x05, 0x01, 0x05, 0x09,
    0x19, 0x01, 0x29, 0x02, 0x15, 0x00, 0x25, 0x01, 0x35, 0x00, 0x45, 0x01, 0x75, 0x01, 0x95, 0x02,
    0x81, 0x02, 0x95, 0x0e, 0x81, 0x03, 0xc0, 0xa1, 0x02, 0x85, 0x04, 0x05, 0x08, 0x09, 0x4b, 0x15,
    0x00, 0x25, 0x01, 0x95, 0x01, 0x75, 0x01, 0x91, 0x02, 0x95, 0x01, 0x75, 0x07, 0x91, 0x03, 0xc0,
    0x06, 0x00, 0xff, 0x09, 0x01, 0xa1, 0x02, 0x15, 0x80, 0x25, 0x7f, 0x75, 0x08, 0x09, 0x3a, 0xa1,
    0x02, 0x85, 0x05, 0x09, 0x20, 0x95, 0x01, 0xb1, 0x02, 0xc0, 0xa1, 0x02, 0x85, 0x06, 0x09, 0x21,
    0x95, 0x01, 0xb1, 0x02, 0xc0, 0xa1, 0x02, 0x85, 0x07, 0x09, 0x22, 0x95, 0x01, 0xb1, 0x02, 0xc0,
    0xa1, 0x02, 0x85, 0x08, 0x09, 0x23, 0x95, 0x07, 0xb1, 0x02, 0xc0, 0xa1, 0x02, 0x85, 0x09, 0x09,
    0x24, 0x95, 0x07, 0xb1, 0x02, 0xc0, 0xa1, 0x02, 0x85, 0x0a, 0x09, 0x25, 0x95, 0x07, 0xb1, 0x02,
    0xc0, 0xa1, 0x02, 0x85, 0x0b, 0x09, 0x26, 0x95, 0x01, 0xb1, 0x02, 0xc0, 0xa1, 0x02, 0x85, 0x13,
    0x09, 0x2e, 0x95, 0x01, 0xb1, 0x02, 0xc0, 0xc0, 0xc0]

theorem navigator_room : navigator.length ≤ HID_MAX_DESCRIPTOR_SIZE := by decide +kernel

def navigatorBuffer : Buffer := .ofBytes navigator navigator_room

/-- The probe accepts the device and refuses it once it is fixed. -/
theorem wrong_inputs_corrected_navigator :
    SpaceNavigator.probe 217 navigator = 0 ∧
      reportFields (navigatorBuffer.parsed (SpaceNavigator.hidFixRdesc navigatorBuffer)) =
        reportFields navigator ∧
      SpaceNavigator.probe 217
        (navigatorBuffer.parsed (SpaceNavigator.hidFixRdesc navigatorBuffer)) = -EINVAL := by
  have hdescriptor : navigatorBuffer.descriptor = navigator := Buffer.ofBytes_descriptor _
  obtain ⟨items, hitems⟩ : ∃ items, parse navigator = some items :=
    Option.isSome_iff_exists.mp (by decide +kernel)
  have hinputs : ((parse navigator).getD [])[16]? = some ⟨INPUT, 6⟩ ∧
      width (((parse navigator).getD []).take 16) = 36 ∧
      ((parse navigator).getD [])[25]? = some ⟨INPUT, 6⟩ ∧
      width (((parse navigator).getD []).take 25) = 53 := by decide +kernel
  rw [hitems, Option.getD_some] at hinputs
  obtain ⟨h16, h36, h25, h53⟩ := hinputs
  have hstarts : ∀ o ∈ SpaceNavigator.offsets, Matches 0x06 navigatorBuffer.descriptor o →
      StartsInput items o := by
    rw [hdescriptor]
    intro o ho hmatch
    simp only [SpaceNavigator.offsets, List.mem_cons, List.not_mem_nil, or_false] at ho
    rcases ho with rfl | rfl | rfl | rfl
    · exact absurd hmatch.1 (by decide)
    · exact h36 ▸ .of_index h16 rfl
    · exact absurd hmatch.1 (by decide)
    · exact h53 ▸ .of_index h25 rfl
  obtain ⟨hcorrects, hprobe, -⟩ := wrong_inputs_corrected navigatorBuffer
  have hfields := (hcorrects items (hdescriptor ▸ hitems) hstarts).2
  rw [hdescriptor] at hfields hprobe
  exact ⟨rfl, hfields, hprobe (.inr ⟨⟨rfl, rfl⟩, rfl, rfl⟩)⟩

/-- The descriptor the program is written for: its last byte is the one at 148. -/
def yoke : List UInt8 :=
  [0x05, 0x01, 0x09, 0x04, 0xa1, 0x01, 0x85, 0x01, 0x09, 0x39, 0x15, 0x00, 0x25, 0x07, 0x35, 0x00,
    0x46, 0x3b, 0x01, 0x65, 0x14, 0x75, 0x04, 0x95, 0x01, 0x81, 0x42, 0x65, 0x00, 0x05, 0x09, 0x19,
    0x01, 0x29, 0x12, 0x15, 0x00, 0x25, 0x01, 0x75, 0x01, 0x95, 0x12, 0x81, 0x02, 0x95, 0x02, 0x81,
    0x03, 0x05, 0x01, 0x09, 0x31, 0x09, 0x30, 0x09, 0x32, 0x09, 0x34, 0x09, 0x33, 0x09, 0x35, 0x15,
    0x00, 0x27, 0xff, 0xff, 0x00, 0x00, 0x75, 0x10, 0x95, 0x06, 0x81, 0x02, 0x06, 0xf0, 0xff, 0x09,
    0x59, 0x15, 0x00, 0x26, 0xff, 0x00, 0x75, 0x08, 0x95, 0x01, 0x81, 0x02, 0x09, 0x51, 0x15, 0x00,
    0x26, 0xff, 0x00, 0x75, 0x08, 0x95, 0x20, 0x81, 0x02, 0x09, 0x50, 0x15, 0x00, 0x26, 0xff, 0x00,
    0x75, 0x08, 0x95, 0x0f, 0x81, 0x03, 0x09, 0x47, 0x85, 0xf2, 0x15, 0x00, 0x26, 0xff, 0x00, 0x75,
    0x08, 0x95, 0x3f, 0xb1, 0x02, 0x09, 0x48, 0x85, 0xf3, 0x15, 0x00, 0x26, 0xff, 0x00, 0x75, 0x08,
    0x95, 0x3f, 0xb1, 0x02, 0xc0]

theorem yoke_room : yoke.length ≤ HID_MAX_DESCRIPTOR_SIZE := by decide +kernel

def yokeBuffer : Buffer := .ofBytes yoke yoke_room

theorem tca_yoke_never_accepted_documented :
    Matches 0x02 yoke 90 ∧ Matches 0x02 yoke 103 ∧
      yokeBuffer.parsed (TcaYoke.hidFixRdescTcaYoke yokeBuffer) = yoke ∧
      ∃ args, probeArgs "0003:044F:0409.0001".toList yoke = some args ∧
        (TcaYoke.probe args).retval ≠ 0 := by
  have hdescriptor : yokeBuffer.descriptor = yoke := Buffer.ofBytes_descriptor _
  obtain ⟨args, hargs⟩ : ∃ args, probeArgs "0003:044F:0409.0001".toList yoke = some args :=
    Option.isSome_iff_exists.mp (by decide +kernel)
  obtain ⟨-, hother, hprobe⟩ := tca_yoke_never_accepted yokeBuffer
  refine ⟨⟨rfl, rfl⟩, ⟨rfl, rfl⟩, (hother (by decide +kernel)).trans hdescriptor, args, hargs, ?_⟩
  exact hprobe _ args (hdescriptor ▸ hargs)

end InputPatches
