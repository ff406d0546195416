import UdevHidBpf.BtfValidation

/-! # What an accepted type lays out

The layout a Rust struct asks of a BTF type, what the validators take on trust about one,
and that the two agree on every type that is accepted. -/
namespace BtfLayout

open BtfGraph BtfValidation RdescLayout TypeLayout

def Named (field : ValidationField) (m : Member) : Prop :=
  if field.isAnonymous then m.name = none else m.name = some (.text field.name)

/-- The member has the field's name, its first bit and all of its bits. -/
structure Holds (field : ValidationField) (m : Member) : Prop where
  named : Named field m
  offset : m.attr.offset = 8 * field.offset
  width : ∀ w, m.attr.width = some w → w = 8 * field.size

def Stores (btf : Btf) (laysOut : BtfType → Prop) (field : ValidationField) (m : Member) : Prop :=
  Holds field m ∧ ∃ u v elem, btf.typeById m.ty = some u ∧ Resolves exactReading btf u v ∧
    SizeOf exactReading btf v field.size ∧ ElementType btf v elem ∧ laysOut elem

mutual
/-- The type stores a Rust type, for an array each of its elements. A scalar asks for no more
than its size. -/
def LaysOut (btf : Btf) : Ty → BtfType → Prop
  | .scalar _ _, _ => True
  | .array elem _ _, t => LaysOut btf elem t
  | .struct name packed members, t => ∃ size btfMembers,
      Resolves exactReading btf t (.struct size btfMembers) ∧
      size.toNat = (Ty.struct name packed members).size ∧
      MembersLaidOut btf .struct packed 0 members btfMembers
  | .union name members, t => ∃ size btfMembers,
      Resolves exactReading btf t (.union size btfMembers) ∧
      size.toNat = (Ty.union name members).size ∧
      MembersLaidOut btf .union false 0 members btfMembers

def MembersLaidOut (btf : Btf) (kind : Kind) (packed : Bool) (cur : ℕ) :
    Members → List Member → Prop
  | .nil, _ => True
  | .cons name ty rest, btfMembers =>
    (∃ m ∈ btfMembers,
      Stores btf (fun elem => LaysOut btf ty elem) (fieldAt kind packed cur name ty) m) ∧
    MembersLaidOut btf kind packed (memberStart kind packed cur ty + ty.size) rest btfMembers
end

mutual
def LaysOutOnce (btf : Btf) : Ty → BtfType → Prop
  | .scalar _ _, _ => True
  | .array elem _ _, t => LaysOutOnce btf elem t
  | .struct name packed members, t => ∃ size btfMembers,
      Resolves exactReading btf t (.struct size btfMembers) ∧
      size.toNat = (Ty.struct name packed members).size ∧
      MembersLaidOutOnce btf .struct packed 0 members btfMembers
  | .union name members, t => ∃ size btfMembers,
      Resolves exactReading btf t (.union size btfMembers) ∧
      size.toNat = (Ty.union name members).size ∧
      MembersLaidOutOnce btf .union false 0 members btfMembers

def MembersLaidOutOnce (btf : Btf) (kind : Kind) (packed : Bool) (cur : ℕ) :
    Members → List Member → Prop
  | .nil, _ => True
  | .cons name ty rest, btfMembers =>
    (∃ m ∈ btfMembers,
      Stores btf (fun elem => LaysOutOnce btf ty elem) (fieldAt kind packed cur name ty) m ∧
        ∀ m' ∈ btfMembers, memberName m' = memberName m → m' = m) ∧
    MembersLaidOutOnce btf kind packed (memberStart kind packed cur ty + ty.size) rest btfMembers
end

theorem Stores.imp {btf : Btf} {P Q : BtfType → Prop} {field : ValidationField} {m : Member}
    (h : Stores btf P field m) (hpq : ∀ elem, P elem → Q elem) : Stores btf Q field m := by
  obtain ⟨hholds, u, v, elem, hu, hv, hsize, helem, hp⟩ := h
  exact ⟨hholds, u, v, elem, hu, hv, hsize, helem, hpq elem hp⟩

mutual
theorem LaysOutOnce.laysOut {btf : Btf} : (ty : Ty) → ∀ ⦃t : BtfType⦄,
    LaysOutOnce btf ty t → LaysOut btf ty t
  | .scalar _ _ => by
    intro _ _
    trivial
  | .array elem _ _ => by
    intro t h
    exact LaysOutOnce.laysOut elem h
  | .struct name packed members => by
    intro t h
    obtain ⟨size, btfMembers, hres, hsize, hmembers⟩ := h
    exact ⟨size, btfMembers, hres, hsize, MembersLaidOutOnce.laidOut members hmembers⟩
  | .union name members => by
    intro t h
    obtain ⟨size, btfMembers, hres, hsize, hmembers⟩ := h
    exact ⟨size, btfMembers, hres, hsize, MembersLaidOutOnce.laidOut members hmembers⟩

theorem MembersLaidOutOnce.laidOut {btf : Btf} : (members : Members) →
    ∀ ⦃kind : Kind⦄ ⦃packed : Bool⦄ ⦃cur : ℕ⦄ ⦃btfMembers : List Member⦄,
    MembersLaidOutOnce btf kind packed cur members btfMembers →
    MembersLaidOut btf kind packed cur members btfMembers
  | .nil => by
    intro _ _ _ _ _
    trivial
  | .cons name ty rest => by
    intro kind packed cur btfMembers h
    obtain ⟨⟨m, hmem, hstores, -⟩, hrest⟩ := h
    exact ⟨⟨m, hmem, hstores.imp (LaysOutOnce.laysOut ty)⟩,
      MembersLaidOutOnce.laidOut rest hrest⟩
end

/-- References on the way do not change what is stored, and no size wraps. -/
def ReadsExactly (btf : Btf) (t : BtfType) : Prop :=
  ∀ u n, Resolves loaderReading btf t u → SizeOf loaderReading btf u n →
    Resolves exactReading btf t u ∧ SizeOf exactReading btf u n

/-- On a byte boundary, in a union on the first, with no bit-field that is narrower than the
field and no name that only fails to be UTF-8. -/
structure Plain (kind : Kind) (field : ValidationField) (m : Member) : Prop where
  named : memberName m = none → m.name = none
  offset : match kind with
    | .struct => m.attr.offset % 8 = 0
    | .union => m.attr.offset = 0
  width : ∀ w, m.attr.width = some w → w = 8 * field.size

mutual
/-- What the validators leave open about the type, called with this cache. -/
def Trusted (btf : Btf) (cache : Cache) : Ty → BtfType → Prop
  | .scalar _ _, _ => True
  | .array elem _ _, t => Trusted btf cache elem t
  | .struct _ packed members, t =>
      (∀ u, Resolves loaderReading btf t u → Resolves exactReading btf t u) ∧
      ∀ size btfMembers, Resolves loaderReading btf t (.struct size btfMembers) →
        MembersTrusted btf cache .struct packed 0 members btfMembers
  | .union _ members, t =>
      (∀ u, Resolves loaderReading btf t u → Resolves exactReading btf t u) ∧
      ∀ size btfMembers, Resolves loaderReading btf t (.union size btfMembers) →
        MembersTrusted btf cache .union false 0 members btfMembers

/-- The member a field selects is plain and read exactly; a type the cache skips is laid out.
A second member may store the field instead. -/
def MembersTrusted (btf : Btf) (cache : Cache) (kind : Kind) (packed : Bool) (cur : ℕ) :
    Members → List Member → Prop
  | .nil, _ => True
  | .cons name ty rest, btfMembers =>
    (∀ m, btfMembers.find? (selects kind (fieldAt kind packed cur name ty)) = some m →
      (Plain kind (fieldAt kind packed cur name ty) m ∧
        ∀ u, btf.typeById m.ty = some u → ReadsExactly btf u ∧
          ∀ v elem, Resolves loaderReading btf u v → ElementType btf v elem →
            if ty.spelling ∈ cache then LaysOut btf ty elem else Trusted btf cache ty elem) ∨
      ∃ m' ∈ btfMembers, m' ≠ m ∧
        Stores btf (fun elem => LaysOut btf ty elem) (fieldAt kind packed cur name ty) m') ∧
    MembersTrusted btf (fieldCache cache ty) kind packed
      (memberStart kind packed cur ty + ty.size) rest btfMembers
end

theorem fieldAt_union_offset {kind : Kind} {packed : Bool} {cur : ℕ} {name : String} {ty : Ty}
    (hk : kind = .union) : (fieldAt kind packed cur name ty).offset = 0 := by
  subst hk
  rfl

theorem Plain.holds {kind : Kind} {field : ValidationField} {m : Member}
    (h : Plain kind field m) (hsel : selects kind field m)
    (hstruct : kind = .struct → memberOffset kind m = field.offset)
    (hunion : kind = .union → field.offset = 0) : Holds field m := by
  constructor
  · unfold selects at hsel
    unfold Named
    split
    · rename_i hanon
      simp only [hanon, if_true, decide_eq_true_eq] at hsel
      exact h.named hsel.1
    · rename_i hanon
      simp only [hanon, Bool.false_eq_true, if_false, decide_eq_true_eq] at hsel
      cases hname : m.name with
      | none => simp [memberName, hname] at hsel
      | some s => cases s <;> simp_all [memberName, OsStr.toStr]
  · have hoffset := h.offset
    cases kind with
    | struct =>
      have hbyte : m.attr.offset / 8 = field.offset := hstruct rfl
      simp only at hoffset
      omega
    | union =>
      simp only at hoffset
      rw [hoffset, hunion rfl]
  · exact h.width

theorem Holds.selects {kind : Kind} {field : ValidationField} {m : Member} (h : Holds field m) :
    selects kind field m := by
  have hnamed := h.named
  have hoffset := h.offset
  unfold Named at hnamed
  unfold BtfValidation.selects
  split at hnamed
  · rename_i hanon
    have hbyte : kind = .struct → memberOffset kind m = field.offset := by
      rintro rfl
      change m.attr.offset / 8 = field.offset
      omega
    simpa [hanon, memberName, hnamed] using imp_iff_not_or.mp hbyte
  · rename_i hanon
    simp [hanon, memberName, hnamed, OsStr.toStr]

theorem selects_memberName {kind : Kind} {field : ValidationField} {m : Member}
    (h : selects kind field m) :
    memberName m = if field.isAnonymous then none else some field.name := by
  unfold selects at h
  split at h
  · rename_i hanon
    rw [if_pos hanon]
    exact (of_decide_eq_true h).1
  · rename_i hanon
    rw [if_neg hanon]
    exact of_decide_eq_true h

theorem Holds.plain {kind : Kind} {field : ValidationField} {m : Member} (h : Holds field m)
    (hunion : kind = .union → field.offset = 0) : Plain kind field m := by
  refine ⟨fun hnone => ?_, ?_, h.width⟩
  · have hnamed := h.named
    unfold Named at hnamed
    split at hnamed
    · exact hnamed
    · simp [memberName, hnamed, OsStr.toStr] at hnone
  · have hoffset := h.offset
    cases kind with
    | struct => simp only; omega
    | union => simp only; rw [hoffset, hunion rfl]

mutual
theorem Accepted.laysOut {btf : Btf} : (ty : Ty) → ∀ ⦃cache : Cache⦄ ⦃t : BtfType⦄,
    Accepted btf cache ty t → Trusted btf cache ty t → LaysOut btf ty t
  | .scalar _ _ => by
    intro _ _ _ _
    trivial
  | .array elem _ _ => by
    intro cache t hacc htrust
    exact Accepted.laysOut elem hacc htrust
  | .struct name packed members => by
    intro cache t hacc htrust
    obtain ⟨size, btfMembers, hres, hsize, hacc⟩ := hacc
    obtain ⟨hexact, htrust⟩ := htrust
    exact ⟨size, btfMembers, hexact _ hres, hsize,
      MembersAccepted.laidOut members hacc (htrust size btfMembers hres)⟩
  | .union name members => by
    intro cache t hacc htrust
    obtain ⟨size, btfMembers, hres, hsize, hacc⟩ := hacc
    obtain ⟨hexact, htrust⟩ := htrust
    exact ⟨size, btfMembers, hexact _ hres, hsize,
      MembersAccepted.laidOut members hacc (htrust size btfMembers hres)⟩

theorem MembersAccepted.laidOut {btf : Btf} : (members : Members) →
    ∀ ⦃cache : Cache⦄ ⦃kind : Kind⦄ ⦃packed : Bool⦄ ⦃cur : ℕ⦄ ⦃btfMembers : List Member⦄,
    MembersAccepted btf cache kind packed cur members btfMembers →
    MembersTrusted btf cache kind packed cur members btfMembers →
    MembersLaidOut btf kind packed cur members btfMembers
  | .nil => by
    intro _ _ _ _ _ _ _
    trivial
  | .cons name ty rest => by
    intro cache kind packed cur btfMembers hacc htrust
    obtain ⟨⟨m, u, v, hm, hoffset, hu, hv, hsize, hty⟩, hacc⟩ := hacc
    obtain ⟨hfield, htrust⟩ := htrust
    refine ⟨?_, MembersAccepted.laidOut rest hacc htrust⟩
    rcases hfield m hm with ⟨hplain, hexact⟩ | ⟨m', hmem, -, hstores⟩
    · obtain ⟨hread, htype⟩ := hexact u hu
      obtain ⟨hvexact, hsizeexact⟩ := hread v _ hv hsize
      refine ⟨m, List.mem_of_find?_eq_some hm,
        hplain.holds (List.find?_some hm) hoffset fieldAt_union_offset, u, v, ?_⟩
      by_cases hc : ty.spelling ∈ cache
      · obtain ⟨elem, helem⟩ := exists_elementType hsize
        have hlays := htype v elem hv helem
        rw [if_pos hc] at hlays
        exact ⟨elem, hu, hvexact, hsizeexact, helem, hlays⟩
      · obtain ⟨elem, helem, hty⟩ := hty hc
        have hlays := htype v elem hv helem
        rw [if_neg hc] at hlays
        exact ⟨elem, hu, hvexact, hsizeexact, helem, Accepted.laysOut ty hty hlays⟩
    · exact ⟨m', hmem, hstores⟩
end

mutual
/-- Nothing that lays out a type breaks the trust in it. -/
theorem LaysOut.trusted {btf : Btf} : (ty : Ty) → WellRegistered ty →
    ∀ {cache : Cache} {t : BtfType}, LaysOut btf ty t → Trusted btf cache ty t
  | .scalar _ _ => by
    intro _ _ _ _
    trivial
  | .array elem _ _ => by
    intro hw cache t hlays
    exact LaysOut.trusted elem hw.2.2 hlays
  | .struct name packed members => by
    intro hw cache t hlays
    obtain ⟨size, btfMembers, hres, -, hmembers⟩ := hlays
    refine ⟨fun u hu => hres.unique hu ▸ hres, fun size' btfMembers' hres' => ?_⟩
    obtain ⟨rfl, rfl⟩ := BtfType.struct.inj (hres.unique hres')
    exact MembersLaidOut.trusted members hw.2.2 hmembers
  | .union name members => by
    intro hw cache t hlays
    obtain ⟨size, btfMembers, hres, -, hmembers⟩ := hlays
    refine ⟨fun u hu => hres.unique hu ▸ hres, fun size' btfMembers' hres' => ?_⟩
    obtain ⟨rfl, rfl⟩ := BtfType.union.inj (hres.unique hres')
    exact MembersLaidOut.trusted members hw.2.2 hmembers

theorem MembersLaidOut.trusted {btf : Btf} : (members : Members) →
    MembersWellRegistered members →
    ∀ {cache : Cache} {kind : Kind} {packed : Bool} {cur : ℕ} {btfMembers : List Member},
    MembersLaidOut btf kind packed cur members btfMembers →
    MembersTrusted btf cache kind packed cur members btfMembers
  | .nil => by
    intro _ _ _ _ _ _ _
    trivial
  | .cons name ty rest => by
    intro hw cache kind packed cur btfMembers hlaid
    obtain ⟨hw, hsmall, hrest⟩ := hw
    obtain ⟨⟨m', hmem, hstores⟩, hlaid⟩ := hlaid
    refine ⟨fun m hm => ?_, MembersLaidOut.trusted rest hrest hlaid⟩
    by_cases hmm : m' = m
    · left
      subst hmm
      obtain ⟨hholds, u, v, elem, hu, hv, hsize, helem, hlays⟩ := hstores
      refine ⟨hholds.plain fieldAt_union_offset, fun u' hu' => ?_⟩
      obtain rfl := Option.some.inj (hu.symm.trans hu')
      refine ⟨fun v' n hv' hn => ?_, fun v' elem' hv' helem' => ?_⟩
      · obtain rfl := hv.unique hv'
        refine ⟨hv, ?_⟩
        have hn : n = ty.size := (hsize.loader_eq_mod hn).trans (Nat.mod_eq_of_lt hsmall)
        rw [hn]
        exact hsize
      · obtain rfl := hv.unique hv'
        obtain rfl := helem.unique helem'
        split
        · exact hlays
        · exact LaysOut.trusted ty hw hlays
    · right
      exact ⟨m', hmem, hmm, hstores⟩
end

/-- An accepted type lays out the descriptor just when the trust of the validators in it is
justified. -/
theorem accepted_laysOut_iff {btf : Btf} {fuel : ℕ} {t : BtfType} {cache : Cache}
    (h : validateBtfLayoutFromType btf fuel rustDescriptor t [] = .ok cache) :
    LaysOut btf rustDescriptor t ↔ Trusted btf [] rustDescriptor t :=
  ⟨LaysOut.trusted rustDescriptor .rustDescriptor,
    Accepted.laysOut rustDescriptor (rustDescriptor_accepted h)⟩

def byteMember (name : String) (ty : TypeId) (byte : UInt32) : Member :=
  ⟨some (.text name), ty, .normal (8 * byte)⟩

/-- The descriptor of the C header, its output reports with a type to be chosen: 11 are the
reports, 12 as many bytes. -/
def hidGraph (outputReports : TypeId) : Btf where
  types :=
    [.other, .int 1, .int 2, .int 4,
      .struct 5 [byteMember "usage_page" 2 0, byteMember "usage_id" 2 2,
        byteMember "collection_type" 1 4],
      .struct 4 [byteMember "usage_minimum" 2 0, byteMember "usage_maximum" 2 2],
      .union 4 [byteMember "usage_id" 2 0, ⟨none, 5, .normal 0⟩],
      .array 4 32,
      .struct 181 [byteMember "field_type" 1 0, byteMember "num_collections" 1 1,
        byteMember "bits_start" 2 2, byteMember "bits_end" 2 4, byteMember "usage_page" 2 6,
        ⟨none, 6, .normal 64⟩, byteMember "logical_minimum" 3 12,
        byteMember "logical_maximum" 3 16, byteMember "flags" 1 20,
        byteMember "collections" 7 21],
      .array 8 64,
      .struct 11588 [byteMember "report_id" 1 0, byteMember "size_in_bits" 2 1,
        byteMember "num_fields" 1 3, byteMember "fields" 9 4],
      .array 10 16,
      .array 1 185408,
      .struct 556227 [byteMember "num_input_reports" 1 0, byteMember "num_output_reports" 1 1,
        byteMember "num_feature_reports" 1 2, byteMember "input_reports" 11 3,
        byteMember "output_reports" outputReports 185411,
        byteMember "feature_reports" 11 370819]]

/-- The type of the variable `HID_REPORT_DESCRIPTOR`. -/
def hidVariable : BtfType := .reference .var 13

def descriptorCache : Cache :=
  ["[HidRdescReport; HID_MAX_REPORTS]", "[HidRdescField; HID_MAX_FIELDS]",
    "[HidRdescCollection; HID_MAX_COLLECTIONS]", "i32", "UsageIdUnion", "UsageRange", "u16", "u8"]

theorem hidGraph_accepted : validateBtfLayoutFromType (hidGraph 11) 16 rustDescriptor hidVariable [] =
    .ok descriptorCache := by decide +kernel

instance (field : ValidationField) (m : Member) : Decidable (Named field m) := by
  unfold Named
  infer_instance

theorem exists_stores {btf : Btf} {laysOut : BtfType → Prop} {field : ValidationField}
    {members : List Member} {m : Member} {u elem : BtfType} (i : ℕ) (hi : members[i]? = some m)
    (hm : Holds field m) (hone : ∀ m' ∈ members, memberName m' = memberName m → m' = m)
    (hu : btf.typeById m.ty = some u) (hsize : SizeOf exactReading btf u field.size)
    (helem : ElementType btf u elem) (h : laysOut elem) :
    ∃ m ∈ members, Stores btf laysOut field m ∧
      ∀ m' ∈ members, memberName m' = memberName m → m' = m :=
  ⟨m, List.mem_of_getElem? hi,
    ⟨hm, u, u, elem, hu, .here hsize.not_isReference, hsize, helem, h⟩, hone⟩

theorem exists_stores_scalar {btf : Btf} {name : String} {size : ℕ} {field : ValidationField}
    {members : List Member}
    (h : ∃ m ∈ members, Named field m ∧ m.attr.offset = 8 * field.offset ∧ m.attr.width = none ∧
      field.size < 2 ^ 32 ∧ btf.typeById m.ty = some (.int (.ofNat field.size)) ∧
      ∀ m' ∈ members, memberName m' = memberName m → m' = m) :
    ∃ m ∈ members, Stores btf (fun elem => LaysOutOnce btf (.scalar name size) elem) field m ∧
      ∀ m' ∈ members, memberName m' = memberName m → m' = m := by
  obtain ⟨m, hmem, hnamed, hoffset, hwidth, hsmall, hty, hone⟩ := h
  have hsize : (UInt32.ofNat field.size).toNat = field.size := by
    rw [UInt32.toNat_ofNat']
    exact Nat.mod_eq_of_lt hsmall
  have hint : SizeOf exactReading btf (.int (.ofNat field.size)) field.size := by
    simpa only [hsize] using SizeOf.int (r := exactReading) (.ofNat field.size)
  refine ⟨m, hmem, ⟨⟨hnamed, hoffset, fun w hw => ?_⟩, _, _, _, hty, .here id, hint, rfl,
    trivial⟩, hone⟩
  rw [hwidth] at hw
  cases hw

theorem hidGraph_collection {t : BtfType} (ht : (hidGraph 11).typeById 4 = some t) :
    LaysOutOnce (hidGraph 11) rustCollection t := by
  cases ht
  exact ⟨_, _, .here id, rfl,
    exists_stores_scalar (by decide),
    exists_stores_scalar (by decide),
    exists_stores_scalar (by decide),
    trivial⟩

theorem hidGraph_usageRange {t : BtfType} (ht : (hidGraph 11).typeById 5 = some t) :
    LaysOutOnce (hidGraph 11) rustUsageRange t := by
  cases ht
  exact ⟨_, _, .here id, rfl,
    exists_stores_scalar (by decide),
    exists_stores_scalar (by decide),
    trivial⟩

theorem hidGraph_usageIdUnion {t : BtfType} (ht : (hidGraph 11).typeById 6 = some t) :
    LaysOutOnce (hidGraph 11) rustUsageIdUnion t := by
  cases ht
  exact ⟨_, _, .here id, rfl,
    exists_stores_scalar (by decide),
    exists_stores 1 rfl ⟨by decide, rfl, nofun⟩ (by decide) rfl (.struct _ _) rfl
      (hidGraph_usageRange rfl),
    trivial⟩

theorem hidGraph_field {t : BtfType} (ht : (hidGraph 11).typeById 8 = some t) :
    LaysOutOnce (hidGraph 11) rustField t := by
  cases ht
  exact ⟨_, _, .here id, rfl,
    exists_stores_scalar (by decide),
    exists_stores_scalar (by decide),
    exists_stores_scalar (by decide),
    exists_stores_scalar (by decide),
    exists_stores_scalar (by decide),
    exists_stores 5 rfl ⟨by decide, rfl, nofun⟩ (by decide) rfl (.union _ _) rfl
      (hidGraph_usageIdUnion rfl),
    exists_stores_scalar (by decide),
    exists_stores_scalar (by decide),
    exists_stores_scalar (by decide),
    exists_stores 9 rfl ⟨by decide, rfl, nofun⟩ (by decide) rfl
      (.array rfl (.here id) (.struct _ _)) rfl (hidGraph_collection rfl),
    trivial⟩

theorem hidGraph_report {t : BtfType} (ht : (hidGraph 11).typeById 10 = some t) :
    LaysOutOnce (hidGraph 11) rustReport t := by
  cases ht
  exact ⟨_, _, .here id, rfl,
    exists_stores_scalar (by decide),
    exists_stores_scalar (by decide),
    exists_stores_scalar (by decide),
    exists_stores 3 rfl ⟨by decide, rfl, nofun⟩ (by decide) rfl
      (.array rfl (.here id) (.struct _ _)) rfl (hidGraph_field rfl),
    trivial⟩

theorem hidGraph_laysOutOnce : LaysOutOnce (hidGraph 11) rustDescriptor hidVariable :=
  ⟨_, _, .next trivial rfl (.here id), rfl,
    exists_stores_scalar (by decide),
    exists_stores_scalar (by decide),
    exists_stores_scalar (by decide),
    exists_stores 3 rfl ⟨by decide, rfl, nofun⟩ (by decide) rfl
      (.array rfl (.here id) (.struct _ _)) rfl (hidGraph_report rfl),
    exists_stores 4 rfl ⟨by decide, rfl, nofun⟩ (by decide) rfl
      (.array rfl (.here id) (.struct _ _)) rfl (hidGraph_report rfl),
    exists_stores 5 rfl ⟨by decide, rfl, nofun⟩ (by decide) rfl
      (.array rfl (.here id) (.struct _ _)) rfl (hidGraph_report rfl),
    trivial⟩

theorem hidGraph_laysOut : LaysOut (hidGraph 11) rustDescriptor hidVariable :=
  LaysOutOnce.laysOut rustDescriptor hidGraph_laysOutOnce

/-- Applied to the header's own declarations, the trust is justified. -/
theorem accepted_laysOut_iff_header :
    LaysOut (hidGraph 11) rustDescriptor hidVariable ∧
      Trusted (hidGraph 11) [] rustDescriptor hidVariable :=
  ⟨hidGraph_laysOut, (accepted_laysOut_iff hidGraph_accepted).mp hidGraph_laysOut⟩

/-- Output reports that are bytes are accepted: by then the cache holds the name of the type. -/
theorem bytes_accepted_as_reports :
    validateBtfLayoutFromType (hidGraph 12) 16 rustDescriptor hidVariable [] = .ok descriptorCache ∧
      ¬ LaysOut (hidGraph 12) rustDescriptor hidVariable := by
  refine ⟨by decide +kernel, fun hlays => ?_⟩
  obtain ⟨size, members, hres, -, hmembers⟩ := hlays
  have hstruct : Resolves exactReading (hidGraph 12) hidVariable _ := .next trivial rfl (.here id)
  obtain ⟨rfl, rfl⟩ := BtfType.struct.inj (hres.unique hstruct)
  obtain ⟨-, -, -, -, ⟨m, hmem, hholds, u, v, elem, hu, hv, -, helem, hreport⟩, -⟩ := hmembers
  have hm : m = byteMember "output_reports" 12 185411 := by
    have hoffset := hholds.offset
    simp only [List.mem_cons, List.not_mem_nil, or_false] at hmem
    rcases hmem with rfl | rfl | rfl | rfl | rfl | rfl
    case inr.inr.inr.inr.inl => rfl
    all_goals exact absurd hoffset (by decide)
  subst hm
  cases hu
  cases hv
  cases helem
  obtain ⟨_, _, hbyte, -⟩ := hreport
  cases hbyte

end BtfLayout
