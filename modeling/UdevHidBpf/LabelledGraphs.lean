import Mathlib.Data.Fintype.Card
import Mathlib.Data.Set.Finite.Basic
import Mathlib.Logic.Relation

/-! # Graphs with labelled edges

`r l a b` is an edge with the label `l`. Where every cycle has an edge of some kind, the edges
of the other kinds lead nowhere forever. -/
namespace LabelledGraphs

variable {L α : Type*}

/-- A walk along the edges, with their labels. -/
inductive Walk (r : L → α → α → Prop) : α → List L → α → Prop where
  | nil (a) : Walk r a [] a
  | cons {l a b labels c} : r l a b → Walk r b labels c → Walk r a (l :: labels) c

/-- Every cycle has a label that satisfies `p`. -/
def EveryCycle (r : L → α → α → Prop) (p : L → Prop) : Prop :=
  ∀ a labels, labels ≠ [] → Walk r a labels a → ∃ l ∈ labels, p l

/-- An edge whose label does not satisfy `p`. -/
def Avoiding (r : L → α → α → Prop) (p : L → Prop) (a b : α) : Prop := ∃ l, ¬ p l ∧ r l a b

variable {r : L → α → α → Prop} {p : L → Prop}

theorem walk_of_transGen {a b : α} (h : Relation.TransGen (Avoiding r p) a b) :
    ∃ labels, labels ≠ [] ∧ (∀ l ∈ labels, ¬ p l) ∧ Walk r a labels b := by
  induction h using Relation.TransGen.head_induction_on with
  | single h =>
    obtain ⟨l, hl, hedge⟩ := h
    exact ⟨[l], List.cons_ne_nil _ _, by simpa using hl, .cons hedge (.nil _)⟩
  | head h _ ih =>
    obtain ⟨l, hl, hedge⟩ := h
    obtain ⟨labels, -, hlabels, hwalk⟩ := ih
    exact ⟨l :: labels, List.cons_ne_nil _ _, List.forall_mem_cons.2 ⟨hl, hlabels⟩,
      .cons hedge hwalk⟩

theorem EveryCycle.not_transGen (h : EveryCycle r p) (a : α) :
    ¬ Relation.TransGen (Avoiding r p) a a := by
  intro hcycle
  obtain ⟨labels, hne, hlabels, hwalk⟩ := walk_of_transGen hcycle
  obtain ⟨l, hl, hp⟩ := h a labels hne hwalk
  exact hlabels l hl hp

/-- Without cycles, and with edges from finitely many places only, no walk goes on forever. -/
theorem wellFounded_of_acyclic {s : α → α → Prop} (hfinite : {a | ∃ b, s a b}.Finite)
    (h : ∀ a, ¬ Relation.TransGen s a a) : WellFounded (flip s) := by
  have : Finite {a | ∃ b, s a b} := hfinite.to_subtype
  have hsources : WellFounded fun b a : {a | ∃ b, s a b} => Relation.TransGen s a b := by
    have : IsTrans {a | ∃ b, s a b} fun b a => Relation.TransGen s a b :=
      ⟨fun _ _ _ hcb hba => hba.trans hcb⟩
    have : Std.Irrefl fun b a : {a | ∃ b, s a b} => Relation.TransGen s a b := ⟨fun a => h a⟩
    exact Finite.wellFounded_of_trans_of_irrefl _
  have hsink : ∀ b, ¬ (∃ c, s b c) → Acc (flip s) b :=
    fun b hb => ⟨b, fun c hc => absurd ⟨c, hc⟩ hb⟩
  have hsource : ∀ a : {a | ∃ b, s a b}, Acc (flip s) a := by
    intro a
    induction a using hsources.induction with
    | _ a ih =>
      constructor
      intro b hb
      by_cases hout : ∃ c, s b c
      · exact ih ⟨b, hout⟩ (.single hb)
      · exact hsink b hout
  constructor
  intro a
  by_cases hout : ∃ b, s a b
  · exact hsource ⟨a, hout⟩
  · exact hsink a hout

theorem EveryCycle.wellFounded (h : EveryCycle r p)
    (hfinite : {a | ∃ b, Avoiding r p a b}.Finite) : WellFounded (flip (Avoiding r p)) :=
  wellFounded_of_acyclic hfinite h.not_transGen

/-- A number that falls along every edge of the other kinds. -/
theorem everyCycle_of_rank (rank : α → ℕ)
    (h : ∀ l a b, ¬ p l → r l a b → rank b < rank a) : EveryCycle r p := by
  intro a labels hne hwalk
  by_contra hnone
  have hfalls : ∀ a labels b, Walk r a labels b → (∀ l ∈ labels, ¬ p l) →
      rank b + labels.length ≤ rank a := by
    intro a labels b hwalk
    induction hwalk with
    | nil => simp
    | cons hedge _ ih =>
      intro hlabels
      obtain ⟨hl, hlabels⟩ := List.forall_mem_cons.1 hlabels
      have hstep := h _ _ _ hl hedge
      have hrest := ih hlabels
      rw [List.length_cons]
      omega
  have hlabels : ∀ l ∈ labels, ¬ p l := fun l hl hp => hnone ⟨l, hl, hp⟩
  have hrank := hfalls a labels a hwalk hlabels
  have hpos := List.length_pos_iff.2 hne
  omega

end LabelledGraphs
