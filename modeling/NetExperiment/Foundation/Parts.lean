import Mathlib.Data.Set.Lattice
import Mathlib.Data.Set.Pairwise.Lattice
import Mathlib.Order.CompletePartialOrder

/-!
# Parts that share one memory

A memory maps cells to what they hold.  A part occupies some of the cells, and
whether the part is there depends on those cells only.  A memory is populated by
parts when all of them are there, no two of them share a cell, and every cell in
use belongs to one of them.

A step that changes the cells of one part and no others changes that part only;
the rules below say so for a step of a part that is there and for a part that is
added on cells that were not in use.
-/

namespace NetExperiment
namespace Foundation

structure Parts (part cell value : Type _) where
  cells : part -> Set cell
  Present : part -> (cell -> value) -> Prop
  Used : value -> Prop
  frame : forall {p f g}, Present p f -> Set.EqOn f g (cells p) -> Present p g
  used : forall {p f c}, Present p f -> c ∈ cells p -> Used (f c)

namespace Parts

variable {part cell value : Type _}

/-- The members are there, each on cells of its own, and nothing else is. -/
structure Populates (P : Parts part cell value) (members : Set part)
    (f : cell -> value) : Prop where
  present : forall p, p ∈ members -> P.Present p f
  apart : members.PairwiseDisjoint P.cells
  covers : forall c, P.Used (f c) -> exists p, p ∈ members ∧ c ∈ P.cells p

section Rules

variable {P : Parts part cell value} {members : Set part} {f g : cell -> value}

theorem populates_empty (h : forall c, ¬ P.Used (f c)) :
    P.Populates ∅ f where
  present := fun p hp => absurd hp (Set.notMem_empty p)
  apart := Set.pairwiseDisjoint_empty
  covers := fun c hc => absurd hc (h c)

theorem Populates.eq_of_mem (h : P.Populates members f) {p q : part} {c : cell}
    (hp : p ∈ members) (hq : q ∈ members) (hcp : c ∈ P.cells p)
    (hcq : c ∈ P.cells q) : p = q := by
  by_contra hne
  exact Set.disjoint_left.mp (h.apart hp hq hne) hcp hcq

/-- Members that a step does not touch stay as they are, beside a part that now
accounts for all the cells the step may have changed. -/
theorem Populates.exchange (h : P.Populates members f) {kept : Set part}
    {region : Set cell} {p : part} (hkept : kept ⊆ members)
    (hgone : forall q, q ∈ members -> q ∉ kept -> P.cells q ⊆ region)
    (huntouched : forall q, q ∈ kept -> Disjoint region (P.cells q))
    (hsame : Set.EqOn f g regionᶜ) (hpresent : P.Present p g)
    (hcells : P.cells p ⊆ region)
    (hused : forall c, c ∈ region -> P.Used (g c) -> c ∈ P.cells p) :
    P.Populates (insert p kept) g where
  present := by
    intro q hq
    rcases hq with rfl | hq
    · exact hpresent
    · refine P.frame (h.present q (hkept hq)) (hsame.mono ?_)
      exact Set.subset_compl_iff_disjoint_left.mpr (huntouched q hq)
  apart := by
    refine (h.apart.subset hkept).insert ?_
    intro q hq _
    exact Set.disjoint_of_subset_left hcells (huntouched q hq)
  covers := by
    intro c hc
    by_cases hregion : c ∈ region
    · exact ⟨p, Set.mem_insert p kept, hused c hregion hc⟩
    · rw [← hsame hregion] at hc
      rcases h.covers c hc with ⟨q, hq, hcq⟩
      by_cases hqkept : q ∈ kept
      · exact ⟨q, Set.mem_insert_of_mem p hqkept, hcq⟩
      · exact absurd (hgone q hq hqkept hcq) hregion

theorem Populates.step (h : P.Populates members f) {p p' : part}
    (hp : p ∈ members) (hpresent : P.Present p' g)
    (hsame : Set.EqOn f g (P.cells p)ᶜ) (hcells : P.cells p' ⊆ P.cells p)
    (hused : forall c, c ∈ P.cells p -> P.Used (g c) -> c ∈ P.cells p') :
    P.Populates (insert p' (members \ {p})) g := by
  refine h.exchange Set.sdiff_subset ?_ ?_ hsame hpresent hcells hused
  · intro q hq hgone
    have heq : q = p := by
      by_contra hne
      exact hgone ⟨hq, hne⟩
    rw [heq]
  · intro q hq
    exact h.apart hp hq.1 (fun heq => hq.2 heq.symm)

theorem Populates.add (h : P.Populates members f) {p : part}
    (region : Set cell) (hfresh : forall c, c ∈ region -> ¬ P.Used (f c))
    (hpresent : P.Present p g) (hsame : Set.EqOn f g regionᶜ)
    (hcells : P.cells p ⊆ region)
    (hused : forall c, c ∈ region -> P.Used (g c) -> c ∈ P.cells p) :
    P.Populates (insert p members) g := by
  refine h.exchange (Set.Subset.refl members) ?_ ?_ hsame hpresent hcells hused
  · intro q hq hnot
    exact absurd hq hnot
  · intro q hq
    rw [Set.disjoint_left]
    intro c hregion hcq
    exact hfresh c hregion (P.used (h.present q hq) hcq)

end Rules

end Parts
end Foundation
end NetExperiment
