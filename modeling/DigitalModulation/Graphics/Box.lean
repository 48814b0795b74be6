import Mathlib.Data.Set.Prod
import Mathlib.Order.CompletePartialOrder
import Mathlib.Order.Interval.Set.Disjoint

/-!
# Boxes

The drawing functions are given the corners of boxes of which the last column and the last row are
left out.

* `Box`, `Box.area`: a box, and the places in it;
* `Box.area_subset_iff`, `Box.disjoint_iff`: when a box is inside another one or apart from it.
-/

namespace DigitalModulation

/-- The corners of a box, whose end column and row do not belong to it. -/
structure Box where
  hStart : ℤ
  vStart : ℤ
  hEnd : ℤ
  vEnd : ℤ
  deriving DecidableEq

namespace Box

/-- The places in a box. -/
def area (r : Box) : Set (ℤ × ℤ) :=
  {q | (r.hStart ≤ q.1 ∧ q.1 < r.hEnd) ∧ r.vStart ≤ q.2 ∧ q.2 < r.vEnd}

theorem mem_area {hStart vStart hEnd vEnd : ℤ} {q : ℤ × ℤ} :
    q ∈ (Box.mk hStart vStart hEnd vEnd).area ↔
      (hStart ≤ q.1 ∧ q.1 < hEnd) ∧ vStart ≤ q.2 ∧ q.2 < vEnd :=
  Iff.rfl

instance (r : Box) (q : ℤ × ℤ) : Decidable (q ∈ r.area) :=
  inferInstanceAs (Decidable ((r.hStart ≤ q.1 ∧ q.1 < r.hEnd) ∧ r.vStart ≤ q.2 ∧ q.2 < r.vEnd))

/-- The corners of a box are inside another one. -/
def Within (r s : Box) : Prop :=
  (s.hStart ≤ r.hStart ∧ r.hEnd ≤ s.hEnd) ∧ s.vStart ≤ r.vStart ∧ r.vEnd ≤ s.vEnd

instance (r s : Box) : Decidable (r.Within s) := inferInstanceAs (Decidable (_ ∧ _))

theorem Within.mem {r s : Box} (h : r.Within s) {q : ℤ × ℤ} (hq : q ∈ r.area) : q ∈ s.area :=
  ⟨⟨h.1.1.trans hq.1.1, hq.1.2.trans_le h.1.2⟩, h.2.1.trans hq.2.1, hq.2.2.trans_le h.2.2⟩

theorem area_subset_iff {r s : Box} (hh : r.hStart < r.hEnd) (hv : r.vStart < r.vEnd) :
    r.area ⊆ s.area ↔ r.Within s := by
  have hprod (r : Box) : r.area = Set.Ico r.hStart r.hEnd ×ˢ Set.Ico r.vStart r.vEnd := rfl
  have hne : (Set.Ico r.hStart r.hEnd ×ˢ Set.Ico r.vStart r.vEnd).Nonempty :=
    ⟨(r.hStart, r.vStart), ⟨le_rfl, hh⟩, le_rfl, hv⟩
  rw [hprod, hprod, Set.prod_subset_prod_iff' hne, Set.Ico_subset_Ico_iff hh,
    Set.Ico_subset_Ico_iff hv]
  rfl

/-- The boxes have no place in common. -/
def Apart (r s : Box) : Prop :=
  min r.hEnd s.hEnd ≤ max r.hStart s.hStart ∨ min r.vEnd s.vEnd ≤ max r.vStart s.vStart

instance (r s : Box) : Decidable (r.Apart s) := inferInstanceAs (Decidable (_ ∨ _))

theorem disjoint_iff (r s : Box) : Disjoint r.area s.area ↔ r.Apart s := by
  have hprod (r : Box) : r.area = Set.Ico r.hStart r.hEnd ×ˢ Set.Ico r.vStart r.vEnd := rfl
  rw [hprod, hprod, Set.disjoint_prod, Set.Ico_disjoint_Ico, Set.Ico_disjoint_Ico]
  rfl

theorem Apart.not_mem {r s : Box} (h : r.Apart s) {q : ℤ × ℤ} (hq : q ∈ s.area) : q ∉ r.area :=
  fun hr => Set.disjoint_left.mp ((disjoint_iff r s).mpr h) hr hq

end Box

end DigitalModulation
