import Mathlib.Algebra.Order.Group.Unbundled.Int
import Mathlib.Algebra.Order.Ring.Int
import Mathlib.Data.List.Chain
import Mathlib.Data.List.Range
import Mathlib.Tactic.Linarith
import Mathlib.Tactic.Ring

/-!
# Arcs on a grid

An eighth of a circle is walked from its highest place: every turn goes one column on, and one row
down when a decision variable is not negative.

* `Place`, `next`, `walk`: the places of the arc, until the column is not smaller than the row;
* `OnArc c r`: what holds of a place of the arc of radius `r`, whose decision starts off by `c`;
* `onArc_of_mem_walk`: every place of a walk is one of the arc;
* `OnArc.ring`, `OnArc.inside`: how far such a place is from the circle;
* `exists_mem_walk`: there is a place in every column, or in the row of that number;
* `walk_next`, `walk_prev`: how the walk goes on behind a place, and where a place comes from;
* `outline`, `exists_mem_outline`: the walk and its mirror image, which no path can cross.
-/

namespace Midpoint

/-- Column, row and decision variable. -/
structure Place where
  x : ℤ
  y : ℤ
  p : ℤ

/-- One turn. -/
def next (s : Place) : Place :=
  if s.p < 0 then ⟨s.x + 1, s.y, s.p + (2 * (s.x + 1) + 1)⟩
  else ⟨s.x + 1, s.y - 1, s.p + (2 * (s.x + 1 - (s.y - 1)) + 1)⟩

/-- The places of at most `n` turns, as long as the column is smaller than the row. -/
def walk : ℕ → Place → List Place
  | 0, s => [s]
  | n + 1, s => s :: if s.x < s.y then walk n (next s) else []

theorem next_x (s : Place) : (next s).x = s.x + 1 := by
  unfold next
  split_ifs <;> rfl

theorem next_y (s : Place) : (next s).y = s.y ∨ (next s).y = s.y - 1 := by
  unfold next
  split_ifs
  · exact .inl rfl
  · exact .inr rfl

theorem mem_walk_self (n : ℕ) (s : Place) : s ∈ walk n s := by
  cases n <;> exact List.mem_cons_self

theorem mem_walk_succ {n : ℕ} {s q : Place} :
    q ∈ walk (n + 1) s ↔ q = s ∨ s.x < s.y ∧ q ∈ walk n (next s) := by
  rw [walk, List.mem_cons]
  split_ifs with h
  · simp [h]
  · simp [h]

/-! ### The distance from the circle -/

/-- A place of the arc of radius `r`: its decision, and how far it is inside and outside the
circle. -/
structure OnArc (c r : ℤ) (s : Place) : Prop where
  decision : s.p = (s.x + 1) ^ 2 + s.y ^ 2 - s.y + c - r ^ 2
  column : 0 ≤ s.x
  row : s.y ≤ r
  lower : r ^ 2 ≤ s.x ^ 2 + s.y ^ 2 + s.y + c
  upper : s.x ≤ s.y → s.x ^ 2 + s.y ^ 2 ≤ r ^ 2 + s.y

section Arc

variable {c r : ℤ}

/-- The highest place is on the arc. -/
theorem onArc_start (hr : 0 ≤ r) (hc : 0 ≤ c) {s : Place} (hx : s.x = 0) (hy : s.y = r)
    (hp : s.p = 1 - r + c) : OnArc c r s where
  decision := by rw [hp, hx, hy]; ring
  column := hx.ge
  row := hy.le
  lower := by rw [hx, hy]; linarith
  upper := fun _ => by rw [hx, hy]; linarith

/-- One turn stays on the arc. -/
theorem OnArc.next (hc : 0 ≤ c) {s : Place} (h : OnArc c r s) (hlt : s.x < s.y) :
    OnArc c r (next s) := by
  obtain ⟨hp, hcol, hrow, hlower, hupper⟩ := h
  have hupper' := hupper hlt.le
  unfold Midpoint.next
  split_ifs with hneg
  · rw [hp] at hneg
    refine ⟨?_, by dsimp only; omega, hrow, ?_, fun _ => ?_⟩
    · rw [hp]
      ring
    · calc r ^ 2 ≤ s.x ^ 2 + s.y ^ 2 + s.y + c := hlower
        _ ≤ (s.x + 1) ^ 2 + s.y ^ 2 + s.y + c := by linarith [sq_nonneg s.x]
    · linarith
  · rw [hp, not_lt] at hneg
    refine ⟨?_, by dsimp only; omega, by dsimp only; omega, ?_, fun hle => ?_⟩
    · rw [hp]
      ring
    · linarith
    · -- The column grows by as much as the row shrinks, and was smaller by two.
      dsimp only at hle
      calc (s.x + 1) ^ 2 + (s.y - 1) ^ 2 = s.x ^ 2 + s.y ^ 2 + 2 * (s.x - s.y + 1) := by ring
        _ ≤ r ^ 2 + (s.y - 1) := by linarith

theorem onArc_of_mem_walk (hc : 0 ≤ c) {n : ℕ} {s q : Place} (h : OnArc c r s)
    (hq : q ∈ walk n s) : OnArc c r q := by
  induction n generalizing s with
  | zero => exact List.mem_singleton.mp hq ▸ h
  | succ n ih =>
    rcases mem_walk_succ.mp hq with rfl | ⟨hlt, hq⟩
    · exact h
    · exact ih (h.next hc hlt) hq

/-- A place of the arc is less than half a step outside the circle, and not a whole one inside. -/
theorem OnArc.ring (hc : c ≤ 1) {s : Place} (h : OnArc c r s) (hle : s.x ≤ s.y) :
    r ^ 2 - r - 1 ≤ s.x ^ 2 + s.y ^ 2 ∧ s.x ^ 2 + s.y ^ 2 ≤ r ^ 2 + r := by
  have hlower := h.lower
  have hupper := h.upper hle
  have hrow := h.row
  constructor <;> linarith

/-- Its decision variable is small. -/
theorem OnArc.decision_bounds (hc : c ≤ 1) {s : Place} (h : OnArc c r s) (hle : s.x ≤ s.y) :
    -(2 * r) ≤ s.p ∧ s.p ≤ 2 * r + 2 := by
  obtain ⟨hp, hcol, hrow, hlower, hupper⟩ := h
  have hsq : (s.x + 1) ^ 2 = s.x ^ 2 + 2 * s.x + 1 := by ring
  have hupper' := hupper hle
  rw [hp, hsq]
  constructor <;> linarith

/-- It is outside the circle that is smaller by one. -/
theorem OnArc.inside (hr : 1 ≤ r) (hc : c ≤ 1) (hc1 : r = 1 → c = 0) {s : Place} (h : OnArc c r s)
    (hle : s.x ≤ s.y) : (r - 1) ^ 2 < s.x ^ 2 + s.y ^ 2 := by
  have hsmaller : (r - 1) ^ 2 = r ^ 2 - 2 * r + 1 := by ring
  have hlower := h.lower
  have hrow := h.row
  obtain hy | hy := hrow.eq_or_lt
  · rw [hsmaller, hy]
    linarith [sq_nonneg s.x]
  · obtain rfl | hr1 := hr.eq_or_lt
    · have hcol := h.column
      have hx : s.x = 0 := by omega
      have hy : s.y = 0 := by omega
      rw [hx, hy, hc1 rfl] at hlower
      norm_num at hlower
    · rw [hsmaller]
      linarith

end Arc

/-! ### Where the walk goes -/

/-- **A walk from the highest place leaves no gap**: to every number up to its height there is a
place in that column or in that row. -/
theorem exists_mem_walk {n : ℕ} {s : Place} (hn : (s.y - s.x).toNat ≤ n) {v : ℤ} (hx : s.x ≤ v)
    (hy : v ≤ s.y) : ∃ q ∈ walk n s, q.x ≤ q.y ∧ (q.x = v ∨ q.y = v) := by
  induction n generalizing s with
  | zero => exact ⟨s, mem_walk_self 0 s, hx.trans hy, .inl (by omega)⟩
  | succ n ih =>
    obtain hx | hx := hx.eq_or_lt
    · exact ⟨s, mem_walk_self _ s, by omega, .inl hx⟩
    obtain hy | hy := hy.eq_or_lt
    · exact ⟨s, mem_walk_self _ s, by omega, .inr hy.symm⟩
    have hnx := next_x s
    have hny := next_y s
    obtain ⟨q, hq, hplace⟩ := ih (s := next s) (by omega) (by omega) (by omega)
    exact ⟨q, mem_walk_succ.mpr (.inr ⟨by omega, hq⟩), hplace⟩

/-- A place of the walk is the last one, not before the diagonal, or the next one is in the walk. -/
theorem walk_next {n : ℕ} {s q : Place} (hn : (s.y - s.x).toNat ≤ n) (hq : q ∈ walk n s)
    (hlt : q.x < q.y) : next q ∈ walk n s := by
  induction n generalizing s with
  | zero =>
    rw [List.mem_singleton.mp hq] at hlt
    omega
  | succ n ih =>
    rcases mem_walk_succ.mp hq with rfl | ⟨hlt', hq⟩
    · exact mem_walk_succ.mpr (.inr ⟨hlt, mem_walk_self n _⟩)
    · have hnx := next_x s
      have hny := next_y s
      exact mem_walk_succ.mpr (.inr ⟨hlt', ih (by omega) hq⟩)

/-- A place of the walk is the first one, or behind another one. -/
theorem walk_prev {n : ℕ} {s q : Place} (hq : q ∈ walk n s) :
    q = s ∨ ∃ q' ∈ walk n s, q'.x < q'.y ∧ next q' = q := by
  induction n generalizing s with
  | zero => exact .inl (List.mem_singleton.mp hq)
  | succ n ih =>
    rcases mem_walk_succ.mp hq with rfl | ⟨hlt, hq⟩
    · exact .inl rfl
    · rcases ih hq with rfl | ⟨q', hq', hlt', rfl⟩
      · exact .inr ⟨s, mem_walk_self _ s, hlt, rfl⟩
      · exact .inr ⟨q', mem_walk_succ.mpr (.inr ⟨hlt, hq'⟩), hlt', rfl⟩

/-- Turns behind the last one are not taken. -/
theorem walk_of_le {n : ℕ} {s : Place} (hn : (s.y - s.x).toNat ≤ n) (k : ℕ) :
    walk (n + k) s = walk n s := by
  induction n generalizing s with
  | zero =>
    cases k with
    | zero => rfl
    | succ k =>
      rw [Nat.zero_add]
      exact congrArg (List.cons s) (if_neg (by omega))
  | succ n ih =>
    have hnx := next_x s
    have hny := next_y s
    rw [Nat.add_right_comm, walk, walk]
    split_ifs with hlt
    · rw [ih (by omega)]
    · rfl

/-! ### The outline -/

/-- The places of a quadrant that lie on the walk or mirror one of its places. -/
def outline (n : ℕ) (s : Place) : Set (ℤ × ℤ) :=
  {a | ∃ q ∈ walk n s, q.x ≤ q.y ∧ (a = (q.x, q.y) ∨ a = (q.y, q.x))}

/-- The place is nearer to the centre than the walk is. -/
def Within (n : ℕ) (s : Place) (a : ℤ × ℤ) : Prop :=
  ∃ q ∈ walk n s, q.x = min a.1 a.2 ∧ max a.1 a.2 < q.y

/-- The places differ by at most one, in one coordinate. -/
def Near (a b : ℤ × ℤ) : Prop :=
  (a.1 = b.1 ∧ |a.2 - b.2| ≤ 1) ∨ (a.2 = b.2 ∧ |a.1 - b.1| ≤ 1)

/-- Places that follow one another in a row are near. -/
theorem isChain_row (x y : ℤ) (n : ℕ) :
    ((List.range (n + 1)).map fun i : ℕ => (x + i, y)).IsChain Near := by
  rw [List.isChain_map, List.isChain_range_succ]
  refine fun i _ => .inr ⟨rfl, ?_⟩
  rw [abs_le]
  omega

section Outline

variable {n : ℕ} {s : Place}

theorem mem_outline_of_eq {a : ℤ × ℤ} {q : Place} (hq : q ∈ walk n s) (hx : q.x = min a.1 a.2)
    (hy : q.y = max a.1 a.2) : a ∈ outline n s := by
  refine ⟨q, hq, hx ▸ hy ▸ min_le_max, ?_⟩
  rcases le_total a.1 a.2 with h | h
  · rw [min_eq_left h] at hx
    rw [max_eq_right h] at hy
    exact .inl (Prod.ext hx.symm hy.symm)
  · rw [min_eq_right h] at hx
    rw [max_eq_left h] at hy
    exact .inr (Prod.ext hy.symm hx.symm)

/-- From a place within the outline one comes to another one, or to the outline. -/
theorem Within.near (hn : (s.y - s.x).toNat ≤ n) {a b : ℤ × ℤ} (ha : Within n s a)
    (hab : Near a b) (hb : s.x ≤ b.1 ∧ s.x ≤ b.2) : Within n s b ∨ b ∈ outline n s := by
  obtain ⟨q, hq, hx, hy⟩ := ha
  -- Of the smaller and the greater coordinate one stays.
  have hsorted : (min b.1 b.2 = min a.1 a.2 ∧ max b.1 b.2 ≤ max a.1 a.2 + 1) ∨
      (max b.1 b.2 = max a.1 a.2 ∧
        (min b.1 b.2 = min a.1 a.2 + 1 ∨ min b.1 b.2 = min a.1 a.2 - 1)) := by
    rcases hab with ⟨heq, hle⟩ | ⟨heq, hle⟩
    · rw [abs_le] at hle
      omega
    · rw [abs_le] at hle
      omega
  have hmem {q' : Place} (hq' : q' ∈ walk n s) (hx' : q'.x = min b.1 b.2)
      (hy' : max b.1 b.2 ≤ q'.y) : Within n s b ∨ b ∈ outline n s := by
    rcases hy'.lt_or_eq with hlt | heq
    · exact .inl ⟨q', hq', hx', hlt⟩
    · exact .inr (mem_outline_of_eq hq' hx' heq.symm)
  rcases hsorted with ⟨hmin, hmax⟩ | ⟨hmax, hmin | hmin⟩
  · exact hmem hq (hx.trans hmin.symm) (by omega)
  · have hnx := next_x q
    have hny := next_y q
    exact hmem (walk_next hn hq (by omega)) (by omega) (by omega)
  · rcases walk_prev hq with rfl | ⟨q', hq', -, rfl⟩
    · omega
    · have hnx := next_x q'
      have hny := next_y q'
      exact hmem hq' (by omega) (by omega)

/-- **The outline is closed.** Whoever goes from within it to a place that is not, step by step
along the axes, comes across it. -/
theorem exists_mem_outline (hn : (s.y - s.x).toNat ≤ n) {as : List (ℤ × ℤ)}
    (hchain : as.IsChain Near) (hquadrant : ∀ a ∈ as, s.x ≤ a.1 ∧ s.x ≤ a.2) {first last : ℤ × ℤ}
    (hfirst : as.head? = some first) (hlast : as.getLast? = some last) (hin : Within n s first)
    (hout : ¬ Within n s last) : ∃ a ∈ as, a ∈ outline n s := by
  induction as generalizing first with
  | nil => cases hfirst
  | cons a as ih =>
    obtain rfl : a = first := Option.some_inj.mp hfirst
    cases as with
    | nil =>
      obtain rfl : a = last := Option.some_inj.mp hlast
      exact absurd hin hout
    | cons b as =>
      rw [List.isChain_cons_cons] at hchain
      rw [List.forall_mem_cons] at hquadrant
      rw [List.getLast?_cons_cons] at hlast
      rcases hin.near hn hchain.1 (hquadrant.2 b List.mem_cons_self) with hb | hb
      · obtain ⟨a', ha', hout'⟩ := ih hchain.2 hquadrant.2 rfl hlast hb
        exact ⟨a', List.mem_cons_of_mem a ha', hout'⟩
      · exact ⟨b, List.mem_cons_of_mem a List.mem_cons_self, hb⟩

end Outline

/-- A place within the outline is inside the circle, or less than half a step outside it. -/
theorem Within.le {c r : ℤ} (hc : 0 ≤ c) {n : ℕ} {s : Place} (hs : OnArc c r s) {a : ℤ × ℤ}
    (ha : Within n s a) : a.1 ^ 2 + a.2 ^ 2 ≤ r ^ 2 + r := by
  obtain ⟨q, hq, hx, hy⟩ := ha
  have hon := onArc_of_mem_walk hc hs hq
  have hcol := hon.column
  have hmax : (max a.1 a.2) ^ 2 ≤ q.y ^ 2 := by
    rw [sq_le_sq₀ (by omega) (by omega)]
    exact hy.le
  have hsum : a.1 ^ 2 + a.2 ^ 2 = (min a.1 a.2) ^ 2 + (max a.1 a.2) ^ 2 := by
    rcases le_total a.1 a.2 with h | h
    · rw [min_eq_left h, max_eq_right h]
    · rw [min_eq_right h, max_eq_left h, Int.add_comm]
  have hupper := hon.upper (by omega)
  have hrow := hon.row
  rw [hsum, ← hx]
  linarith

end Midpoint
