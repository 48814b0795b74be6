import Mathlib.Logic.Function.Iterate
import Mathlib.Tactic.Linarith
import Mathlib.Tactic.Ring

/-!
# Lines on a grid

A line goes `a` columns and `b` rows. Along its longer axis it takes every step; along the shorter
one it takes a step whenever a decision variable is positive.

* `trace dPr dPru P k`: the steps along the shorter axis and the decision variable after `k` turns;
* `decision_eq`: the decision variable in terms of the steps taken;
* `error_bounds`: how far the line is from the ideal one;
* `offset a b k`: columns and rows after `k` turns; `offset_last`, `offset_succ`, `offset_error`: it
  ends where it should, moves to a neighbour, and keeps to within half a step;
* `exists_offset_row`: it meets every row where it should.
-/

namespace Bresenham

/-- One turn. -/
def next (dPr dPru : ℤ) (s : ℕ × ℤ) : ℕ × ℤ :=
  if 0 < s.2 then (s.1 + 1, s.2 + dPru) else (s.1, s.2 + dPr)

/-- The steps along the shorter axis and the decision variable after `k` turns. -/
def trace (dPr dPru P : ℤ) (k : ℕ) : ℕ × ℤ := (next dPr dPru)^[k] (0, P)

section Trace

variable (dPr dPru P : ℤ)

theorem trace_succ (k : ℕ) :
    trace dPr dPru P (k + 1) = next dPr dPru (trace dPr dPru P k) :=
  Function.iterate_succ_apply' _ _ _

theorem iterate_next (m : ℕ) (k : ℕ) :
    (next dPr dPru)^[k] (m, P) = (m + (trace dPr dPru P k).1, (trace dPr dPru P k).2) := by
  induction k with
  | zero => rfl
  | succ k ih =>
    rw [Function.iterate_succ_apply', ih, trace_succ]
    unfold next
    split_ifs
    · rfl
    · rfl

/-- The turns behind the first one start from its decision. -/
theorem trace_succ' (k : ℕ) : trace dPr dPru P (k + 1) =
    if 0 < P then ((trace dPr dPru (P + dPru) k).1 + 1, (trace dPr dPru (P + dPru) k).2)
    else trace dPr dPru (P + dPr) k := by
  have hfirst : next dPr dPru (0, P) = if 0 < P then (1, P + dPru) else (0, P + dPr) := rfl
  rw [trace, Function.iterate_succ_apply, hfirst]
  split_ifs
  · rw [iterate_next, Nat.add_comm]
  · rfl

theorem minor_succ (k : ℕ) : (trace dPr dPru P (k + 1)).1 = (trace dPr dPru P k).1 ∨
    (trace dPr dPru P (k + 1)).1 = (trace dPr dPru P k).1 + 1 := by
  rw [trace_succ]
  unfold next
  split_ifs
  · exact .inr rfl
  · exact .inl rfl

end Trace

/-! ### The error -/

/-- Steps along the shorter axis after `k` of the longer one, for a line of `a` by `b`. -/
def minor (a b : ℤ) (k : ℕ) : ℕ := (trace (2 * b) (2 * b - 2 * a) (2 * b - a) k).1

/-- The decision after `k` turns. -/
def decision (a b : ℤ) (k : ℕ) : ℤ := (trace (2 * b) (2 * b - 2 * a) (2 * b - a) k).2

section Error

variable {a b : ℤ}

theorem decision_eq (k : ℕ) :
    decision a b k = 2 * b * (k + 1) - a * (2 * minor a b k + 1) := by
  induction k with
  | zero => simp [decision, minor, trace]
  | succ k ih =>
    unfold decision minor at ih ⊢
    rw [trace_succ]
    unfold next
    split_ifs
    · dsimp only
      rw [ih]
      push_cast
      ring
    · dsimp only
      rw [ih]
      push_cast
      ring

/-- Twice the distance to the ideal line, times its length, never exceeds the length. -/
theorem error_bounds (hb : 0 ≤ b) (hba : b ≤ a) (k : ℕ) :
    2 * (b * k - a * minor a b k) ≤ a ∧ -a ≤ 2 * (b * k - a * minor a b k) ∧
      (0 < a → -a < 2 * (b * k - a * minor a b k)) := by
  induction k with
  | zero => simp [minor, trace]; omega
  | succ k ih =>
    have hP := decision_eq (a := a) (b := b) k
    unfold decision minor at hP
    unfold minor at ih ⊢
    rw [trace_succ]
    unfold next
    split_ifs with h
    · rw [hP] at h
      push_cast
      refine ⟨?_, ?_, fun _ => ?_⟩ <;> linarith
    · rw [hP] at h
      push_cast
      refine ⟨?_, ?_, fun ha => ?_⟩
      · linarith
      · linarith [ih.2.1]
      · linarith [ih.2.2 ha]

theorem minor_le (hb : 0 ≤ b) (hba : b ≤ a) {k : ℕ} (hk : k ≤ a) : (minor a b k : ℤ) ≤ b := by
  obtain rfl | ha := (hb.trans hba).eq_or_lt
  · obtain rfl : k = 0 := by omega
    exact hb
  · have herror := (error_bounds hb hba k).2.2 ha
    have hbk : b * k ≤ b * a := mul_le_mul_of_nonneg_left hk hb
    by_contra hlt
    have hmul : a * (b + 1) ≤ a * minor a b k := mul_le_mul_of_nonneg_left (by omega) ha.le
    linarith

theorem minor_last (hb : 0 ≤ b) (hba : b ≤ a) : (minor a b a.toNat : ℤ) = b := by
  have hcast : (a.toNat : ℤ) = a := Int.toNat_of_nonneg (hb.trans hba)
  refine (minor_le hb hba hcast.le).antisymm ?_
  obtain rfl | ha := (hb.trans hba).eq_or_lt
  · obtain rfl : b = 0 := by omega
    exact Int.natCast_nonneg _
  · have herror := (error_bounds hb hba a.toNat).1
    rw [hcast] at herror
    by_contra hlt
    have hmul : a * (minor a b a.toNat + 1) ≤ a * b := mul_le_mul_of_nonneg_left (by omega) ha.le
    linarith

/-- The decision variable stays small. -/
theorem decision_bounds (hb : 0 ≤ b) (hba : b ≤ a) (k : ℕ) :
    -2 * a ≤ decision a b k ∧ decision a b k ≤ 2 * a := by
  obtain ⟨hle, hge, -⟩ := error_bounds hb hba k
  rw [decision_eq]
  constructor <;> linarith

end Error

/-! ### Both axes -/

/-- Columns and rows after `k` turns of a line of `a` columns and `b` rows. -/
def offset (a b : ℤ) (k : ℕ) : ℕ × ℕ := if b ≤ a then (k, minor a b k) else (minor b a k, k)

section Offset

variable {a b : ℤ}

theorem offset_zero : offset a b 0 = (0, 0) := by
  unfold offset
  split_ifs <;> rfl

theorem offset_le (ha : 0 ≤ a) (hb : 0 ≤ b) {k : ℕ} (hk : k ≤ max a b) :
    ((offset a b k).1 : ℤ) ≤ a ∧ ((offset a b k).2 : ℤ) ≤ b := by
  unfold offset
  split_ifs with h
  · rw [max_eq_left h] at hk
    exact ⟨hk, minor_le hb h hk⟩
  · rw [max_eq_right (not_le.mp h).le] at hk
    exact ⟨minor_le ha (not_le.mp h).le hk, hk⟩

/-- The line ends after `a` columns and `b` rows. -/
theorem offset_last (ha : 0 ≤ a) (hb : 0 ≤ b) :
    offset a b (max a b).toNat = (a.toNat, b.toNat) := by
  unfold offset
  split_ifs with h
  · have hlast := minor_last hb h
    rw [max_eq_left h]
    exact Prod.ext rfl (by dsimp only; omega)
  · have hlast := minor_last ha (not_le.mp h).le
    rw [max_eq_right (not_le.mp h).le]
    exact Prod.ext (by dsimp only; omega) rfl

/-- Each turn goes to a neighbour, and never back. -/
theorem offset_succ (k : ℕ) :
    ((offset a b (k + 1)).1 = (offset a b k).1 ∨ (offset a b (k + 1)).1 = (offset a b k).1 + 1) ∧
      ((offset a b (k + 1)).2 = (offset a b k).2 ∨
        (offset a b (k + 1)).2 = (offset a b k).2 + 1) ∧
      offset a b (k + 1) ≠ offset a b k := by
  unfold offset
  split_ifs
  · exact ⟨.inr rfl, minor_succ _ _ _ k, fun h => by simp at h⟩
  · exact ⟨minor_succ _ _ _ k, .inr rfl, fun h => by simp at h⟩

/-- **The line keeps to within half a step of the ideal one**, along its shorter axis. -/
theorem offset_error (ha : 0 ≤ a) (hb : 0 ≤ b) (k : ℕ) :
    2 * |a * (offset a b k).2 - b * (offset a b k).1| ≤ max a b := by
  unfold offset
  split_ifs with h
  · obtain ⟨hle, hge, -⟩ := error_bounds hb h k
    rw [max_eq_left h]
    rcases abs_choice (a * minor a b k - b * k) with habs | habs <;> rw [habs] <;> linarith
  · obtain ⟨hle, hge, -⟩ := error_bounds ha (not_le.mp h).le k
    rw [max_eq_right (not_le.mp h).le]
    rcases abs_choice (a * k - b * minor b a k) with habs | habs <;> rw [habs] <;> linarith

/-- **Every row is met near the ideal line**: less than a column away from where that meets it. -/
theorem exists_offset_row (ha : 0 ≤ a) (hb : 0 < b) {r : ℕ} (hr : r ≤ b) :
    ∃ k : ℕ, k ≤ max a b ∧ (offset a b k).2 = r ∧ |b * (offset a b k).1 - a * r| < b := by
  unfold offset
  by_cases h : b ≤ a
  · have hpos : 0 < a := hb.trans_le h
    have har : 0 ≤ a * r := Int.mul_nonneg ha (Int.natCast_nonneg r)
    obtain ⟨q, hq⟩ := Int.eq_ofNat_of_zero_le (Int.ediv_nonneg har hb.le)
    have hdiv := Int.mul_ediv_add_emod (a * r) b
    have hmod0 := Int.emod_nonneg (a * r) hb.ne'
    have hmod := Int.emod_lt_of_pos (a * r) hb
    rw [hq] at hdiv
    have hab : a * r ≤ a * b := Int.mul_le_mul_of_nonneg_left hr ha
    have hqa {k : ℕ} (hk : b * k ≤ a * b) : (k : ℤ) ≤ a :=
      le_of_mul_le_mul_left (hk.trans_eq (mul_comm a b)) hb
    obtain ⟨hle, hge, -⟩ := error_bounds hb.le h q
    simp only [if_pos h, max_eq_left h]
    have hmr : minor a b q ≤ r := by
      by_contra hlt
      have hmul : a * (r + 1) ≤ a * minor a b q := Int.mul_le_mul_of_nonneg_left (by omega) ha
      linarith
    obtain hmr | hmr := hmr.eq_or_lt
    · refine ⟨q, hqa (by linarith), hmr, ?_⟩
      rw [abs_lt]
      constructor <;> linarith
    · -- The row is met one turn later.
      have hmul : a * (minor a b q + 1) ≤ a * r := Int.mul_le_mul_of_nonneg_left (by omega) ha
      have hle' := (error_bounds hb.le h (q + 1)).1
      push_cast at hle'
      have hrm : r ≤ minor a b (q + 1) := by
        by_contra hlt
        have hmul' : a * (minor a b (q + 1) + 1) ≤ a * r :=
          Int.mul_le_mul_of_nonneg_left (by omega) ha
        linarith
      have hstep : minor a b (q + 1) = r := by
        have hsucc := minor_succ (2 * b) (2 * b - 2 * a) (2 * b - a) q
        unfold minor at hrm hmr ⊢
        omega
      have hqlt : (q : ℤ) < a := by
        by_contra hlt
        have hmul' : b * a ≤ b * q := Int.mul_le_mul_of_nonneg_left (not_lt.mp hlt) hb.le
        linarith
      refine ⟨q + 1, by push_cast; omega, hstep, ?_⟩
      push_cast
      rw [abs_lt]
      constructor <;> linarith
  · rw [not_le] at h
    obtain ⟨hle, hge, -⟩ := error_bounds ha h.le r
    simp only [if_neg (not_le.mpr h), max_eq_right h.le]
    refine ⟨r, hr, rfl, ?_⟩
    rw [abs_lt]
    constructor <;> linarith

end Offset

end Bresenham
