import DigitalModulation.Lib.Machine
import Mathlib.Tactic.Common

/-!
# `my_Clk_divider.sv`: the symbol clock

A counter on `clk_in` and the output it drives.

* `ClkDivider.clkIn`: a rising edge of `clk_in`;
* `ClkDivider.rises`: that edge also is a rising edge of `clk_out`;
* `ClkDivider.locked`: the states with one divisor all the time;
* `divider_locks`: from any state the output has the period of the divisor as soon as the counter
  starts again.
-/

namespace DigitalModulation

/-- The two registers of `my_Clk_divider`. -/
structure ClkDivider where
  counter : BitVec 32
  clkOut : Bool
  deriving DecidableEq

namespace ClkDivider

/-- A rising edge of `clk_in`. -/
def clkIn (divisor : BitVec 32) (switch : Bool) (s : ClkDivider) : ClkDivider :=
  if switch then
    { counter := if divisor - 1 ≤ s.counter then 0 else s.counter + 1
      clkOut := s.counter < divisor / 2 }
  else ⟨0, false⟩

/-- The edge of `clk_in` brings a rising edge of `clk_out`. -/
def rises (divisor : BitVec 32) (switch : Bool) (s : ClkDivider) : Bool :=
  !s.clkOut && (s.clkIn divisor switch).clkOut

/-! ### Inputs that change -/

/-- An edge with the divisor and the switch it samples. -/
def step (s : ClkDivider) (i : BitVec 32 × Bool) : ClkDivider := s.clkIn i.1 i.2

theorem step_counter_lt (s : ClkDivider) {i : BitVec 32 × Bool} (hi : 1 ≤ i.1) :
    (s.step i).counter < i.1 := by
  have hpos : 0 < i.1 := BitVec.lt_def.mpr (BitVec.le_def.mp hi)
  unfold step clkIn
  split_ifs with hswitch hend
  · exact hpos
  · show s.counter + 1 < i.1
    bv_omega
  · exact hpos

theorem rises_switch_off (s : ClkDivider) (divisor : BitVec 32) :
    s.rises divisor false = false := by
  simp [rises, clkIn]

/-! ### A divisor that stays -/

/-- The states with one divisor and the switch on. -/
def locked (divisor : BitVec 32) (s : ClkDivider) : ℕ → ClkDivider :=
  Machine.run step s fun _ => (divisor, true)

section Locked

variable {divisor : BitVec 32} (s : ClkDivider)

theorem locked_succ (t : ℕ) :
    locked divisor s (t + 1) = (locked divisor s t).clkIn divisor true :=
  rfl

theorem toNat_counter_clkIn (h : 2 ≤ divisor.toNat) :
    (s.clkIn divisor true).counter.toNat =
      if s.counter.toNat < divisor.toNat - 1 then s.counter.toNat + 1 else 0 := by
  simp only [clkIn, if_true]
  split_ifs <;> bv_omega

theorem clkOut_clkIn : (s.clkIn divisor true).clkOut =
    decide (s.counter.toNat < divisor.toNat / 2) := by
  simp [clkIn, BitVec.lt_def, BitVec.toNat_udiv]

/-- Until it starts again the counter counts. -/
theorem counter_locked_of_lt (h : 2 ≤ divisor.toNat) {t : ℕ}
    (ht : s.counter.toNat + t < divisor.toNat) :
    (locked divisor s t).counter.toNat = s.counter.toNat + t := by
  induction t with
  | zero => rfl
  | succ t ih =>
    rw [locked_succ, toNat_counter_clkIn _ h, ih (by omega), if_pos (by omega), Nat.add_assoc]

/-- When it starts again, whatever it held. The output is low then. -/
theorem locked_restart (h : 2 ≤ divisor.toNat) {T : ℕ}
    (hT : T = max 1 (divisor.toNat - s.counter.toNat)) :
    (locked divisor s T).counter.toNat = 0 ∧ (locked divisor s T).clkOut = false := by
  obtain ⟨t, rfl⟩ := Nat.exists_eq_add_of_le' (show 1 ≤ T by omega)
  have hlast : divisor.toNat - 1 ≤ (locked divisor s t).counter.toNat := by
    by_cases hlt : s.counter.toNat + 1 < divisor.toNat
    · rw [counter_locked_of_lt s h (by omega)]
      omega
    · obtain rfl : t = 0 := by omega
      show divisor.toNat - 1 ≤ s.counter.toNat
      omega
  rw [locked_succ, toNat_counter_clkIn _ h, clkOut_clkIn, decide_eq_false_iff_not]
  exact ⟨if_neg (by omega), by omega⟩

variable {s}

/-- From there on it counts modulo the divisor. -/
theorem counter_locked_add (h : 2 ≤ divisor.toNat) {T : ℕ}
    (hT : (locked divisor s T).counter.toNat = 0) (k : ℕ) :
    (locked divisor s (T + k)).counter.toNat = k % divisor.toNat := by
  obtain ⟨m, hm⟩ : ∃ m, divisor.toNat = m + 1 := Nat.exists_eq_add_of_le' (by omega)
  induction k with
  | zero => exact hT.trans (Nat.zero_mod _).symm
  | succ k ih =>
    rw [← Nat.add_assoc, locked_succ, toNat_counter_clkIn _ h, ih, hm]
    exact Machine.wrap_mod k m

/-- The output is one edge late. -/
theorem clkOut_locked_add (h : 2 ≤ divisor.toNat) {T : ℕ}
    (hT : (locked divisor s T).counter.toNat = 0 ∧ (locked divisor s T).clkOut = false) (k : ℕ) :
    (locked divisor s (T + k)).clkOut =
      decide (0 < k % divisor.toNat ∧ k % divisor.toNat ≤ divisor.toNat / 2) := by
  cases k with
  | zero => simpa using hT.2
  | succ k =>
    obtain ⟨m, hm⟩ : ∃ m, divisor.toNat = m + 1 := Nat.exists_eq_add_of_le' (by omega)
    rw [← Nat.add_assoc, locked_succ, clkOut_clkIn, counter_locked_add h hT.1, hm,
      ← Machine.wrap_mod k m]
    congr 1
    split_ifs
    · exact propext ⟨fun hk => ⟨by omega, by omega⟩, fun hk => by omega⟩
    · exact propext ⟨fun hk => by omega, fun hk => by omega⟩

theorem rises_locked_add (h : 2 ≤ divisor.toNat) {T : ℕ}
    (hT : (locked divisor s T).counter.toNat = 0 ∧ (locked divisor s T).clkOut = false) (k : ℕ) :
    (locked divisor s (T + k)).rises divisor true = true ↔ divisor.toNat ∣ k := by
  unfold rises
  rw [clkOut_locked_add h hT, clkOut_clkIn, counter_locked_add h hT.1, Nat.dvd_iff_mod_eq_zero,
    Bool.and_eq_true, Bool.not_eq_true', decide_eq_false_iff_not, decide_eq_true_iff]
  omega

end Locked

end ClkDivider

/-- Of `m` numbers in a row one is divisible by `m`. -/
theorem existsUnique_dvd {m : ℕ} (hm : 0 < m) (k : ℕ) : ∃! j, k ≤ j ∧ j < k + m ∧ m ∣ j := by
  have hlt := Nat.mod_lt (k + (m - 1)) hm
  have hsplit := Nat.mod_add_div (k + (m - 1)) m
  refine ⟨m * ((k + (m - 1)) / m), ⟨by omega, by omega, Nat.dvd_mul_right _ _⟩, ?_⟩
  rintro j ⟨hkj, hj, q, rfl⟩
  congr 1
  exact (Nat.div_eq_of_lt_le (by rw [Nat.mul_comm]; omega)
    (by rw [Nat.mul_comm, Nat.mul_succ]; omega)).symm

/-- **The divider locks from any state.** With one divisor, 2 or more, the counter starts again
after at most as many edges as it is short of it, or at the next one, and from there on the output
has the period of the divisor, is high for the half of it, rounded down, and then low, and rises
once in every period. With inputs that change the counter stays below the divisor, and the output
does not rise while the switch is off. -/
theorem divider_locks (divisor : BitVec 32) (h : 2 ≤ divisor) (s : ClkDivider)
    (is : ℕ → BitVec 32 × Bool) (his : ∀ t, 1 ≤ (is t).1) :
    let T := max 1 (divisor.toNat - s.counter.toNat)
    let D := divisor.toNat
    (ClkDivider.locked divisor s T).counter = 0 ∧
    (∀ n, ∀ k < D,
      (ClkDivider.locked divisor s (T + (n * D + k) + 1)).clkOut = decide (k < D / 2)) ∧
    (∀ k, (ClkDivider.locked divisor s (T + (k + D))).clkOut =
      (ClkDivider.locked divisor s (T + k)).clkOut) ∧
    (∀ k, ∃! j, k ≤ j ∧ j < k + D ∧
      (ClkDivider.locked divisor s (T + j)).rises divisor true = true) ∧
    ∀ t, (Machine.run ClkDivider.step s is (t + 1)).counter < (is t).1 ∧
      ((is t).2 = false →
        (Machine.run ClkDivider.step s is t).rises (is t).1 (is t).2 = false) := by
  intro T D
  have hD : 2 ≤ divisor.toNat := BitVec.le_def.mp h
  have hT := ClkDivider.locked_restart (T := T) s hD rfl
  refine ⟨BitVec.eq_of_toNat_eq hT.1, fun n k hk => ?_, fun k => ?_, fun k => ?_, fun t => ⟨?_, ?_⟩⟩
  · rw [ClkDivider.locked_succ, ClkDivider.clkOut_clkIn, ClkDivider.counter_locked_add hD hT.1,
      Nat.add_comm (n * D), Nat.add_mul_mod_self_right, Nat.mod_eq_of_lt hk]
  · rw [ClkDivider.clkOut_locked_add hD hT, ClkDivider.clkOut_locked_add hD hT, Nat.add_mod_right]
  · simp only [ClkDivider.rises_locked_add hD hT]
    exact existsUnique_dvd (by omega) k
  · exact ClkDivider.step_counter_lt _ (his t)
  · intro hoff
    rw [hoff]
    exact ClkDivider.rises_switch_off _ _

/-- The divisor of the 1 Hz clock from a counter beyond it. -/
theorem divider_locks_beyond :
    (ClkDivider.locked 50000000 ⟨60000000, true⟩ 1).counter = 0 :=
  (divider_locks 50000000 (by decide) ⟨60000000, true⟩ (fun _ => (1, true))
    fun _ => by decide).1

end DigitalModulation
