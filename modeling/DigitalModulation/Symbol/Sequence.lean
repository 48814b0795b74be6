import DigitalModulation.Lib.ShiftRegister
import DigitalModulation.Symbol.Synchronizer
import Mathlib.Data.Fin.VecNotation
import Mathlib.Tactic.FinCases
import Mathlib.Tactic.NormNum.Prime

/-!
# The sequence of `LFSR.sv`

The five flip-flops are a shift register whose feedback is the sum of its first and third cell.

* `Lfsr.cells`, `Lfsr.cells_clk`: the flip-flops as a shift register;
* `Lfsr.symbol`, `Lfsr.bit`: the register and its output after a number of edges;
* `Lfsr.minimalPeriod_shift`: the period is 31, from every state but one;
* `lfsr_sequence`: the sequence put out has every window of five bits but zero, each of them once in
  31 bits.
-/

namespace DigitalModulation

namespace Lfsr

/-- The cells, from the one that is put out first on. -/
def cells (s : Lfsr) : Fin 5 → Bool := ![s.lfsr0, s.lfsr1, s.lfsr2, s.lfsr3, s.lfsr4]

/-- `feedback` in terms of the cells. -/
def cellFeedback (w : Fin 5 → Bool) : Bool := w 0 ^^ w 2

/-- An edge of `clk` without a reset. -/
def next (s : Lfsr) : Lfsr := s.clk true

/-- The register after `k` edges. -/
def symbol (s : Lfsr) (k : ℕ) : Lfsr := next^[k] s

/-- `lfsr[0]` after `k` edges. -/
def bit (s : Lfsr) (k : ℕ) : Bool := (s.symbol k).lfsr0

theorem cells_clk (s : Lfsr) : s.next.cells = ShiftRegister.shift cellFeedback s.cells := by
  obtain ⟨b₄, b₃, b₂, b₁, b₀⟩ := s
  funext i
  fin_cases i <;> rfl

theorem cells_injective : Function.Injective cells := by
  rintro ⟨b₄, b₃, b₂, b₁, b₀⟩ ⟨c₄, c₃, c₂, c₁, c₀⟩ h
  have hcell (i : Fin 5) := congrFun h i
  obtain rfl : b₀ = c₀ := hcell 0
  obtain rfl : b₁ = c₁ := hcell 1
  obtain rfl : b₂ = c₂ := hcell 2
  obtain rfl : b₃ = c₃ := hcell 3
  obtain rfl : b₄ = c₄ := hcell 4
  rfl

theorem cells_symbol (s : Lfsr) (k : ℕ) :
    (s.symbol k).cells = (ShiftRegister.shift cellFeedback)^[k] s.cells :=
  (Function.Semiconj.iterate_right (fun s => cells_clk s) k).eq s

theorem bit_eq_out (s : Lfsr) (k : ℕ) : s.bit k = ShiftRegister.out cellFeedback s.cells k :=
  congrFun (s.cells_symbol k) 0

/-- **The register shows the next five bits.** -/
theorem symbol_eq (s : Lfsr) (k : ℕ) :
    s.symbol k = ⟨s.bit (k + 4), s.bit (k + 3), s.bit (k + 2), s.bit (k + 1), s.bit k⟩ := by
  refine cells_injective ?_
  rw [cells_symbol]
  funext i
  rw [ShiftRegister.iterate_shift_apply]
  fin_cases i <;> exact (s.bit_eq_out _).symm

/-- The state that is never left. -/
def dead : Lfsr := ⟨false, false, false, false, false⟩

theorem eq_dead_of_next_eq {s : Lfsr} (h : s.next = s) : s = dead := by
  obtain ⟨b₄, b₃, b₂, b₁, b₀⟩ := s
  simp only [next, clk, if_true, mk.injEq, feedback] at h
  obtain ⟨hfeedback, rfl, rfl, rfl, rfl⟩ := h
  rw [Bool.xor_self] at hfeedback
  rw [← hfeedback]
  rfl

theorem symbol_thirty_one (s : Lfsr) : s.symbol 31 = s := by
  obtain ⟨_ | _, _ | _, _ | _, _ | _, _ | _⟩ := s <;> rfl

/-- **The period** is 31, from every state but one. -/
theorem minimalPeriod_shift {s : Lfsr} (h : s ≠ dead) :
    Function.minimalPeriod (ShiftRegister.shift cellFeedback) s.cells = 31 := by
  have hprime : Fact (Nat.Prime 31) := ⟨by norm_num⟩
  refine Function.minimalPeriod_eq_prime ?_ fun hfix => h (eq_dead_of_next_eq ?_)
  · exact (s.cells_symbol 31).symm.trans (congrArg cells s.symbol_thirty_one)
  · exact cells_injective (s.cells_clk.trans hfix)

/-- Every state but one comes after the one that the reset leaves. -/
theorem exists_symbol_reset {s : Lfsr} (h : s ≠ dead) : ∃ k < 31, reset.symbol k = s := by
  revert h
  obtain ⟨_ | _, _ | _, _ | _, _ | _, _ | _⟩ := s <;> decide

/-- From one state to the other. -/
theorem exists_symbol {s t : Lfsr} (hs : s ≠ dead) (ht : t ≠ dead) : ∃ k, s.symbol k = t := by
  obtain ⟨i, hi, rfl⟩ := exists_symbol_reset hs
  obtain ⟨j, -, rfl⟩ := exists_symbol_reset ht
  refine ⟨j + (31 - i), ?_⟩
  unfold symbol
  rw [← Function.iterate_add_apply, Nat.add_assoc, Nat.sub_add_cancel hi.le,
    Function.iterate_add_apply]
  exact congrArg next^[j] reset.symbol_thirty_one

end Lfsr

/-- **The sequence is as long as a register of five bits allows.** From every state but zero, a bit
is the sum of the fifth and the third one before it, the sequence repeats after 31 bits and
multiples of 31 only, and of the windows of five bits each one but zero begins at exactly one of any
31 successive places. -/
theorem lfsr_sequence (s : Lfsr) (hs : s ≠ Lfsr.dead) :
    (∀ k, s.bit (k + 5) = (s.bit k ^^ s.bit (k + 2))) ∧
    (∀ p, (∀ k, s.bit (k + p) = s.bit k) ↔ 31 ∣ p) ∧
    ∀ (t : Lfsr) (k : ℕ), t ≠ Lfsr.dead → ∃! i, k ≤ i ∧ i < k + 31 ∧
      (⟨s.bit (i + 4), s.bit (i + 3), s.bit (i + 2), s.bit (i + 1), s.bit i⟩ : Lfsr) = t := by
  have hperiod := Lfsr.minimalPeriod_shift hs
  refine ⟨fun k => ?_, fun p => ?_, fun t k ht => ?_⟩
  · simp only [Lfsr.bit_eq_out]
    exact ShiftRegister.out_add_succ k
  · simp only [Lfsr.bit_eq_out]
    rw [ShiftRegister.out_periodic_iff, hperiod]
  · obtain ⟨j, rfl⟩ := Lfsr.exists_symbol hs ht
    have hunique := ShiftRegister.existsUnique_iterate (by omega) k j (x := s.cells)
      (g := ShiftRegister.shift Lfsr.cellFeedback)
    simp only [hperiod, ← Lfsr.cells_symbol, Lfsr.cells_injective.eq_iff] at hunique
    simpa only [← Lfsr.symbol_eq] using hunique

theorem lfsr_sequence_reset : (∀ k, Lfsr.reset.bit (k + 62) = Lfsr.reset.bit k) ↔ 31 ∣ 62 :=
  (lfsr_sequence Lfsr.reset (by decide)).2.1 62

end DigitalModulation
