import Mathlib.Data.Fin.Tuple.Basic
import Mathlib.Dynamics.PeriodicPts.Lemmas

/-!
# Shift registers with feedback

A register of `n + 1` cells moves its values one cell on and takes a value that depends on all of
them into the last one. The values that leave it are a sequence of which its contents are windows.

* `shift`, `out`: one step, and the sequence of the values in the first cell;
* `iterate_shift_apply`: the contents are the next `n + 1` values of the sequence;
* `out_add_succ`: the recurrence that the sequence satisfies;
* `out_periodic_iff`: its periods are the multiples of the period of the contents;
* `existsUnique_iterate`: each of the contents comes once in a period.
-/

namespace ShiftRegister

variable {α : Type*} {n : ℕ}

/-- One step, with the feedback `f`. -/
def shift (f : (Fin (n + 1) → α) → α) (w : Fin (n + 1) → α) : Fin (n + 1) → α :=
  Fin.snoc (Fin.tail w) (f w)

/-- The value in the first cell after `k` steps. -/
def out (f : (Fin (n + 1) → α) → α) (w : Fin (n + 1) → α) (k : ℕ) : α := (shift f)^[k] w 0

section Windows

variable {f : (Fin (n + 1) → α) → α} {w : Fin (n + 1) → α}

theorem shift_castSucc (i : Fin n) : shift f w i.castSucc = w i.succ :=
  Fin.snoc_castSucc (α := fun _ => α) _ _ _

theorem shift_last : shift f w (Fin.last n) = f w := Fin.snoc_last (α := fun _ => α) _ _

/-- **The contents are a window of the sequence.** -/
theorem iterate_shift_apply (k : ℕ) (i : Fin (n + 1)) : (shift f)^[k] w i = out f w (k + i) := by
  induction i using Fin.induction generalizing k with
  | zero => rfl
  | succ i ih =>
    have hshift : shift f ((shift f)^[k] w) i.castSucc = (shift f)^[k] w i.succ := shift_castSucc i
    rw [← hshift, ← Function.iterate_succ_apply' (shift f) k w, ih (k + 1), Fin.val_succ,
      Fin.val_castSucc, Nat.add_right_comm, Nat.add_assoc]

theorem out_val (i : Fin (n + 1)) : out f w i = w i := by
  have hstart := iterate_shift_apply (f := f) (w := w) 0 i
  rw [Nat.zero_add] at hstart
  exact hstart.symm

/-- **The recurrence.** -/
theorem out_add_succ (k : ℕ) : out f w (k + (n + 1)) = f fun i => out f w (k + i) := by
  have hlast := iterate_shift_apply (f := f) (w := w) (k + 1) (Fin.last n)
  have hwindow : (shift f)^[k] w = fun i : Fin (n + 1) => out f w (k + i) :=
    funext (iterate_shift_apply k)
  rw [Function.iterate_succ_apply', shift_last, hwindow, Fin.val_last, Nat.add_right_comm,
    Nat.add_assoc] at hlast
  exact hlast.symm

/-- **The periods of the sequence** are those of the contents. -/
theorem out_periodic_iff (p : ℕ) :
    (∀ k, out f w (k + p) = out f w k) ↔ Function.minimalPeriod (shift f) w ∣ p := by
  rw [← Function.isPeriodicPt_iff_minimalPeriod_dvd]
  constructor
  · intro h
    funext i
    rw [iterate_shift_apply, Nat.add_comm, h, out_val]
  · intro h k
    unfold out
    rw [Function.iterate_add_apply, h]

end Windows

/-- **What occurs once occurs once in each period.** -/
theorem existsUnique_iterate {σ : Type*} {g : σ → σ} {x : σ} (h : 0 < Function.minimalPeriod g x)
    (k j : ℕ) : ∃! i, k ≤ i ∧ i < k + Function.minimalPeriod g x ∧ g^[i] x = g^[j] x := by
  have hperiod : Function.minimalPeriod g (g^[k] x) = Function.minimalPeriod g x :=
    Function.minimalPeriod_apply_iterate (Function.minimalPeriod_pos_iff_mem_periodicPts.mp h) k
  -- The same contents come again after `k` periods, which is not before step `k`.
  obtain ⟨d, hd⟩ : ∃ d, j + k * Function.minimalPeriod g x = d + k :=
    Nat.exists_eq_add_of_le' ((Nat.le_mul_of_pos_right k h).trans (Nat.le_add_left _ _))
  have hlater : g^[d] (g^[k] x) = g^[j] x := by
    rw [← Function.iterate_add_apply, ← hd, Function.iterate_add_apply,
      ((Function.isPeriodicPt_minimalPeriod g x).const_mul k).eq]
  refine ⟨d % Function.minimalPeriod g x + k, ⟨Nat.le_add_left _ _, ?_, ?_⟩, ?_⟩
  · rw [Nat.add_comm]
    exact Nat.add_lt_add_left (Nat.mod_lt d h) k
  · rw [Function.iterate_add_apply, ← hperiod, Function.iterate_mod_minimalPeriod_eq, hlater]
  · rintro i ⟨hle, hlt, heq⟩
    obtain ⟨t, rfl⟩ := Nat.exists_eq_add_of_le' hle
    have ht : t < Function.minimalPeriod g x := by omega
    rw [Function.iterate_add_apply, ← hlater, ← Function.iterate_mod_minimalPeriod_eq (n := d),
      Function.iterate_eq_iterate_iff_of_lt_minimalPeriod] at heq
    · rw [heq, hperiod]
    · rwa [hperiod]
    · rw [hperiod]
      exact Nat.mod_lt d h

end ShiftRegister
