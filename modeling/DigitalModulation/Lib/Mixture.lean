import Mathlib.Algebra.Order.Ring.Nat
import Mathlib.Tactic.Ring

/-!
# Mixtures

`a` parts of a value and `n - a` parts of another one, rounded down.

* `mix n f b a`: the mixture;
* `mix_zero`, `mix_full`: nothing of the first value, nothing of the second one;
* `min_le_mix`, `mix_le_max`: it lies between the two;
* `mix_mono`, `mix_anti`: more of the larger value makes it larger.
-/

namespace Mixture

/-- `a` parts of `f` and the rest of `n` parts of `b`. -/
def mix (n f b a : ℕ) : ℕ := (f * a + b * (n - a)) / n

variable {n f b a a' : ℕ}

theorem mix_zero (hn : 0 < n) : mix n f b 0 = b := by
  rw [mix, Nat.mul_zero, Nat.zero_add, Nat.sub_zero, Nat.mul_div_cancel b hn]

theorem mix_full (hn : 0 < n) : mix n f b n = f := by
  rw [mix, Nat.sub_self, Nat.mul_zero, Nat.add_zero, Nat.mul_div_cancel f hn]

theorem min_le_mix (hn : 0 < n) (ha : a ≤ n) : min f b ≤ mix n f b a := by
  rw [mix, Nat.le_div_iff_mul_le hn]
  calc min f b * n = min f b * a + min f b * (n - a) := by
        rw [← Nat.mul_add, Nat.add_sub_cancel' ha]
    _ ≤ f * a + b * (n - a) := Nat.add_le_add (Nat.mul_le_mul_right a (Nat.min_le_left f b))
      (Nat.mul_le_mul_right (n - a) (Nat.min_le_right f b))

theorem mix_le_max (ha : a ≤ n) : mix n f b a ≤ max f b := by
  refine Nat.div_le_of_le_mul ?_
  calc f * a + b * (n - a) ≤ max f b * a + max f b * (n - a) :=
        Nat.add_le_add (Nat.mul_le_mul_right a (Nat.le_max_left f b))
          (Nat.mul_le_mul_right (n - a) (Nat.le_max_right f b))
    _ = n * max f b := by rw [← Nat.mul_add, Nat.add_sub_cancel' ha, Nat.mul_comm]

/-- Parts of the smaller value are replaced by parts of the larger one. -/
theorem mix_mono (hbf : b ≤ f) (haa : a ≤ a') (ha' : a' ≤ n) : mix n f b a ≤ mix n f b a' := by
  obtain ⟨d, rfl⟩ := Nat.exists_eq_add_of_le haa
  obtain ⟨e, rfl⟩ := Nat.exists_eq_add_of_le ha'
  refine Nat.div_le_div_right ?_
  have hrest : a + d + e - a = d + e := by omega
  have hrest' : a + d + e - (a + d) = e := by omega
  calc f * a + b * (a + d + e - a) = f * a + b * e + b * d := by rw [hrest]; ring
    _ ≤ f * a + b * e + f * d := Nat.add_le_add_left (Nat.mul_le_mul_right d hbf) _
    _ = f * (a + d) + b * (a + d + e - (a + d)) := by rw [hrest']; ring

/-- Exchanging the values exchanges the parts. -/
theorem mix_swap (ha : a ≤ n) : mix n f b a = mix n b f (n - a) := by
  rw [mix, mix, Nat.sub_sub_self ha, Nat.add_comm]

theorem mix_anti (hfb : f ≤ b) (haa : a ≤ a') (ha' : a' ≤ n) : mix n f b a' ≤ mix n f b a := by
  rw [mix_swap ha', mix_swap (haa.trans ha')]
  exact mix_mono hfb (Nat.sub_le_sub_left haa n) (Nat.sub_le n a)

end Mixture
