import Mathlib.Analysis.Convex.Join
import Mathlib.Topology.Order.IntermediateValue
import Mathlib.Topology.Algebra.Order.Group
import Mathlib.Topology.Instances.Real.Lemmas

/-!
# Scan conversion

A triangle of the plane is drawn row by row, from the least to the greatest column that its edges
reach in the row.

* `Extent.extend`: the least and the greatest element of a list, found one by one;
* `Extent.foldl_extend`: what is found;
* `toReal`, `halfAround`: places of a grid in the plane, and the places half a step around a set;
* `convex_halfAround`: they are convex if the set is;
* `mem_halfAround_segment`: the condition on the error that makes a place one of a segment's;
* `exists_mem_edges`: every row of a triangle reaches from edge to edge.
-/

namespace Extent

variable {α : Type*} [LinearOrder α]

/-- The least and the greatest element so far, with one more. -/
def extend : Option (α × α) → α → Option (α × α)
  | none, x => some (x, x)
  | some (lo, hi), x =>
    if x < lo then some (x, hi) else if hi < x then some (lo, x) else some (lo, hi)

/-- What has been found in a list. -/
def Spans (xs : List α) : Option (α × α) → Prop
  | none => xs = []
  | some (lo, hi) => IsLeast {x | x ∈ xs} lo ∧ IsGreatest {x | x ∈ xs} hi

theorem extend_some {lo hi : α} (h : lo ≤ hi) (x : α) :
    extend (some (lo, hi)) x = some (min x lo, max x hi) := by
  show (if x < lo then _ else _) = _
  split_ifs with hbefore hbehind
  · rw [min_eq_left hbefore.le, max_eq_right (hbefore.le.trans h)]
  · rw [min_eq_right (not_lt.mp hbefore), max_eq_left hbehind.le]
  · rw [min_eq_right (not_lt.mp hbefore), max_eq_right (not_lt.mp hbehind)]

theorem Spans.extend {xs : List α} {o : Option (α × α)} (h : Spans xs o) (x : α) :
    Spans (xs ++ [x]) (extend o x) := by
  cases o with
  | none =>
    obtain rfl : xs = [] := h
    simp [Extent.extend, Spans, IsLeast, IsGreatest, lowerBounds, upperBounds]
  | some span =>
    obtain ⟨lo, hi⟩ := span
    obtain ⟨hlo, hhi⟩ := h
    have hinsert : {y | y ∈ xs ++ [x]} = insert x {y | y ∈ xs} := by
      ext y
      simp [or_comm]
    rw [extend_some (hlo.2 hhi.1), Spans, hinsert]
    exact ⟨hlo.insert x, hhi.insert x⟩

/-- **What is found one by one** are the least and the greatest element. -/
theorem foldl_extend (xs : List α) : Spans xs (xs.foldl extend none) := by
  have hrun (ys xs : List α) (o : Option (α × α)) (h : Spans ys o) :
      Spans (ys ++ xs) (xs.foldl extend o) := by
    induction xs generalizing ys o with
    | nil => simpa using h
    | cons x xs ih => simpa using ih (ys ++ [x]) _ (h.extend x)
  exact hrun [] xs none rfl

end Extent

namespace Scan

/-- A place of the grid in the plane. -/
def toReal (p : ℤ × ℤ) : ℝ × ℝ := (p.1, p.2)

/-- The places that are at most half a step away, in both directions. -/
def halfAround (T : Set (ℝ × ℝ)) : Set (ℝ × ℝ) :=
  {p | ∃ q ∈ T, |p.1 - q.1| ≤ 1 / 2 ∧ |p.2 - q.2| ≤ 1 / 2}

theorem halfAround_mono {T U : Set (ℝ × ℝ)} (h : T ⊆ U) : halfAround T ⊆ halfAround U :=
  fun _ ⟨q, hq, hp⟩ => ⟨q, h hq, hp⟩

theorem convex_halfAround {T : Set (ℝ × ℝ)} (h : Convex ℝ T) : Convex ℝ (halfAround T) := by
  rintro p ⟨q, hq, hp1, hp2⟩ p' ⟨q', hq', hp1', hp2'⟩ a b ha hb hab
  refine ⟨a • q + b • q', h hq hq' ha hb hab, ?_, ?_⟩
  · have hsplit : (a • p + b • p').1 - (a • q + b • q').1 =
        a * (p.1 - q.1) + b * (p'.1 - q'.1) := by
      simp only [Prod.fst_add, Prod.smul_fst, smul_eq_mul]
      ring
    rw [hsplit, abs_le]
    rw [abs_le] at hp1 hp1'
    constructor <;> nlinarith
  · have hsplit : (a • p + b • p').2 - (a • q + b • q').2 =
        a * (p.2 - q.2) + b * (p'.2 - q'.2) := by
      simp only [Prod.snd_add, Prod.smul_snd, smul_eq_mul]
      ring
    rw [hsplit, abs_le]
    rw [abs_le] at hp2 hp2'
    constructor <;> nlinarith

/-- What is in a row between two places of a convex set belongs to the set. -/
theorem mem_of_between {T : Set (ℝ × ℝ)} (h : Convex ℝ T) {lo hi x r : ℝ} (hlo : (lo, r) ∈ T)
    (hhi : (hi, r) ∈ T) (hle : lo ≤ x) (hle' : x ≤ hi) : (x, r) ∈ T := by
  have hrow : Convex ℝ {x : ℝ | (x, r) ∈ T} := by
    intro x hx x' hx' a b ha hb hab
    have hmem := h hx hx' ha hb hab
    have heq : a • (x, r) + b • (x', r) = (a • x + b • x', r) := by
      ext
      · rfl
      · simp [← add_mul, hab]
    rwa [heq] at hmem
  exact hrow.ordConnected.out hlo hhi ⟨hle, hle'⟩

/-! ### Segments -/

/-- How far along a segment a place is that is at most half a step away from it. -/
theorem exists_ratio {a b u v : ℝ} (ha : a ≠ 0) (h0 : 0 ≤ u / a) (h1 : u / a ≤ 1)
    (herror : 2 * |a * v - b * u| ≤ |a|) :
    ∃ t : ℝ, (0 ≤ t ∧ t ≤ 1) ∧ u = t * a ∧ |v - t * b| ≤ 1 / 2 := by
  refine ⟨u / a, ⟨h0, h1⟩, (div_mul_cancel₀ u ha).symm, ?_⟩
  have hpos : 0 < |a| := abs_pos.mpr ha
  have hsplit : a * v - b * u = a * (v - u / a * b) := by
    field_simp
  rw [hsplit, abs_mul] at herror
  by_contra hlt
  rw [not_le] at hlt
  nlinarith

/-- A coordinate between two others. -/
theorem ratio_bounds {x₀ x₁ x : ℤ} (hlo : min x₀ x₁ ≤ x) (hhi : x ≤ max x₀ x₁) :
    0 ≤ ((x : ℝ) - x₀) / (x₁ - x₀) ∧ ((x : ℝ) - x₀) / (x₁ - x₀) ≤ 1 := by
  rcases le_total x₀ x₁ with h | h
  · rw [min_eq_left h] at hlo
    rw [max_eq_right h] at hhi
    have hlo' : (0 : ℝ) ≤ (x : ℝ) - x₀ := by exact_mod_cast sub_nonneg.mpr hlo
    have hhi' : (x : ℝ) - x₀ ≤ x₁ - x₀ := by exact_mod_cast sub_le_sub_right hhi x₀
    exact ⟨div_nonneg hlo' (hlo'.trans hhi'), div_le_one_of_le₀ hhi' (hlo'.trans hhi')⟩
  · rw [min_eq_right h] at hlo
    rw [max_eq_left h] at hhi
    have hhi' : (x : ℝ) - x₀ ≤ 0 := by exact_mod_cast sub_nonpos.mpr hhi
    have hlo' : (x₁ : ℝ) - x₀ ≤ x - x₀ := by exact_mod_cast sub_le_sub_right hlo x₀
    exact ⟨div_nonneg_of_nonpos hhi' (hlo'.trans hhi'),
      div_le_one_of_ge hlo' (hlo'.trans hhi')⟩

/-- **A place with a small error is half a step from the segment**, at most. -/
theorem mem_halfAround_segment {A B p : ℤ × ℤ}
    (hcol : min A.1 B.1 ≤ p.1 ∧ p.1 ≤ max A.1 B.1) (hrow : min A.2 B.2 ≤ p.2 ∧ p.2 ≤ max A.2 B.2)
    (herror : 2 * |(B.1 - A.1) * (p.2 - A.2) - (B.2 - A.2) * (p.1 - A.1)| ≤
      max |B.1 - A.1| |B.2 - A.2|) :
    toReal p ∈ halfAround (segment ℝ (toReal A) (toReal B)) := by
  have hcol' := ratio_bounds hcol.1 hcol.2
  have hrow' := ratio_bounds hrow.1 hrow.2
  have herror' : 2 * |((B.1 : ℝ) - A.1) * (p.2 - A.2) - (B.2 - A.2) * (p.1 - A.1)| ≤
      max |(B.1 : ℝ) - A.1| |(B.2 : ℝ) - A.2| := by exact_mod_cast herror
  have hplace {t : ℝ} (ht : 0 ≤ t ∧ t ≤ 1) (hx : |(p.1 : ℝ) - A.1 - t * (B.1 - A.1)| ≤ 1 / 2)
      (hy : |(p.2 : ℝ) - A.2 - t * (B.2 - A.2)| ≤ 1 / 2) :
      toReal p ∈ halfAround (segment ℝ (toReal A) (toReal B)) := by
    refine ⟨toReal A + t • (toReal B - toReal A), ?_, ?_, ?_⟩
    · rw [segment_eq_image']
      exact ⟨t, ht, rfl⟩
    · simpa [toReal, sub_sub] using hx
    · simpa [toReal, sub_sub] using hy
  -- The ratio is taken along the longer axis.
  rcases le_total |(B.2 : ℝ) - A.2| |(B.1 : ℝ) - A.1| with hlong | hlong
  · by_cases hzero : (B.1 : ℝ) - A.1 = 0
    · rw [hzero, abs_zero, abs_nonpos_iff] at hlong
      have hx : p.1 = A.1 := by
        have hB : B.1 = A.1 := by exact_mod_cast sub_eq_zero.mp hzero
        omega
      have hy : p.2 = A.2 := by
        have hB : B.2 = A.2 := by exact_mod_cast sub_eq_zero.mp hlong
        omega
      exact hplace (t := 0) ⟨le_rfl, zero_le_one⟩ (by simp [hx]) (by simp [hy])
    · rw [max_eq_left hlong] at herror'
      obtain ⟨t, ht, hu, hv⟩ := exists_ratio hzero hcol'.1 hcol'.2 herror'
      exact hplace ht (by rw [hu, sub_self, abs_zero]; norm_num) hv
  · by_cases hzero : (B.2 : ℝ) - A.2 = 0
    · rw [hzero, abs_zero, abs_nonpos_iff] at hlong
      have hy : p.2 = A.2 := by
        have hB : B.2 = A.2 := by exact_mod_cast sub_eq_zero.mp hzero
        omega
      have hx : p.1 = A.1 := by
        have hB : B.1 = A.1 := by exact_mod_cast sub_eq_zero.mp hlong
        omega
      exact hplace (t := 0) ⟨le_rfl, zero_le_one⟩ (by simp [hx]) (by simp [hy])
    · rw [max_eq_right hlong, abs_sub_comm] at herror'
      obtain ⟨t, ht, hu, hv⟩ := exists_ratio hzero hrow'.1 hrow'.2 herror'
      exact hplace ht hv (by rw [hu, sub_self, abs_zero]; norm_num)

/-! ### Triangles -/

/-- Weights can be moved along a direction until one of them vanishes. -/
theorem exists_zero_weight {a b c e₁ e₂ e₃ : ℝ} (ha : 0 ≤ a) (hb : 0 ≤ b) (hc : 0 ≤ c)
    (hsum : e₁ + e₂ + e₃ = 0) (hne : e₁ ≠ 0 ∨ e₂ ≠ 0 ∨ e₃ ≠ 0) :
    ∃ s : ℝ, 0 ≤ s ∧ (0 ≤ a + s * e₁ ∧ 0 ≤ b + s * e₂ ∧ 0 ≤ c + s * e₃) ∧
      (a + s * e₁ = 0 ∨ b + s * e₂ = 0 ∨ c + s * e₃ = 0) := by
  let f (s : ℝ) : ℝ := min (a + s * e₁) (min (b + s * e₂) (c + s * e₃))
  have hcont : Continuous f := by fun_prop
  have hstart : 0 ≤ f 0 := by simp [f, ha, hb, hc]
  have hend : ∃ S, 0 ≤ S ∧ f S ≤ 0 := by
    have hneg {w e : ℝ} (hw : 0 ≤ w) (he : e < 0) : 0 ≤ w / -e ∧ w + w / -e * e = 0 := by
      refine ⟨div_nonneg hw (by linarith), ?_⟩
      rw [div_neg, neg_mul, div_mul_cancel₀ w he.ne, add_neg_cancel]
    have hsome : e₁ < 0 ∨ e₂ < 0 ∨ e₃ < 0 := by
      by_contra hall
      push Not at hall
      obtain ⟨h1, h2, h3⟩ := hall
      rcases hne with h | h | h <;> exact h (by linarith)
    rcases hsome with he | he | he
    · obtain ⟨hS, hzero⟩ := hneg ha he
      exact ⟨_, hS, (min_le_left _ _).trans hzero.le⟩
    · obtain ⟨hS, hzero⟩ := hneg hb he
      exact ⟨_, hS, ((min_le_right _ _).trans (min_le_left _ _)).trans hzero.le⟩
    · obtain ⟨hS, hzero⟩ := hneg hc he
      exact ⟨_, hS, ((min_le_right _ _).trans (min_le_right _ _)).trans hzero.le⟩
  obtain ⟨S, hS, hfS⟩ := hend
  obtain ⟨s, hs, hfs⟩ := intermediate_value_Icc' hS hcont.continuousOn ⟨hfS, hstart⟩
  have hle : 0 ≤ a + s * e₁ ∧ 0 ≤ b + s * e₂ ∧ 0 ≤ c + s * e₃ := by
    have hmin := hfs.ge
    simpa [f] using hmin
  refine ⟨s, hs.1, hle, ?_⟩
  rcases min_choice (a + s * e₁) (min (b + s * e₂) (c + s * e₃)) with h | h
  · exact .inl (h.symm.trans hfs)
  · rcases min_choice (b + s * e₂) (c + s * e₃) with h' | h'
    · exact .inr (.inl ((h.trans h').symm.trans hfs))
    · exact .inr (.inr ((h.trans h').symm.trans hfs))

/-- The edges of a triangle. -/
def edges (A B C : ℝ × ℝ) : Set (ℝ × ℝ) := segment ℝ A B ∪ (segment ℝ B C ∪ segment ℝ C A)

/-- A combination of the corners in which one of them does not occur. -/
theorem mem_edges_of_weight {A B C : ℝ × ℝ} {a b c : ℝ} (ha : 0 ≤ a) (hb : 0 ≤ b) (hc : 0 ≤ c)
    (hsum : a + b + c = 1) (hzero : a = 0 ∨ b = 0 ∨ c = 0) :
    a • A + b • B + c • C ∈ edges A B C := by
  rcases hzero with rfl | rfl | rfl
  · exact .inr (.inl ⟨b, c, hb, hc, by linarith, by simp⟩)
  · exact .inr (.inr ⟨c, a, hc, ha, by linarith, by simp [add_comm]⟩)
  · exact .inl ⟨a, b, ha, hb, by linarith, by simp⟩

/-- **Every row of a triangle reaches from edge to edge**: from each of its places one comes to an
edge in either direction. -/
theorem exists_mem_edges {A B C P : ℝ × ℝ} (hP : P ∈ convexHull ℝ {A, B, C}) (σ : ℝ) :
    ∃ Q ∈ edges A B C, Q.2 = P.2 ∧ σ * Q.1 ≤ σ * P.1 := by
  obtain ⟨a, b, c, ha, hb, hc, hsum, rfl⟩ : ∃ a b c : ℝ, 0 ≤ a ∧ 0 ≤ b ∧ 0 ≤ c ∧ a + b + c = 1 ∧
      a • A + b • B + c • C = P := by
    rw [convexHull_insert (Set.insert_nonempty _ _), convexHull_pair, mem_convexJoin] at hP
    obtain ⟨A', rfl, Q, ⟨b, c, hb, hc, hbc, rfl⟩, a, d, ha, hd, had, rfl⟩ := hP
    refine ⟨a, d * b, d * c, ha, mul_nonneg hd hb, mul_nonneg hd hc, ?_, ?_⟩
    · rw [add_assoc, ← mul_add, hbc, mul_one, had]
    · rw [smul_add, smul_smul, smul_smul, add_assoc]
  -- The weights of the corners can be moved without leaving the row.
  let d₁ := B.2 - C.2
  let d₂ := C.2 - A.2
  let d₃ := A.2 - B.2
  let D := d₁ * A.1 + d₂ * B.1 + d₃ * C.1
  obtain ⟨ε, hε, hD⟩ : ∃ ε : ℝ, ε ≠ 0 ∧ σ * (ε * D) ≤ 0 := by
    rcases le_total (σ * D) 0 with h | h
    · exact ⟨1, one_ne_zero, by linarith⟩
    · exact ⟨-1, by norm_num, by linarith⟩
  by_cases hne : ε * d₁ ≠ 0 ∨ ε * d₂ ≠ 0 ∨ ε * d₃ ≠ 0
  · obtain ⟨s, hs, ⟨ha', hb', hc'⟩, hzero⟩ := exists_zero_weight ha hb hc
      (show ε * d₁ + ε * d₂ + ε * d₃ = 0 by ring) hne
    refine ⟨_, mem_edges_of_weight ha' hb' hc' ?_ hzero, ?_, ?_⟩
    · linear_combination hsum
    · simp only [Prod.snd_add, Prod.smul_snd, smul_eq_mul]
      ring
    · simp only [Prod.fst_add, Prod.smul_fst, smul_eq_mul]
      have hmoved : σ * ((a + s * (ε * d₁)) * A.1 + (b + s * (ε * d₂)) * B.1 +
          (c + s * (ε * d₃)) * C.1) =
          σ * (a * A.1 + b * B.1 + c * C.1) + s * (σ * (ε * D)) := by ring
      rw [hmoved]
      linarith [mul_nonpos_of_nonneg_of_nonpos hs hD]
  · -- All corners are in the row, and one of them is far enough.
    push Not at hne
    obtain ⟨h₁, h₂, -⟩ := hne
    have hBC : B.2 = C.2 := by linarith [(mul_eq_zero.mp h₁).resolve_left hε]
    have hCA : C.2 = A.2 := by linarith [(mul_eq_zero.mp h₂).resolve_left hε]
    have hrow : (a • A + b • B + c • C).2 = A.2 := by
      simp only [Prod.snd_add, Prod.smul_snd, smul_eq_mul, hBC, hCA]
      linear_combination A.2 * hsum
    have hcol : σ * (a • A + b • B + c • C).1 = a * (σ * A.1) + b * (σ * B.1) + c * (σ * C.1) := by
      simp only [Prod.fst_add, Prod.smul_fst, smul_eq_mul]
      ring
    rw [hrow, hcol]
    generalize hm : a * (σ * A.1) + b * (σ * B.1) + c * (σ * C.1) = m
    by_contra hnone
    push Not at hnone
    have hA := hnone A (.inl (left_mem_segment ℝ A B)) rfl
    have hB := hnone B (.inl (right_mem_segment ℝ A B)) (hBC.trans hCA)
    have hC := hnone C (.inr (.inl (right_mem_segment ℝ B C))) hCA
    have hsplit : a * (σ * A.1 - m) + b * (σ * B.1 - m) + c * (σ * C.1 - m) = 0 := by
      linear_combination hm - m * hsum
    have hA' := mul_nonneg ha (sub_pos.mpr hA).le
    have hB' := mul_nonneg hb (sub_pos.mpr hB).le
    have hC' := mul_nonneg hc (sub_pos.mpr hC).le
    have hzero {w u : ℝ} (hu : m < u) (h : w * (u - m) = 0) : w = 0 :=
      (mul_eq_zero.mp h).resolve_right (sub_pos.mpr hu).ne'
    have ha0 : a = 0 := hzero hA (by linarith)
    have hb0 : b = 0 := hzero hB (by linarith)
    have hc0 : c = 0 := hzero hC (by linarith)
    linarith

end Scan
