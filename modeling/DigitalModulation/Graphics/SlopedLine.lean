import DigitalModulation.Graphics.Pixels
import DigitalModulation.Lib.Bresenham
import Mathlib.Algebra.Order.Ring.Abs

/-!
# `vid_draw_sloped_line`

The two loops walk along the longer axis, with 16-bit coordinates that wrap and a decision variable
of type `int`.

* `slopedInts`: the values of type `int` that the function computes;
* `horizLoop_eq`, `vertLoop_eq`: the pixels of the loops by the number of the turn;
* `vidDrawSlopedLine_eq`: the pixels of the line, without wrapping;
* `sloped_line_correct`: they make up a line from one end point to the other.
-/

namespace DigitalModulation

/-- The step from one coordinate towards another. -/
def incr (start last : BitVec 16) : ℤ := if last < start then -1 else 1

/-- The distance of two coordinates. -/
def delta (start last : BitVec 16) : ℤ := |(last.toNat : ℤ) - start.toNat|

/-- The values of `P` in a loop of `n` turns. -/
def decisions (dPr dPru : ℤ) : ℕ → ℤ → List ℤ
  | 0, P => [P]
  | n + 1, P => P :: decisions dPr dPru n (if 0 < P then P + dPru else P + dPr)

/-- The values of type `int` that one of the loops and the statements before it compute, for the
distances along the axis of the loop and along the other one. -/
def loopInts (longer shorter : ℤ) : List ℤ :=
  let dPr := shorter * 2
  [dPr, longer * 2, dPr - longer * 2, dPr - longer] ++
    decisions dPr (dPr - longer * 2) (longer.toNat + 1) (dPr - longer) ++
    (List.range (longer.toNat + 2)).map fun k : ℕ => longer - k

/-- The values of type `int` that `vid_draw_sloped_line` computes: the distances, the variables of
the loop with its counter, and the coordinates before they are stored as `unsigned short`. -/
def slopedInts (hStart vStart hEnd vEnd : BitVec 16) (color : BitVec 32) : List ℤ :=
  let horizDelta := delta hStart hEnd
  let vertDelta := delta vStart vEnd
  [(hEnd.toNat : ℤ) - hStart.toNat, (vEnd.toNat : ℤ) - vStart.toNat, horizDelta, vertDelta] ++
    (if vertDelta ≤ horizDelta then loopInts horizDelta vertDelta
      else loopInts vertDelta horizDelta) ++
    (vidDrawSlopedLine hStart vStart hEnd vEnd color).flatMap fun p =>
      [p.1.1 + incr hStart hEnd, p.1.2 + incr vStart vEnd]

/-! ### The loops -/

theorem add_ushort_add (x : BitVec 16) (a b : ℤ) :
    x + ushort a + ushort b = x + ushort (a + b) := by
  unfold ushort
  rw [BitVec.add_assoc, BitVec.ofInt_add]

theorem toNat_add_ushort {x : BitVec 16} {a : ℤ} (h : 0 ≤ x.toNat + a ∧ x.toNat + a < 2 ^ 16) :
    ((x + ushort a).toNat : ℤ) = x.toNat + a := by
  unfold ushort
  rw [BitVec.toNat_add, BitVec.toNat_ofInt]
  omega

section Loops

variable (horizIncr vertIncr dPr dPru : ℤ) (color : BitVec 32)

theorem horizLoop_eq (n : ℕ) (horiz vert : BitVec 16) (P : ℤ) :
    horizLoop horizIncr vertIncr dPr dPru color n horiz vert P =
      (List.range n).map fun k : ℕ => ((((horiz + ushort (horizIncr * k)).toNat : ℤ),
        ((vert + ushort (vertIncr * (Bresenham.trace dPr dPru P k).1)).toNat : ℤ)), color) := by
  induction n generalizing horiz vert P with
  | zero => rfl
  | succ n ih =>
    rw [horizLoop, List.range_succ_eq_map, List.map_cons, List.map_map]
    congr 1
    · simp [ushort, Bresenham.trace]
    · split_ifs with hP
      · rw [ih]
        refine List.map_congr_left fun k _ => ?_
        simp only [Function.comp, Bresenham.trace_succ', hP, if_true, add_ushort_add]
        push_cast
        rw [mul_add, mul_add, mul_one, mul_one, Int.add_comm horizIncr, Int.add_comm vertIncr]
      · rw [ih]
        refine List.map_congr_left fun k _ => ?_
        simp only [Function.comp, Bresenham.trace_succ', hP, if_false, add_ushort_add]
        push_cast
        rw [mul_add, mul_one, Int.add_comm horizIncr]

/-- The second loop is the first one with the axes exchanged. -/
theorem vertLoop_eq (n : ℕ) (horiz vert : BitVec 16) (P : ℤ) :
    vertLoop horizIncr vertIncr dPr dPru color n horiz vert P =
      (horizLoop vertIncr horizIncr dPr dPru color n vert horiz P).map
        fun p => (p.1.swap, p.2) := by
  induction n generalizing horiz vert P with
  | zero => rfl
  | succ n ih =>
    rw [vertLoop, horizLoop, List.map_cons, ih, ih]
    congr 1
    split_ifs <;> rfl

end Loops

/-! ### Coordinates -/

section Coordinates

variable (start last : BitVec 16)

theorem incr_mul_delta : start.toNat + incr start last * delta start last = last.toNat := by
  unfold incr delta
  split_ifs with h
  · rw [BitVec.lt_def] at h
    rw [abs_of_neg (by omega)]
    ring
  · rw [BitVec.lt_def] at h
    rw [abs_of_nonneg (by omega)]
    ring

theorem delta_nonneg : 0 ≤ delta start last := abs_nonneg _

theorem delta_lt : delta start last < 2 ^ 16 := by
  unfold delta
  rw [abs_lt]
  omega

/-- On the way from one coordinate to the other. -/
theorem coordinate_bounds {o : ℤ} (h0 : 0 ≤ o) (ho : o ≤ delta start last) :
    min (start.toNat : ℤ) last.toNat ≤ start.toNat + incr start last * o ∧
      start.toNat + incr start last * o ≤ max (start.toNat : ℤ) last.toNat := by
  have hlast := incr_mul_delta start last
  unfold incr at hlast ⊢
  split_ifs at hlast ⊢ <;> omega

end Coordinates

/-- The place after `k` turns. -/
def linePlace (hStart vStart hEnd vEnd : BitVec 16) (k : ℕ) : ℤ × ℤ :=
  let o := Bresenham.offset (delta hStart hEnd) (delta vStart vEnd) k
  (hStart.toNat + incr hStart hEnd * o.1, vStart.toNat + incr vStart vEnd * o.2)

section Line

variable (hStart vStart hEnd vEnd : BitVec 16)

/-- The number of the last turn. -/
def lastTurn : ℕ := (max (delta hStart hEnd) (delta vStart vEnd)).toNat

variable {hStart vStart hEnd vEnd}

theorem linePlace_bounds {k : ℕ} (hk : k ≤ lastTurn hStart vStart hEnd vEnd) :
    let p := linePlace hStart vStart hEnd vEnd k
    (min (hStart.toNat : ℤ) hEnd.toNat ≤ p.1 ∧ p.1 ≤ max (hStart.toNat : ℤ) hEnd.toNat) ∧
      min (vStart.toNat : ℤ) vEnd.toNat ≤ p.2 ∧ p.2 ≤ max (vStart.toNat : ℤ) vEnd.toNat := by
  have hdelta := delta_nonneg hStart hEnd
  have hdelta' := delta_nonneg vStart vEnd
  have ho := Bresenham.offset_le hdelta hdelta' (k := k) (by unfold lastTurn at hk; omega)
  exact ⟨coordinate_bounds hStart hEnd (Int.natCast_nonneg _) ho.1,
    coordinate_bounds vStart vEnd (Int.natCast_nonneg _) ho.2⟩

/-- The coordinates do not wrap. -/
theorem toNat_coordinate {k : ℕ} (hk : k ≤ lastTurn hStart vStart hEnd vEnd) :
    let o := Bresenham.offset (delta hStart hEnd) (delta vStart vEnd) k
    (((hStart + ushort (incr hStart hEnd * o.1)).toNat : ℤ),
      ((vStart + ushort (incr vStart vEnd * o.2)).toNat : ℤ)) =
      linePlace hStart vStart hEnd vEnd k := by
  obtain ⟨hh, hv⟩ := linePlace_bounds hk
  have hh1 := hStart.isLt
  have hh2 := hEnd.isLt
  have hv1 := vStart.isLt
  have hv2 := vEnd.isLt
  unfold linePlace at hh hv ⊢
  dsimp only at hh hv ⊢
  rw [toNat_add_ushort (by omega), toNat_add_ushort (by omega)]

/-- **The pixels of a line**, by the number of the turn. -/
theorem vidDrawSlopedLine_eq (color : BitVec 32) :
    vidDrawSlopedLine hStart vStart hEnd vEnd color =
      (List.range (lastTurn hStart vStart hEnd vEnd + 1)).map fun k =>
        (linePlace hStart vStart hEnd vEnd k, color) := by
  have hcast (x y : BitVec 16) : (((y.toNat : ℤ) - x.toNat).natAbs : ℤ) = delta x y :=
    Int.natCast_natAbs _
  have hdouble (x : ℤ) : x * 2 = 2 * x := Int.mul_comm x 2
  have hplaces (k : ℕ) (hk : k ∈ List.range (lastTurn hStart vStart hEnd vEnd + 1)) :=
    toNat_coordinate (Nat.le_of_lt_succ (List.mem_range.mp hk))
  rw [vidDrawSlopedLine, ← List.map_congr_left fun k hk => congrArg (·, color) (hplaces k hk)]
  simp only [hcast, hdouble, ← incr.eq_1]
  have hh := hcast hStart hEnd
  have hv := hcast vStart vEnd
  by_cases hlong : delta vStart vEnd ≤ delta hStart hEnd
  · have hlast : lastTurn hStart vStart hEnd vEnd =
        ((hEnd.toNat : ℤ) - hStart.toNat).natAbs := by
      rw [lastTurn, max_eq_left hlong, ← hh]
      rfl
    rw [if_pos (by omega), horizLoop_eq, hlast]
    simp only [Bresenham.offset, hlong, if_true]
    rfl
  · have hlast : lastTurn hStart vStart hEnd vEnd =
        ((vEnd.toNat : ℤ) - vStart.toNat).natAbs := by
      rw [lastTurn, max_eq_right (not_le.mp hlong).le, ← hv]
      rfl
    rw [if_neg (by omega), vertLoop_eq, horizLoop_eq, hlast, List.map_map]
    simp only [Bresenham.offset, hlong, if_false]
    rfl

/-! ### From one end point to the other -/

/-- From a place to one of its neighbours, towards the end of the line. -/
def LineStep (dx dy : ℤ) (p q : ℤ × ℤ) : Prop :=
  (q.1 = p.1 ∨ q.1 = p.1 + dx.sign) ∧ (q.2 = p.2 ∨ q.2 = p.2 + dy.sign) ∧ q ≠ p

theorem linePlace_zero :
    linePlace hStart vStart hEnd vEnd 0 = ((hStart.toNat : ℤ), (vStart.toNat : ℤ)) := by
  unfold linePlace
  rw [Bresenham.offset_zero]
  simp

theorem linePlace_last :
    linePlace hStart vStart hEnd vEnd (lastTurn hStart vStart hEnd vEnd) =
      ((hEnd.toNat : ℤ), (vEnd.toNat : ℤ)) := by
  have hh := delta_nonneg hStart hEnd
  have hv := delta_nonneg vStart vEnd
  unfold linePlace lastTurn
  rw [Bresenham.offset_last hh hv]
  dsimp only
  rw [Int.toNat_of_nonneg hh, Int.toNat_of_nonneg hv, incr_mul_delta, incr_mul_delta]

/-- Where a coordinate changes, its increment is the sign of the distance. -/
theorem incr_eq_sign {start last : BitVec 16} (h : delta start last ≠ 0) :
    incr start last = ((last.toNat : ℤ) - start.toNat).sign := by
  unfold delta at h
  rw [abs_ne_zero] at h
  unfold incr
  split_ifs with hlt
  · rw [BitVec.lt_def] at hlt
    exact (Int.sign_eq_neg_one_of_neg (by omega)).symm
  · rw [BitVec.lt_def] at hlt
    exact (Int.sign_eq_one_of_pos (by omega)).symm

/-- One coordinate in a turn. -/
theorem coordinate_step {start last : BitVec 16} {o o' : ℕ} (ho : o' = o ∨ o' = o + 1)
    (hle : (o' : ℤ) ≤ delta start last) :
    start.toNat + incr start last * o' = start.toNat + incr start last * o ∨
      start.toNat + incr start last * o' =
        start.toNat + incr start last * o + ((last.toNat : ℤ) - start.toNat).sign := by
  rcases ho with rfl | rfl
  · exact .inl rfl
  · rw [← incr_eq_sign (by omega)]
    push_cast
    exact .inr (by ring)

theorem incr_mul_injective (start last : BitVec 16) {o o' : ℕ}
    (h : start.toNat + incr start last * o' = start.toNat + incr start last * o) : o' = o := by
  unfold incr at h
  split_ifs at h <;> omega

theorem lineStep_linePlace {k : ℕ} (hk : k < lastTurn hStart vStart hEnd vEnd) :
    LineStep ((hEnd.toNat : ℤ) - hStart.toNat) ((vEnd.toNat : ℤ) - vStart.toNat)
      (linePlace hStart vStart hEnd vEnd k) (linePlace hStart vStart hEnd vEnd (k + 1)) := by
  obtain ⟨hcol, hrow, hne⟩ :=
    Bresenham.offset_succ (a := delta hStart hEnd) (b := delta vStart vEnd) k
  have hle := Bresenham.offset_le (delta_nonneg hStart hEnd) (delta_nonneg vStart vEnd)
    (k := k + 1) (by unfold lastTurn at hk; omega)
  refine ⟨coordinate_step hcol hle.1, coordinate_step hrow hle.2, fun heq => hne ?_⟩
  obtain ⟨hx, hy⟩ := Prod.mk.inj heq
  exact Prod.ext (incr_mul_injective _ _ hx) (incr_mul_injective _ _ hy)

/-- The error in terms of the distances with their signs. -/
theorem linePlace_error (k : ℕ) :
    let p := linePlace hStart vStart hEnd vEnd k
    let dx : ℤ := hEnd.toNat - hStart.toNat
    let dy : ℤ := vEnd.toNat - vStart.toNat
    2 * |dx * (p.2 - vStart.toNat) - dy * (p.1 - hStart.toNat)| ≤ max |dx| |dy| := by
  intro p dx dy
  have hdx : dx = incr hStart hEnd * delta hStart hEnd := by
    have hlast := incr_mul_delta hStart hEnd
    omega
  have hdy : dy = incr vStart vEnd * delta vStart vEnd := by
    have hlast := incr_mul_delta vStart vEnd
    omega
  have hunit (start last : BitVec 16) : |incr start last| = 1 := by
    unfold incr
    split_ifs <;> rfl
  have herror := Bresenham.offset_error (delta_nonneg hStart hEnd) (delta_nonneg vStart vEnd) k
  have hprod : dx * (p.2 - vStart.toNat) - dy * (p.1 - hStart.toNat) =
      incr hStart hEnd * incr vStart vEnd *
        (delta hStart hEnd * (Bresenham.offset (delta hStart hEnd) (delta vStart vEnd) k).2 -
          delta vStart vEnd * (Bresenham.offset (delta hStart hEnd) (delta vStart vEnd) k).1) := by
    rw [hdx, hdy]
    simp only [p, linePlace]
    ring
  rw [hprod, abs_mul, abs_mul, hunit, hunit, one_mul, one_mul]
  exact herror

/-! ### The values of type `int` -/

/-- The values of type `int`. -/
def IsInt (v : ℤ) : Prop := -2 ^ 31 ≤ v ∧ v < 2 ^ 31

theorem decisions_eq (dPr dPru : ℤ) (n : ℕ) (P : ℤ) :
    decisions dPr dPru n P =
      (List.range (n + 1)).map fun k => (Bresenham.trace dPr dPru P k).2 := by
  induction n generalizing P with
  | zero => rfl
  | succ n ih =>
    rw [decisions, ih, List.range_succ_eq_map (n := n + 1), List.map_cons, List.map_map]
    congr 1
    refine List.map_congr_left fun k _ => ?_
    simp only [Function.comp, Bresenham.trace_succ']
    split_ifs <;> rfl

theorem isInt_of_mem_loopInts {longer shorter : ℤ} (h0 : 0 ≤ shorter) (hle : shorter ≤ longer)
    (hlt : longer < 2 ^ 16) {v : ℤ} (hv : v ∈ loopInts longer shorter) : IsInt v := by
  have hdouble (x : ℤ) : x * 2 = 2 * x := Int.mul_comm x 2
  unfold IsInt
  simp only [loopInts, hdouble, decisions_eq, List.mem_append, List.mem_cons, List.not_mem_nil,
    or_false, List.mem_map, List.mem_range] at hv
  rcases hv with (hv | ⟨k, -, rfl⟩) | ⟨k, hk, rfl⟩
  · omega
  · have hbounds := Bresenham.decision_bounds h0 hle k
    unfold Bresenham.decision at hbounds
    omega
  · omega

theorem isInt_of_mem_slopedInts (color : BitVec 32) {v : ℤ}
    (hv : v ∈ slopedInts hStart vStart hEnd vEnd color) : IsInt v := by
  have hh := hStart.isLt
  have hh' := hEnd.isLt
  have hv1 := vStart.isLt
  have hv' := vEnd.isLt
  have hd0 := delta_nonneg hStart hEnd
  have hd0' := delta_nonneg vStart vEnd
  have hd := delta_lt hStart hEnd
  have hd' := delta_lt vStart vEnd
  simp only [slopedInts, List.mem_append, List.mem_cons, List.not_mem_nil, or_false,
    List.mem_flatMap] at hv
  rcases hv with (hv | hv) | ⟨p, hp, hv⟩
  · unfold IsInt
    omega
  · split_ifs at hv with hlong
    · exact isInt_of_mem_loopInts hd0' hlong hd hv
    · exact isInt_of_mem_loopInts hd0 (not_le.mp hlong).le hd' hv
  · rw [vidDrawSlopedLine_eq, List.mem_map] at hp
    obtain ⟨k, hk, rfl⟩ := hp
    obtain ⟨hcol, hrow⟩ := linePlace_bounds (Nat.le_of_lt_succ (List.mem_range.mp hk))
    have hincr (start last : BitVec 16) : incr start last = -1 ∨ incr start last = 1 := by
      unfold incr
      split_ifs
      · exact .inl rfl
      · exact .inr rfl
    have hi := hincr hStart hEnd
    have hi' := hincr vStart vEnd
    unfold IsInt
    dsimp only at hv
    omega

end Line

/-- **Sloped lines are drawn correctly.** Between any two end points the function sets one pixel
more than their greater distance, from the start point to the end point, each a neighbour of the one
before it and none of them back. All of them are in the box of the end points, and along the shorter
axis within half a pixel of the ideal line. No value of type `int` overflows. -/
theorem sloped_line_correct (hStart vStart hEnd vEnd : BitVec 16) (color : BitVec 32) :
    (∀ v ∈ slopedInts hStart vStart hEnd vEnd color, -2 ^ 31 ≤ v ∧ v < 2 ^ 31) ∧
    let ps := (vidDrawSlopedLine hStart vStart hEnd vEnd color).map Prod.fst
    let x₀ : ℤ := hStart.toNat
    let y₀ : ℤ := vStart.toNat
    let x₁ : ℤ := hEnd.toNat
    let y₁ : ℤ := vEnd.toNat
    let dx := x₁ - x₀
    let dy := y₁ - y₀
    ps.length = max dx.natAbs dy.natAbs + 1 ∧ ps.head? = some (x₀, y₀) ∧
      ps.getLast? = some (x₁, y₁) ∧ ps.IsChain (LineStep dx dy) ∧
      ∀ p ∈ ps, p ∈ (Box.mk (min x₀ x₁) (min y₀ y₁) (max x₀ x₁ + 1) (max y₀ y₁ + 1)).area ∧
        2 * |dx * (p.2 - y₀) - dy * (p.1 - x₀)| ≤ max |dx| |dy| := by
  refine ⟨fun v hv => isInt_of_mem_slopedInts color hv, ?_⟩
  intro ps x₀ y₀ x₁ y₁ dx dy
  have hps : ps = (List.range (lastTurn hStart vStart hEnd vEnd + 1)).map
      (linePlace hStart vStart hEnd vEnd) := by
    simp only [ps, vidDrawSlopedLine_eq, List.map_map]
    rfl
  refine ⟨?_, ?_, ?_, ?_, ?_⟩
  · rw [hps, List.length_map, List.length_range, lastTurn, delta, delta, ← Int.natCast_natAbs,
      ← Int.natCast_natAbs]
    omega
  · rw [hps, List.range_succ_eq_map, List.map_cons, linePlace_zero]
    rfl
  · rw [hps, List.range_succ, List.map_append, List.map_singleton, linePlace_last,
      List.getLast?_concat]
  · rw [hps, List.isChain_map, List.isChain_iff_getElem]
    intro k hk
    rw [List.length_range] at hk
    rw [List.getElem_range, List.getElem_range]
    exact lineStep_linePlace (Nat.lt_of_succ_lt_succ hk)
  · rw [hps]
    intro p hp
    obtain ⟨k, hk, rfl⟩ := List.mem_map.mp hp
    obtain ⟨hcol, hrow⟩ := linePlace_bounds (Nat.le_of_lt_succ (List.mem_range.mp hk))
    refine ⟨⟨⟨hcol.1, ?_⟩, hrow.1, ?_⟩, linePlace_error k⟩
    · exact Int.lt_add_one_of_le hcol.2
    · exact Int.lt_add_one_of_le hrow.2

end DigitalModulation
