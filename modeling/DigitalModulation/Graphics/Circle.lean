import DigitalModulation.Graphics.Shapes
import DigitalModulation.Lib.Midpoint

/-!
# `vid_draw_circle`

A circle is drawn by the eight places that correspond to each place of an arc, or filled by lines
between them. The same places, moved apart, are the corners of a box.

* `vidRoundCornerPoints`, `circleLoop`, `vidDrawCircle`: the functions;
* `circleInts`: the values of type `int` that a circle takes;
* `overhang`: how far a column is outside a range of columns, or a row outside rows;
* `arc`, `decisionStart`: the arc of a radius, and what the division makes of its first decision;
* `roundOutline`, `roundArea`: places by their overhangs in both directions;
* `mem_cornerPixels_outline`, `mem_cornerPixels_fill`: the pixels of the corners;
* `circle_outline`, `circle_filled`: the two kinds of circle.
-/

namespace DigitalModulation

/-- `vid_round_corner_points`. -/
def vidRoundCornerPoints (cx cy x y straightWidth straightHeight : ℤ) (color : BitVec 32)
    (fill : BitVec 8) : List DrawingCall :=
  if x = 0 then
    [.setPixel cx (cy + y + straightHeight) color,
      .setPixel (cx + straightWidth) (cy + y + straightHeight) color,
      .setPixel cx (cy - y) color,
      .setPixel (cx + straightWidth) (cy - y) color] ++
    if fill ≠ 0 then
      [.drawLine (cx - y) cy (cx + y + straightWidth) cy 1 color,
        .drawLine (cx - y) (cy + straightHeight) (cx + y + straightWidth) (cy + straightHeight) 1
          color]
    else
      [.setPixel (cx + y + straightWidth) cy color,
        .setPixel (cx + y + straightWidth) (cy + straightHeight) color,
        .setPixel (cx - y) cy color,
        .setPixel (cx - y) (cy + straightHeight) color]
  else if x = y then
    if fill ≠ 0 then
      [.drawLine (cx - x) (cy + y + straightHeight) (cx + x + straightWidth)
          (cy + y + straightHeight) 1 color,
        .drawLine (cx - x) (cy - y) (cx + x + straightWidth) (cy - y) 1 color]
    else
      [.setPixel (cx + x + straightWidth) (cy + y + straightHeight) color,
        .setPixel (cx - x) (cy + y + straightHeight) color,
        .setPixel (cx + x + straightWidth) (cy - y) color,
        .setPixel (cx - x) (cy - y) color]
  else if x < y then
    if fill ≠ 0 then
      [.drawLine (cx - x) (cy + y + straightHeight) (cx + x + straightWidth)
          (cy + y + straightHeight) 1 color,
        .drawLine (cx - y) (cy + x + straightHeight) (cx + y + straightWidth)
          (cy + x + straightHeight) 1 color,
        .drawLine (cx - y) (cy - x) (cx + y + straightWidth) (cy - x) 1 color,
        .drawLine (cx - x) (cy - y) (cx + x + straightWidth) (cy - y) 1 color]
    else
      [.setPixel (cx + x + straightWidth) (cy + y + straightHeight) color,
        .setPixel (cx - x) (cy + y + straightHeight) color,
        .setPixel (cx + x + straightWidth) (cy - y) color,
        .setPixel (cx - x) (cy - y) color,
        .setPixel (cx + y + straightWidth) (cy + x + straightHeight) color,
        .setPixel (cx - y) (cy + x + straightHeight) color,
        .setPixel (cx + y + straightWidth) (cy - x) color,
        .setPixel (cx - y) (cy - x) color]
  else []

/-- The loop of `vid_draw_circle`, of at most `n` turns, given what is drawn at a place. -/
def circleLoop (points : ℤ → ℤ → List DrawingCall) : ℕ → ℤ → ℤ → ℤ → List DrawingCall
  | 0, _, _, _ => []
  | n + 1, x, y, p =>
    if x < y then
      let x := x + 1
      if p < 0 then points x y ++ circleLoop points n x y (p + (2 * x + 1))
      else
        let y := y - 1
        points x y ++ circleLoop points n x y (p + (2 * (x - y) + 1))
    else []

/-- `vid_draw_circle`; the loop does not take more turns than the radius (`circleLoop_of_le`). -/
def vidDrawCircle (hCenter vCenter radius : ℤ) (color : BitVec 32) (fill : BitVec 8) :
    List DrawingCall :=
  let points := fun x y => vidRoundCornerPoints hCenter vCenter x y 0 0 color fill
  points 0 radius ++ circleLoop points radius.toNat 0 radius ((5 - radius * 4).tdiv 4)

/-- The coordinates that `vid_round_corner_points` computes at a place of a circle. -/
def pointInts (cx cy x y : ℤ) : List ℤ :=
  [cx + x, cx - x, cx + y, cx - y, cy + x, cy - x, cy + y, cy - y]

/-- The values of type `int` in the turns of `circleLoop`. -/
def circleLoopInts (cx cy : ℤ) : ℕ → ℤ → ℤ → ℤ → List ℤ
  | 0, _, _, _ => []
  | n + 1, x, y, p =>
    if x < y then
      let x := x + 1
      if p < 0 then
        let p' := p + (2 * x + 1)
        [x, 2 * x, 2 * x + 1, p'] ++ pointInts cx cy x y ++ circleLoopInts cx cy n x y p'
      else
        let y := y - 1
        let p' := p + (2 * (x - y) + 1)
        [x, y, x - y, 2 * (x - y), 2 * (x - y) + 1, p'] ++ pointInts cx cy x y ++
          circleLoopInts cx cy n x y p'
    else []

/-- The values of type `int` that `vid_draw_circle` and `vid_round_corner_points` compute. -/
def circleInts (hCenter vCenter radius : ℤ) : List ℤ :=
  [radius * 4, 5 - radius * 4, (5 - radius * 4).tdiv 4] ++ pointInts hCenter vCenter 0 radius ++
    circleLoopInts hCenter vCenter radius.toNat 0 radius ((5 - radius * 4).tdiv 4)

/-! ### The arc -/

/-- What the division, which rounds towards zero, adds to the decision. -/
def decisionStart (radius : ℤ) : ℤ := if radius < 2 then 0 else 1

theorem tdiv_decision {radius : ℤ} (h : 0 ≤ radius) :
    (5 - radius * 4).tdiv 4 = 1 - radius + decisionStart radius := by
  unfold decisionStart
  split_ifs with hlt
  · obtain rfl | rfl : radius = 0 ∨ radius = 1 := by omega
    · rfl
    · rfl
  · rw [← Int.neg_neg (5 - radius * 4), Int.neg_tdiv, Int.tdiv_eq_ediv_of_nonneg (by omega)]
    omega

theorem decisionStart_bounds (radius : ℤ) :
    0 ≤ decisionStart radius ∧ decisionStart radius ≤ 1 ∧
      (radius = 1 → decisionStart radius = 0) := by
  unfold decisionStart
  split_ifs <;> omega

/-- The highest place of the arc. -/
def arcStart (radius : ℤ) : Midpoint.Place := ⟨0, radius, (5 - radius * 4).tdiv 4⟩

/-- The places of the arc at which pixels are set. -/
def arc (radius : ℤ) : List Midpoint.Place := Midpoint.walk radius.toNat (arcStart radius)

theorem circleLoop_eq (points : ℤ → ℤ → List DrawingCall) (n : ℕ) (x y p : ℤ) :
    points x y ++ circleLoop points n x y p =
      (Midpoint.walk n ⟨x, y, p⟩).flatMap fun s => points s.x s.y := by
  induction n generalizing x y p with
  | zero => simp [circleLoop, Midpoint.walk]
  | succ n ih =>
    rw [circleLoop, Midpoint.walk, List.flatMap_cons]
    congr 1
    dsimp only
    by_cases hlt : x < y
    · rw [if_pos hlt, if_pos hlt]
      unfold Midpoint.next
      split_ifs
      · exact ih _ _ _
      · exact ih _ _ _
    · rw [if_neg hlt, if_neg hlt]
      rfl

/-- The loop ends by its condition: it would do the same if it could take more turns. -/
theorem circleLoop_of_le (points : ℤ → ℤ → List DrawingCall) {n : ℕ} {radius : ℤ}
    (hn : radius.toNat ≤ n) (p : ℤ) :
    circleLoop points n 0 radius p = circleLoop points radius.toNat 0 radius p := by
  obtain ⟨k, rfl⟩ := Nat.exists_eq_add_of_le hn
  refine @List.append_cancel_left _ (points 0 radius) _ _ ?_
  rw [circleLoop_eq, circleLoop_eq, Midpoint.walk_of_le (by dsimp only; omega)]

theorem vidDrawCircle_eq (hCenter vCenter radius : ℤ) (color : BitVec 32) (fill : BitVec 8) :
    vidDrawCircle hCenter vCenter radius color fill =
      (arc radius).flatMap fun s =>
        vidRoundCornerPoints hCenter vCenter s.x s.y 0 0 color fill :=
  circleLoop_eq (fun x y => vidRoundCornerPoints hCenter vCenter x y 0 0 color fill) _ _ _ _

section Arc

variable {radius : ℤ}

theorem onArc_arcStart (h : 0 ≤ radius) :
    Midpoint.OnArc (decisionStart radius) radius (arcStart radius) :=
  Midpoint.onArc_start h (decisionStart_bounds radius).1 rfl rfl (tdiv_decision h)

theorem onArc_of_mem_arc (h : 0 ≤ radius) {s : Midpoint.Place} (hs : s ∈ arc radius) :
    Midpoint.OnArc (decisionStart radius) radius s :=
  Midpoint.onArc_of_mem_walk (decisionStart_bounds radius).1 (onArc_arcStart h) hs

/-- A place behind the diagonal is not in the first column. -/
theorem arc_cases (h : 0 ≤ radius) {s : Midpoint.Place} (hs : s ∈ arc radius) :
    s.x ≤ s.y ∨ s.x ≠ 0 ∧ s.y < s.x := by
  by_cases hle : s.x ≤ s.y
  · exact .inl hle
  · rcases Midpoint.walk_prev hs with rfl | ⟨s', hs', -, rfl⟩
    · exact absurd h hle
    · have hcol := (onArc_of_mem_arc h hs').column
      have hnx := Midpoint.next_x s'
      exact .inr ⟨by omega, not_le.mp hle⟩

theorem exists_mem_arc {v : ℤ} (h0 : 0 ≤ v) (hv : v ≤ radius) :
    ∃ s ∈ arc radius, s.x ≤ s.y ∧ (s.x = v ∨ s.y = v) :=
  Midpoint.exists_mem_walk (by simp [arcStart]) h0 hv

end Arc

/-! ### The pixels of the corners -/

/-- A column `d` to the left of `c` or to the right of `c + w`, or a row likewise. -/
def Rim (c w d a : ℤ) : Prop := a = c - d ∨ a = c + d + w

/-- A column of the line that goes as far to both sides, without its last column. -/
def Across (c w d a : ℤ) : Prop := c - d ≤ a ∧ a < c + d + w

section Points

variable {cx cy x y w h : ℤ} {color : BitVec 32} {p : Pixel}

/-- The pixels of the outline that belong to a place of the arc. -/
theorem mem_points_outline (hle : x ≤ y) :
    p ∈ (vidRoundCornerPoints cx cy x y w h color 0).flatMap DrawingCall.plainPixels ↔
      p.2 = color ∧ ((Rim cx w x p.1.1 ∧ Rim cy h y p.1.2) ∨
        (Rim cx w y p.1.1 ∧ Rim cy h x p.1.2)) := by
  obtain ⟨⟨a, b⟩, c⟩ := p
  simp only [vidRoundCornerPoints, ne_eq, not_true_eq_false, if_false, Rim]
  by_cases hc : c = color
  · split_ifs with h0 heq hlt
    all_goals
      simp only [List.flatMap_append, List.flatMap_cons, List.flatMap_nil,
        DrawingCall.plainPixels, List.mem_append, List.mem_singleton, List.not_mem_nil, or_false,
        Prod.mk.injEq, hc, and_true, true_and]
      grind
  · split_ifs with h0 heq hlt
    all_goals
      simp [DrawingCall.plainPixels, hc]

/-- The pixels of the filled shape that belong to a place of the arc. -/
theorem mem_points_fill {fill : BitVec 8} (hfill : fill ≠ 0) (hx : 0 ≤ x) (hle : x ≤ y) (hw : 0 ≤ w)
    (hh : 0 ≤ h) (hleft : 0 ≤ cx - y) (hright : cx + y + w < 2 ^ 15) (htop : 0 ≤ cy - y)
    (hbottom : cy + y + h < 2 ^ 16) :
    p ∈ (vidRoundCornerPoints cx cy x y w h color fill).flatMap DrawingCall.plainPixels ↔
      p.2 = color ∧ ((x = 0 ∧ Rim cx w 0 p.1.1 ∧ Rim cy h y p.1.2) ∨
        (0 < x ∧ Across cx w x p.1.1 ∧ Rim cy h y p.1.2) ∨
        (Across cx w y p.1.1 ∧ Rim cy h x p.1.2)) := by
  have hline {d v : ℤ} (hd : 0 ≤ d) (hdy : d ≤ y) (hv : 0 ≤ v ∧ v < 2 ^ 16) :
      p ∈ (vidDrawLine (cx - d) v (cx + d + w) v 1 color).pixels ↔
        cx - d ≤ p.1.1 ∧ p.1.1 < cx + d + w ∧ p.1.2 = v ∧ p.2 = color :=
    mem_vidDrawLine_horiz (by omega) (by omega) (by omega) hv
  unfold vidRoundCornerPoints Rim Across
  split_ifs with h0 heq hlt
  · simp only [List.flatMap_append, List.flatMap_cons, List.flatMap_nil, DrawingCall.plainPixels,
      List.mem_append, List.not_mem_nil, or_false, List.mem_singleton]
    rw [hline (by omega) le_rfl (by omega), hline (by omega) le_rfl (by omega)]
    obtain ⟨⟨a, b⟩, c⟩ := p
    simp only [Prod.mk.injEq]
    by_cases hc : c = color
    · simp only [hc, and_true, true_and]
      grind
    · simp [hc]
  · simp only [List.flatMap_cons, List.flatMap_nil, DrawingCall.plainPixels,
      List.mem_append, List.not_mem_nil, or_false]
    rw [hline hx hle (by omega), hline hx hle (by omega)]
    by_cases hc : p.2 = color
    · simp only [hc, and_true, true_and]
      grind
    · simp [hc]
  · simp only [List.flatMap_cons, List.flatMap_nil, DrawingCall.plainPixels,
      List.mem_append, List.not_mem_nil, or_false]
    rw [hline hx hle (by omega), hline (by omega) le_rfl (by omega),
      hline (by omega) le_rfl (by omega), hline hx hle (by omega)]
    by_cases hc : p.2 = color
    · simp only [hc, and_true, true_and]
      grind
    · simp [hc]
  · omega

/-- Behind the diagonal nothing is drawn. -/
theorem points_of_lt (hx : x ≠ 0) (hlt : y < x) (fill : BitVec 8) :
    vidRoundCornerPoints cx cy x y w h color fill = [] := by
  unfold vidRoundCornerPoints
  rw [if_neg hx, if_neg (by omega), if_neg (by omega)]

end Points

/-! ### Overhangs -/

/-- How far `a` is outside the range from `c` to `c + w`. -/
def overhang (c w a : ℤ) : ℤ := max (max (c - a) (a - (c + w))) 0

section Overhang

variable {c w d a : ℤ}

theorem overhang_nonneg : 0 ≤ overhang c w a := le_max_right _ _

theorem overhang_of_rim (hw : 0 ≤ w) (hd : 0 ≤ d) (h : Rim c w d a) : overhang c w a = d := by
  unfold Rim at h
  unfold overhang
  omega

theorem rim_overhang (h : a ≤ c ∨ c + w ≤ a) : Rim c w (overhang c w a) a := by
  unfold Rim overhang
  omega

theorem overhang_le_of_across (hd : 0 ≤ d) (h : Across c w d a) : overhang c w a ≤ d := by
  unfold Across at h
  unfold overhang
  omega

theorem across_of_overhang_lt (h : overhang c w a < d) : Across c w d a := by
  unfold overhang at h
  unfold Across
  omega

/-- A step changes an overhang by at most one. -/
theorem abs_overhang_sub_le {b : ℤ} (h : |a - b| ≤ 1) : |overhang c w a - overhang c w b| ≤ 1 := by
  rw [abs_le] at h ⊢
  unfold overhang
  omega

theorem overhang_zero_sq : overhang c 0 a ^ 2 = (a - c) ^ 2 := by
  have habs : overhang c 0 a = |a - c| := by
    rw [abs_eq_max_neg]
    unfold overhang
    omega
  rw [habs, sq_abs]

end Overhang

/-! ### Corners -/

/-- The pixels of the corners, or of a circle. -/
def cornerPixels (cx cy w h radius : ℤ) (color : BitVec 32) (fill : BitVec 8) : List Pixel :=
  ((arc radius).flatMap fun s =>
    vidRoundCornerPoints cx cy s.x s.y w h color fill).flatMap DrawingCall.plainPixels

/-- The places whose overhangs are a place of the arc, or of its mirror image. -/
def roundOutline (cx cy w h radius : ℤ) : Set (ℤ × ℤ) :=
  {q | (overhang cx w q.1, overhang cy h q.2) ∈
    Midpoint.outline radius.toNat (arcStart radius)}

/-- Corners whose coordinates the casts to 16 bits keep. -/
structure CornersFit (cx cy w h radius : ℤ) : Prop where
  width_nonneg : 0 ≤ w
  height_nonneg : 0 ≤ h
  radius_nonneg : 0 ≤ radius
  left : 0 ≤ cx - radius
  right : cx + radius + w < 2 ^ 15
  top : 0 ≤ cy - radius
  bottom : cy + radius + h < 2 ^ 16

section Corners

variable {cx cy w h radius : ℤ} {color : BitVec 32} {fill : BitVec 8}

theorem mem_cornerPixels {p : Pixel} (hr : 0 ≤ radius) :
    p ∈ cornerPixels cx cy w h radius color fill ↔ ∃ s ∈ arc radius, s.x ≤ s.y ∧
      p ∈ (vidRoundCornerPoints cx cy s.x s.y w h color fill).flatMap DrawingCall.plainPixels := by
  unfold cornerPixels
  rw [List.flatMap_assoc, List.mem_flatMap]
  constructor
  · rintro ⟨s, hs, hp⟩
    rcases arc_cases hr hs with hle | ⟨h0, hlt⟩
    · exact ⟨s, hs, hle, hp⟩
    · rw [points_of_lt h0 hlt] at hp
      exact absurd hp List.not_mem_nil
  · rintro ⟨s, hs, -, hp⟩
    exact ⟨s, hs, hp⟩

/-- The pixels of an outline lie on it. -/
theorem footprint_outline_subset (hw : 0 ≤ w) (hh : 0 ≤ h) (hr : 0 ≤ radius) :
    footprint (cornerPixels cx cy w h radius color 0) ⊆ roundOutline cx cy w h radius := by
  rintro q ⟨p, hp, rfl⟩
  obtain ⟨s, hs, hle, hp⟩ := (mem_cornerPixels hr).mp hp
  have hcol := (onArc_of_mem_arc hr hs).column
  refine ⟨s, hs, hle, ?_⟩
  rcases ((mem_points_outline hle).mp hp).2 with ⟨hx, hy⟩ | ⟨hx, hy⟩
  · exact .inl (Prod.ext (overhang_of_rim hw hcol hx) (overhang_of_rim hh (by omega) hy))
  · exact .inr (Prod.ext (overhang_of_rim hw (by omega) hx) (overhang_of_rim hh hcol hy))

/-- A place of the outline that is beside the straight parts, or at their ends, is a pixel of the
corners. -/
theorem mem_footprint_outline (hr : 0 ≤ radius) {q : ℤ × ℤ}
    (hq : q ∈ roundOutline cx cy w h radius) (hcol : q.1 ≤ cx ∨ cx + w ≤ q.1)
    (hrow : q.2 ≤ cy ∨ cy + h ≤ q.2) :
    q ∈ footprint (cornerPixels cx cy w h radius color 0) := by
  obtain ⟨s, hs, hle, hq⟩ := hq
  have hx := rim_overhang hcol
  have hy := rim_overhang hrow
  refine ⟨(q, color), (mem_cornerPixels hr).mpr ⟨s, hs, hle, (mem_points_outline hle).mpr ?_⟩, rfl⟩
  rcases hq with hq | hq
  · obtain ⟨hqx, hqy⟩ := Prod.mk.inj hq
    exact ⟨rfl, .inl ⟨hqx ▸ hx, hqy ▸ hy⟩⟩
  · obtain ⟨hqx, hqy⟩ := Prod.mk.inj hq
    exact ⟨rfl, .inr ⟨hqx ▸ hx, hqy ▸ hy⟩⟩

/-- **How far an outline is from the circle**: less than a pixel inside, less than half of one
outside. -/
theorem roundOutline_ring (hr : 1 ≤ radius) {q : ℤ × ℤ}
    (hq : q ∈ roundOutline cx cy w h radius) :
    (radius - 1) ^ 2 < overhang cx w q.1 ^ 2 + overhang cy h q.2 ^ 2 ∧
      overhang cx w q.1 ^ 2 + overhang cy h q.2 ^ 2 ≤ radius ^ 2 + radius := by
  obtain ⟨s, hs, hle, hq⟩ := hq
  obtain ⟨-, hc1, hc⟩ := decisionStart_bounds radius
  have hon := onArc_of_mem_arc (by omega) hs
  have hinside := hon.inside hr hc1 hc hle
  have hring := (hon.ring hc1 hle).2
  rcases hq with hq | hq
  · obtain ⟨hqx, hqy⟩ := Prod.mk.inj hq
    rw [hqx, hqy]
    exact ⟨hinside, hring⟩
  · obtain ⟨hqx, hqy⟩ := Prod.mk.inj hq
    rw [hqx, hqy, Int.add_comm]
    exact ⟨hinside, hring⟩

/-- **An outline is closed**: no path of steps along the axes leads across it. -/
theorem roundOutline_closed (hr : 1 ≤ radius) {path : List (ℤ × ℤ)}
    (hpath : path.IsChain Midpoint.Near) {first last : ℤ × ℤ} (hfirst : path.head? = some first)
    (hlast : path.getLast? = some last)
    (hin : overhang cx w first.1 = 0 ∧ overhang cy h first.2 = 0)
    (hout : radius ^ 2 + radius < overhang cx w last.1 ^ 2 + overhang cy h last.2 ^ 2) :
    ∃ q ∈ path, q ∈ roundOutline cx cy w h radius := by
  let around (q : ℤ × ℤ) : ℤ × ℤ := (overhang cx w q.1, overhang cy h q.2)
  have hnear (a b : ℤ × ℤ) (hab : Midpoint.Near a b) : Midpoint.Near (around a) (around b) := by
    rcases hab with ⟨heq, hle⟩ | ⟨heq, hle⟩
    · exact .inl ⟨congrArg (overhang cx w) heq, abs_overhang_sub_le hle⟩
    · exact .inr ⟨congrArg (overhang cy h) heq, abs_overhang_sub_le hle⟩
  have hwithin : Midpoint.Within radius.toNat (arcStart radius) (around first) := by
    refine ⟨arcStart radius, Midpoint.mem_walk_self _ _, ?_, ?_⟩
    · simp [around, hin, arcStart]
    · simp only [around, hin, arcStart, max_self]
      omega
  have hnot : ¬ Midpoint.Within radius.toNat (arcStart radius) (around last) := fun hlast =>
    absurd (hlast.le (decisionStart_bounds radius).1 (onArc_arcStart (by omega))) (not_le.mpr hout)
  obtain ⟨a, ha, hmem⟩ := Midpoint.exists_mem_outline (n := radius.toNat) (s := arcStart radius)
    (by simp [arcStart]) (List.isChain_map_of_isChain around hnear hpath)
    (fun a ha => by
      obtain ⟨q, -, rfl⟩ := List.mem_map.mp ha
      exact ⟨overhang_nonneg, overhang_nonneg⟩)
    (by rw [List.head?_map, hfirst]; rfl) (by rw [List.getLast?_map, hlast]; rfl) hwithin hnot
  obtain ⟨q, hq, rfl⟩ := List.mem_map.mp ha
  exact ⟨q, hq, hmem⟩

/-- The pixels of the filled corners. -/
theorem mem_cornerPixels_fill (hfill : fill ≠ 0) (hfits : CornersFit cx cy w h radius)
    {p : Pixel} :
    p ∈ cornerPixels cx cy w h radius color fill ↔ ∃ s ∈ arc radius, s.x ≤ s.y ∧
      p.2 = color ∧ ((s.x = 0 ∧ Rim cx w 0 p.1.1 ∧ Rim cy h s.y p.1.2) ∨
        (0 < s.x ∧ Across cx w s.x p.1.1 ∧ Rim cy h s.y p.1.2) ∨
        (Across cx w s.y p.1.1 ∧ Rim cy h s.x p.1.2)) := by
  obtain ⟨hw, hh, hr, hleft, hright, htop, hbottom⟩ := hfits
  rw [mem_cornerPixels hr]
  refine exists_congr fun s => and_congr_right fun hs => and_congr_right fun hle => ?_
  have hon := onArc_of_mem_arc hr hs
  have hcol := hon.column
  have hrow := hon.row
  exact mem_points_fill hfill hcol hle hw hh (by omega) (by omega) (by omega) (by omega)

/-- Filled corners are less than half a pixel outside the circle. -/
theorem footprint_fill_le (hfill : fill ≠ 0) (hfits : CornersFit cx cy w h radius) {q : ℤ × ℤ}
    (hq : q ∈ footprint (cornerPixels cx cy w h radius color fill)) :
    overhang cx w q.1 ^ 2 + overhang cy h q.2 ^ 2 ≤ radius ^ 2 + radius := by
  obtain ⟨p, hp, rfl⟩ := hq
  obtain ⟨s, hs, hle, -, hplace⟩ := (mem_cornerPixels_fill hfill hfits).mp hp
  obtain ⟨hw, hh, hr, -⟩ := hfits
  have hon := onArc_of_mem_arc hr hs
  have hcol := hon.column
  have hring := (hon.ring (decisionStart_bounds radius).2.1 hle).2
  have hbound {a b : ℤ} (ha : overhang cx w p.1.1 ≤ a) (hb : overhang cy h p.1.2 = b)
      (hab : a ^ 2 + b ^ 2 ≤ radius ^ 2 + radius) :
      overhang cx w p.1.1 ^ 2 + overhang cy h p.1.2 ^ 2 ≤ radius ^ 2 + radius := by
    have hsq := pow_le_pow_left₀ (overhang_nonneg (c := cx) (w := w) (a := p.1.1)) ha 2
    rw [hb]
    linarith
  rcases hplace with ⟨hx, hcols, hrows⟩ | ⟨-, hcols, hrows⟩ | ⟨hcols, hrows⟩
  · exact hbound (overhang_of_rim hw hcol (hx ▸ hcols)).le (overhang_of_rim hh (by omega) hrows)
      hring
  · exact hbound (overhang_le_of_across hcol hcols) (overhang_of_rim hh (by omega) hrows) hring
  · exact hbound (overhang_le_of_across (by omega) hcols) (overhang_of_rim hh hcol hrows)
      (by linarith)

/-- They fill the circle that is smaller by one, apart from the rows in between. -/
theorem mem_footprint_fill (hfill : fill ≠ 0) (hfits : CornersFit cx cy w h radius)
    (hr1 : 1 ≤ radius) {q : ℤ × ℤ} (hrow : q.2 ≤ cy ∨ cy + h ≤ q.2)
    (hq : overhang cx w q.1 ^ 2 + overhang cy h q.2 ^ 2 ≤ (radius - 1) ^ 2) :
    q ∈ footprint (cornerPixels cx cy w h radius color fill) := by
  have hcols0 := overhang_nonneg (c := cx) (w := w) (a := q.1)
  have hrows0 := overhang_nonneg (c := cy) (w := h) (a := q.2)
  have hrim := rim_overhang hrow
  have hv : overhang cy h q.2 ≤ radius := by
    have hsq : overhang cy h q.2 ^ 2 ≤ (radius - 1) ^ 2 := by
      linarith [sq_nonneg (overhang cx w q.1)]
    have hle := (sq_le_sq₀ hrows0 (by omega)).mp hsq
    omega
  obtain ⟨s, hs, hle, hplace⟩ := exists_mem_arc hrows0 hv
  obtain ⟨-, hc1, hc⟩ := decisionStart_bounds radius
  have hon := onArc_of_mem_arc hfits.radius_nonneg hs
  have hcol := hon.column
  have hinside := hon.inside hr1 hc1 hc hle
  have hshorter {b : ℤ} (hb : 0 ≤ b) (hlt : overhang cx w q.1 ^ 2 < b ^ 2) :
      Across cx w b q.1 :=
    across_of_overhang_lt ((sq_lt_sq₀ hcols0 hb).mp hlt)
  refine ⟨(q, color), (mem_cornerPixels_fill hfill hfits).mpr
    ⟨s, hs, hle, rfl, .inr ?_⟩, rfl⟩
  rcases hplace with hx | hy
  · rw [← hx] at hrim hq
    exact .inr ⟨hshorter (by omega) (by linarith), hrim⟩
  · rw [← hy] at hrim hq
    have hlt : overhang cx w q.1 ^ 2 < s.x ^ 2 := by linarith
    have hx := (sq_lt_sq₀ hcols0 hcol).mp hlt
    exact .inl ⟨by omega, hshorter hcol hlt, hrim⟩

/-- The calls that draw corners set a pixel, or draw a line that goes as far to both sides. -/
theorem points_cases {x y : ℤ} {call : DrawingCall}
    (hcall : call ∈ vidRoundCornerPoints cx cy x y w h color fill) :
    (∃ a b, call = .setPixel a b color) ∨ fill ≠ 0 ∧ ∃ d v, (d = x ∨ d = y) ∧
      call = .drawLine (cx - d) v (cx + d + w) v 1 color := by
  unfold vidRoundCornerPoints at hcall
  split_ifs at hcall with h0 hfill heq hfill hlt hfill
  all_goals
    simp only [List.mem_append, List.mem_cons, List.not_mem_nil, or_false] at hcall
  · rcases hcall with (rfl | rfl | rfl | rfl) | rfl | rfl
    iterate 4 exact .inl ⟨_, _, rfl⟩
    all_goals exact .inr ⟨hfill, y, _, .inr rfl, rfl⟩
  · rcases hcall with (rfl | rfl | rfl | rfl) | rfl | rfl | rfl | rfl
    all_goals exact .inl ⟨_, _, rfl⟩
  · rcases hcall with rfl | rfl
    all_goals exact .inr ⟨hfill, x, _, .inl rfl, rfl⟩
  · rcases hcall with rfl | rfl | rfl | rfl
    all_goals exact .inl ⟨_, _, rfl⟩
  · rcases hcall with rfl | rfl | rfl | rfl
    · exact .inr ⟨hfill, x, _, .inl rfl, rfl⟩
    · exact .inr ⟨hfill, y, _, .inr rfl, rfl⟩
    · exact .inr ⟨hfill, y, _, .inr rfl, rfl⟩
    · exact .inr ⟨hfill, x, _, .inl rfl, rfl⟩
  · rcases hcall with rfl | rfl | rfl | rfl | rfl | rfl | rfl | rfl
    all_goals exact .inl ⟨_, _, rfl⟩

theorem plain_points {x y : ℤ} :
    ∀ call ∈ vidRoundCornerPoints cx cy x y w h color fill, call.Plain color := by
  intro call hcall
  rcases points_cases hcall with ⟨a, b, rfl⟩ | ⟨-, d, v, -, rfl⟩
  · rfl
  · rfl

/-- The lines are not too long for the scratch buffer. -/
theorem defined_points {display : VipFrameReader} (hdepth : display.HasDepth)
    (hfits : fill ≠ 0 → CornersFit cx cy w h radius ∧
      display.colorDepth / 8 * (2 * radius + w) ≤ 1024 * 3)
    {s : Midpoint.Place} (hr : 0 ≤ radius) (hs : s ∈ arc radius) :
    ∀ call ∈ vidRoundCornerPoints cx cy s.x s.y w h color fill, call.Defined display := by
  intro call hcall
  have hon := onArc_of_mem_arc hr hs
  have hcol := hon.column
  have hrow := hon.row
  rcases arc_cases hr hs with hle | ⟨h0, hlt⟩
  · rcases points_cases hcall with ⟨a, b, rfl⟩ | ⟨hfill, d, v, hd, rfl⟩
    · trivial
    · obtain ⟨⟨hw, -, -, hleft, hright, -, -⟩, hbuffer⟩ := hfits hfill
      exact DrawingCall.defined_drawLine hdepth (by omega) (by omega) (by omega) (by omega)
        hbuffer v 1 color
  · rw [points_of_lt h0 hlt] at hcall
    cases hcall

end Corners

/-! ### Circles -/

section Circle

variable {display : VipFrameReader} {hCenter vCenter radius : ℤ}

/-- The places of the outline of a circle are those at the same distance in all eight directions. -/
theorem mem_roundOutline_circle {u v : ℤ} :
    (hCenter + u, vCenter + v) ∈ roundOutline hCenter vCenter 0 0 radius ↔
      (|u|, |v|) ∈ Midpoint.outline radius.toNat (arcStart radius) := by
  have hover (c a : ℤ) : overhang c 0 (c + a) = |a| := by
    rw [abs_eq_max_neg]
    unfold overhang
    omega
  simp only [roundOutline, Set.mem_ofPred_eq, hover]

theorem footprint_vidDrawCircle_outline (hr : 0 ≤ radius) (color : BitVec 32) :
    footprint ((vidDrawCircle hCenter vCenter radius color 0).flatMap DrawingCall.plainPixels) =
      roundOutline hCenter vCenter 0 0 radius := by
  rw [vidDrawCircle_eq]
  refine (footprint_outline_subset le_rfl le_rfl hr).antisymm fun q hq => ?_
  exact mem_footprint_outline hr hq (by omega) (by omega)

theorem paints_vidDrawCircle (h : display.HasDepth) (hr : 0 ≤ radius) (color : BitVec 32)
    {fill : BitVec 8} (hfits : fill ≠ 0 → CornersFit hCenter vCenter 0 0 radius ∧
      display.colorDepth / 8 * (2 * radius + 0) ≤ 1024 * 3) :
    Paints display (vidDrawCircle hCenter vCenter radius color fill) color
      (footprint ((vidDrawCircle hCenter vCenter radius color fill).flatMap
        DrawingCall.plainPixels)) := by
  refine paints_footprint h ?_ ?_
  · rw [vidDrawCircle_eq]
    exact List.forall_mem_flatMap.mpr fun s _ => plain_points
  · rw [vidDrawCircle_eq]
    exact List.forall_mem_flatMap.mpr fun s hs => defined_points h hfits hr hs

/-! #### The values of type `int` -/

theorem isInt_of_mem_pointInts (hr : radius < 2 ^ 29) (hh : |hCenter| ≤ 2 ^ 30)
    (hv : |vCenter| ≤ 2 ^ 30) {x y : ℤ} (hx : 0 ≤ x ∧ x ≤ radius) (hy : 0 ≤ y ∧ y ≤ radius)
    {v : ℤ} (hmem : v ∈ pointInts hCenter vCenter x y) : IsInt v := by
  rw [abs_le] at hh hv
  simp only [pointInts, List.mem_cons, List.not_mem_nil, or_false] at hmem
  unfold IsInt
  omega

/-- The decision variable of a place stays small, and so does that of the next one. -/
theorem isInt_of_mem_circleLoopInts (hr : radius < 2 ^ 29) (hh : |hCenter| ≤ 2 ^ 30)
    (hv : |vCenter| ≤ 2 ^ 30) {n : ℕ} {x y p : ℤ}
    (hon : Midpoint.OnArc (decisionStart radius) radius ⟨x, y, p⟩) {v : ℤ}
    (hmem : v ∈ circleLoopInts hCenter vCenter n x y p) : IsInt v := by
  obtain ⟨hc, hc1, -⟩ := decisionStart_bounds radius
  induction n generalizing x y p with
  | zero => exact absurd hmem List.not_mem_nil
  | succ n ih =>
    rw [circleLoopInts] at hmem
    by_cases hlt : x < y
    · have hp := hon.decision_bounds hc1 hlt.le
      have hcol := hon.column
      have hrow := hon.row
      have hnext := hon.next hc hlt
      rw [if_pos hlt] at hmem
      rw [Midpoint.next] at hnext
      dsimp only at hp hcol hrow hmem hnext
      split_ifs at hmem hnext
      all_goals
        simp only [List.mem_append, List.mem_cons, List.not_mem_nil, or_false] at hmem
        rcases hmem with (hint | hpoint) | hturn
        · unfold IsInt
          omega
        · exact isInt_of_mem_pointInts hr hh hv (by omega) (by omega) hpoint
        · exact ih hnext hturn
    · rw [if_neg hlt] at hmem
      exact absurd hmem List.not_mem_nil

theorem isInt_of_mem_circleInts (h0 : 0 ≤ radius) (hr : radius < 2 ^ 29)
    (hh : |hCenter| ≤ 2 ^ 30) (hv : |vCenter| ≤ 2 ^ 30) {v : ℤ}
    (hmem : v ∈ circleInts hCenter vCenter radius) : IsInt v := by
  have hstart := tdiv_decision h0
  obtain ⟨hc, hc1, -⟩ := decisionStart_bounds radius
  simp only [circleInts, List.mem_append, List.mem_cons, List.not_mem_nil, or_false] at hmem
  rcases hmem with (hint | hpoint) | hturn
  · unfold IsInt
    omega
  · exact isInt_of_mem_pointInts hr hh hv (by omega) (by omega) hpoint
  · exact isInt_of_mem_circleLoopInts hr hh hv (onArc_arcStart h0) hturn

end Circle

end DigitalModulation
