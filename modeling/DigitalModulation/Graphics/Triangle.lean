import DigitalModulation.Graphics.FastLine
import DigitalModulation.Graphics.Shapes
import DigitalModulation.Lib.Scan

/-!
# `vid_draw_triangle`

A triangle is outlined by three lines. To fill it, its edges are scanned into a map of spans, the
least and the greatest column of each row, and a line is drawn for each span.

* `SpanArray`: the array of spans, out of which nothing can be read or written;
* `vidPutPixelInSpanMap`, `vidBresScanEdges`, `vidDrawTriangle`: the functions;
* `edgePlaces`: the places of a scanned edge;
* `mem_halfAround_edge`, `exists_mem_edgePlaces`: they follow the ideal edge and meet all its rows;
* `spanOf`: a span, read from the array; `spans_scanAll`: what the spans are in the end;
* `triangle_filled`: the filled triangle.
-/

namespace DigitalModulation

/-- The array of spans, with as many elements as were allocated. -/
structure SpanArray where
  size : ℤ
  val : ℤ → ℤ

namespace SpanArray

def get (a : SpanArray) (i : ℤ) : Option ℤ := if 0 ≤ i ∧ i < a.size then some (a.val i) else none

def set (a : SpanArray) (i v : ℤ) : Option SpanArray :=
  if 0 ≤ i ∧ i < a.size then some { a with val := Function.update a.val i v } else none

end SpanArray

/-- `vid_put_pixel_in_span_map`. -/
def vidPutPixelInSpanMap (x y : ℤ) (a : SpanArray) : Option SpanArray := do
  let lo ← a.get (y * 2)
  if lo = -1 then
    let a ← a.set (y * 2) x
    a.set (y * 2 + 1) x
  else if x < lo then a.set (y * 2) x
  else
    let hi ← a.get (y * 2 + 1)
    if hi < x then a.set (y * 2 + 1) x else some a

/-- The loop of `vid_bres_scan_edges` along the horizontal axis, of `n` turns. -/
def horizScan (yIncr dPr dPru : ℤ) : ℕ → ℤ → ℤ → ℤ → SpanArray → Option SpanArray
  | 0, _, _, _, a => some a
  | n + 1, x, y, P, a => do
    let a ← vidPutPixelInSpanMap x y a
    if 0 < P then horizScan yIncr dPr dPru n (x + 1) (y + yIncr) (P + dPru) a
    else horizScan yIncr dPr dPru n (x + 1) y (P + dPr) a

/-- The loop along the vertical axis. -/
def vertScan (yIncr dPr dPru : ℤ) : ℕ → ℤ → ℤ → ℤ → SpanArray → Option SpanArray
  | 0, _, _, _, a => some a
  | n + 1, x, y, P, a => do
    let a ← vidPutPixelInSpanMap x y a
    if 0 < P then vertScan yIncr dPr dPru n (x + 1) (y + yIncr) (P + dPru) a
    else vertScan yIncr dPr dPru n x (y + yIncr) (P + dPr) a

/-- `vid_bres_scan_edges` after its swap. -/
def sortedScanEdge (x1 y1 x2 y2 : ℤ) (a : SpanArray) : Option SpanArray :=
  let yDelta := |y1 - y2|
  let xDelta := x2 - x1
  let yIncr := if y2 < y1 then -1 else 1
  if yDelta ≤ xDelta then
    let dPr := yDelta * 2
    horizScan yIncr dPr (dPr - xDelta * 2) (xDelta + 1).toNat x1 y1 (dPr - xDelta) a
  else
    let dPr := xDelta * 2
    vertScan yIncr dPr (dPr - yDelta * 2) (yDelta + 1).toNat x1 y1 (dPr - yDelta) a

/-- `vid_bres_scan_edges`. -/
def vidBresScanEdges (x1 y1 x2 y2 : ℤ) (a : SpanArray) : Option SpanArray :=
  if x2 < x1 then sortedScanEdge x2 y2 x1 y1 a else sortedScanEdge x1 y1 x2 y2 a

/-- `max3`. -/
def max3 (a b c : ℤ) : ℤ :=
  let a := if a < b then b else a
  if a < c then c else a

/-- `min3`. -/
def min3 (a b c : ℤ) : ℤ :=
  let a := if b < a then b else a
  if c < a then c else a

/-- The fields of `triangle_struct` that the function is given. -/
structure Triangle where
  vertexX : Fin 3 → ℤ
  vertexY : Fin 3 → ℤ
  col : BitVec 32
  fill : ℤ

namespace Triangle

variable (tri : Triangle)

def topY : ℤ := min3 (tri.vertexY 0) (tri.vertexY 1) (tri.vertexY 2)

def bottomY : ℤ := max3 (tri.vertexY 0) (tri.vertexY 1) (tri.vertexY 2)

/-- The values of `i` in the loops from `top_y` to `bottom_y`. -/
def rows : List ℤ :=
  (List.range (tri.bottomY - tri.topY + 1).toNat).map fun k : ℕ => tri.topY + k

end Triangle

/-- The spans are marked as empty. -/
def initSpans (rows : List ℤ) (a : SpanArray) : Option SpanArray :=
  rows.foldlM (fun a i => do
    let a ← a.set (i * 2) (-1)
    a.set (i * 2 + 1) (-1)) a

/-- The three edges are scanned. -/
def scanAll (tri : Triangle) (a : SpanArray) : Option SpanArray := do
  let a ← vidBresScanEdges (tri.vertexX 0) (tri.vertexY 0) (tri.vertexX 1) (tri.vertexY 1) a
  let a ← vidBresScanEdges (tri.vertexX 1) (tri.vertexY 1) (tri.vertexX 2) (tri.vertexY 2) a
  vidBresScanEdges (tri.vertexX 2) (tri.vertexY 2) (tri.vertexX 0) (tri.vertexY 0) a

/-- A line for each span. -/
def renderSpans (rows : List ℤ) (col : BitVec 32) (a : SpanArray) : Option (List DrawingCall) :=
  rows.mapM fun i => do
    let lo ← a.get (i * 2)
    let hi ← a.get (i * 2 + 1)
    some (.drawLine lo i hi i 1 col)

/-- `vid_draw_triangle`, given what the allocated array holds. There is no result if an index is
outside it. -/
def vidDrawTriangle (tri : Triangle) (display : VipFrameReader) (malloc : ℤ → ℤ) :
    Option (List DrawingCall) := do
  let outline := [
    DrawingCall.drawLine (tri.vertexX 0) (tri.vertexY 0) (tri.vertexX 1) (tri.vertexY 1) 1 tri.col,
    .drawLine (tri.vertexX 1) (tri.vertexY 1) (tri.vertexX 2) (tri.vertexY 2) 1 tri.col,
    .drawLine (tri.vertexX 2) (tri.vertexY 2) (tri.vertexX 0) (tri.vertexY 0) 1 tri.col]
  if tri.fill = 1 then
    let a ← initSpans tri.rows ⟨display.height * 2, malloc⟩
    let a ← scanAll tri a
    let spans ← renderSpans tri.rows tri.col a
    some (outline ++ spans)
  else some outline

/-! ### The places of an edge -/

/-- The places of a scanned edge, from left to right. -/
def sortedEdgePlaces (p q : ℤ × ℤ) : List (ℤ × ℤ) :=
  (List.range ((max (q.1 - p.1) |p.2 - q.2|).toNat + 1)).map fun k =>
    let o := Bresenham.offset (q.1 - p.1) |p.2 - q.2| k
    (p.1 + o.1, p.2 + (if q.2 < p.2 then -1 else 1) * o.2)

/-- The places of a scanned edge. -/
def edgePlaces (p q : ℤ × ℤ) : List (ℤ × ℤ) :=
  if q.1 < p.1 then sortedEdgePlaces q p else sortedEdgePlaces p q

/-- A pixel is put into the map. -/
def putPlace (a : SpanArray) (p : ℤ × ℤ) : Option SpanArray := vidPutPixelInSpanMap p.1 p.2 a

section Scan

variable (yIncr dPr dPru : ℤ)

theorem horizScan_eq (n : ℕ) (x y P : ℤ) (a : SpanArray) :
    horizScan yIncr dPr dPru n x y P a = ((List.range n).map fun k : ℕ =>
      (x + k, y + yIncr * (Bresenham.trace dPr dPru P k).1)).foldlM putPlace a := by
  induction n generalizing x y P a with
  | zero => rfl
  | succ n ih =>
    rw [horizScan, List.range_succ_eq_map, List.map_cons, List.foldlM_cons, List.map_map]
    have hfirst : putPlace a (x + (0 : ℕ), y + yIncr * (Bresenham.trace dPr dPru P 0).1) =
        vidPutPixelInSpanMap x y a := by
      simp [putPlace, Bresenham.trace]
    rw [hfirst]
    refine congrArg (Option.bind _) (funext fun a => ?_)
    split_ifs with hP
    · rw [ih]
      congr 1
      refine List.map_congr_left fun k _ => ?_
      simp only [Function.comp, Bresenham.trace_succ', hP, if_true]
      refine Prod.ext ?_ ?_ <;> push_cast <;> ring
    · rw [ih]
      congr 1
      refine List.map_congr_left fun k _ => ?_
      simp only [Function.comp, Bresenham.trace_succ', hP, if_false]
      refine Prod.ext ?_ rfl
      push_cast
      ring

theorem vertScan_eq (n : ℕ) (x y P : ℤ) (a : SpanArray) :
    vertScan yIncr dPr dPru n x y P a = ((List.range n).map fun k : ℕ =>
      (x + (Bresenham.trace dPr dPru P k).1, y + yIncr * k)).foldlM putPlace a := by
  induction n generalizing x y P a with
  | zero => rfl
  | succ n ih =>
    rw [vertScan, List.range_succ_eq_map, List.map_cons, List.foldlM_cons, List.map_map]
    have hfirst : putPlace a (x + (Bresenham.trace dPr dPru P 0).1, y + yIncr * (0 : ℕ)) =
        vidPutPixelInSpanMap x y a := by
      simp [putPlace, Bresenham.trace]
    rw [hfirst]
    refine congrArg (Option.bind _) (funext fun a => ?_)
    split_ifs with hP
    · rw [ih]
      congr 1
      refine List.map_congr_left fun k _ => ?_
      simp only [Function.comp, Bresenham.trace_succ', hP, if_true]
      refine Prod.ext ?_ ?_ <;> push_cast <;> ring
    · rw [ih]
      congr 1
      refine List.map_congr_left fun k _ => ?_
      simp only [Function.comp, Bresenham.trace_succ', hP, if_false]
      refine Prod.ext rfl ?_
      push_cast
      ring

end Scan

/-- **Scanning an edge puts its places into the map.** -/
theorem vidBresScanEdges_eq (p q : ℤ × ℤ) (a : SpanArray) :
    vidBresScanEdges p.1 p.2 q.1 q.2 a = (edgePlaces p q).foldlM putPlace a := by
  have hsorted {p q : ℤ × ℤ} (hle : p.1 ≤ q.1) :
      sortedScanEdge p.1 p.2 q.1 q.2 a = (sortedEdgePlaces p q).foldlM putPlace a := by
    have hdouble (x : ℤ) : x * 2 = 2 * x := Int.mul_comm x 2
    have hy := abs_nonneg (p.2 - q.2)
    unfold sortedScanEdge sortedEdgePlaces
    simp only [hdouble]
    by_cases hlong : |p.2 - q.2| ≤ q.1 - p.1
    · have hturns : (q.1 - p.1 + 1).toNat = (max (q.1 - p.1) |p.2 - q.2|).toNat + 1 := by omega
      rw [if_pos hlong, horizScan_eq, hturns]
      simp only [Bresenham.offset, if_pos hlong]
      rfl
    · have hturns : (|p.2 - q.2| + 1).toNat = (max (q.1 - p.1) |p.2 - q.2|).toNat + 1 := by omega
      rw [if_neg hlong, vertScan_eq, hturns]
      simp only [Bresenham.offset, if_neg hlong]
      rfl
  unfold vidBresScanEdges edgePlaces
  split_ifs with h
  · exact hsorted h.le
  · exact hsorted (not_lt.mp h)

section Places

variable {p q : ℤ × ℤ}

/-- A row of an edge, in terms of the steps taken. -/
theorem row_incr (p q : ℤ × ℤ) :
    p.2 + (if q.2 < p.2 then -1 else 1) * |p.2 - q.2| = q.2 := by
  split_ifs with h
  · rw [abs_of_pos (by omega)]
    ring
  · rw [abs_of_nonpos (by omega)]
    ring

/-- The places of an edge are near it. -/
theorem mem_halfAround_sorted (hle : p.1 ≤ q.1) {r : ℤ × ℤ} (hr : r ∈ sortedEdgePlaces p q) :
    (min p.1 q.1 ≤ r.1 ∧ r.1 ≤ max p.1 q.1) ∧ (min p.2 q.2 ≤ r.2 ∧ r.2 ≤ max p.2 q.2) ∧
      Scan.toReal r ∈ Scan.halfAround (segment ℝ (Scan.toReal p) (Scan.toReal q)) := by
  obtain ⟨k, hk, rfl⟩ := List.mem_map.mp hr
  rw [List.mem_range] at hk
  have ha : 0 ≤ q.1 - p.1 := by omega
  have hb := abs_nonneg (p.2 - q.2)
  have hbounds := Bresenham.offset_le ha hb (k := k) (by omega)
  have herror := Bresenham.offset_error ha hb k
  have hincr := row_incr p q
  have hcols : min p.1 q.1 ≤ p.1 + (Bresenham.offset (q.1 - p.1) |p.2 - q.2| k).1 ∧
      p.1 + (Bresenham.offset (q.1 - p.1) |p.2 - q.2| k).1 ≤ max p.1 q.1 := by omega
  have hrows : min p.2 q.2 ≤ p.2 + (if q.2 < p.2 then -1 else 1) *
        (Bresenham.offset (q.1 - p.1) |p.2 - q.2| k).2 ∧
      p.2 + (if q.2 < p.2 then -1 else 1) * (Bresenham.offset (q.1 - p.1) |p.2 - q.2| k).2 ≤
        max p.2 q.2 := by
    split_ifs at hincr ⊢ <;> omega
  refine ⟨hcols, hrows, Scan.mem_halfAround_segment hcols hrows ?_⟩
  have hunit : |(if q.2 < p.2 then (-1 : ℤ) else 1)| = 1 := by
    split_ifs <;> rfl
  have hdown : |q.2 - p.2| = |p.2 - q.2| := abs_sub_comm _ _
  have hdiff : q.2 - p.2 = (if q.2 < p.2 then -1 else 1) * |p.2 - q.2| := by omega
  rw [hdown, abs_of_nonneg ha]
  refine le_of_eq_of_le ?_ herror
  congr 1
  dsimp only
  rw [hdiff, add_sub_cancel_left, add_sub_cancel_left]
  generalize (if q.2 < p.2 then (-1 : ℤ) else 1) = s at hunit ⊢
  rw [show ∀ a b u v : ℤ, a * (s * u) - s * b * v = s * (a * u - b * v) by intros; ring, abs_mul,
    hunit, one_mul]

theorem mem_halfAround_edge {r : ℤ × ℤ} (hr : r ∈ edgePlaces p q) :
    (min p.1 q.1 ≤ r.1 ∧ r.1 ≤ max p.1 q.1) ∧ (min p.2 q.2 ≤ r.2 ∧ r.2 ≤ max p.2 q.2) ∧
      Scan.toReal r ∈ Scan.halfAround (segment ℝ (Scan.toReal p) (Scan.toReal q)) := by
  unfold edgePlaces at hr
  split_ifs at hr with hlt
  · have hplace := mem_halfAround_sorted hlt.le hr
    rwa [min_comm q.1, max_comm q.1, min_comm q.2, max_comm q.2, segment_symm] at hplace
  · exact mem_halfAround_sorted (not_lt.mp hlt) hr

/-- **An edge meets every row near the ideal one.** -/
theorem exists_mem_sorted (hle : p.1 ≤ q.1) {L : ℝ} {r : ℤ}
    (hL : (L, (r : ℝ)) ∈ segment ℝ (Scan.toReal p) (Scan.toReal q)) :
    ∃ s ∈ sortedEdgePlaces p q, s.2 = r ∧ |(s.1 : ℝ) - L| < 1 := by
  rw [segment_eq_image'] at hL
  obtain ⟨t, ⟨ht0, ht1⟩, hLr⟩ := hL
  obtain ⟨hcol, hrow⟩ := Prod.mk.inj hLr
  simp only [Scan.toReal, Prod.fst_sub, Prod.smul_fst, Prod.snd_sub, Prod.smul_snd,
    smul_eq_mul] at hcol hrow
  have ha : 0 ≤ q.1 - p.1 := by omega
  have hincr := row_incr p q
  have hplace {k : ℕ} (hk : k ≤ max (q.1 - p.1) |p.2 - q.2|) :
      (p.1 + (Bresenham.offset (q.1 - p.1) |p.2 - q.2| k).1, p.2 + (if q.2 < p.2 then -1 else 1) *
        (Bresenham.offset (q.1 - p.1) |p.2 - q.2| k).2) ∈ sortedEdgePlaces p q :=
    List.mem_map.mpr ⟨k, List.mem_range.mpr (by omega), rfl⟩
  have hlen : (0 : ℝ) ≤ q.1 - p.1 := by exact_mod_cast ha
  have hmul : t * ((q.1 : ℝ) - p.1) ≤ q.1 - p.1 := mul_le_of_le_one_left hlen ht1
  have hmul0 : 0 ≤ t * ((q.1 : ℝ) - p.1) := mul_nonneg ht0 hlen
  obtain hb | hb := (abs_nonneg (p.2 - q.2)).eq_or_lt
  · -- All places are in the row.
    have hpq : q.2 = p.2 := by
      have hzero := abs_eq_zero.mp hb.symm
      omega
    rw [hpq, sub_self, mul_zero, add_zero, Int.cast_inj] at hrow
    let k := ⌊t * ((q.1 : ℝ) - p.1)⌋₊
    have hkle : (k : ℝ) ≤ t * (q.1 - p.1) := Nat.floor_le hmul0
    have hklt : t * ((q.1 : ℝ) - p.1) < k + 1 := Nat.lt_floor_add_one _
    have hk : (k : ℤ) ≤ q.1 - p.1 := by exact_mod_cast hkle.trans hmul
    have hbounds := Bresenham.offset_le ha hb.le (k := k) (le_max_of_le_left hk)
    have hfirst : (Bresenham.offset (q.1 - p.1) |p.2 - q.2| k).1 = k := by
      unfold Bresenham.offset
      rw [if_pos (by omega)]
    refine ⟨_, hplace (k := k) (le_max_of_le_left hk), ?_, ?_⟩
    · have hzero : (Bresenham.offset (q.1 - p.1) |p.2 - q.2| k).2 = 0 := by omega
      rw [← hrow]
      simp [hzero]
    · rw [hfirst, ← hcol, abs_lt]
      push_cast
      constructor <;> linarith
  · obtain ⟨R, hR⟩ := Int.eq_ofNat_of_zero_le (abs_nonneg (r - p.2))
    have hRb : (R : ℤ) ≤ |p.2 - q.2| ∧ r = p.2 + (if q.2 < p.2 then -1 else 1) * R ∧
        (R : ℝ) = t * (|p.2 - q.2| : ℤ) := by
      rcases lt_or_ge q.2 p.2 with hdown | hup
      · have hdown' : (q.2 : ℝ) < p.2 := by exact_mod_cast hdown
        have hle : r ≤ p.2 := by exact_mod_cast (show (r : ℝ) ≤ p.2 by nlinarith)
        have hge : q.2 ≤ r := by exact_mod_cast (show (q.2 : ℝ) ≤ r by nlinarith)
        rw [abs_of_nonpos (by omega)] at hR
        rw [if_pos hdown, abs_of_pos (by omega)]
        have hRr : (R : ℝ) = p.2 - r := by exact_mod_cast (show (R : ℤ) = p.2 - r by omega)
        refine ⟨by omega, by omega, ?_⟩
        rw [hRr]
        push_cast
        linarith
      · have hup' : (p.2 : ℝ) ≤ q.2 := by exact_mod_cast hup
        have hge : p.2 ≤ r := by exact_mod_cast (show (p.2 : ℝ) ≤ r by nlinarith)
        have hle : r ≤ q.2 := by exact_mod_cast (show (r : ℝ) ≤ q.2 by nlinarith)
        rw [abs_of_nonneg (by omega)] at hR
        rw [if_neg (not_lt.mpr hup), abs_of_nonpos (by omega)]
        have hRr : (R : ℝ) = r - p.2 := by exact_mod_cast (show (R : ℤ) = r - p.2 by omega)
        refine ⟨by omega, by omega, ?_⟩
        rw [hRr]
        push_cast
        linarith
    obtain ⟨k, hk, hkR, hnear⟩ := Bresenham.exists_offset_row ha hb hRb.1
    refine ⟨_, hplace hk, ?_, ?_⟩
    · rw [hkR]
      exact hRb.2.1.symm
    · have hb' : (0 : ℝ) < (|p.2 - q.2| : ℤ) := by exact_mod_cast hb
      have hnear' : |((|p.2 - q.2| : ℤ) : ℝ) * (Bresenham.offset (q.1 - p.1) |p.2 - q.2| k).1 -
          (q.1 - p.1) * R| < (|p.2 - q.2| : ℤ) := by exact_mod_cast hnear
      have hsplit (b o u : ℝ) : b * o - u * (t * b) = b * (o - t * u) := by ring
      rw [hRb.2.2, hsplit, abs_mul, abs_of_pos hb', mul_lt_iff_lt_one_right hb'] at hnear'
      rw [← hcol]
      push_cast
      rwa [add_sub_add_left_eq_sub]

theorem exists_mem_edgePlaces {L : ℝ} {r : ℤ}
    (hL : (L, (r : ℝ)) ∈ segment ℝ (Scan.toReal p) (Scan.toReal q)) :
    ∃ s ∈ edgePlaces p q, s.2 = r ∧ |(s.1 : ℝ) - L| < 1 := by
  unfold edgePlaces
  split_ifs with hlt
  · rw [segment_symm] at hL
    exact exists_mem_sorted hlt.le hL
  · exact exists_mem_sorted (not_lt.mp hlt) hL

end Places

/-! ### The map of spans -/

namespace SpanArray

/-- Both elements of the row are in the array. -/
def HasRow (a : SpanArray) (r : ℤ) : Prop := 0 ≤ r * 2 ∧ r * 2 + 1 < a.size

/-- The span of a row, if it is not marked as empty. -/
def spanOf (a : SpanArray) (r : ℤ) : Option (ℤ × ℤ) :=
  if a.val (r * 2) = -1 then none else some (a.val (r * 2), a.val (r * 2 + 1))

theorem get_eq {a : SpanArray} {i : ℤ} (h : 0 ≤ i ∧ i < a.size) : a.get i = some (a.val i) :=
  if_pos h

theorem set_eq {a : SpanArray} {i : ℤ} (h : 0 ≤ i ∧ i < a.size) (v : ℤ) :
    a.set i v = some { a with val := Function.update a.val i v } :=
  if_pos h

theorem spanOf_eq {a : SpanArray} {r lo hi : ℤ} (hlo : a.val (r * 2) = lo)
    (hhi : a.val (r * 2 + 1) = hi) (h : lo ≠ -1) : a.spanOf r = some (lo, hi) := by
  rw [spanOf, hlo, hhi, if_neg h]

theorem spanOf_congr {a a' : SpanArray} {r : ℤ} (hlo : a'.val (r * 2) = a.val (r * 2))
    (hhi : a'.val (r * 2 + 1) = a.val (r * 2 + 1)) : a'.spanOf r = a.spanOf r := by
  rw [spanOf, spanOf, hlo, hhi]

end SpanArray

/-- **A pixel that is put into the map extends the span of its row.** -/
theorem putPlace_spec {a : SpanArray} {p : ℤ × ℤ} (hrow : a.HasRow p.2) (hcol : 0 ≤ p.1) :
    ∃ a', putPlace a p = some a' ∧ a'.size = a.size ∧ ∀ r, a'.spanOf r =
      if r = p.2 then Extent.extend (a.spanOf r) p.1 else a.spanOf r := by
  obtain ⟨x, y⟩ := p
  obtain ⟨h0, h1⟩ := hrow
  dsimp only at h0 h1 hcol ⊢
  have hlo (f : ℤ → ℤ) : 0 ≤ y * 2 ∧ y * 2 < (SpanArray.mk a.size f).size :=
    ⟨h0, by dsimp only; omega⟩
  have hhi (f : ℤ → ℤ) : 0 ≤ y * 2 + 1 ∧ y * 2 + 1 < (SpanArray.mk a.size f).size :=
    ⟨by omega, h1⟩
  have hspec {f : ℤ → ℤ} {lo hi : ℤ} (hother : ∀ i, i ≠ y * 2 → i ≠ y * 2 + 1 → f i = a.val i)
      (hflo : f (y * 2) = lo) (hfhi : f (y * 2 + 1) = hi) (hne : lo ≠ -1)
      (hself : Extent.extend (a.spanOf y) x = some (lo, hi)) (r : ℤ) :
      (SpanArray.mk a.size f).spanOf r =
        if r = y then Extent.extend (a.spanOf r) x else a.spanOf r := by
    split_ifs with hr
    · rw [hr, hself]
      exact SpanArray.spanOf_eq hflo hfhi hne
    · exact SpanArray.spanOf_congr (hother _ (by omega) (by omega)) (hother _ (by omega) (by omega))
  have hne : y * 2 + 1 ≠ y * 2 := by omega
  simp only [putPlace, vidPutPixelInSpanMap, SpanArray.get_eq (a := a) (hlo a.val),
    SpanArray.get_eq (a := a) (hhi a.val), SpanArray.set_eq (a := a) (hlo a.val),
    SpanArray.set_eq (a := a) (hhi a.val), Option.bind_eq_bind, Option.bind_some]
  have hold : ¬ a.val (y * 2) = -1 →
      a.spanOf y = some (a.val (y * 2), a.val (y * 2 + 1)) := fun h => if_neg h
  split_ifs with hempty hbefore hbehind
  · refine ⟨_, SpanArray.set_eq (hhi _) x, rfl,
      hspec (fun i h h' => ?_) ?_ (Function.update_self ..) (show x ≠ -1 by omega) ?_⟩
    · exact (Function.update_of_ne h' _ _).trans (Function.update_of_ne h _ _)
    · exact (Function.update_of_ne hne.symm _ _).trans (Function.update_self ..)
    · rw [SpanArray.spanOf, if_pos hempty]
      rfl
  · refine ⟨_, rfl, rfl, hspec (fun i h h' => Function.update_of_ne h _ _)
      (Function.update_self ..) (Function.update_of_ne hne _ _) (show x ≠ -1 by omega) ?_⟩
    rw [hold hempty]
    exact if_pos hbefore
  · refine ⟨_, rfl, rfl, hspec (fun i h h' => Function.update_of_ne h' _ _)
      (Function.update_of_ne hne.symm _ _) (Function.update_self ..) hempty ?_⟩
    rw [hold hempty]
    exact (if_neg hbefore).trans (if_pos hbehind)
  · refine ⟨a, rfl, rfl, hspec (f := a.val) (fun i h h' => rfl) rfl rfl hempty ?_⟩
    rw [hold hempty]
    exact (if_neg hbefore).trans (if_neg hbehind)

/-- The columns of the places in a row. -/
def rowColumns (ps : List (ℤ × ℤ)) (r : ℤ) : List ℤ := ps.filterMap fun p =>
  if p.2 = r then some p.1 else none

theorem mem_rowColumns {ps : List (ℤ × ℤ)} {r x : ℤ} : x ∈ rowColumns ps r ↔ (x, r) ∈ ps := by
  unfold rowColumns
  rw [List.mem_filterMap]
  constructor
  · rintro ⟨p, hp, hx⟩
    split_ifs at hx with hr
    obtain rfl := Option.some_inj.mp hx
    exact hr ▸ hp
  · exact fun h => ⟨(x, r), h, if_pos rfl⟩

theorem rowColumns_cons (p : ℤ × ℤ) (ps : List (ℤ × ℤ)) (r : ℤ) : rowColumns (p :: ps) r =
    if r = p.2 then p.1 :: rowColumns ps r else rowColumns ps r := by
  unfold rowColumns
  rw [List.filterMap_cons]
  by_cases h : r = p.2
  · rw [if_pos h, if_pos h.symm]
  · rw [if_neg h, if_neg (Ne.symm h)]

/-- **What the map holds after some pixels**: in each row, the extent of their columns. -/
theorem foldlM_putPlace {a : SpanArray} {ps : List (ℤ × ℤ)}
    (hps : ∀ p ∈ ps, a.HasRow p.2 ∧ 0 ≤ p.1) :
    ∃ a', ps.foldlM putPlace a = some a' ∧ a'.size = a.size ∧ ∀ r, a'.spanOf r =
      (rowColumns ps r).foldl Extent.extend (a.spanOf r) := by
  induction ps generalizing a with
  | nil => exact ⟨a, rfl, rfl, fun r => rfl⟩
  | cons p ps ih =>
    rw [List.forall_mem_cons] at hps
    obtain ⟨a₁, hput, hsize, hspan⟩ := putPlace_spec hps.1.1 hps.1.2
    have hrest : ∀ p ∈ ps, a₁.HasRow p.2 ∧ 0 ≤ p.1 := fun p hp => by
      unfold SpanArray.HasRow
      rw [hsize]
      exact hps.2 p hp
    obtain ⟨a₂, hfold, hsize', hspan'⟩ := ih hrest
    refine ⟨a₂, ?_, hsize'.trans hsize, fun r => ?_⟩
    · rw [List.foldlM_cons, hput]
      exact hfold
    · rw [hspan', hspan, rowColumns_cons]
      split_ifs
      · rfl
      · rfl

/-- The spans are marked as empty. -/
theorem initSpans_spec {rows : List ℤ} {a : SpanArray} (hrows : ∀ r ∈ rows, a.HasRow r) :
    ∃ a', initSpans rows a = some a' ∧ a'.size = a.size ∧
      ∀ r, r ∈ rows ∨ a.spanOf r = none → a'.spanOf r = none := by
  unfold initSpans
  induction rows generalizing a with
  | nil => exact ⟨a, rfl, rfl, fun r hr => hr.resolve_left List.not_mem_nil⟩
  | cons i rows ih =>
    rw [List.forall_mem_cons] at hrows
    obtain ⟨h0, h1⟩ := hrows.1
    let a₁ : SpanArray := ⟨a.size,
      Function.update (Function.update a.val (i * 2) (-1)) (i * 2 + 1) (-1)⟩
    have hstep : ((a.set (i * 2) (-1)).bind fun a => a.set (i * 2 + 1) (-1)) = some a₁ := by
      rw [SpanArray.set_eq ⟨h0, by omega⟩, Option.bind_some]
      exact SpanArray.set_eq (a := ⟨a.size, Function.update a.val (i * 2) (-1)⟩) ⟨by omega, h1⟩ _
    have hval (r : ℤ) (hr : r = i ∨ a.spanOf r = none) : a₁.spanOf r = none := by
      by_cases hri : r = i
      · refine if_pos ?_
        rw [hri]
        exact (Function.update_of_ne (by omega) _ _).trans (Function.update_self ..)
      · rw [← hr.resolve_left hri]
        refine SpanArray.spanOf_congr ?_ ?_
        · exact (Function.update_of_ne (by omega) _ _).trans (Function.update_of_ne (by omega) _ _)
        · exact (Function.update_of_ne (by omega) _ _).trans (Function.update_of_ne (by omega) _ _)
    obtain ⟨a₂, hfold, hsize, hspan⟩ := ih (a := a₁) hrows.2
    refine ⟨a₂, ?_, hsize, fun r hr => hspan r ?_⟩
    · rw [List.foldlM_cons]
      exact (congrArg (Option.bind · _) hstep).trans hfold
    · rcases hr with hr | hr
      · rcases List.mem_cons.mp hr with hr | hr
        · exact .inr (hval r (.inl hr))
        · exact .inl hr
      · exact .inr (hval r (.inr hr))

/-! ### Triangles -/

namespace Triangle

variable (tri : Triangle)

/-- A corner. -/
def vertex (i : Fin 3) : ℤ × ℤ := (tri.vertexX i, tri.vertexY i)

/-- The ideal triangle. -/
def area : Set (ℝ × ℝ) :=
  convexHull ℝ {Scan.toReal (tri.vertex 0), Scan.toReal (tri.vertex 1), Scan.toReal (tri.vertex 2)}

/-- The places of the three scanned edges. -/
def places : List (ℤ × ℤ) :=
  edgePlaces (tri.vertex 0) (tri.vertex 1) ++
    (edgePlaces (tri.vertex 1) (tri.vertex 2) ++ edgePlaces (tri.vertex 2) (tri.vertex 0))

variable {tri}

theorem mem_rows {r : ℤ} : r ∈ tri.rows ↔ tri.topY ≤ r ∧ r ≤ tri.bottomY := by
  unfold rows
  rw [List.mem_map]
  constructor
  · rintro ⟨k, hk, rfl⟩
    rw [List.mem_range] at hk
    omega
  · rintro ⟨h, h'⟩
    exact ⟨(r - tri.topY).toNat, List.mem_range.mpr (by omega), by omega⟩

/-- The rows from the highest to the lowest corner. -/
theorem topY_bottomY : (∃ i, tri.vertexY i = tri.topY) ∧ (∃ i, tri.vertexY i = tri.bottomY) ∧
    ∀ i, tri.topY ≤ tri.vertexY i ∧ tri.vertexY i ≤ tri.bottomY := by
  have htop : tri.topY = min (min (tri.vertexY 0) (tri.vertexY 1)) (tri.vertexY 2) := by
    unfold topY min3
    dsimp only
    split_ifs <;> omega
  have hbottom : tri.bottomY = max (max (tri.vertexY 0) (tri.vertexY 1)) (tri.vertexY 2) := by
    unfold bottomY max3
    dsimp only
    split_ifs <;> omega
  refine ⟨?_, ?_, fun i => ?_⟩
  · rw [htop]
    rcases min_choice (min (tri.vertexY 0) (tri.vertexY 1)) (tri.vertexY 2) with h | h
    · rcases min_choice (tri.vertexY 0) (tri.vertexY 1) with h' | h'
      · exact ⟨0, (h.trans h').symm⟩
      · exact ⟨1, (h.trans h').symm⟩
    · exact ⟨2, h.symm⟩
  · rw [hbottom]
    rcases max_choice (max (tri.vertexY 0) (tri.vertexY 1)) (tri.vertexY 2) with h | h
    · rcases max_choice (tri.vertexY 0) (tri.vertexY 1) with h' | h'
      · exact ⟨0, (h.trans h').symm⟩
      · exact ⟨1, (h.trans h').symm⟩
    · exact ⟨2, h.symm⟩
  · rw [htop, hbottom]
    match i with
    | 0 => omega
    | 1 => omega
    | 2 => omega

theorem vertex_mem_area (i : Fin 3) : Scan.toReal (tri.vertex i) ∈ tri.area :=
  subset_convexHull ℝ _ (by fin_cases i <;> simp)

/-- A place of an edge lies between the corners, and half a step around the ideal triangle. -/
theorem places_spec {p : ℤ × ℤ} (hp : p ∈ tri.places) : ∃ i j,
    (min (tri.vertexX i) (tri.vertexX j) ≤ p.1 ∧ p.1 ≤ max (tri.vertexX i) (tri.vertexX j)) ∧
      (min (tri.vertexY i) (tri.vertexY j) ≤ p.2 ∧ p.2 ≤ max (tri.vertexY i) (tri.vertexY j)) ∧
      Scan.toReal p ∈ Scan.halfAround tri.area := by
  have hedge {i j : Fin 3} (hp : p ∈ edgePlaces (tri.vertex i) (tri.vertex j)) := by
    obtain ⟨hcol, hrow, hnear⟩ := mem_halfAround_edge hp
    exact (⟨i, j, hcol, hrow, Scan.halfAround_mono ((convex_convexHull ℝ _).segment_subset
      (vertex_mem_area i) (vertex_mem_area j)) hnear⟩ : ∃ i j,
      (min (tri.vertexX i) (tri.vertexX j) ≤ p.1 ∧ p.1 ≤ max (tri.vertexX i) (tri.vertexX j)) ∧
      (min (tri.vertexY i) (tri.vertexY j) ≤ p.2 ∧ p.2 ≤ max (tri.vertexY i) (tri.vertexY j)) ∧
      Scan.toReal p ∈ Scan.halfAround tri.area)
  rcases List.mem_append.mp hp with hp | hp
  · exact hedge hp
  · rcases List.mem_append.mp hp with hp | hp
    · exact hedge hp
    · exact hedge hp

/-- From a place of the ideal triangle one comes to a place of an edge in either direction. -/
theorem exists_place {x : ℝ} {r : ℤ} (h : (x, (r : ℝ)) ∈ tri.area) (σ : ℝ) :
    ∃ p ∈ tri.places, p.2 = r ∧ ∃ L : ℝ, |(p.1 : ℝ) - L| < 1 ∧ σ * L ≤ σ * x := by
  obtain ⟨⟨L, y⟩, hQ, hrow, hside⟩ := Scan.exists_mem_edges h σ
  obtain rfl : y = r := hrow
  have hedge {i j : Fin 3}
      (hQ : (L, (r : ℝ)) ∈ segment ℝ (Scan.toReal (tri.vertex i)) (Scan.toReal (tri.vertex j)))
      (hsub : ∀ p ∈ edgePlaces (tri.vertex i) (tri.vertex j), p ∈ tri.places) :
      ∃ p ∈ tri.places, p.2 = r ∧ ∃ L : ℝ, |(p.1 : ℝ) - L| < 1 ∧ σ * L ≤ σ * x := by
    obtain ⟨p, hp, hpr, hpL⟩ := exists_mem_edgePlaces hQ
    exact ⟨p, hsub p hp, hpr, L, hpL, hside⟩
  rcases hQ with hQ | hQ | hQ
  · exact hedge hQ fun p hp => List.mem_append_left _ hp
  · exact hedge hQ fun p hp => List.mem_append_right _ (List.mem_append_left _ hp)
  · exact hedge hQ fun p hp => List.mem_append_right _ (List.mem_append_right _ hp)

/-- Every row of the triangle has a place. -/
theorem exists_place_of_mem_rows {r : ℤ} (hr : r ∈ tri.rows) : ∃ p ∈ tri.places, p.2 = r := by
  obtain ⟨⟨i, hi⟩, ⟨j, hj⟩, -⟩ := tri.topY_bottomY
  obtain ⟨htop, hbottom⟩ := mem_rows.mp hr
  have hconvex : Convex ℝ (Prod.snd '' tri.area) :=
    (convex_convexHull ℝ _).linear_image (LinearMap.snd ℝ ℝ ℝ)
  obtain ⟨⟨x, y⟩, hxy, hy⟩ := hconvex.ordConnected.out
    (Set.mem_image_of_mem _ (vertex_mem_area i)) (Set.mem_image_of_mem _ (vertex_mem_area j))
    (show (r : ℝ) ∈ Set.Icc _ _ by
      constructor
      · show ((tri.vertexY i : ℤ) : ℝ) ≤ r
        exact_mod_cast hi.trans_le htop
      · show (r : ℝ) ≤ (tri.vertexY j : ℤ)
        exact_mod_cast hbottom.trans_eq hj.symm)
  obtain rfl : y = r := hy
  obtain ⟨p, hp, hpr, -⟩ := exists_place hxy 0
  exact ⟨p, hp, hpr⟩

end Triangle

/-- The triangle is on the display, and no row of it is too long for the scratch buffer. -/
structure TriangleFits (tri : Triangle) (display : VipFrameReader) : Prop where
  hasDepth : display.HasDepth
  columns : ∀ i, 0 ≤ tri.vertexX i ∧ tri.vertexX i < 2 ^ 15
  rows : ∀ i, 0 ≤ tri.vertexY i ∧ tri.vertexY i < display.height
  height : display.height ≤ 2 ^ 15
  buffer : ∀ i j, display.colorDepth / 8 * (tri.vertexX j - tri.vertexX i) ≤ 1024 * 3

section Fits

variable {tri : Triangle} {display : VipFrameReader}

theorem scanAll_eq (a : SpanArray) : scanAll tri a = tri.places.foldlM putPlace a := by
  unfold scanAll Triangle.places
  rw [List.foldlM_append, ← vidBresScanEdges_eq]
  refine congrArg (Option.bind _) (funext fun a => ?_)
  rw [List.foldlM_append, ← vidBresScanEdges_eq]
  refine congrArg (Option.bind _) (funext fun a => ?_)
  exact vidBresScanEdges_eq (tri.vertex 2) (tri.vertex 0) a

/-- What the function draws for a row. -/
def spanLine (a : SpanArray) (col : BitVec 32) (r : ℤ) : DrawingCall :=
  .drawLine (a.val (r * 2)) r (a.val (r * 2 + 1)) r 1 col

theorem renderSpans_eq {rows : List ℤ} {a : SpanArray} (h : ∀ r ∈ rows, a.HasRow r)
    (col : BitVec 32) : renderSpans rows col a = some (rows.map (spanLine a col)) := by
  unfold renderSpans
  induction rows with
  | nil => rfl
  | cons r rows ih =>
    rw [List.forall_mem_cons] at h
    obtain ⟨h0, h1⟩ := h.1
    rw [List.mapM_cons, ih h.2, SpanArray.get_eq ⟨h0, by omega⟩,
      SpanArray.get_eq ⟨by omega, h1⟩]
    rfl

/-- **The map of spans after scanning**: no index is outside the array, and the span of each row
goes from the least to the greatest column of the edges. -/
theorem spans_scanAll (h : TriangleFits tri display) (malloc : ℤ → ℤ) :
    ∃ a, ((initSpans tri.rows ⟨display.height * 2, malloc⟩).bind (scanAll tri)) = some a ∧
      (∀ r ∈ tri.rows, a.HasRow r) ∧ ∀ r ∈ tri.rows,
        IsLeast {x | (x, r) ∈ tri.places} (a.val (r * 2)) ∧
          IsGreatest {x | (x, r) ∈ tri.places} (a.val (r * 2 + 1)) := by
  have hhas {r : ℤ} (hr : r ∈ tri.rows) {a : SpanArray} (ha : a.size = display.height * 2) :
      a.HasRow r := by
    obtain ⟨⟨i, hi⟩, ⟨j, hj⟩, -⟩ := tri.topY_bottomY
    obtain ⟨htop, hbottom⟩ := Triangle.mem_rows.mp hr
    have hi' := h.rows i
    have hj' := h.rows j
    unfold SpanArray.HasRow
    omega
  have hrows : ∀ r ∈ tri.rows, SpanArray.HasRow ⟨display.height * 2, malloc⟩ r :=
    fun r hr => hhas hr rfl
  obtain ⟨a₁, hinit, hsize₁, hempty⟩ := initSpans_spec hrows
  have hplaces : ∀ p ∈ tri.places, a₁.HasRow p.2 ∧ 0 ≤ p.1 := fun p hp => by
    obtain ⟨i, j, hcol, hrow, -⟩ := Triangle.places_spec hp
    have hi := h.columns i
    have hj := h.columns j
    obtain ⟨-, -, hall⟩ := tri.topY_bottomY
    have hi' := hall i
    have hj' := hall j
    exact ⟨hhas (Triangle.mem_rows.mpr (by omega)) hsize₁, by omega⟩
  obtain ⟨a₂, hfold, hsize₂, hspan⟩ := foldlM_putPlace hplaces
  refine ⟨a₂, ?_, fun r hr => hhas hr (hsize₂.trans hsize₁), fun r hr => ?_⟩
  · rw [hinit, Option.bind_some, scanAll_eq, hfold]
  · have hspans := Extent.foldl_extend (rowColumns tri.places r)
    rw [← hempty r (.inl hr), ← hspan] at hspans
    obtain ⟨p, hp, rfl⟩ := Triangle.exists_place_of_mem_rows hr
    have hmem : p.1 ∈ rowColumns tri.places p.2 := mem_rowColumns.mpr hp
    unfold SpanArray.spanOf at hspans
    split_ifs at hspans
    · -- The row would be empty.
      rw [Extent.Spans] at hspans
      rw [hspans] at hmem
      cases hmem
    · simpa only [Extent.Spans, mem_rowColumns] using hspans

/-- A line between two corners is half a step around the ideal one. -/
theorem mem_halfAround_line (h : TriangleFits tri display) {i j : Fin 3} {width : ℤ}
    {color : BitVec 32} {p : Pixel}
    (hp : p ∈ (vidDrawLine (tri.vertexX i) (tri.vertexY i) (tri.vertexX j) (tri.vertexY j) width
      color).pixels) : Scan.toReal p.1 ∈ Scan.halfAround tri.area := by
  refine Scan.halfAround_mono ((convex_convexHull ℝ _).segment_subset
    (Triangle.vertex_mem_area i) (Triangle.vertex_mem_area j)) ?_
  have hxi := h.columns i
  have hxj := h.columns j
  have hyi := h.rows i
  have hyj := h.rows j
  have hheight := h.height
  by_cases hrow : tri.vertexY i = tri.vertexY j
  · rw [← hrow] at hp
    obtain ⟨⟨hlo, hhi⟩, hpr, -⟩ := mem_pixels_horizCall.mp hp
    rw [toInt_ushort hxi.1 hxi.2, toInt_ushort hxj.1 hxj.2] at hlo hhi
    rw [toNat_ushort hyi.1 (by omega)] at hpr
    refine Scan.mem_halfAround_segment ⟨hlo, hhi.le⟩ ?_ ?_
    · dsimp only [Triangle.vertex]
      omega
    · dsimp only [Triangle.vertex]
      rw [← hrow, hpr]
      simp
  · rw [vidDrawLine, if_neg hrow, LineCall.pixels, vidDrawSlopedLine_eq, List.mem_map] at hp
    obtain ⟨k, hk, rfl⟩ := hp
    obtain ⟨hcols, hrows⟩ := linePlace_bounds (Nat.le_of_lt_succ (List.mem_range.mp hk))
    have herror := @linePlace_error (ushort (tri.vertexX i)) (ushort (tri.vertexY i))
      (ushort (tri.vertexX j)) (ushort (tri.vertexY j)) k
    rw [toNat_ushort hxi.1 (by omega), toNat_ushort hxj.1 (by omega)] at hcols herror
    rw [toNat_ushort hyi.1 (by omega), toNat_ushort hyj.1 (by omega)] at hrows herror
    exact Scan.mem_halfAround_segment hcols hrows herror

/-- A line between two corners is not too long for the scratch buffer. -/
theorem defined_line (h : TriangleFits tri display) (i j : Fin 3) (width : ℤ) (color : BitVec 32) :
    (DrawingCall.drawLine (tri.vertexX i) (tri.vertexY i) (tri.vertexX j) (tri.vertexY j) width
      color).Defined display := by
  have hxi := h.columns i
  have hxj := h.columns j
  intro _
  rw [toInt_ushort hxi.1 hxi.2, toInt_ushort hxj.1 hxj.2]
  rcases abs_choice (tri.vertexX j - tri.vertexX i) with habs | habs
  · rw [habs]
    exact h.buffer i j
  · rw [habs, neg_sub]
    exact h.buffer j i

/-- The columns of a place are those of a line to be drawn. -/
theorem defined_spanLine (h : TriangleFits tri display) {lo hi r : ℤ} (hlo : (lo, r) ∈ tri.places)
    (hhi : (hi, r) ∈ tri.places) (hle : lo ≤ hi) (v width : ℤ) (color : BitVec 32) :
    (0 ≤ lo ∧ hi < 2 ^ 15) ∧ (DrawingCall.drawLine lo r hi v width color).Defined display := by
  obtain ⟨i, i', hcol, -, -⟩ := Triangle.places_spec hlo
  obtain ⟨j, j', hcol', -, -⟩ := Triangle.places_spec hhi
  have hbounds (i : Fin 3) := h.columns i
  have hi0 := hbounds i
  have hi0' := hbounds i'
  have hj0 := hbounds j
  have hj0' := hbounds j'
  have hfirst : ∃ k, tri.vertexX k ≤ lo := by
    rcases le_total (tri.vertexX i) (tri.vertexX i') with hmin | hmin
    · exact ⟨i, by omega⟩
    · exact ⟨i', by omega⟩
  have hlast : ∃ k, hi ≤ tri.vertexX k := by
    rcases le_total (tri.vertexX j) (tri.vertexX j') with hmax | hmax
    · exact ⟨j', by omega⟩
    · exact ⟨j, by omega⟩
  obtain ⟨k, hk⟩ := hfirst
  obtain ⟨k', hk'⟩ := hlast
  refine ⟨⟨by omega, by omega⟩, ?_⟩
  exact DrawingCall.defined_drawLine h.hasDepth (by omega) hle (by omega)
    (n := tri.vertexX k' - tri.vertexX k) (by omega) (h.buffer k k') v width color

end Fits

end DigitalModulation
