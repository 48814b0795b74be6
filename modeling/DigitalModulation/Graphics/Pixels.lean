import DigitalModulation.Graphics.HorizLine
import DigitalModulation.Graphics.Box
import DigitalModulation.Lib.Canvas
import Mathlib.Tactic.Ring

/-!
# `simple_graphics.c`: pixels, blocks and lines

The drawing functions store bytes in the frame. On `SW_Frame` each of them sets pixels, one after
another, the way `vid_set_pixel` does.

* `Store`, `Pixel`: a byte stored at an address, a colour set at a column and a row;
* `vidSetPixel`, `vidPaintBlock`, `frameStores`, `vidDrawSlopedLine`: the functions;
* `raster`: the pixels of two nested loops;
* `footprint`: the places where pixels are set;
* `vidPaintBlock_eq`, `frameStores_vidDrawHorizLine`: the stores of a block and of a fast line are
  those of its pixels.
-/

namespace DigitalModulation

abbrev Store := ℤ × BitVec 8

/-- Column and row, and the colour. -/
abbrev Pixel := (ℤ × ℤ) × BitVec 32

/-- The bytes of a colour as they are stored. -/
def colorBytes (display : VipFrameReader) (color : BitVec 32) : List (BitVec 8) :=
  if display.colorDepth = 32 then
    [color.setWidth 8, (color >>> 8).setWidth 8, (color >>> 16).setWidth 8,
      (color >>> 24).setWidth 8]
  else if display.colorDepth = 24 then
    [color.setWidth 8, (color >>> 8).setWidth 8, (color >>> 16).setWidth 8]
  else if display.colorDepth = 16 then [color.setWidth 8, (color >>> 8).setWidth 8]
  else []

/-- Bytes stored from an address on. -/
def storeBytes (addr : ℤ) (bytes : List (BitVec 8)) : List Store :=
  bytes.mapIdx fun i byte => (addr + i, byte)

/-- `vid_set_pixel`. -/
def vidSetPixel (display : VipFrameReader) (p : Pixel) : List Store :=
  let bytes := colorBytes display p.2
  storeBytes (display.getDrawFrame +
    (p.1.2 * (display.width * bytes.length) + p.1.1 * bytes.length)) bytes

/-- On `SW_Frame` a pixel takes four bytes, and a row 3200. -/
theorem vidSetPixel_swFrame (frame : ℤ) (p : Pixel) :
    vidSetPixel (swFrame frame) p =
      storeBytes (frame + (p.1.2 * 3200 + p.1.1 * 4))
        [p.2.setWidth 8, (p.2 >>> 8).setWidth 8, (p.2 >>> 16).setWidth 8,
          (p.2 >>> 24).setWidth 8] :=
  rfl

/-- The depths that the drawing functions tell apart. -/
def VipFrameReader.HasDepth (display : VipFrameReader) : Prop :=
  display.colorDepth = 16 ∨ display.colorDepth = 24 ∨ display.colorDepth = 32

instance (display : VipFrameReader) : Decidable display.HasDepth :=
  inferInstanceAs (Decidable (_ ∨ _ ∨ _))

theorem swFrame_hasDepth (frame : ℤ) : (swFrame frame).HasDepth := .inr (.inr rfl)

theorem VipFrameReader.HasDepth.length_colorBytes {display : VipFrameReader}
    (h : display.HasDepth) (color : BitVec 32) :
    ((colorBytes display color).length : ℤ) = display.colorDepth / 8 := by
  rcases h with h | h | h <;> simp [colorBytes, h]

theorem VipFrameReader.HasDepth.length_pos {display : VipFrameReader} (h : display.HasDepth)
    (color : BitVec 32) : 0 < (colorBytes display color).length := by
  rcases h with h | h | h <;> simp [colorBytes, h]

/-- `vid_paint_block`: a line is made up and copied into each row. -/
def vidPaintBlock (hStart vStart hEnd vEnd : ℤ) (color : BitVec 32) (display : VipFrameReader) :
    List Store :=
  let pixel := colorBytes display color
  let bytesPerPixel := display.colorDepth / 8
  let bytesPerLine := (hEnd - hStart) * bytesPerPixel
  let line := (loopIndices bytesPerLine.toNat pixel.length).flatMap fun _ => pixel
  let addr := display.getDrawFrame +
    (vStart * (display.width * bytesPerPixel) + hStart * bytesPerPixel)
  (List.range (vEnd - vStart).toNat).flatMap fun i : ℕ =>
    storeBytes (addr + i * (display.width * bytesPerPixel)) line

/-- What the accesses to `fast_buffer` store in the frame, given what the buffer holds. -/
def frameStores (buffer : ℕ → BitVec 8) : List Access → List Store
  | [] => []
  | .store index byte :: accesses => frameStores (Function.update buffer index byte) accesses
  | .copy addr index :: accesses => (addr, buffer index) :: frameStores buffer accesses

/-! ### `vid_draw_sloped_line` -/

/-- The loop along the horizontal axis, `n` points from a column and a row of type `unsigned short`,
with the error `P` and its increments. -/
def horizLoop (horizIncr vertIncr dPr dPru : ℤ) (color : BitVec 32) :
    ℕ → BitVec 16 → BitVec 16 → ℤ → List Pixel
  | 0, _, _, _ => []
  | n + 1, horiz, vert, P =>
    ((horiz.toNat, vert.toNat), color) ::
      if 0 < P then
        horizLoop horizIncr vertIncr dPr dPru color n (horiz + ushort horizIncr)
          (vert + ushort vertIncr) (P + dPru)
      else horizLoop horizIncr vertIncr dPr dPru color n (horiz + ushort horizIncr) vert (P + dPr)

/-- The loop along the vertical axis. -/
def vertLoop (horizIncr vertIncr dPr dPru : ℤ) (color : BitVec 32) :
    ℕ → BitVec 16 → BitVec 16 → ℤ → List Pixel
  | 0, _, _, _ => []
  | n + 1, horiz, vert, P =>
    ((horiz.toNat, vert.toNat), color) ::
      if 0 < P then
        vertLoop horizIncr vertIncr dPr dPru color n (horiz + ushort horizIncr)
          (vert + ushort vertIncr) (P + dPru)
      else vertLoop horizIncr vertIncr dPr dPru color n horiz (vert + ushort vertIncr) (P + dPr)

/-- `vid_draw_sloped_line`, which ignores the width. -/
def vidDrawSlopedLine (hStart vStart hEnd vEnd : BitVec 16) (color : BitVec 32) : List Pixel :=
  let horizDelta := ((hEnd.toNat : ℤ) - hStart.toNat).natAbs
  let vertDelta := ((vEnd.toNat : ℤ) - vStart.toNat).natAbs
  let horizIncr := if hEnd < hStart then -1 else 1
  let vertIncr := if vEnd < vStart then -1 else 1
  if vertDelta ≤ horizDelta then
    let dPr : ℤ := vertDelta * 2
    horizLoop horizIncr vertIncr dPr (dPr - horizDelta * 2) color (horizDelta + 1) hStart vStart
      (dPr - horizDelta)
  else
    let dPr : ℤ := horizDelta * 2
    vertLoop horizIncr vertIncr dPr (dPr - vertDelta * 2) color (vertDelta + 1) hStart vStart
      (dPr - vertDelta)

/-! ### Pixels -/

/-- The pixels of two nested loops, row by row. -/
def raster (horiz vert : ℤ) (width height : ℕ) (color : ℕ → ℕ → BitVec 32) : List Pixel :=
  (List.range height).flatMap fun i : ℕ =>
    (List.range width).map fun j : ℕ => ((horiz + j, vert + i), color i j)

theorem mem_raster {horiz vert : ℤ} {width height : ℕ} {color : ℕ → ℕ → BitVec 32} {p : Pixel} :
    p ∈ raster horiz vert width height color ↔
      ∃ i < height, ∃ j < width, ((horiz + j, vert + i), color i j) = p := by
  simp [raster, List.mem_flatMap]

/-- The pixels of a filled box, whose end column and row do not belong to it. -/
def block (hStart vStart hEnd vEnd : ℤ) (color : BitVec 32) : List Pixel :=
  raster hStart vStart (hEnd - hStart).toNat (vEnd - vStart).toNat fun _ _ => color

theorem mem_block {hStart vStart hEnd vEnd : ℤ} {color : BitVec 32} {p : Pixel} :
    p ∈ block hStart vStart hEnd vEnd color ↔
      hStart ≤ p.1.1 ∧ p.1.1 < hEnd ∧ vStart ≤ p.1.2 ∧ p.1.2 < vEnd ∧ p.2 = color := by
  unfold block
  rw [mem_raster]
  constructor
  · rintro ⟨i, hi, j, hj, rfl⟩
    exact ⟨by simp, by simp only; omega, by simp, by simp only; omega, rfl⟩
  · rintro ⟨hh, hhE, hv, hvE, hcolor⟩
    refine ⟨(p.1.2 - vStart).toNat, by omega, (p.1.1 - hStart).toNat, by omega, ?_⟩
    ext1
    · ext1 <;> simp only <;> omega
    · exact hcolor.symm

/-- The places where pixels are set. -/
def footprint (ps : List Pixel) : Set (ℤ × ℤ) := {q | ∃ p ∈ ps, p.1 = q}

theorem mem_footprint {ps : List Pixel} {q : ℤ × ℤ} : q ∈ footprint ps ↔ ∃ p ∈ ps, p.1 = q :=
  Iff.rfl

theorem footprint_nil : footprint [] = ∅ := by
  ext q
  simp [mem_footprint]

theorem footprint_append (ps qs : List Pixel) :
    footprint (ps ++ qs) = footprint ps ∪ footprint qs := by
  ext q
  simp [mem_footprint, or_and_right, exists_or]

theorem footprint_raster (horiz vert : ℤ) (width height : ℕ) (color : ℕ → ℕ → BitVec 32) :
    footprint (raster horiz vert width height color) =
      (Box.mk horiz vert (horiz + width) (vert + height)).area := by
  ext q
  rw [mem_footprint, Box.mem_area]
  constructor
  · rintro ⟨p, hp, rfl⟩
    obtain ⟨i, hi, j, hj, rfl⟩ := mem_raster.mp hp
    simp only
    omega
  · rintro ⟨⟨hh, hhE⟩, hv, hvE⟩
    refine ⟨_, mem_raster.mpr ⟨(q.2 - vert).toNat, by omega, (q.1 - horiz).toNat, by omega, rfl⟩,
      ?_⟩
    ext1 <;> simp only <;> omega

theorem footprint_block {hStart vStart hEnd vEnd : ℤ} (hh : hStart ≤ hEnd) (hv : vStart ≤ vEnd)
    (color : BitVec 32) :
    footprint (block hStart vStart hEnd vEnd color) = (Box.mk hStart vStart hEnd vEnd).area := by
  unfold block
  rw [footprint_raster, Int.toNat_of_nonneg (by omega), Int.toNat_of_nonneg (by omega)]
  congr 2 <;> omega

/-! ### The stores of blocks -/

theorem storeBytes_append (addr : ℤ) (as bs : List (BitVec 8)) :
    storeBytes addr (as ++ bs) = storeBytes addr as ++ storeBytes (addr + as.length) bs := by
  unfold storeBytes
  rw [List.mapIdx_append]
  congr 2
  funext i byte
  rw [Int.add_assoc, Int.natCast_add, Int.add_comm (i : ℤ)]

/-- A line of equal pixels is stored pixel by pixel. -/
theorem storeBytes_line (addr : ℤ) (pixel : List (BitVec 8)) (n : ℕ) :
    storeBytes addr ((List.range n).flatMap fun _ => pixel) =
      (List.range n).flatMap fun j : ℕ => storeBytes (addr + j * pixel.length) pixel := by
  induction n with
  | zero => rfl
  | succ n ih =>
    rw [List.range_succ, List.flatMap_append, List.flatMap_append, storeBytes_append, ih]
    simp

theorem loopIndices_mul (n : ℕ) {step : ℕ} (hstep : 0 < step) :
    loopIndices (n * step) step = (List.range n).map fun j => step * j := by
  unfold loopIndices
  congr 2
  rw [Nat.add_sub_assoc hstep, Nat.mul_comm, Nat.mul_add_div hstep,
    Nat.div_eq_of_lt (Nat.sub_one_lt (by omega)), Nat.add_zero]

theorem toNat_mul_natCast (a : ℤ) (n : ℕ) : (a * n).toNat = a.toNat * n := by
  by_cases h : 0 ≤ a
  · rw [Int.toNat_mul h (Int.natCast_nonneg _)]
    rfl
  · rw [Int.toNat_of_nonpos (Int.mul_nonpos_of_nonpos_of_nonneg (by omega)
      (Int.natCast_nonneg _)), Int.toNat_of_nonpos (by omega), Nat.zero_mul]

/-- **A block is stored pixel by pixel.** -/
theorem vidPaintBlock_eq_block {display : VipFrameReader} (h : display.HasDepth)
    (hStart vStart hEnd vEnd : ℤ) (color : BitVec 32) :
    vidPaintBlock hStart vStart hEnd vEnd color display =
      (block hStart vStart hEnd vEnd color).flatMap (vidSetPixel display) := by
  simp only [vidPaintBlock, block, raster, ← h.length_colorBytes color, toNat_mul_natCast,
    loopIndices_mul _ (h.length_pos color), List.flatMap_map, List.flatMap_assoc]
  refine List.flatMap_congr fun i _ => ?_
  rw [storeBytes_line]
  refine List.flatMap_congr fun j _ => ?_
  unfold vidSetPixel
  congr 1
  ring

theorem vidPaintBlock_eq (frame hStart vStart hEnd vEnd : ℤ) (color : BitVec 32) :
    vidPaintBlock hStart vStart hEnd vEnd color (swFrame frame) =
      (block hStart vStart hEnd vEnd color).flatMap (vidSetPixel (swFrame frame)) :=
  vidPaintBlock_eq_block (swFrame_hasDepth frame) hStart vStart hEnd vEnd color

/-! ### The stores of a fast line -/

/-- The bytes that the loop of a fast line writes to its buffer. -/
def lineWrites (pixel : List (BitVec 8)) (n : ℕ) : List (ℕ × BitVec 8) :=
  (List.range n).flatMap fun j => pixel.mapIdx fun k byte => (pixel.length * j + k, byte)

theorem frameStores_stores (buffer : ℕ → BitVec 8) (ws : List (ℕ × BitVec 8))
    (accesses : List Access) :
    frameStores buffer ((ws.map fun w => .store w.1 w.2) ++ accesses) =
      frameStores (Canvas.paint buffer ws) accesses := by
  induction ws generalizing buffer with
  | nil => rfl
  | cons w ws ih => exact ih (Function.update buffer w.1 w.2)

theorem frameStores_copies {ι : Type*} (buffer : ℕ → BitVec 8) (addr : ι → ℤ) (index : ι → ℕ)
    (is : List ι) :
    frameStores buffer (is.map fun i => .copy (addr i) (index i)) =
      is.map fun i => (addr i, buffer (index i)) := by
  induction is with
  | nil => rfl
  | cons i is ih => exact congrArg (List.cons (addr i, buffer (index i))) ih

/-- The loop writes pixel after pixel. -/
theorem stores_eq_lineWrites {pixel : List (BitVec 8)} (hpixel : 0 < pixel.length) (n : ℕ) :
    ((loopIndices (n * pixel.length) pixel.length).flatMap fun i =>
      pixel.mapIdx fun k byte => Access.store (i + k) byte) =
      (lineWrites pixel n).map fun w => Access.store w.1 w.2 := by
  simp only [loopIndices_mul _ hpixel, lineWrites, List.flatMap_map, List.map_flatMap]
  exact List.flatMap_congr fun j _ => List.ext_getElem (by simp) (by simp)

/-- What the buffer holds after the loop: the pixel again and again. -/
theorem paint_lineWrites (buffer : ℕ → BitVec 8) (pixel : List (BitVec 8)) {n j k : ℕ} (hj : j < n)
    (hk : k < pixel.length) :
    Canvas.paint buffer (lineWrites pixel n) (pixel.length * j + k) = pixel[k] := by
  rw [Canvas.paint_apply, Canvas.lastWrite_eq_some (v := pixel[k]) ?_ ?_]
  · rfl
  · simp only [lineWrites, List.mem_flatMap, List.mem_range, List.mem_mapIdx]
    exact ⟨j, hj, k, hk, rfl⟩
  · intro w hw hwk
    simp only [lineWrites, List.mem_flatMap, List.mem_range, List.mem_mapIdx] at hw
    obtain ⟨j', -, k', hk', rfl⟩ := hw
    -- The index modulo the size of a pixel is the byte in it.
    have hk'k : k' = k := by
      have hmod := congrArg (· % pixel.length) hwk
      simpa [Nat.mul_add_mod, Nat.mod_eq_of_lt hk, Nat.mod_eq_of_lt hk'] using hmod
    simp only [hk'k]

theorem range_mul (n m : ℕ) :
    List.range (n * m) = (List.range n).flatMap fun j => (List.range m).map fun k => m * j + k := by
  induction n with
  | zero => simp
  | succ n ih =>
    rw [Nat.succ_mul, List.range_add, ih, List.range_succ, List.flatMap_append,
      List.flatMap_singleton, Nat.mul_comm n m]

/-- Copying the buffer stores the pixel again and again. -/
theorem map_paint_lineWrites (buffer : ℕ → BitVec 8) (pixel : List (BitVec 8)) (addr : ℤ) (n : ℕ) :
    ((List.range (n * pixel.length)).map fun i : ℕ =>
        (addr + i, Canvas.paint buffer (lineWrites pixel n) i)) =
      (List.range n).flatMap fun j : ℕ => storeBytes (addr + j * pixel.length) pixel := by
  rw [range_mul, List.map_flatMap]
  refine List.flatMap_congr fun j hj => ?_
  rw [List.map_map]
  apply List.ext_getElem
  · simp [storeBytes]
  · intro k hk _
    rw [List.length_map, List.length_range] at hk
    simp only [List.getElem_map, List.getElem_range, Function.comp, storeBytes,
      List.getElem_mapIdx]
    rw [paint_lineWrites buffer pixel (List.mem_range.mp hj) hk]
    congr 1
    push_cast
    ring

/-- A branch of `vid_draw_horiz_line` stores the bytes of each pixel in turn. -/
theorem frameStores_fastLine (buffer : ℕ → BitVec 8) {pixel : List (BitVec 8)}
    (hpixel : 0 < pixel.length) (display : VipFrameReader) (hStart hEnd v : ℤ) :
    frameStores buffer (fastLine pixel display hStart hEnd v) =
      (List.range (hEnd - hStart).toNat).flatMap fun j : ℕ =>
        storeBytes (display.getDrawFrame +
          (v * (display.width * pixel.length) + hStart * pixel.length) + j * pixel.length)
          pixel := by
  simp only [fastLine, toNat_mul_natCast]
  rw [stores_eq_lineWrites hpixel, frameStores_stores, frameStores_copies, map_paint_lineWrites]

/-- The pixels of `vid_draw_horiz_line`. -/
def horizLine (hStart hEnd : BitVec 16) (v : ℤ) (color : BitVec 32) : List Pixel :=
  if hEnd.toInt < hStart.toInt then block hEnd.toInt v hStart.toInt (v + 1) color
  else block hStart.toInt v hEnd.toInt (v + 1) color

/-- One of the branches is taken. -/
theorem sortedHorizLine_eq {display : VipFrameReader} (h : display.HasDepth) (hStart hEnd v : ℤ)
    (color : BitVec 32) : sortedHorizLine hStart hEnd v color display =
      fastLine (colorBytes display color) display hStart hEnd v := by
  rcases h with h | h | h <;> simp [sortedHorizLine, colorBytes, h]

theorem frameStores_sortedHorizLine {display : VipFrameReader} (h : display.HasDepth)
    (buffer : ℕ → BitVec 8) (hStart hEnd v : ℤ) (color : BitVec 32) :
    frameStores buffer (sortedHorizLine hStart hEnd v color display) =
      (block hStart v hEnd (v + 1) color).flatMap (vidSetPixel display) := by
  have hrow : (v + 1 - v).toNat = 1 := by omega
  rw [sortedHorizLine_eq h, frameStores_fastLine buffer (h.length_pos color)]
  simp only [block, raster, hrow, List.range_one, List.flatMap_singleton, List.flatMap_map]
  refine List.flatMap_congr fun j _ => ?_
  unfold vidSetPixel
  congr 1
  push_cast
  ring

/-- **A fast line is stored pixel by pixel**, whatever was in its buffer. -/
theorem frameStores_vidDrawHorizLine {display : VipFrameReader} (h : display.HasDepth)
    (buffer : ℕ → BitVec 8) (hStart hEnd : BitVec 16) (v : ℤ) (color : BitVec 32) :
    frameStores buffer (vidDrawHorizLine hStart hEnd v color display) =
      (horizLine hStart hEnd v color).flatMap (vidSetPixel display) := by
  unfold vidDrawHorizLine horizLine
  split_ifs
  · exact frameStores_sortedHorizLine h buffer _ _ v color
  · exact frameStores_sortedHorizLine h buffer _ _ v color

/-! ### Vertical lines -/

/-- As long as the error does not become positive the column stays. -/
theorem mem_vertLoop {dPru : ℤ} {color : BitVec 32} {n : ℕ} {horiz vert : BitVec 16}
    (hn : vert.toNat + n < 2 ^ 16) {P : ℤ} (hP : P ≤ 0) {p : Pixel} :
    p ∈ vertLoop 1 1 0 dPru color n horiz vert P ↔
      p.1.1 = horiz.toNat ∧ vert.toNat ≤ p.1.2 ∧ p.1.2 < vert.toNat + n ∧ p.2 = color := by
  induction n generalizing vert with
  | zero =>
    simp only [vertLoop, List.not_mem_nil, false_iff]
    omega
  | succ n ih =>
    have hnext : (vert + ushort 1).toNat = vert.toNat + 1 := by
      rw [BitVec.toNat_add]
      exact Nat.mod_eq_of_lt (by show vert.toNat + 1 < 2 ^ 16; omega)
    rw [vertLoop, if_neg (by omega), Int.add_zero, List.mem_cons, ih (by omega), hnext]
    constructor
    · rintro (rfl | ⟨hh, hv, hvn, hcolor⟩)
      · exact ⟨rfl, le_rfl, by push_cast; omega, rfl⟩
      · exact ⟨hh, by push_cast at hv; omega, by push_cast at hvn ⊢; omega, hcolor⟩
    · rintro ⟨hh, hv, hvn, hcolor⟩
      -- The pixel is the first, or one of those from the next row on.
      by_cases hfirst : p.1.2 = vert.toNat
      · left
        ext1
        · ext1
          · exact hh
          · exact hfirst
        · exact hcolor
      · exact .inr ⟨hh, by push_cast; omega, by push_cast at hvn ⊢; omega, hcolor⟩

/-- The line between two rows of a column, with its last row. -/
theorem mem_vidDrawSlopedLine {horiz vStart vEnd : BitVec 16} {color : BitVec 32}
    (hlt : vStart < vEnd) (hend : vEnd.toNat + 1 < 2 ^ 16) {p : Pixel} :
    p ∈ vidDrawSlopedLine horiz vStart horiz vEnd color ↔
      p.1.1 = horiz.toNat ∧ vStart.toNat ≤ p.1.2 ∧ p.1.2 ≤ vEnd.toNat ∧ p.2 = color := by
  have hlt' := BitVec.lt_def.mp hlt
  have hhoriz : ((horiz.toNat : ℤ) - horiz.toNat).natAbs = 0 := by omega
  have hvert : ((vEnd.toNat : ℤ) - vStart.toNat).natAbs = vEnd.toNat - vStart.toNat := by omega
  simp only [vidDrawSlopedLine, hhoriz, hvert, if_neg (BitVec.lt_irrefl horiz),
    if_neg (BitVec.lt_asymm hlt), if_neg (show ¬ vEnd.toNat - vStart.toNat ≤ 0 by omega),
    Int.natCast_zero, Int.zero_mul]
  rw [mem_vertLoop (by omega) (by omega)]
  push_cast [hlt'.le]
  constructor
  · rintro ⟨hh, hv, hvn, hcolor⟩
    exact ⟨hh, hv, by omega, hcolor⟩
  · rintro ⟨hh, hv, hvn, hcolor⟩
    exact ⟨hh, hv, by omega, hcolor⟩

/-! ### `vid_draw_line` -/

/-- What the call of `vid_draw_line` stores. -/
def LineCall.stores (buffer : ℕ → BitVec 8) (display : VipFrameReader) : LineCall → List Store
  | .horiz hStart hEnd v color => frameStores buffer (vidDrawHorizLine hStart hEnd v color display)
  | .sloped hStart vStart hEnd vEnd _ color =>
    (vidDrawSlopedLine hStart vStart hEnd vEnd color).flatMap (vidSetPixel display)

def LineCall.pixels : LineCall → List Pixel
  | .horiz hStart hEnd v color => horizLine hStart hEnd v color
  | .sloped hStart vStart hEnd vEnd _ color => vidDrawSlopedLine hStart vStart hEnd vEnd color

theorem LineCall.stores_eq_pixels {display : VipFrameReader} (h : display.HasDepth)
    (buffer : ℕ → BitVec 8) (call : LineCall) :
    call.stores buffer display = call.pixels.flatMap (vidSetPixel display) := by
  cases call with
  | horiz hStart hEnd v color => exact frameStores_vidDrawHorizLine h buffer hStart hEnd v color
  | sloped => rfl

theorem LineCall.stores_eq (frame : ℤ) (buffer : ℕ → BitVec 8) (call : LineCall) :
    call.stores buffer (swFrame frame) = call.pixels.flatMap (vidSetPixel (swFrame frame)) :=
  call.stores_eq_pixels (swFrame_hasDepth frame) buffer

theorem toNat_ushort {a : ℤ} (h : 0 ≤ a) (h' : a < 2 ^ 16) : ((ushort a).toNat : ℤ) = a := by
  unfold ushort
  rw [BitVec.toNat_ofInt]
  omega

theorem toInt_ushort {a : ℤ} (h : 0 ≤ a) (h' : a < 2 ^ 15) : (ushort a).toInt = a := by
  rw [BitVec.toInt_eq_toNat_of_lt]
  · exact toNat_ushort h (by omega)
  · have hnat := toNat_ushort h (by omega)
    omega

/-- A horizontal line from left to right, without its last column. -/
theorem mem_vidDrawLine_horiz {hStart hEnd v width : ℤ} {color : BitVec 32} (h0 : 0 ≤ hStart)
    (hle : hStart ≤ hEnd) (hlt : hEnd < 2 ^ 15) (hv : 0 ≤ v ∧ v < 2 ^ 16) {p : Pixel} :
    p ∈ (vidDrawLine hStart v hEnd v width color).pixels ↔
      hStart ≤ p.1.1 ∧ p.1.1 < hEnd ∧ p.1.2 = v ∧ p.2 = color := by
  unfold vidDrawLine
  rw [if_pos rfl]
  simp only [LineCall.pixels, horizLine, toInt_ushort h0 (by omega),
    toInt_ushort (h0.trans hle) hlt, toNat_ushort hv.1 hv.2]
  rw [if_neg (by omega), mem_block]
  constructor
  · rintro ⟨hh, hhE, hrow, hrow', hcolor⟩
    exact ⟨hh, hhE, by omega, hcolor⟩
  · rintro ⟨hh, hhE, hrow, hcolor⟩
    exact ⟨hh, hhE, by omega, by omega, hcolor⟩

/-- A vertical line downwards, with its last row. -/
theorem mem_vidDrawLine_vert {h vStart vEnd width : ℤ} {color : BitVec 32}
    (hh : 0 ≤ h ∧ h < 2 ^ 16) (h0 : 0 ≤ vStart) (hlt : vStart < vEnd) (hEnd : vEnd + 1 < 2 ^ 16)
    {p : Pixel} :
    p ∈ (vidDrawLine h vStart h vEnd width color).pixels ↔
      p.1.1 = h ∧ vStart ≤ p.1.2 ∧ p.1.2 ≤ vEnd ∧ p.2 = color := by
  have hStart' := toNat_ushort h0 (by omega)
  have hEnd' := toNat_ushort (h0.trans hlt.le) (by omega)
  unfold vidDrawLine
  rw [if_neg (by omega)]
  simp only [LineCall.pixels]
  rw [mem_vidDrawSlopedLine (BitVec.lt_def.mpr (by omega)) (by omega), toNat_ushort hh.1 hh.2,
    hStart', hEnd']

theorem footprint_vidDrawLine_horiz {hStart hEnd v : ℤ} (h0 : 0 ≤ hStart) (hle : hStart ≤ hEnd)
    (hlt : hEnd < 2 ^ 15) (hv0 : 0 ≤ v ∧ v < 2 ^ 16) (width : ℤ) (color : BitVec 32) :
    footprint (vidDrawLine hStart v hEnd v width color).pixels =
      (Box.mk hStart v hEnd (v + 1)).area := by
  ext q
  rw [mem_footprint, Box.mem_area]
  constructor
  · rintro ⟨p, hp, rfl⟩
    have hpixel := (mem_vidDrawLine_horiz h0 hle hlt hv0).mp hp
    omega
  · rintro ⟨hh, hrow⟩
    have hv : q.2 = v := by omega
    exact ⟨(q, color), (mem_vidDrawLine_horiz h0 hle hlt hv0).mpr ⟨hh.1, hh.2, hv, rfl⟩, rfl⟩

theorem footprint_vidDrawLine_vert {h vStart vEnd : ℤ} (hh : 0 ≤ h ∧ h < 2 ^ 16) (h0 : 0 ≤ vStart)
    (hlt : vStart < vEnd) (hEnd : vEnd + 1 < 2 ^ 16) (width : ℤ) (color : BitVec 32) :
    footprint (vidDrawLine h vStart h vEnd width color).pixels =
      (Box.mk h vStart (h + 1) (vEnd + 1)).area := by
  ext q
  rw [mem_footprint, Box.mem_area]
  constructor
  · rintro ⟨p, hp, rfl⟩
    have hpixel := (mem_vidDrawLine_vert hh h0 hlt hEnd).mp hp
    omega
  · rintro ⟨hcol, hrow⟩
    have hh1 : q.1 = h := by omega
    have hrow2 : q.2 ≤ vEnd := by omega
    exact ⟨(q, color), (mem_vidDrawLine_vert hh h0 hlt hEnd).mpr ⟨hh1, hrow.1, hrow2, rfl⟩, rfl⟩

end DigitalModulation
