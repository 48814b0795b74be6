import DigitalModulation.Graphics.PixelBytes

/-!
# `vid_paint_block`

A line of the block is made up in allocated memory and copied into every row. The header of the
function asks for even corners; none of this depends on them.

* `vidPaintBlockAccesses`: the accesses to the line, byte by byte;
* `frameStores_vidPaintBlockAccesses`: what they store in the frame;
* `index_lt_of_mem_accesses`: they stay inside the line;
* `block_fill_eq_pixel_fill`: a block is filled as `vid_set_pixel` fills it, in any order.
-/

namespace DigitalModulation

/-- The bytes of a line of the block. -/
def bytesPerLine (display : VipFrameReader) (hStart hEnd : ℤ) : ℕ :=
  ((hEnd - hStart) * (display.colorDepth / 8)).toNat

/-- `vid_paint_block`: the stores to the line, one pixel a turn, and a `memcpy` of it for each
row. -/
def vidPaintBlockAccesses (hStart vStart hEnd vEnd : ℤ) (color : BitVec 32)
    (display : VipFrameReader) : List Access :=
  let pixel := colorBytes display color
  let bytesPerPixel := display.colorDepth / 8
  let addr := display.getDrawFrame +
    (vStart * (display.width * bytesPerPixel) + hStart * bytesPerPixel)
  (loopIndices (bytesPerLine display hStart hEnd) pixel.length).flatMap (fun i =>
    pixel.mapIdx fun k byte => .store (i + k) byte) ++
  (List.range (vEnd - vStart).toNat).flatMap fun row : ℕ =>
    (List.range (bytesPerLine display hStart hEnd)).map fun i : ℕ =>
      .copy (addr + row * (display.width * bytesPerPixel) + i) i

/-! ### What is stored in the frame -/

section Stores

variable {display : VipFrameReader}

theorem bytesPerLine_eq (h : display.HasDepth) (hStart hEnd : ℤ) (color : BitVec 32) :
    bytesPerLine display hStart hEnd =
      (hEnd - hStart).toNat * (colorBytes display color).length := by
  rw [bytesPerLine, ← h.length_colorBytes color, toNat_mul_natCast]

/-- What the line held before does not matter. -/
theorem frameStores_vidPaintBlockAccesses (h : display.HasDepth) (line : ℕ → BitVec 8)
    (hStart vStart hEnd vEnd : ℤ) (color : BitVec 32) :
    frameStores line (vidPaintBlockAccesses hStart vStart hEnd vEnd color display) =
      vidPaintBlock hStart vStart hEnd vEnd color display := by
  have hpixel := h.length_pos color
  have hcopies (addr : ℕ → ℤ) (m n : ℕ) :
      ((List.range m).flatMap fun row => (List.range n).map fun i : ℕ =>
        Access.copy (addr row + i) i) =
      ((List.range m).flatMap fun row => (List.range n).map fun i : ℕ => (addr row + i, i)).map
        fun c => Access.copy c.1 c.2 := by
    simp only [List.map_flatMap, List.map_map]
    rfl
  simp only [vidPaintBlockAccesses, vidPaintBlock, ← bytesPerLine.eq_1,
    bytesPerLine_eq h hStart hEnd color]
  rw [stores_eq_lineWrites hpixel, frameStores_stores, hcopies, frameStores_copies,
    List.map_flatMap]
  refine List.flatMap_congr fun row _ => ?_
  rw [List.map_map, loopIndices_mul _ hpixel, List.flatMap_map, storeBytes_line]
  exact map_paint_lineWrites line _ _ _

/-! ### The line -/

/-- Every access is inside the bytes of the line; twelve more are allocated. -/
theorem index_lt_of_mem_accesses (h : display.HasDepth) {hStart vStart hEnd vEnd : ℤ}
    {color : BitVec 32} {a : Access}
    (ha : a ∈ vidPaintBlockAccesses hStart vStart hEnd vEnd color display) :
    a.index < bytesPerLine display hStart hEnd := by
  have hpixel := h.length_pos color
  simp only [vidPaintBlockAccesses, bytesPerLine_eq h hStart hEnd color,
    stores_eq_lineWrites hpixel, List.mem_append, List.mem_map, List.mem_flatMap,
    List.mem_range] at ha
  rw [bytesPerLine_eq h hStart hEnd color]
  rcases ha with ⟨w, hw, rfl⟩ | ⟨row, -, i, hi, rfl⟩
  · simp only [lineWrites, List.mem_flatMap, List.mem_range, List.mem_mapIdx] at hw
    obtain ⟨j, hj, k, hk, rfl⟩ := hw
    calc (colorBytes display color).length * j + k
        < (colorBytes display color).length * j + (colorBytes display color).length :=
          Nat.add_lt_add_left hk _
      _ = (j + 1) * (colorBytes display color).length := by ring
      _ ≤ (hEnd - hStart).toNat * (colorBytes display color).length :=
        Nat.mul_le_mul_right _ hj
  · exact hi

end Stores

/-- **A block is filled as `vid_set_pixel` fills it.** Inside the display the frame is as after
setting the pixels of the block one by one, in any order. All that is stored is in the frame, every
other byte stays, and the line is not left. -/
theorem block_fill_eq_pixel_fill (display : VipFrameReader) (h : display.HasDepth)
    (hStart vStart hEnd vEnd : ℤ) (hcol : 0 ≤ hStart ∧ hStart < hEnd ∧ hEnd ≤ display.width)
    (hrow : 0 ≤ vStart ∧ vStart ≤ vEnd ∧ vEnd ≤ display.height) (color : BitVec 32)
    (line : ℕ → BitVec 8) (mem : ℤ → BitVec 8) :
    let accesses := vidPaintBlockAccesses hStart vStart hEnd vEnd color display
    let stores := frameStores line accesses
    let area := (Box.mk hStart vStart hEnd vEnd).area
    (∀ qs : List (ℤ × ℤ), (∀ q, q ∈ qs ↔ q ∈ area) → Canvas.paint mem stores =
        Canvas.paint mem (qs.flatMap fun q => vidSetPixel display (q, color))) ∧
      (∀ w ∈ stores, w.1 ∈ display.frame display.getDrawFrame) ∧
      (∀ addr, (∀ q ∈ area, ¬ display.ByteOf addr q) → Canvas.paint mem stores addr = mem addr) ∧
      ∀ a ∈ accesses, a.index < bytesPerLine display hStart hEnd + 12 := by
  intro accesses stores area
  have hstores : stores = (block hStart vStart hEnd vEnd color).flatMap (vidSetPixel display) :=
    (frameStores_vidPaintBlockAccesses h line _ _ _ _ color).trans
      (vidPaintBlock_eq_block h hStart vStart hEnd vEnd color)
  have hfootprint : footprint (block hStart vStart hEnd vEnd color) = area :=
    footprint_block hcol.2.1.le hrow.2.1 color
  refine ⟨fun qs hqs => ?_, fun w hw => ?_, fun addr haddr => ?_, fun a ha => ?_⟩
  · have hpixels : (qs.flatMap fun q => vidSetPixel display (q, color)) =
        (qs.map fun q => (q, color)).flatMap (vidSetPixel display) := (List.flatMap_map _ _ _).symm
    rw [hstores, hpixels]
    refine paint_pixels_congr h (fun p => ?_) (fun p hp => (mem_block.mp hp).2.2.2.2) mem
    rw [mem_block, List.mem_map]
    constructor
    · rintro ⟨hh, hhE, hv, hvE, hcolor⟩
      exact ⟨p.1, (hqs p.1).mpr ⟨⟨hh, hhE⟩, hv, hvE⟩, Prod.ext rfl hcolor.symm⟩
    · rintro ⟨q, hq, rfl⟩
      obtain ⟨⟨hh, hhE⟩, hv, hvE⟩ := (hqs q).mp hq
      exact ⟨hh, hhE, hv, hvE, rfl⟩
  · rw [hstores, List.mem_flatMap] at hw
    obtain ⟨p, hp, hw⟩ := hw
    have hin : (Box.mk hStart vStart hEnd vEnd).Within display.box :=
      ⟨⟨hcol.1, hcol.2.2⟩, hrow.1, hrow.2.2⟩
    have hbox : p.1 ∈ display.box.area := hin.mem (hfootprint.subset ⟨p, hp, rfl⟩)
    exact (VipFrameReader.vidSetPixel_mem_frame_iff h p).mpr
      (VipFrameReader.hasPixel_of_mem_box hbox) w hw
  · rw [hstores]
    exact paint_outside_pixels h (by rwa [hfootprint]) mem
  · exact (index_lt_of_mem_accesses h ha).trans_le (Nat.le_add_right _ _)

/-- Two pixels of three bytes each, between odd corners, and the second one first. -/
theorem block_fill_odd_corners :
    Canvas.paint (fun _ => 0) (frameStores (fun _ => 0)
        (vidPaintBlockAccesses 1 1 3 2 white24 ⟨0, 0, 0, 24, 800, 600⟩)) =
      Canvas.paint (fun _ => 0) ([(2, 1), (1, 1)].flatMap fun q =>
        vidSetPixel ⟨0, 0, 0, 24, 800, 600⟩ (q, white24)) := by
  refine (block_fill_eq_pixel_fill ⟨0, 0, 0, 24, 800, 600⟩ (.inr (.inl rfl)) 1 1 3 2 (by decide)
    (by decide) white24 (fun _ => 0) fun _ => 0).1 [(2, 1), (1, 1)] fun q => ?_
  rw [Box.mem_area, List.mem_cons, List.mem_singleton, Prod.ext_iff, Prod.ext_iff]
  dsimp only
  omega

end DigitalModulation
