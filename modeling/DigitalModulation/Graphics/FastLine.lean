import DigitalModulation.Graphics.PixelBytes
import DigitalModulation.Graphics.SlopedLine

/-!
# Horizontal lines on the fast path and on the general one

`vid_draw_line` calls `vid_draw_horiz_line` where `vid_draw_sloped_line` would draw the line more
slowly. The fast path leaves out the last column.

* `VipFrameReader.lit`: the pixels that some stores light;
* `horizCall`, `slopedCall`: the calls for the same end points on the two paths;
* `FastLineAgrees`: the fast path lights the pixels of the general one and keeps the others;
* `fast_line_differs`: it never does;
* `lit_slopedCall_eq_insert`: on the general path there is just one pixel more.
-/

namespace DigitalModulation

/-- The pixels of the display that have the colour after the stores, whatever the frame held. -/
def VipFrameReader.lit (display : VipFrameReader) (stores : List Store) (color : BitVec 32) :
    Set (ℤ × ℤ) :=
  {q | q ∈ display.box.area ∧ ∀ mem : ℤ → BitVec 8,
    display.pixelBytes (Canvas.paint mem stores) q = colorBytes display color}

section Lit

variable {display : VipFrameReader} {ps : List Pixel} {color : BitVec 32}

theorem mem_lit_of_mem (h : display.HasDepth) (hcolor : ∀ p ∈ ps, p.2 = color) {q : ℤ × ℤ}
    (hbox : q ∈ display.box.area) (hq : (q, color) ∈ ps) :
    q ∈ display.lit (ps.flatMap (vidSetPixel display)) color :=
  ⟨hbox, pixelBytes_of_mem h hq fun p' hp' _ => hcolor p' hp'⟩

theorem pixelBytes_const (byte : BitVec 8) (q : ℤ × ℤ) :
    display.pixelBytes (fun _ => byte) q = List.replicate display.bytesPerPixel byte :=
  (List.map_const' ..).trans (by rw [List.length_range]; rfl)

theorem not_mem_lit (h : display.HasDepth) {q : ℤ × ℤ}
    (hne : ∀ p ∈ ps, display.pixelIndex p.1 ≠ display.pixelIndex q) :
    q ∉ display.lit (ps.flatMap (vidSetPixel display)) color := by
  rintro ⟨-, hlit⟩
  -- A black and a white frame would both have the colour there.
  have hblack := hlit fun _ => 0
  have hwhite := hlit fun _ => 0xff
  rw [pixelBytes_of_forall_ne h hne, pixelBytes_const] at hblack hwhite
  have hpos := h.length_pos color
  rw [h.length_eq] at hpos
  have hbytes := List.replicate_right_inj hpos.ne' |>.mp (hblack.trans hwhite.symm)
  exact absurd hbytes (by decide)

/-- Pixels of one colour on the display are lit exactly where they are set. -/
theorem lit_eq_footprint (h : display.HasDepth) (hcolor : ∀ p ∈ ps, p.2 = color)
    (hbox : footprint ps ⊆ display.box.area) :
    display.lit (ps.flatMap (vidSetPixel display)) color = footprint ps := by
  ext q
  constructor
  · intro hlit
    by_contra hq
    refine not_mem_lit h (fun p hp heq => hq ⟨p, hp, ?_⟩) hlit
    exact VipFrameReader.pixelIndex_inj (hbox ⟨p, hp, rfl⟩).1 hlit.1.1 heq
  · rintro ⟨p, hp, rfl⟩
    exact mem_lit_of_mem h hcolor (hbox ⟨p, hp, rfl⟩) (hcolor p hp ▸ hp)

end Lit

/-! ### The two paths -/

/-- What `vid_draw_line` calls for a horizontal line. -/
def horizCall (horizStart horizEnd vert width : ℤ) (color : BitVec 32) : LineCall :=
  vidDrawLine horizStart vert horizEnd vert width color

/-- What it would call for the same end points if it did not look for horizontal lines. -/
def slopedCall (horizStart horizEnd vert width : ℤ) (color : BitVec 32) : LineCall :=
  .sloped (ushort horizStart) (ushort vert) (ushort horizEnd) (ushort vert) (ushort width) color

/-- The two paths light the same pixels of the display, and the fast one keeps the others. What the
scratch buffer held is given, and it is as large as it has to be. -/
def FastLineAgrees (display : VipFrameReader) (buffer : ℕ → BitVec 8)
    (horizStart horizEnd vert width : ℤ) (color : BitVec 32) : Prop :=
  let fast := (horizCall horizStart horizEnd vert width color).stores buffer display
  let general := (slopedCall horizStart horizEnd vert width color).stores buffer display
  display.lit fast color = display.lit general color ∧
    ∀ mem, ∀ q ∈ display.box.area, q ∉ display.lit fast color →
      display.pixelBytes (Canvas.paint mem fast) q = display.pixelBytes mem q

section Paths

variable {display : VipFrameReader} {horizStart horizEnd vert width : ℤ} {color : BitVec 32}

theorem toNat_ushort_le {a : ℤ} (h : 0 ≤ a) : ((ushort a).toNat : ℤ) ≤ a := by
  unfold ushort
  rw [BitVec.toNat_ofInt]
  omega

/-- The pixels of the fast path, from the first column up to the last one. -/
theorem mem_pixels_horizCall {p : Pixel} :
    p ∈ (horizCall horizStart horizEnd vert width color).pixels ↔
      (min (ushort horizStart).toInt (ushort horizEnd).toInt ≤ p.1.1 ∧
        p.1.1 < max (ushort horizStart).toInt (ushort horizEnd).toInt) ∧
      p.1.2 = (ushort vert).toNat ∧ p.2 = color := by
  simp only [horizCall, vidDrawLine, if_true, LineCall.pixels, horizLine]
  split_ifs with hlt
  · rw [mem_block, min_eq_right hlt.le, max_eq_left hlt.le, Int.lt_add_one_iff]
    exact ⟨fun h => ⟨⟨h.1, h.2.1⟩, le_antisymm h.2.2.2.1 h.2.2.1, h.2.2.2.2⟩,
      fun h => ⟨h.1.1, h.1.2, h.2.1.ge, h.2.1.le, h.2.2⟩⟩
  · rw [not_lt] at hlt
    rw [mem_block, min_eq_left hlt, max_eq_right hlt, Int.lt_add_one_iff]
    exact ⟨fun h => ⟨⟨h.1, h.2.1⟩, le_antisymm h.2.2.2.1 h.2.2.1, h.2.2.2.2⟩,
      fun h => ⟨h.1.1, h.1.2, h.2.1.ge, h.2.1.le, h.2.2⟩⟩

/-- In a row, the place after `k` turns. -/
theorem linePlace_row (hStart hEnd v : BitVec 16) {k : ℕ} (hk : k ≤ delta hStart hEnd) :
    k ≤ lastTurn hStart v hEnd v ∧
      linePlace hStart v hEnd v k = (hStart.toNat + incr hStart hEnd * k, (v.toNat : ℤ)) := by
  have hrow : delta v v = 0 := by simp [delta]
  have hlast : k ≤ lastTurn hStart v hEnd v := by
    rw [lastTurn, hrow]
    omega
  refine ⟨hlast, Prod.ext ?_ ?_⟩
  · rw [linePlace, hrow, Bresenham.offset, if_pos (by omega)]
  · have hbounds := (linePlace_bounds hlast).2
    rw [min_self, max_self] at hbounds
    exact le_antisymm hbounds.2 hbounds.1

/-- The pixels of the general path, the last column with them. -/
theorem mem_pixels_slopedCall {p : Pixel} :
    p ∈ (slopedCall horizStart horizEnd vert width color).pixels ↔
      (min ((ushort horizStart).toNat : ℤ) (ushort horizEnd).toNat ≤ p.1.1 ∧
        p.1.1 ≤ max ((ushort horizStart).toNat : ℤ) (ushort horizEnd).toNat) ∧
      p.1.2 = (ushort vert).toNat ∧ p.2 = color := by
  simp only [slopedCall, LineCall.pixels, vidDrawSlopedLine_eq, List.mem_map, List.mem_range]
  constructor
  · rintro ⟨k, hk, rfl⟩
    obtain ⟨hcol, hrow⟩ := linePlace_bounds (Nat.le_of_lt_succ hk)
    rw [min_self, max_self] at hrow
    exact ⟨hcol, le_antisymm hrow.2 hrow.1, rfl⟩
  · rintro ⟨⟨hmin, hmax⟩, hrow, hcolor⟩
    generalize ushort horizStart = hStart at *
    generalize ushort horizEnd = hEnd at *
    -- The column is reached after as many turns as it is away from the first one.
    have hturn : (hStart.toNat : ℤ) + incr hStart hEnd * (p.1.1 - hStart.toNat).natAbs = p.1.1 ∧
        ((p.1.1 - hStart.toNat).natAbs : ℤ) ≤ delta hStart hEnd := by
      unfold incr delta
      rw [← Int.natCast_natAbs]
      split_ifs with hlt <;> rw [BitVec.lt_def] at hlt <;> omega
    obtain ⟨hlast, hplace⟩ := linePlace_row hStart hEnd (ushort vert) hturn.2
    refine ⟨_, Nat.lt_succ_of_le hlast, Prod.ext ?_ hcolor.symm⟩
    rw [hplace, hturn.1, ← hrow]

/-! ### The last column -/

theorem color_of_mem_horizCall {p : Pixel}
    (hp : p ∈ (horizCall horizStart horizEnd vert width color).pixels) : p.2 = color :=
  (mem_pixels_horizCall.mp hp).2.2

theorem color_of_mem_slopedCall {p : Pixel}
    (hp : p ∈ (slopedCall horizStart horizEnd vert width color).pixels) : p.2 = color :=
  (mem_pixels_slopedCall.mp hp).2.2

end Paths

/-- The last pixel of the line. -/
def lastPixel (horizStart horizEnd vert : ℤ) : ℤ × ℤ :=
  (max ((ushort horizStart).toNat : ℤ) (ushort horizEnd).toNat, (ushort vert).toNat)

section LastPixel

variable {display : VipFrameReader} {horizStart horizEnd vert : ℤ}

theorem lastPixel_mem_box (hStart : 0 ≤ horizStart ∧ horizStart < display.width)
    (hEnd : 0 ≤ horizEnd ∧ horizEnd < display.width) (hvert : 0 ≤ vert ∧ vert < display.height) :
    lastPixel horizStart horizEnd vert ∈ display.box.area := by
  have h := toNat_ushort_le hStart.1
  have h' := toNat_ushort_le hEnd.1
  have hv := toNat_ushort_le hvert.1
  unfold lastPixel VipFrameReader.box
  rw [Box.mem_area]
  dsimp only
  omega

theorem lastPixel_mem_lit_slopedCall (h : display.HasDepth) (buffer : ℕ → BitVec 8)
    (hbox : lastPixel horizStart horizEnd vert ∈ display.box.area) (width : ℤ)
    (color : BitVec 32) :
    lastPixel horizStart horizEnd vert ∈ display.lit
      ((slopedCall horizStart horizEnd vert width color).stores buffer display) color := by
  rw [LineCall.stores_eq_pixels h]
  refine mem_lit_of_mem h (fun p => color_of_mem_slopedCall) hbox ?_
  exact mem_pixels_slopedCall.mpr ⟨⟨min_le_max, le_rfl⟩, rfl, rfl⟩

theorem lastPixel_not_mem_lit_horizCall (h : display.HasDepth) (buffer : ℕ → BitVec 8)
    (horizStart horizEnd vert width : ℤ) (color : BitVec 32) :
    lastPixel horizStart horizEnd vert ∉ display.lit
      ((horizCall horizStart horizEnd vert width color).stores buffer display) color := by
  rw [LineCall.stores_eq_pixels h]
  refine not_mem_lit h fun p hp heq => ?_
  obtain ⟨⟨-, hlt⟩, hrow, -⟩ := mem_pixels_horizCall.mp hp
  unfold VipFrameReader.pixelIndex lastPixel at heq
  rw [hrow] at heq
  -- From `2 ^ 15` on a column of type `short` is negative.
  rw [BitVec.toInt_eq_toNat_cond, BitVec.toInt_eq_toNat_cond] at hlt
  dsimp only at heq
  omega

/-- Where columns are not cut, the fast path stays on the display. -/
theorem footprint_horizCall_subset (hwidth : display.width ≤ 2 ^ 15)
    (hStart : 0 ≤ horizStart ∧ horizStart < display.width)
    (hEnd : 0 ≤ horizEnd ∧ horizEnd < display.width) (hvert : 0 ≤ vert ∧ vert < display.height)
    (width : ℤ) (color : BitVec 32) :
    footprint (horizCall horizStart horizEnd vert width color).pixels ⊆ display.box.area := by
  rintro q ⟨p, hp, rfl⟩
  obtain ⟨hcol, hrow, -⟩ := mem_pixels_horizCall.mp hp
  rw [toInt_ushort hStart.1 (by omega), toInt_ushort hEnd.1 (by omega)] at hcol
  have hv := toNat_ushort_le hvert.1
  unfold VipFrameReader.box
  rw [Box.mem_area]
  omega

/-- **What the fast path leaves out.** Where columns are not cut, the general path lights the last
pixel of the line and otherwise the same pixels, and the fast one keeps all others. -/
theorem lit_slopedCall_eq_insert (h : display.HasDepth) (hwidth : display.width ≤ 2 ^ 15)
    (buffer : ℕ → BitVec 8) (width : ℤ) (color : BitVec 32)
    (hStart : 0 ≤ horizStart ∧ horizStart < display.width)
    (hEnd : 0 ≤ horizEnd ∧ horizEnd < display.width) (hvert : 0 ≤ vert ∧ vert < display.height) :
    let fast := (horizCall horizStart horizEnd vert width color).stores buffer display
    let general := (slopedCall horizStart horizEnd vert width color).stores buffer display
    display.lit general color =
        insert (lastPixel horizStart horizEnd vert) (display.lit fast color) ∧
      ∀ mem, ∀ q ∈ display.box.area, q ∉ display.lit fast color →
        display.pixelBytes (Canvas.paint mem fast) q = display.pixelBytes mem q := by
  intro fast general
  have hbox := footprint_horizCall_subset hwidth hStart hEnd hvert width color
  have hfast : display.lit fast color =
      footprint (horizCall horizStart horizEnd vert width color).pixels := by
    unfold fast
    rw [LineCall.stores_eq_pixels h]
    exact lit_eq_footprint h (fun p => color_of_mem_horizCall) hbox
  have hadd : footprint (slopedCall horizStart horizEnd vert width color).pixels =
      insert (lastPixel horizStart horizEnd vert)
        (footprint (horizCall horizStart horizEnd vert width color).pixels) := by
    have hS := toInt_ushort hStart.1 (by omega)
    have hE := toInt_ushort hEnd.1 (by omega)
    have hS' := toNat_ushort hStart.1 (by omega)
    have hE' := toNat_ushort hEnd.1 (by omega)
    ext q
    rw [Set.mem_insert_iff, mem_footprint, mem_footprint, lastPixel, Prod.ext_iff, hS', hE']
    constructor
    · rintro ⟨p, hp, rfl⟩
      obtain ⟨hcol, hrow, hcolor⟩ := mem_pixels_slopedCall.mp hp
      rw [hS', hE'] at hcol
      obtain hlast | hlt := hcol.2.eq_or_lt
      · exact .inl ⟨hlast, hrow⟩
      · exact .inr ⟨p, mem_pixels_horizCall.mpr ⟨by rw [hS, hE]; exact ⟨hcol.1, hlt⟩, hrow,
          hcolor⟩, rfl⟩
    · rintro (hlast | ⟨p, hp, rfl⟩)
      · refine ⟨(q, color), mem_pixels_slopedCall.mpr ⟨?_, hlast.2, rfl⟩, rfl⟩
        rw [hS', hE', hlast.1]
        exact ⟨min_le_max, le_rfl⟩
      · obtain ⟨hcol, hrow, hcolor⟩ := mem_pixels_horizCall.mp hp
        rw [hS, hE] at hcol
        refine ⟨p, mem_pixels_slopedCall.mpr ⟨?_, hrow, hcolor⟩, rfl⟩
        rw [hS', hE']
        exact ⟨hcol.1, hcol.2.le⟩
  constructor
  · rw [hfast, ← hadd]
    unfold general
    rw [LineCall.stores_eq_pixels h]
    refine lit_eq_footprint h (fun p => color_of_mem_slopedCall) ?_
    rw [hadd]
    exact Set.insert_subset (lastPixel_mem_box hStart hEnd hvert) hbox
  · intro mem q hq hlit
    rw [hfast] at hlit
    unfold fast
    rw [LineCall.stores_eq_pixels h]
    refine pixelBytes_of_forall_ne h (fun p hp heq => hlit ⟨p, hp, ?_⟩) mem
    exact VipFrameReader.pixelIndex_inj (hbox ⟨p, hp, rfl⟩).1 hq.1 heq

end LastPixel

/-- **The fast path never draws the line of the general one.** For all end columns in the display,
in either order, `vid_draw_sloped_line` lights the last column, and `vid_draw_horiz_line` does
not. -/
theorem fast_line_differs (display : VipFrameReader) (h : display.HasDepth) (buffer : ℕ → BitVec 8)
    (horizStart horizEnd vert width : ℤ) (color : BitVec 32)
    (hStart : 0 ≤ horizStart ∧ horizStart < display.width)
    (hEnd : 0 ≤ horizEnd ∧ horizEnd < display.width) (hvert : 0 ≤ vert ∧ vert < display.height) :
    ¬ FastLineAgrees display buffer horizStart horizEnd vert width color := by
  rintro ⟨hlit, -⟩
  have hlast := lastPixel_mem_lit_slopedCall h buffer (lastPixel_mem_box hStart hEnd hvert) width
    color
  rw [← hlit] at hlast
  exact lastPixel_not_mem_lit_horizCall h buffer _ _ _ _ _ hlast

/-- A line to the last column of the display. -/
theorem fast_line_differs_border :
    ¬ FastLineAgrees (swFrame 0) (fun _ => 0) 652 799 234 1 white24 :=
  fast_line_differs (swFrame 0) (swFrame_hasDepth 0) (fun _ => 0) 652 799 234 1 white24
    (by decide) (by decide) (by decide)

/-- A line of one pixel is not drawn at all. -/
theorem fast_line_of_one_pixel :
    ¬ ∀ (display : VipFrameReader) (buffer : ℕ → BitVec 8)
      (horizStart horizEnd vert width : ℤ) (color : BitVec 32), display.HasDepth →
      0 ≤ horizStart ∧ horizStart < display.width → 0 ≤ horizEnd ∧ horizEnd < display.width →
      0 ≤ vert ∧ vert < display.height →
      FastLineAgrees display buffer horizStart horizEnd vert width color := by
  intro hall
  have hbox : lastPixel 5 5 3 ∈ (swFrame 0).box.area := by decide
  have hlast := lastPixel_mem_lit_slopedCall (swFrame_hasDepth 0) (fun _ => 0) hbox 1 white24
  have hagrees := hall (swFrame 0) (fun _ => 0) 5 5 3 1 white24 (swFrame_hasDepth 0) (by decide)
    (by decide) (by decide)
  rw [← hagrees.1] at hlast
  exact lastPixel_not_mem_lit_horizCall (swFrame_hasDepth 0) _ _ _ _ _ _ hlast

end DigitalModulation
