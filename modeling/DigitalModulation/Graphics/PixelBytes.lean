import DigitalModulation.Graphics.DoubleBuffer
import DigitalModulation.Lib.Layout

/-!
# The bytes of the pixels

Whatever the depth, the pixels of a frame lie one behind the other, row by row, and setting pixels
changes their bytes and no others.

* `VipFrameReader.pixelLayout`, `VipFrameReader.pixelBytes`: the bytes of the pixels;
* `VipFrameReader.ByteOf`: the addresses of a pixel;
* `pixelBytes_of_mem`, `pixelBytes_of_forall_ne`: what setting pixels does to the pixels;
* `paint_outside_pixels`: what it does not change;
* `paint_pixels_congr`: in which order pixels of one colour are set does not matter.
-/

namespace DigitalModulation

namespace VipFrameReader

variable (display : VipFrameReader)

def bytesPerPixel : ℕ := (display.colorDepth / 8).toNat

/-- The pixels of the frame that is drawn, by their numbers. -/
def pixelLayout : Canvas.Layout ℤ ℤ :=
  Canvas.consecutive display.getDrawFrame display.bytesPerPixel

/-- What a pixel of the frame that is drawn holds. -/
def pixelBytes (mem : ℤ → BitVec 8) (q : ℤ × ℤ) : List (BitVec 8) :=
  display.pixelLayout.read mem (display.pixelIndex q)

/-- The address is that of a byte of the pixel. -/
def ByteOf (addr : ℤ) (q : ℤ × ℤ) : Prop :=
  ∃ i < display.bytesPerPixel, display.pixelLayout.addr (display.pixelIndex q) i = addr

/-- The display has a column of that number. -/
def HasColumn (q : ℤ × ℤ) : Prop := 0 ≤ q.1 ∧ q.1 < display.width

variable {display}

/-- Pixels in columns of the display have different numbers. -/
theorem pixelIndex_inj {q q' : ℤ × ℤ} (hq : display.HasColumn q) (hq' : display.HasColumn q')
    (h : display.pixelIndex q = display.pixelIndex q') : q = q' := by
  unfold pixelIndex at h
  have hrow {q : ℤ × ℤ} (hq : display.HasColumn q) :
      (q.2 * display.width + q.1) / display.width = q.2 := by
    have hpos : 0 < display.width := hq.1.trans_lt hq.2
    rw [Int.add_comm, Int.add_mul_ediv_right _ _ hpos.ne', Int.ediv_eq_zero_of_lt hq.1 hq.2,
      Int.zero_add]
  have hvert : q.2 = q'.2 := by rw [← hrow hq, ← hrow hq', h]
  rw [hvert] at h
  exact Prod.ext (by omega) hvert

end VipFrameReader

theorem VipFrameReader.HasDepth.length_eq {display : VipFrameReader} (h : display.HasDepth)
    (color : BitVec 32) : (colorBytes display color).length = display.bytesPerPixel := by
  have hlen := h.length_colorBytes color
  unfold VipFrameReader.bytesPerPixel
  omega

theorem vidSetPixel_eq_write {display : VipFrameReader} (h : display.HasDepth) (p : Pixel) :
    vidSetPixel display p =
      display.pixelLayout.write (display.pixelIndex p.1, colorBytes display p.2) := by
  have haddr : display.getDrawFrame + (p.1.2 * (display.width * display.bytesPerPixel) +
      p.1.1 * display.bytesPerPixel) =
      display.getDrawFrame + display.pixelIndex p.1 * display.bytesPerPixel := by
    unfold VipFrameReader.pixelIndex
    ring
  simp only [vidSetPixel, h.length_eq, haddr]
  rfl

section Layouts

variable {display : VipFrameReader} {L : Canvas.Layout ℤ ℤ} {bytes : BitVec 32 → List (BitVec 8)}
  {ps : List Pixel}

/-- Pixels that are set one after another, whatever bytes make up a colour. -/
theorem read_pixels (hbytes : ∀ color, (bytes color).length = L.size) (i : ℤ)
    (mem : ℤ → BitVec 8) :
    L.read (Canvas.paint mem
        (ps.flatMap fun p => L.write (display.pixelIndex p.1, bytes p.2))) i =
      Canvas.paint (L.read mem) (ps.map fun p => (display.pixelIndex p.1, bytes p.2)) i := by
  rw [← List.flatMap_map (fun p : Pixel => (display.pixelIndex p.1, bytes p.2)) L.write,
    Canvas.Layout.read_paint]
  intro w hw
  obtain ⟨p, -, rfl⟩ := List.mem_map.mp hw
  exact hbytes p.2

/-- A pixel that is set to one colour only. -/
theorem read_pixel_of_mem (hbytes : ∀ color, (bytes color).length = L.size) {p : Pixel}
    (hp : p ∈ ps)
    (hcolor : ∀ p' ∈ ps, display.pixelIndex p'.1 = display.pixelIndex p.1 → p'.2 = p.2)
    (mem : ℤ → BitVec 8) :
    L.read (Canvas.paint mem (ps.flatMap fun p => L.write (display.pixelIndex p.1, bytes p.2)))
      (display.pixelIndex p.1) = bytes p.2 := by
  rw [read_pixels hbytes, Canvas.paint_apply,
    Canvas.lastWrite_eq_some (v := bytes p.2) (List.mem_map.mpr ⟨p, hp, rfl⟩)]
  · rfl
  · intro w hw heq
    obtain ⟨p', hp', rfl⟩ := List.mem_map.mp hw
    exact congrArg bytes (hcolor p' hp' heq)

/-- A pixel that is not set. -/
theorem read_pixel_of_forall_ne (hbytes : ∀ color, (bytes color).length = L.size) {i : ℤ}
    (hne : ∀ p ∈ ps, display.pixelIndex p.1 ≠ i) (mem : ℤ → BitVec 8) :
    L.read (Canvas.paint mem (ps.flatMap fun p => L.write (display.pixelIndex p.1, bytes p.2))) i =
      L.read mem i := by
  rw [read_pixels hbytes]
  refine Canvas.paint_of_forall_ne fun w hw heq => ?_
  obtain ⟨p, hp, rfl⟩ := List.mem_map.mp hw
  exact hne p hp heq

end Layouts

section Pixels

variable {display : VipFrameReader} {ps : List Pixel}

theorem flatMap_vidSetPixel (h : display.HasDepth) (ps : List Pixel) :
    ps.flatMap (vidSetPixel display) = ps.flatMap fun p =>
      display.pixelLayout.write (display.pixelIndex p.1, colorBytes display p.2) :=
  List.flatMap_congr fun p _ => vidSetPixel_eq_write h p

/-- **What setting pixels does to the pixels**: those that are set have the colour. -/
theorem pixelBytes_of_mem (h : display.HasDepth) {p : Pixel} (hp : p ∈ ps)
    (hcolor : ∀ p' ∈ ps, display.pixelIndex p'.1 = display.pixelIndex p.1 → p'.2 = p.2)
    (mem : ℤ → BitVec 8) :
    display.pixelBytes (Canvas.paint mem (ps.flatMap (vidSetPixel display))) p.1 =
      colorBytes display p.2 := by
  rw [flatMap_vidSetPixel h]
  exact read_pixel_of_mem (L := display.pixelLayout) h.length_eq hp hcolor mem

/-- Pixels that are not set keep their bytes. -/
theorem pixelBytes_of_forall_ne (h : display.HasDepth) {q : ℤ × ℤ}
    (hne : ∀ p ∈ ps, display.pixelIndex p.1 ≠ display.pixelIndex q) (mem : ℤ → BitVec 8) :
    display.pixelBytes (Canvas.paint mem (ps.flatMap (vidSetPixel display))) q =
      display.pixelBytes mem q := by
  rw [flatMap_vidSetPixel h]
  exact read_pixel_of_forall_ne (L := display.pixelLayout) h.length_eq hne mem

/-- Bytes of other pixels, and those outside the frame, stay. -/
theorem paint_outside_pixels (h : display.HasDepth) {addr : ℤ}
    (haddr : ∀ q ∈ footprint ps, ¬ display.ByteOf addr q) (mem : ℤ → BitVec 8) :
    Canvas.paint mem (ps.flatMap (vidSetPixel display)) addr = mem addr := by
  rw [flatMap_vidSetPixel h, ← List.flatMap_map (fun p : Pixel => (display.pixelIndex p.1,
    colorBytes display p.2)) display.pixelLayout.write]
  refine Canvas.Layout.paint_outside (fun w hw => ?_) (fun w hw i hi heq => ?_) mem
  · obtain ⟨p, -, rfl⟩ := List.mem_map.mp hw
    exact h.length_eq p.2
  · obtain ⟨p, hp, rfl⟩ := List.mem_map.mp hw
    exact haddr p.1 ⟨p, hp, rfl⟩ ⟨i, hi, heq⟩

/-- In which order pixels of one colour are set does not matter, nor how often. -/
theorem paint_pixels_congr (h : display.HasDepth) {qs : List Pixel} {color : BitVec 32}
    (hmem : ∀ p, p ∈ ps ↔ p ∈ qs) (hcolor : ∀ p ∈ ps, p.2 = color) (mem : ℤ → BitVec 8) :
    Canvas.paint mem (ps.flatMap (vidSetPixel display)) =
      Canvas.paint mem (qs.flatMap (vidSetPixel display)) := by
  refine Canvas.paint_congr_of_mem_iff (fun w => ?_) (fun w hw w' hw' heq => ?_) mem
  · simp only [List.mem_flatMap, hmem]
  · obtain ⟨p, hp, hw⟩ := List.mem_flatMap.mp hw
    obtain ⟨p', hp', hw'⟩ := List.mem_flatMap.mp hw'
    rw [vidSetPixel_eq_write h, Canvas.Layout.mem_write] at hw hw'
    obtain ⟨i, hi, rfl⟩ := hw
    obtain ⟨i', hi', rfl⟩ := hw'
    have hlt (p : Pixel) {i : ℕ} (hi : i < (colorBytes display p.2).length) :
        i < display.bytesPerPixel := h.length_eq p.2 ▸ hi
    -- One address is always the same byte of a pixel.
    have hbyte := (display.pixelLayout.injective (hlt p hi) (hlt p' hi') heq).2
    subst hbyte
    simp only [hcolor p hp, hcolor p' hp']

end Pixels

end DigitalModulation
