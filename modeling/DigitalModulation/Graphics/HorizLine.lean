import DigitalModulation.Desktop.Controls
import Mathlib.Tactic.Common
import Mathlib.Algebra.Order.Group.Abs
import Mathlib.Algebra.Order.Group.Int

/-!
# `simple_graphics.c`: horizontal lines

`vid_draw_horiz_line` fills a scratch buffer of `1024 * 3` bytes with pixels and copies it into the
frame.

* `VipFrameReader`: the display;
* `LineCall`, `vidDrawLine`: what `vid_draw_line` makes of its arguments;
* `Access`, `vidDrawHorizLine`: the accesses to the buffer, byte by byte;
* `horiz_line_in_buffer_iff`: when all of them are inside.
-/

namespace DigitalModulation

/-- The fields of `VIP_FRAME_READER` that drawing uses. -/
structure VipFrameReader where
  frame0Base : ℤ
  frame1Base : ℤ
  displayFrame : BitVec 8
  colorDepth : ℤ
  width : ℤ
  height : ℤ

/-- `VIPFR_GetDrawFrame`. -/
def VipFrameReader.getDrawFrame (display : VipFrameReader) : ℤ :=
  if display.displayFrame = 0 then display.frame1Base else display.frame0Base

/-- `SW_Frame` as `VIPFR_Init` leaves it, with both bases at `FR_FRAME_0`. -/
def swFrame (frame : ℤ) : VipFrameReader := ⟨frame, frame, 0, 32, 800, 600⟩

/-- The function `vid_draw_line` calls, with the arguments after the casts. -/
inductive LineCall
  | horiz (hStart hEnd : BitVec 16) (v : ℤ) (color : BitVec 32)
  | sloped (hStart vStart hEnd vEnd width : BitVec 16) (color : BitVec 32)

/-- The cast of an `int` to `unsigned short`. -/
def ushort (a : ℤ) : BitVec 16 := BitVec.ofInt 16 a

/-- `vid_draw_line`. -/
def vidDrawLine (horizStart vertStart horizEnd vertEnd width : ℤ) (color : BitVec 32) : LineCall :=
  if vertStart = vertEnd then
    .horiz (ushort horizStart) (ushort horizEnd) (ushort vertStart).toNat color
  else
    .sloped (ushort horizStart) (ushort vertStart) (ushort horizEnd) (ushort vertEnd)
      (ushort width) color

/-- An access to `fast_buffer`: a byte stored at an index, or a byte copied from an index to an
address of the frame. -/
inductive Access
  | store (index : ℕ) (byte : BitVec 8)
  | copy (addr : ℤ) (index : ℕ)

def Access.index : Access → ℕ
  | .store index _ => index
  | .copy _ index => index

/-- The values of `i` in `for (i = 0; i < bound; i += step)`. -/
def loopIndices (bound step : ℕ) : List ℕ :=
  (List.range ((bound + step - 1) / step)).map fun j => step * j

theorem mem_loopIndices {bound step i : ℕ} (hstep : 0 < step) :
    i ∈ loopIndices bound step ↔ i < bound ∧ step ∣ i := by
  have hcount (j : ℕ) : j < (bound + step - 1) / step ↔ step * j < bound := by
    rw [Nat.lt_iff_add_one_le, Nat.le_div_iff_mul_le hstep, Nat.add_mul, Nat.one_mul,
      Nat.mul_comm j step]
    omega
  simp only [loopIndices, List.mem_map, List.mem_range]
  constructor
  · rintro ⟨j, hj, rfl⟩
    exact ⟨(hcount j).mp hj, Nat.dvd_mul_right step j⟩
  · rintro ⟨hi, j, rfl⟩
    exact ⟨j, (hcount j).mpr hi, rfl⟩

/-- One branch of `vid_draw_horiz_line`: the stores of the loop, one pixel a turn, and the `memcpy`.
The pixel is given by its bytes. -/
def fastLine (pixel : List (BitVec 8)) (display : VipFrameReader) (hStart hEnd v : ℤ) :
    List Access :=
  let addr := display.getDrawFrame +
    (v * (display.width * pixel.length) + hStart * pixel.length)
  let bytesPerLine := ((hEnd - hStart) * pixel.length).toNat
  (loopIndices bytesPerLine pixel.length).flatMap (fun i =>
    pixel.mapIdx fun k byte => .store (i + k) byte) ++
  (List.range bytesPerLine).map fun i => .copy (addr + i) i

/-- `vid_draw_horiz_line` after its swap. -/
def sortedHorizLine (hStart hEnd v : ℤ) (color : BitVec 32) (display : VipFrameReader) :
    List Access :=
  (if display.colorDepth = 32 then
    fastLine [color.setWidth 8, (color >>> 8).setWidth 8, (color >>> 16).setWidth 8,
      (color >>> 24).setWidth 8] display hStart hEnd v
  else []) ++
  if display.colorDepth = 24 then
    fastLine [color.setWidth 8, (color >>> 8).setWidth 8, (color >>> 16).setWidth 8] display hStart
      hEnd v
  else if display.colorDepth = 16 then
    fastLine [color.setWidth 8, (color >>> 8).setWidth 8] display hStart hEnd v
  else []

/-- `vid_draw_horiz_line`, its columns of type `short`. -/
def vidDrawHorizLine (hStart hEnd : BitVec 16) (v : ℤ) (color : BitVec 32)
    (display : VipFrameReader) : List Access :=
  if hEnd.toInt < hStart.toInt then sortedHorizLine hEnd.toInt hStart.toInt v color display
  else sortedHorizLine hStart.toInt hEnd.toInt v color display

/-- `malloc(1024 * 3)`. -/
def fastBufferSize : ℕ := 1024 * 3

/-- Every access is inside the buffer. -/
def InFastBuffer (accesses : List Access) : Prop := ∀ a ∈ accesses, a.index < fastBufferSize

instance (accesses : List Access) : Decidable (InFastBuffer accesses) :=
  List.decidableBAll (fun a : Access => a.index < fastBufferSize) accesses

/-! ### The accesses of one line -/

/-- A branch uses exactly the indices below the bytes of the line. -/
theorem exists_index_fastLine {pixel : List (BitVec 8)} (hpixel : 0 < pixel.length)
    (display : VipFrameReader) {hStart hEnd : ℤ} (h : hStart ≤ hEnd) (v : ℤ) (i : ℕ) :
    (∃ a ∈ fastLine pixel display hStart hEnd v, a.index = i) ↔
      i < pixel.length * (hEnd - hStart).toNat := by
  have hbytes : ((hEnd - hStart) * pixel.length).toNat = pixel.length * (hEnd - hStart).toNat := by
    rw [Int.mul_comm, Int.toNat_mul (by omega) (by omega)]
    rfl
  simp only [fastLine, hbytes, List.mem_append, List.mem_flatMap, List.mem_map, List.mem_range,
    List.mem_mapIdx]
  constructor
  · rintro ⟨a, ⟨i, hi, k, hk, rfl⟩ | ⟨i, hi, rfl⟩, rfl⟩
    · -- A whole pixel fits behind its first byte, since the bound is a multiple of its size.
      obtain ⟨hlt, j, rfl⟩ := (mem_loopIndices hpixel).mp hi
      have hj : j + 1 ≤ (hEnd - hStart).toNat := Nat.lt_of_mul_lt_mul_left hlt
      calc pixel.length * j + k < pixel.length * j + pixel.length := Nat.add_lt_add_left hk _
        _ = pixel.length * (j + 1) := (Nat.mul_succ _ _).symm
        _ ≤ pixel.length * (hEnd - hStart).toNat := Nat.mul_le_mul_left _ hj
    · exact hi
  · intro hi
    exact ⟨_, .inr ⟨i, hi, rfl⟩, rfl⟩

theorem inFastBuffer_fastLine_iff {pixel : List (BitVec 8)} (hpixel : 0 < pixel.length)
    (display : VipFrameReader) {hStart hEnd : ℤ} (h : hStart ≤ hEnd) (v : ℤ) :
    InFastBuffer (fastLine pixel display hStart hEnd v) ↔
      pixel.length * (hEnd - hStart).toNat ≤ fastBufferSize := by
  constructor
  · intro hin
    by_contra hlt
    obtain ⟨a, ha, hindex⟩ :=
      (exists_index_fastLine hpixel display h v fastBufferSize).mpr (by omega)
    exact absurd (hin a ha) (by omega)
  · intro hle a ha
    have hlt := (exists_index_fastLine hpixel display h v a.index).mp ⟨a, ha, rfl⟩
    omega

/-- The condition in columns: three bytes a pixel were provided for. -/
theorem inFastBuffer_sortedHorizLine_iff {display : VipFrameReader} {hStart hEnd : ℤ}
    (h : hStart ≤ hEnd) (v : ℤ) (color : BitVec 32)
    (hdepth : display.colorDepth = 16 ∨ display.colorDepth = 24 ∨ display.colorDepth = 32) :
    InFastBuffer (sortedHorizLine hStart hEnd v color display) ↔
      display.colorDepth / 8 * (hEnd - hStart) ≤ 1024 * 3 := by
  rcases hdepth with hdepth | hdepth | hdepth
  all_goals
    simp only [sortedHorizLine, hdepth, ite_true, ite_false, List.append_nil, List.nil_append,
      Int.reduceEq]
    rw [inFastBuffer_fastLine_iff (by simp) display h]
    simp only [List.length_cons, List.length_nil, fastBufferSize]
    omega

/-- The condition does not depend on the order of the columns. -/
theorem inFastBuffer_vidDrawHorizLine_iff {display : VipFrameReader} (hStart hEnd : BitVec 16)
    (v : ℤ) (color : BitVec 32)
    (hdepth : display.colorDepth = 16 ∨ display.colorDepth = 24 ∨ display.colorDepth = 32) :
    InFastBuffer (vidDrawHorizLine hStart hEnd v color display) ↔
      display.colorDepth / 8 * |hEnd.toInt - hStart.toInt| ≤ 1024 * 3 := by
  unfold vidDrawHorizLine
  split_ifs with hswap
  · rw [inFastBuffer_sortedHorizLine_iff (by omega) v color hdepth, abs_sub_comm,
      abs_of_pos (by omega)]
  · rw [inFastBuffer_sortedHorizLine_iff (by omega) v color hdepth, abs_of_nonneg (by omega)]

/-- **When the fast line stays in its buffer.** For the depths and widths of the display, and
columns between 0 and the width, every access is inside the buffer exactly if the depth is not 32
bits or the columns are at most 768 apart. -/
theorem horiz_line_in_buffer_iff (display : VipFrameReader) (hStart hEnd : BitVec 16) (v : ℤ)
    (color : BitVec 32)
    (hdepth : display.colorDepth = 16 ∨ display.colorDepth = 24 ∨ display.colorDepth = 32)
    (hwidth : display.width ≤ 1024) (hStart0 : 0 ≤ hStart.toInt)
    (hStartw : hStart.toInt ≤ display.width) (hEnd0 : 0 ≤ hEnd.toInt)
    (hEndw : hEnd.toInt ≤ display.width) :
    (∀ a ∈ vidDrawHorizLine hStart hEnd v color display, a.index < 1024 * 3) ↔
      (display.colorDepth = 32 → |hEnd.toInt - hStart.toInt| ≤ 768) := by
  have hspan : |hEnd.toInt - hStart.toInt| ≤ 1024 := by rw [abs_le]; omega
  refine (inFastBuffer_vidDrawHorizLine_iff hStart hEnd v color hdepth).trans ?_
  rcases hdepth with hdepth | hdepth | hdepth
  · simp only [hdepth, Int.reduceEq, false_implies, iff_true]
    omega
  · simp only [hdepth, Int.reduceEq, false_implies, iff_true]
    omega
  · simp only [hdepth, forall_const]
    omega

/-- The short line between the colours and the modulations. -/
theorem horiz_line_in_buffer_short :
    InFastBuffer (vidDrawHorizLine 652 800 234 white24 (swFrame 0)) :=
  (horiz_line_in_buffer_iff (swFrame 0) 652 800 234 white24 (by decide) (by decide) (by decide)
    (by decide) (by decide) (by decide)).mpr (by decide)

/-- A line across the whole display takes 3200 bytes. -/
theorem horiz_line_overruns :
    ¬ ∀ (display : VipFrameReader) (hStart hEnd : BitVec 16) (v : ℤ) (color : BitVec 32),
      (display.colorDepth = 16 ∨ display.colorDepth = 24 ∨ display.colorDepth = 32) →
      display.width ≤ 1024 → 0 ≤ hStart.toInt → hStart.toInt ≤ display.width →
      0 ≤ hEnd.toInt → hEnd.toInt ≤ display.width →
      ∀ a ∈ vidDrawHorizLine hStart hEnd v color display, a.index < 1024 * 3 := by
  intro h
  have hin : InFastBuffer (vidDrawHorizLine 0 800 407 white24 (swFrame 0)) :=
    h (swFrame 0) 0 800 407 white24 (by decide) (by decide) (by decide) (by decide) (by decide)
      (by decide)
  rw [inFastBuffer_vidDrawHorizLine_iff _ _ _ _ (by decide)] at hin
  exact absurd hin (by decide)

/-! ### The lines of `init_background` -/

/-- The accesses to `fast_buffer` of a call; `vid_draw_sloped_line` makes none. -/
def LineCall.fastBuffer (display : VipFrameReader) : LineCall → List Access
  | .horiz hStart hEnd v color => vidDrawHorizLine hStart hEnd v color display
  | .sloped .. => []

/-- The two lines across the whole display overrun the buffer, the others do not. -/
theorem initLines_inFastBuffer_iff (frame : ℤ) {h₀ v₀ h₁ v₁ width : ℤ} {color : BitVec 32}
    (h : Draw.line h₀ v₀ h₁ v₁ width color ∈ initLines) :
    InFastBuffer ((vidDrawLine h₀ v₀ h₁ v₁ width color).fastBuffer (swFrame frame)) ↔
      ¬ (h₀ = 0 ∧ h₁ = 800) := by
  have hdepth : (swFrame frame).colorDepth = 32 := rfl
  simp only [initLines, List.mem_cons, Draw.line.injEq, List.not_mem_nil, or_false] at h
  rcases h with h | h | h | h | h | h | h | h <;> obtain ⟨rfl, rfl, rfl, rfl, rfl, rfl⟩ := h
  case inr.inr.inr.inl => simp [vidDrawLine, LineCall.fastBuffer, InFastBuffer]
  case inr.inr.inr.inr.inl => simp [vidDrawLine, LineCall.fastBuffer, InFastBuffer]
  case inr.inr.inr.inr.inr.inl => simp [vidDrawLine, LineCall.fastBuffer, InFastBuffer]
  all_goals
    refine (inFastBuffer_vidDrawHorizLine_iff _ _ _ _ (.inr (.inr hdepth))).trans ?_
    rw [hdepth]
    decide

end DigitalModulation
