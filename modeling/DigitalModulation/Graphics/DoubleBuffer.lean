import DigitalModulation.Graphics.Images
import DigitalModulation.Graphics.Text
import Mathlib.Data.Set.Disjoint

/-!
# Double buffering

A display can have two frames, one that is shown and one that is drawn. `VIPFR_GetDrawFrame` returns
the second one, and `VIPFR_ActiveDrawFrame` makes them change places.

* `FrameBuffers`: a display with two frames apart, and the memory;
* `DrawingCall`, `FrameEvent`, `FrameBuffers.step`: the drawing functions and the swap;
* `Contained`: a call writes to the frame that is drawn, and not to the one that is shown;
* `ToBackFrame`: the condition in the arguments of the call;
* `contained_iff`, `drawn_to_back_frame_iff`: one call, and every run.
-/

namespace DigitalModulation

/-! ### Two frames -/

namespace VipFrameReader

variable (display : VipFrameReader)

/-- The bytes of a frame. -/
def frameBytes : ℤ := display.width * display.height * (display.colorDepth / 8)

/-- The addresses of the frame at a base. -/
def frame (base : ℤ) : Set ℤ := {addr | base ≤ addr ∧ addr < base + display.frameBytes}

/-- The frame that `FrameReader_SelectFrame` was last told to show. -/
def displayedFrame : ℤ :=
  if display.displayFrame = 0 then display.frame0Base else display.frame1Base

/-- `VIPFR_ActiveDrawFrame`. -/
def activeDrawFrame : VipFrameReader :=
  { display with displayFrame := (display.displayFrame + 1) % 2 }

/-- The two frames have no byte in common. -/
def FramesApart : Prop :=
  Disjoint (display.frame display.frame0Base) (display.frame display.frame1Base)

/-- The number of a pixel, counted row by row. -/
def pixelIndex (q : ℤ × ℤ) : ℤ := q.2 * display.width + q.1

/-- The frame has the pixel, in whatever row. -/
def HasPixel (q : ℤ × ℤ) : Prop :=
  0 ≤ display.pixelIndex q ∧ display.pixelIndex q < display.width * display.height

/-- The columns and rows of the frame. -/
def box : Box := ⟨0, 0, display.width, display.height⟩

/-- Four bytes for the pixel, counted from the frame that is displayed, lie in the other one. -/
def BackFrameHasWord (q : ℤ × ℤ) : Prop :=
  let addr := display.displayedFrame + 4 * display.pixelIndex q
  display.getDrawFrame ≤ addr ∧ addr + 4 ≤ display.getDrawFrame + display.frameBytes

end VipFrameReader

/-- A display with two frames, and the memory. -/
structure FrameBuffers where
  display : VipFrameReader
  hasDepth : display.HasDepth
  framesApart : display.FramesApart
  mem : ℤ → BitVec 8

/-! ### The drawing functions -/

/-- A call of a drawing function. -/
inductive DrawingCall
  | drawLine (horizStart vertStart horizEnd vertEnd width : ℤ) (color : BitVec 32)
  | paintBlock (hStart vStart hEnd vEnd : ℤ) (color : BitVec 32)
  | setPixel (horiz vert : ℤ) (color : BitVec 32)
  | printStringAlpha (horizOffset vertOffset : ℤ) (color backgroundColor : BitVec 32) (font : Font)
      (string : String)
  | image (x y : ℤ) (gimp : GimpImage)
  | imageFromGimp (gimp : GimpImage) (x y : ℤ) (transparent : BitVec 32)

/-- What a call finds in memory that is not of a frame: in `fast_buffer`, in a new bitmap, and what
printing reads. -/
structure Surroundings where
  fastBuffer : ℕ → BitVec 8
  malloc : ℕ → BitVec 8
  print : PrintMemory

/-- The fonts have glyphs from `'!'` to `'~'`; printing does not look up line feeds, spaces and
tabs. -/
def HasGlyphs (string : String) : Prop :=
  ∀ c ∈ string.toList, (c = '\n' ∨ c = ' ' ∨ c = '\t') ∨ '!' ≤ c ∧ c ≤ '~'

instance (string : String) : Decidable (HasGlyphs string) :=
  List.decidableBAll (fun c => (c = '\n' ∨ c = ' ' ∨ c = '\t') ∨ '!' ≤ c ∧ c ≤ '~') string.toList

namespace DrawingCall

/-- What the call stores in frames, if it stays inside `fast_buffer` and the font and copies no
negative number of bytes. -/
def stores (m : Surroundings) (display : VipFrameReader) : DrawingCall → Option (List Store)
  | drawLine horizStart vertStart horizEnd vertEnd width color =>
    let call := vidDrawLine horizStart vertStart horizEnd vertEnd width color
    if InFastBuffer (call.fastBuffer display) then some (call.stores m.fastBuffer display)
    else none
  | paintBlock hStart vStart hEnd vEnd color =>
    if hEnd < hStart ∧ vStart < vEnd then none
    else some (vidPaintBlock hStart vStart hEnd vEnd color display)
  | setPixel horiz vert color => some (vidSetPixel display ((horiz, vert), color))
  | printStringAlpha horizOffset vertOffset color backgroundColor font string =>
    if HasGlyphs string then
      some ((vidPrintStringAlpha m.print font display horizOffset vertOffset color backgroundColor
        string).flatMap (vidSetPixel display))
    else none
  | image x y gimp => dispImage display x y gimp m.malloc
  | imageFromGimp gimp x y transparent =>
    some (dispImageFromGimp display gimp m.malloc x y transparent)

/-- The pixels that the call sets. -/
def pixels (m : Surroundings) (display : VipFrameReader) : DrawingCall → List Pixel
  | drawLine horizStart vertStart horizEnd vertEnd width color =>
    (vidDrawLine horizStart vertStart horizEnd vertEnd width color).pixels
  | paintBlock hStart vStart hEnd vEnd color => block hStart vStart hEnd vEnd color
  | setPixel horiz vert color => [((horiz, vert), color)]
  | printStringAlpha horizOffset vertOffset color backgroundColor font string =>
    vidPrintStringAlpha m.print font display horizOffset vertOffset color backgroundColor string
  | image _ _ gimp =>
    let bmp := loadGimpBmp gimp m.malloc
    raster 0 0 bmp.biWidth.toInt.toNat bmp.biHeight.toInt.toNat fun i j =>
      bitmapWord bmp.data (i * bmp.biWidth.toInt.toNat + j)
  | imageFromGimp gimp x y transparent =>
    let bmp := loadGimpBmp gimp m.malloc
    imagePixels x y bmp.biWidth.toInt.toNat bmp.biHeight.toInt.toNat (realColor bmp.data)
      transparent

/-- The arguments do not make the call leave `fast_buffer` or the font or copy a negative number of
bytes. -/
def Defined (display : VipFrameReader) : DrawingCall → Prop
  | drawLine horizStart vertStart horizEnd vertEnd _ _ => vertStart = vertEnd →
    display.colorDepth / 8 * |(ushort horizEnd).toInt - (ushort horizStart).toInt| ≤ 1024 * 3
  | paintBlock hStart vStart hEnd vEnd _ => vStart < vEnd → hStart ≤ hEnd
  | printStringAlpha _ _ _ _ _ string => HasGlyphs string
  | image _ _ gimp =>
    0 < (BitVec.ofNat 16 gimp.height).toInt → 0 ≤ (BitVec.ofNat 16 gimp.width).toInt
  | _ => True

/-- The two functions that draw images take the frame that is displayed. -/
def isImage : DrawingCall → Bool
  | image .. | imageFromGimp .. => true
  | _ => false

/-- How the call stores a pixel. -/
def storePixel (display : VipFrameReader) (call : DrawingCall) : Pixel → List Store :=
  if call.isImage then storeWord display.displayedFrame display.width else vidSetPixel display

/-- Where the call may set a pixel without leaving the frame that is drawn. -/
def MaySet (display : VipFrameReader) (call : DrawingCall) : ℤ × ℤ → Prop :=
  if call.isImage then display.BackFrameHasWord else display.HasPixel

end DrawingCall

/-- A swap of the frames, or a drawing call. -/
inductive FrameEvent
  | activeDrawFrame
  | draw (m : Surroundings) (call : DrawingCall)

/-! ### Where pixels are stored -/

namespace VipFrameReader

variable {display : VipFrameReader}

theorem mem_frame {base addr : ℤ} :
    addr ∈ display.frame base ↔ base ≤ addr ∧ addr < base + display.frameBytes :=
  Iff.rfl

theorem storeBytes_mem_frame_iff {addr base : ℤ} {bytes : List (BitVec 8)}
    (h : 0 < bytes.length) :
    (∀ w ∈ storeBytes addr bytes, w.1 ∈ display.frame base) ↔
      base ≤ addr ∧ addr + bytes.length ≤ base + display.frameBytes := by
  simp only [storeBytes, List.mem_mapIdx, mem_frame]
  constructor
  · intro hall
    have hfirst := hall (addr + (0 : ℕ), bytes[0]) ⟨0, h, rfl⟩
    have hlast := hall (addr + (bytes.length - 1 : ℕ), bytes[bytes.length - 1])
      ⟨bytes.length - 1, by omega, rfl⟩
    simp only at hfirst hlast
    omega
  · rintro ⟨hlo, hhi⟩ w ⟨i, hi, rfl⟩
    simp only
    omega

/-- **A pixel is stored in the frame that is drawn iff the frame has it.** -/
theorem vidSetPixel_mem_frame_iff (h : display.HasDepth) (p : Pixel) :
    (∀ w ∈ vidSetPixel display p, w.1 ∈ display.frame display.getDrawFrame) ↔
      display.HasPixel p.1 := by
  have hlen := h.length_colorBytes p.2
  unfold vidSetPixel
  rw [storeBytes_mem_frame_iff (h.length_pos p.2)]
  have haddr (n : ℤ) : p.1.2 * (display.width * n) + p.1.1 * n = display.pixelIndex p.1 * n := by
    unfold pixelIndex
    ring
  simp only [haddr, hlen, frameBytes, HasPixel]
  generalize display.width * display.height = area
  generalize display.pixelIndex p.1 = i
  rcases h with h | h | h <;> rw [h] <;> omega

theorem hasPixel_of_mem_box {q : ℤ × ℤ} (hq : q ∈ display.box.area) : display.HasPixel q := by
  obtain ⟨⟨hcol, hcolw⟩, hrow, hrowh⟩ := hq
  simp only [box] at hcol hcolw hrow hrowh
  unfold HasPixel pixelIndex
  constructor
  · exact Int.add_nonneg (Int.mul_nonneg hrow (hcol.trans hcolw.le)) hcol
  · calc q.2 * display.width + q.1 < q.2 * display.width + display.width := by omega
      _ = display.width * (q.2 + 1) := by ring
      _ ≤ display.width * display.height :=
        Int.mul_le_mul_of_nonneg_left hrowh (hcol.trans hcolw.le)

theorem storeWord_mem_frame_iff (p : Pixel) :
    (∀ w ∈ storeWord display.displayedFrame display.width p,
      w.1 ∈ display.frame display.getDrawFrame) ↔ display.BackFrameHasWord p.1 := by
  unfold storeWord
  rw [storeBytes_mem_frame_iff (by simp)]
  rfl

/-- Frames one behind the other. -/
theorem framesApart_of_le (h : display.frame0Base + display.frameBytes ≤ display.frame1Base) :
    display.FramesApart := by
  refine Set.disjoint_left.mpr fun addr h0 h1 => ?_
  have hlt := h0.2
  have hle := h1.1
  omega

/-- The frame that is drawn is not the one that is shown. -/
theorem FramesApart.disjoint (h : display.FramesApart) :
    Disjoint (display.frame display.getDrawFrame) (display.frame display.displayedFrame) := by
  unfold getDrawFrame displayedFrame
  split_ifs
  · exact h.symm
  · exact h

/-- With 32 bits a pixel, the words of an image lie in the frame that is displayed. -/
theorem FramesApart.not_backFrameHasWord (h : display.FramesApart)
    (hdepth : display.colorDepth = 32) {q : ℤ × ℤ} (hq : display.HasPixel q) :
    ¬ display.BackFrameHasWord q := by
  rintro ⟨hlo, hhi⟩
  have hdraw : display.displayedFrame + 4 * display.pixelIndex q ∈
      display.frame display.getDrawFrame := ⟨hlo, by omega⟩
  refine h.disjoint.notMem_of_mem_left hdraw ⟨?_, ?_⟩
  · have hpos := hq.1
    omega
  · have hlt := hq.2
    simp only [frameBytes, hdepth]
    omega

end VipFrameReader

/-! ### What a call stores -/

namespace DrawingCall

theorem inFastBuffer_iff {display : VipFrameReader} (h : display.HasDepth)
    (horizStart vertStart horizEnd vertEnd width : ℤ) (color : BitVec 32) :
    InFastBuffer ((vidDrawLine horizStart vertStart horizEnd vertEnd width color).fastBuffer
        display) ↔
      (drawLine horizStart vertStart horizEnd vertEnd width color).Defined display := by
  unfold vidDrawLine Defined
  split_ifs with hrow
  · rw [LineCall.fastBuffer, inFastBuffer_vidDrawHorizLine_iff _ _ _ _ h]
    exact ⟨fun hle _ => hle, fun hle => hle hrow⟩
  · -- Only horizontal lines use the buffer.
    simp [LineCall.fastBuffer, InFastBuffer, hrow]

/-- **A call is carried out pixel by pixel.** -/
theorem stores_eq {display : VipFrameReader} (h : display.HasDepth) (m : Surroundings)
    {call : DrawingCall} (hcall : call.Defined display) :
    call.stores m display = some ((call.pixels m display).flatMap (call.storePixel display)) := by
  cases call with
  | drawLine horizStart vertStart horizEnd vertEnd width color =>
    rw [stores, if_pos ((inFastBuffer_iff h _ _ _ _ _ _).mpr hcall)]
    exact congrArg some (LineCall.stores_eq_pixels h m.fastBuffer _)
  | paintBlock hStart vStart hEnd vEnd color =>
    have hneg : ¬ (hEnd < hStart ∧ vStart < vEnd) := fun hneg => by
      have hle : hStart ≤ hEnd := hcall hneg.2
      omega
    rw [stores, if_neg hneg, vidPaintBlock_eq_block h]
    rfl
  | setPixel horiz vert color => simp [stores, pixels, storePixel, isImage]
  | printStringAlpha => exact if_pos hcall
  | image x y gimp =>
    have hneg : ¬ ((loadGimpBmp gimp m.malloc).biWidth.toInt < 0 ∧
        0 < (loadGimpBmp gimp m.malloc).biHeight.toInt) := fun hneg => by
      have hle : 0 ≤ (loadGimpBmp gimp m.malloc).biWidth.toInt := hcall hneg.2
      omega
    rw [stores, dispImage, asVidCopyImageToBuffer_eq, if_neg hneg]
    rfl
  | imageFromGimp gimp x y transparent =>
    rw [stores, dispImageFromGimp, asVidCopyImageToBuffer3_eq _ _ _ _ _ le_rfl le_rfl]
    rfl

theorem stores_eq_none {display : VipFrameReader} (h : display.HasDepth) (m : Surroundings)
    {call : DrawingCall} (hcall : ¬ call.Defined display) : call.stores m display = none := by
  cases call with
  | drawLine horizStart vertStart horizEnd vertEnd width color =>
    exact if_neg fun hin => hcall ((inFastBuffer_iff h _ _ _ _ _ _).mp hin)
  | paintBlock hStart vStart hEnd vEnd color =>
    rw [Defined, not_forall] at hcall
    obtain ⟨hrows, hcolumns⟩ := hcall
    exact if_pos ⟨not_le.mp hcolumns, hrows⟩
  | image x y gimp =>
    rw [Defined, not_forall] at hcall
    obtain ⟨hrows, hcolumns⟩ := hcall
    exact if_pos ⟨not_le.mp hcolumns, hrows⟩
  | setPixel => exact absurd trivial hcall
  | printStringAlpha => exact if_neg hcall
  | imageFromGimp => exact absurd trivial hcall

theorem storePixel_mem_frame_iff {display : VipFrameReader} (h : display.HasDepth)
    (call : DrawingCall) (p : Pixel) :
    (∀ w ∈ call.storePixel display p, w.1 ∈ display.frame display.getDrawFrame) ↔
      call.MaySet display p.1 := by
  unfold storePixel MaySet
  split_ifs
  · exact VipFrameReader.storeWord_mem_frame_iff p
  · exact VipFrameReader.vidSetPixel_mem_frame_iff h p

end DrawingCall

/-! ### Runs -/

/-- A swap of the frames or a drawing call. What memory holds after a call that is not defined is
not modelled. -/
def FrameBuffers.step (s : FrameBuffers) : FrameEvent → FrameBuffers
  | .activeDrawFrame => { s with display := s.display.activeDrawFrame }
  | .draw m call =>
    { s with mem := ((call.stores m s.display).map (Canvas.paint s.mem)).getD s.mem }

/-- The call is carried out, writes only inside the frame that `VIPFR_GetDrawFrame` returns, and
leaves every byte of the frame that is displayed unchanged. -/
def Contained (s : FrameBuffers) : FrameEvent → Prop
  | .activeDrawFrame => True
  | .draw m call =>
    (∃ ws, call.stores m s.display = some ws ∧
      ∀ w ∈ ws, w.1 ∈ s.display.frame s.display.getDrawFrame) ∧
    ∀ addr ∈ s.display.frame s.display.displayedFrame,
      (s.step (.draw m call)).mem addr = s.mem addr

/-- The arguments keep the call inside the frame that is drawn. -/
def ToBackFrame (s : FrameBuffers) : FrameEvent → Prop
  | .activeDrawFrame => True
  | .draw m call => call.Defined s.display ∧
    ∀ q ∈ footprint (call.pixels m s.display), call.MaySet s.display q

/-- Stores in one frame do not change the other. -/
theorem step_mem_eq {s : FrameBuffers} {m : Surroundings} {call : DrawingCall} {ws : List Store}
    (hws : call.stores m s.display = some ws)
    (hframe : ∀ w ∈ ws, w.1 ∈ s.display.frame s.display.getDrawFrame) {addr : ℤ}
    (haddr : addr ∈ s.display.frame s.display.displayedFrame) :
    (s.step (.draw m call)).mem addr = s.mem addr := by
  simp only [FrameBuffers.step, hws, Option.map_some, Option.getD_some]
  refine Canvas.paint_of_forall_ne fun w hw heq => ?_
  exact s.framesApart.disjoint.notMem_of_mem_left (hframe w hw) (heq ▸ haddr)

/-- **Which calls go to the back frame.** -/
theorem contained_iff (s : FrameBuffers) (e : FrameEvent) : Contained s e ↔ ToBackFrame s e := by
  cases e with
  | activeDrawFrame => rfl
  | draw m call =>
    by_cases hcall : call.Defined s.display
    · have hpixels : (∀ w ∈ (call.pixels m s.display).flatMap (call.storePixel s.display),
          w.1 ∈ s.display.frame s.display.getDrawFrame) ↔
          ∀ q ∈ footprint (call.pixels m s.display), call.MaySet s.display q := by
        simp only [List.forall_mem_flatMap, call.storePixel_mem_frame_iff s.hasDepth]
        exact ⟨fun hall q ⟨p, hp, hpq⟩ => hpq ▸ hall p hp, fun hall p hp => hall p.1 ⟨p, hp, rfl⟩⟩
      have hstores := DrawingCall.stores_eq s.hasDepth m hcall
      constructor
      · rintro ⟨⟨ws, hws, hframe⟩, -⟩
        rw [hstores, Option.some_inj] at hws
        exact ⟨hcall, hpixels.mp (hws ▸ hframe)⟩
      · rintro ⟨-, hall⟩
        exact ⟨⟨_, hstores, hpixels.mpr hall⟩, fun addr => step_mem_eq hstores (hpixels.mpr hall)⟩
    · constructor
      · rintro ⟨⟨ws, hws, -⟩, -⟩
        rw [DrawingCall.stores_eq_none s.hasDepth m hcall] at hws
        exact absurd hws (by simp)
      · exact fun h => absurd h.1 hcall

/-- **When drawing goes to the back frame only.** -/
theorem drawn_to_back_frame_iff (s : FrameBuffers) (es : List FrameEvent) :
    Machine.Along FrameBuffers.step Contained s es ↔
      Machine.Along FrameBuffers.step ToBackFrame s es :=
  Machine.along_congr contained_iff es

/-- Calls on the screen go to the back frame, those that draw images apart. -/
theorem toBackFrame_of_subset_box {s : FrameBuffers} {m : Surroundings} {call : DrawingCall}
    (himage : call.isImage = false) (hcall : call.Defined s.display)
    (hbox : footprint (call.pixels m s.display) ⊆ s.display.box.area) :
    ToBackFrame s (.draw m call) := by
  refine ⟨hcall, fun q hq => ?_⟩
  rw [DrawingCall.MaySet, if_neg (by simp [himage])]
  exact VipFrameReader.hasPixel_of_mem_box (hbox hq)

/-! ### Images -/

/-- An image that sets a pixel of the frame is not contained. -/
theorem not_contained_image {s : FrameBuffers} (hdepth : s.display.colorDepth = 32)
    {m : Surroundings} {call : DrawingCall} (hcall : call.isImage = true) {p : Pixel}
    (hp : p ∈ call.pixels m s.display) (hq : s.display.HasPixel p.1) :
    ¬ Contained s (.draw m call) := by
  rw [contained_iff]
  rintro ⟨-, hall⟩
  have hset := hall p.1 ⟨p, hp, rfl⟩
  rw [DrawingCall.MaySet, if_pos hcall] at hset
  exact s.framesApart.not_backFrameHasWord hdepth hq hset

/-- A display with both frames, `FR_FRAME_0` and `FR_FRAME_1`, one behind the other. -/
def frFrames (frame : ℤ) (mem : ℤ → BitVec 8) : FrameBuffers where
  display := ⟨frame, frame + 800 * 600 * 4, 0, 32, 800, 600⟩
  hasDepth := .inr (.inr rfl)
  framesApart := VipFrameReader.framesApart_of_le (by simp [VipFrameReader.frameBytes])
  mem := mem

/-- The whole back frame can be painted. -/
example (frame : ℤ) (mem : ℤ → BitVec 8) (m : Surroundings) (color : BitVec 32) :
    ToBackFrame (frFrames frame mem) (.draw m (.paintBlock 0 0 800 600 color)) :=
  toBackFrame_of_subset_box rfl (fun _ => by decide)
    (footprint_block (by decide) (by decide) color).subset

/-- An image of one black pixel. -/
def blackPixel : GimpImage := ⟨1, 1, 3, fun _ => 0⟩

/-- Memory that is black. -/
def blackSurroundings : Surroundings :=
  ⟨fun _ => 0, fun _ => 0, ⟨fun _ _ => ⟨0, 0, 0⟩, fun _ _ => 0⟩⟩

/-- A black pixel on a white display. -/
theorem image_in_displayed_frame :
    ¬ ∀ (s : FrameBuffers) (es : List FrameEvent),
      Machine.Along FrameBuffers.step Contained s es := by
  intro h
  have hcolor (width : ℕ) :
      realColor (loadGimpBmp blackPixel blackSurroundings.malloc).data (0 * width + 0) = 0 := by
    rw [Nat.zero_mul]
    exact @realColor_loadGimpBmp blackPixel rfl (by decide) (by decide) _ 0 (by decide)
  have hpixel : ((0, 0), 0) ∈ (DrawingCall.imageFromGimp blackPixel 0 0 white24).pixels
      blackSurroundings (frFrames 0 fun _ => 0xff).display := by
    refine mem_imagePixels.mpr ⟨0, by decide, 0, by decide, ?_, ?_⟩
    · exact (hcolor _).trans_ne (by decide)
    · rw [hcolor]
      rfl
  have hrun := h (frFrames 0 fun _ => 0xff)
    [.draw blackSurroundings (.imageFromGimp blackPixel 0 0 white24)]
  exact not_contained_image rfl rfl hpixel ⟨by decide, by decide⟩ hrun.1

end DigitalModulation
