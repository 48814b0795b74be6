import DigitalModulation.Graphics.Blit

/-!
# What is drawn and what is shown

The drawing functions and those of `vip_fr.c` work on the bytes of two frames. What they are for are
two pictures, one that is shown and one that is drawn.

* `FrameCall`, `FrameBuffers.call`: the functions, with `DRAW_EraseScreen` and
  `VIPFR_ReserveBackground`, which fill and copy a frame;
* `Pictures`, `Pictures.step`: the two pictures, and what a function does to them;
* `FrameBuffers.Shows`: the frames hold the pictures, and the rest of memory is as it was;
* `Shows.step`, `frames_show_pictures`: one call, and every run.
-/

namespace DigitalModulation

/-! ### The functions of `vip_fr.c` -/

/-- The size that `memset` and `memcpy` are given. `VIPFR_Init` sets `bytes_per_pixel` to 4. -/
def VipFrameReader.nSize (p : VipFrameReader) : ℕ :=
  (BitVec.ofInt 32 (p.width * p.height * 4)).toNat

/-- `DRAW_EraseScreen`. -/
def drawEraseScreen (p : VipFrameReader) (color : BitVec 32) : List Store :=
  storeBytes p.getDrawFrame (List.replicate p.nSize (color.setWidth 8))

/-- `VIPFR_ReserveBackground`. -/
def vipfrReserveBackground (p : VipFrameReader) (mem : ℤ → BitVec 8) : List Store :=
  let memcpy (des src : ℤ) := storeBytes des ((List.range p.nSize).map fun i : ℕ => mem (src + i))
  if p.displayFrame = 0 then memcpy p.frame1Base p.frame0Base
  else memcpy p.frame0Base p.frame1Base

/-- A call of a function that changes a frame or swaps the two. -/
inductive FrameCall
  | event (e : FrameEvent)
  | eraseScreen (color : BitVec 32)
  | reserveBackground

def FrameBuffers.call (s : FrameBuffers) : FrameCall → FrameBuffers
  | .event e => s.step e
  | .eraseScreen color => { s with mem := Canvas.paint s.mem (drawEraseScreen s.display color) }
  | .reserveBackground =>
    { s with mem := Canvas.paint s.mem (vipfrReserveBackground s.display s.mem) }

/-- A drawing call is carried out and sets pixels of the display only. -/
def FrameCall.Fits (p : VipFrameReader) : FrameCall → Prop
  | .event (.draw m call) => call.Defined p ∧ footprint (call.pixels m p) ⊆ p.box.area
  | _ => True

/-! ### Two pictures -/

/-- The picture that is shown and the one that is drawn. -/
structure Pictures where
  shown : ℤ × ℤ → BitVec 32
  drawn : ℤ × ℤ → BitVec 32

/-- What a call does to the pictures of a display. Images are drawn on the one that is shown; the
screen is erased to a colour of which all four bytes are the lowest one of the argument. -/
def Pictures.step (p : VipFrameReader) (t : Pictures) : FrameCall → Pictures
  | .event .activeDrawFrame => ⟨t.drawn, t.shown⟩
  | .event (.draw m call) =>
    if call.isImage then { t with shown := Canvas.paint t.shown (call.pixels m p) }
    else { t with drawn := Canvas.paint t.drawn (call.pixels m p) }
  | .eraseScreen color =>
    let byte := color.setWidth 8
    { t with drawn := fun _ => byte ++ (byte ++ (byte ++ byte)) }
  | .reserveBackground => { t with drawn := t.shown }

/-- The pictures that the two frames hold. A swap would show the one that is drawn. -/
def FrameBuffers.pictures (s : FrameBuffers) : Pictures where
  shown := s.display.frameWord s.mem
  drawn := s.display.activeDrawFrame.frameWord s.mem

/-- The frames of a display hold the pictures, and outside of them memory is as it was. -/
structure FrameBuffers.Shows (p : VipFrameReader) (mem : ℤ → BitVec 8) (s : FrameBuffers)
    (t : Pictures) : Prop where
  display : s.display = { p with displayFrame := s.display.displayFrame }
  displayFrame : s.display.displayFrame = 0 ∨ s.display.displayFrame = 1
  shown : Set.EqOn s.pictures.shown t.shown p.box.area
  drawn : Set.EqOn s.pictures.drawn t.drawn p.box.area
  outside : ∀ addr, addr ∉ p.frame p.frame0Base → addr ∉ p.frame p.frame1Base →
    s.mem addr = mem addr

/-! ### Frames and their words -/

/-- Bytes that are stored from an address on are there. -/
theorem paint_storeBytes (mem : ℤ → BitVec 8) (addr : ℤ) {bytes : List (BitVec 8)} {i : ℕ}
    (hi : i < bytes.length) : Canvas.paint mem (storeBytes addr bytes) (addr + i) = bytes[i] := by
  have hlast : Canvas.lastWrite (storeBytes addr bytes) (addr + i) = some bytes[i] := by
    refine Canvas.lastWrite_eq_some (List.mem_mapIdx.mpr ⟨i, hi, rfl⟩) fun w hw heq => ?_
    obtain ⟨j, hj, rfl⟩ := List.mem_mapIdx.mp hw
    obtain rfl : j = i := by
      dsimp only at heq
      omega
    rfl
  rw [Canvas.paint_apply, hlast]
  rfl

namespace VipFrameReader

variable {p : VipFrameReader}

theorem activeDrawFrame_displayFrame (h : p.displayFrame = 0 ∨ p.displayFrame = 1) :
    p.activeDrawFrame.displayFrame = 0 ∨ p.activeDrawFrame.displayFrame = 1 := by
  unfold activeDrawFrame
  rcases h with h | h
  · exact .inr (by simp [h])
  · exact .inl (by simp [h])

/-- A swap shows the frame that was drawn. -/
theorem displayedFrame_activeDrawFrame (h : p.displayFrame = 0 ∨ p.displayFrame = 1) :
    p.activeDrawFrame.displayedFrame = p.getDrawFrame := by
  unfold activeDrawFrame displayedFrame getDrawFrame
  rcases h with h | h <;> simp [h]

/-- Two swaps show the same frame again. -/
theorem activeDrawFrame_twice (h : p.displayFrame = 0 ∨ p.displayFrame = 1) :
    p.activeDrawFrame.activeDrawFrame = p := by
  have hframe : p.activeDrawFrame.activeDrawFrame.displayFrame = p.displayFrame := by
    unfold activeDrawFrame
    rcases h with h | h <;> simp [h]
  calc p.activeDrawFrame.activeDrawFrame
      = { p with displayFrame := p.activeDrawFrame.activeDrawFrame.displayFrame } := rfl
    _ = p := by rw [hframe]

/-- The bytes of a pixel of the display, counted from the first one of the frame. -/
theorem byte_of_mem_box (hdepth : p.colorDepth = 32) {q : ℤ × ℤ} (hq : q ∈ p.box.area) {i : ℤ}
    (hi : 0 ≤ i ∧ i < 4) : 0 ≤ 4 * p.pixelIndex q + i ∧ 4 * p.pixelIndex q + i < p.frameBytes := by
  have hpixel := hasPixel_of_mem_box hq
  simp only [frameBytes, hdepth]
  unfold HasPixel at hpixel
  omega

theorem storeWord_mem_frame (hdepth : p.colorDepth = 32) {x : Pixel} (hx : x.1 ∈ p.box.area)
    (base : ℤ) {w : Store} (hw : w ∈ storeWord base p.width x) : w.1 ∈ p.frame base := by
  obtain ⟨i, hi, rfl⟩ := List.mem_mapIdx.mp hw
  have hbyte := byte_of_mem_box hdepth hx (i := i) ⟨by omega, by exact_mod_cast hi⟩
  unfold pixelIndex at hbyte
  rw [mem_frame]
  dsimp only
  omega

/-- Frames with the same bytes show the same words, also those of two memories. -/
theorem frameWord_eq (hdepth : p.colorDepth = 32) {mem mem' : ℤ → BitVec 8} {f : BitVec 8}
    (h : ∀ k, 0 ≤ k ∧ k < p.frameBytes →
      mem' ({ p with displayFrame := f }.displayedFrame + k) = mem (p.displayedFrame + k))
    {q : ℤ × ℤ} (hq : q ∈ p.box.area) :
    { p with displayFrame := f }.frameWord mem' q = p.frameWord mem q := by
  have hbyte {i : ℤ} (hi : 0 ≤ i ∧ i < 4) := h _ (byte_of_mem_box hdepth hq hi)
  have hfirst := hbyte (i := 0) (by decide)
  simp only [← Int.add_assoc, Int.add_zero] at hbyte hfirst
  have hindex : { p with displayFrame := f }.pixelIndex q = p.pixelIndex q := rfl
  unfold frameWord
  simp only [hindex, hfirst, hbyte (i := 1) (by decide), hbyte (i := 2) (by decide),
    hbyte (i := 3) (by decide)]

/-- Stores outside a frame do not show in it. -/
theorem frameWord_paint_of_disjoint (hdepth : p.colorDepth = 32) {A : Set ℤ}
    (hA : Disjoint A (p.frame p.displayedFrame)) {ws : List Store} (hws : ∀ w ∈ ws, w.1 ∈ A)
    (mem : ℤ → BitVec 8) {q : ℤ × ℤ} (hq : q ∈ p.box.area) :
    p.frameWord (Canvas.paint mem ws) q = p.frameWord mem q := by
  refine frameWord_eq (f := p.displayFrame) hdepth (fun k hk => ?_) hq
  refine Canvas.paint_of_forall_ne fun w hw heq => hA.notMem_of_mem_left (hws w hw) ?_
  have hk' : p.displayedFrame + k ∈ p.frame p.displayedFrame := ⟨by omega, by omega⟩
  exact heq ▸ hk'

/-- A word shows in its place and nowhere else. -/
theorem frameWord_storeWord {x : Pixel} (hx : x.1 ∈ p.box.area) {q : ℤ × ℤ} (hq : q ∈ p.box.area)
    (mem : ℤ → BitVec 8) :
    p.frameWord (Canvas.paint mem (storeWord p.displayedFrame p.width x)) q =
      if x.1 = q then x.2 else p.frameWord mem q := by
  have hread := Canvas.Layout.read_write (L := p.wordLayout)
    (w := (p.pixelIndex x.1, wordBytes x.2)) rfl mem (p.pixelIndex q)
  rw [storeWord_eq_write]
  split_ifs with heq
  · rw [if_pos (congrArg p.pixelIndex heq)] at hread
    exact frameWord_of_read hread
  · rw [if_neg fun hindex => heq (pixelIndex_inj hx.1 hq.1 hindex)] at hread
    exact frameWord_congr hread

/-- **What pixels do to the picture of a frame.** -/
theorem frameWord_paint {ps : List Pixel} (hps : footprint ps ⊆ p.box.area) {q : ℤ × ℤ}
    (hq : q ∈ p.box.area) (mem : ℤ → BitVec 8) :
    p.frameWord (Canvas.paint mem (ps.flatMap (storeWord p.displayedFrame p.width))) q =
      Canvas.paint (p.frameWord mem) ps q :=
  Canvas.view_paint_flatMap
    (fun mem x hx => frameWord_storeWord (hps ⟨x, hx, rfl⟩) hq mem) mem

/-- With 32 bits a pixel, drawing stores words in the frame that a swap shows. -/
theorem vidSetPixel_eq_storeWord (hdepth : p.colorDepth = 32)
    (hframe : p.displayFrame = 0 ∨ p.displayFrame = 1) (x : Pixel) :
    vidSetPixel p x = storeWord p.activeDrawFrame.displayedFrame p.width x := by
  have haddr : x.1.2 * (p.width * 4) + x.1.1 * 4 = 4 * (x.1.2 * p.width + x.1.1) := by ring
  rw [displayedFrame_activeDrawFrame hframe, storeWord, ← haddr]
  simp [vidSetPixel, colorBytes, hdepth]

theorem nSize_eq (hdepth : p.colorDepth = 32) (hsize : 0 ≤ p.frameBytes ∧ p.frameBytes < 2 ^ 31) :
    (p.nSize : ℤ) = p.frameBytes := by
  simp only [frameBytes, hdepth] at hsize ⊢
  rw [nSize, BitVec.toNat_ofInt]
  omega

/-- Bytes that fill the frame that is drawn. -/
theorem storeBytes_mem_frame (hdepth : p.colorDepth = 32)
    (hsize : 0 ≤ p.frameBytes ∧ p.frameBytes < 2 ^ 31) {bytes : List (BitVec 8)}
    (hlength : bytes.length = p.nSize) {base : ℤ} {w : Store} (hw : w ∈ storeBytes base bytes) :
    w.1 ∈ p.frame base := by
  have hbytes := nSize_eq hdepth hsize
  obtain ⟨i, hi, rfl⟩ := List.mem_mapIdx.mp hw
  rw [mem_frame]
  dsimp only
  omega

theorem vipfrReserveBackground_eq (mem : ℤ → BitVec 8) : vipfrReserveBackground p mem =
    storeBytes p.getDrawFrame
      ((List.range p.nSize).map fun i : ℕ => mem (p.displayedFrame + i)) := by
  unfold vipfrReserveBackground getDrawFrame displayedFrame
  split_ifs <;> rfl

end VipFrameReader

/-- Of the display only the depth matters for what is drawn. -/
theorem DrawingCall.pixels_congr {display display' : VipFrameReader}
    (h : display.colorDepth = display'.colorDepth) (m : Surroundings) (call : DrawingCall) :
    call.pixels m display = call.pixels m display' := by
  cases call with
  | printStringAlpha => exact vidPrintStringAlpha_congr _ _ h _ _ _ _ _
  | _ => rfl

theorem DrawingCall.defined_congr {display display' : VipFrameReader}
    (h : display.colorDepth = display'.colorDepth) (call : DrawingCall) :
    call.Defined display ↔ call.Defined display' := by
  cases call with
  | drawLine => simp only [Defined, h]
  | _ => rfl

/-! ### Calls -/

namespace FrameBuffers.Shows

variable {p : VipFrameReader} {mem : ℤ → BitVec 8} {s : FrameBuffers} {t : Pictures}

theorem colorDepth (h : s.Shows p mem t) : s.display.colorDepth = p.colorDepth := by
  rw [h.display]

theorem box (h : s.Shows p mem t) : s.display.box = p.box := by
  rw [h.display]
  rfl

/-- Stores in either frame leave the rest of memory as it was. -/
theorem outside_paint (h : s.Shows p mem t) {ws : List Store} {base : ℤ}
    (hbase : base = p.frame0Base ∨ base = p.frame1Base)
    (hws : ∀ w ∈ ws, w.1 ∈ s.display.frame base) {addr : ℤ} (h0 : addr ∉ p.frame p.frame0Base)
    (h1 : addr ∉ p.frame p.frame1Base) : Canvas.paint s.mem ws addr = mem addr := by
  rw [← h.outside addr h0 h1]
  refine Canvas.paint_of_forall_ne fun w hw heq => ?_
  have hframe : addr ∈ p.frame base := by
    have hmem := hws w hw
    rw [heq, h.display] at hmem
    exact hmem
  rcases hbase with rfl | rfl
  · exact h0 hframe
  · exact h1 hframe

/-- Stores in the frame that is drawn. -/
theorem draw (h : s.Shows p mem t) (hdepth : p.colorDepth = 32) {ws : List Store}
    (hws : ∀ w ∈ ws, w.1 ∈ s.display.frame s.display.getDrawFrame) {picture : ℤ × ℤ → BitVec 32}
    (hpicture : Set.EqOn (s.display.activeDrawFrame.frameWord (Canvas.paint s.mem ws)) picture
      p.box.area) :
    Shows p mem { s with mem := Canvas.paint s.mem ws } { t with drawn := picture } where
  display := h.display
  displayFrame := h.displayFrame
  shown q hq := by
    rw [← h.shown hq]
    exact VipFrameReader.frameWord_paint_of_disjoint (h.colorDepth.trans hdepth)
      s.framesApart.disjoint hws s.mem (h.box ▸ hq)
  drawn := hpicture
  outside addr h0 h1 := by
    refine h.outside_paint ?_ hws h0 h1
    rw [h.display]
    unfold VipFrameReader.getDrawFrame
    split_ifs
    · exact .inr rfl
    · exact .inl rfl

/-- Stores in the frame that is displayed. -/
theorem overdraw (h : s.Shows p mem t) (hdepth : p.colorDepth = 32) {ws : List Store}
    (hws : ∀ w ∈ ws, w.1 ∈ s.display.frame s.display.displayedFrame)
    {picture : ℤ × ℤ → BitVec 32}
    (hpicture : Set.EqOn (s.display.frameWord (Canvas.paint s.mem ws)) picture p.box.area) :
    Shows p mem { s with mem := Canvas.paint s.mem ws } { t with shown := picture } where
  display := h.display
  displayFrame := h.displayFrame
  shown := hpicture
  drawn q hq := by
    rw [← h.drawn hq]
    refine VipFrameReader.frameWord_paint_of_disjoint (p := s.display.activeDrawFrame)
      (h.colorDepth.trans hdepth) ?_ hws s.mem (h.box ▸ hq)
    rw [VipFrameReader.displayedFrame_activeDrawFrame h.displayFrame]
    exact s.framesApart.disjoint.symm
  outside addr h0 h1 := by
    refine h.outside_paint ?_ hws h0 h1
    rw [h.display]
    unfold VipFrameReader.displayedFrame
    split_ifs
    · exact .inl rfl
    · exact .inr rfl

/-- A swap exchanges the pictures. -/
theorem swap (h : s.Shows p mem t) :
    (s.step .activeDrawFrame).Shows p mem ⟨t.drawn, t.shown⟩ where
  display := by
    show s.display.activeDrawFrame = _
    rw [h.display]
    rfl
  displayFrame := VipFrameReader.activeDrawFrame_displayFrame h.displayFrame
  shown := h.drawn
  drawn q hq := by
    show s.display.activeDrawFrame.activeDrawFrame.frameWord s.mem q = t.shown q
    rw [VipFrameReader.activeDrawFrame_twice h.displayFrame]
    exact h.shown hq
  outside := h.outside

/-- A drawing call paints one of the pictures. -/
theorem drawingCall (h : s.Shows p mem t) (hdepth : p.colorDepth = 32) {m : Surroundings}
    {call : DrawingCall} (hc : FrameCall.Fits p (.event (.draw m call))) :
    (s.step (.draw m call)).Shows p mem (t.step p (.event (.draw m call))) := by
  have hdepth' := h.colorDepth.trans hdepth
  have hpixels := call.pixels_congr h.colorDepth m
  have hfits : footprint (call.pixels m p) ⊆ s.display.box.area := h.box ▸ hc.2
  have hstores := DrawingCall.stores_eq s.hasDepth m ((call.defined_congr h.colorDepth).mpr hc.1)
  have hstep {ws : List Store} (hws : (call.pixels m p).flatMap (call.storePixel s.display) = ws) :
      s.step (.draw m call) = { s with mem := Canvas.paint s.mem ws } := by
    rw [← hws, FrameBuffers.step, hstores, hpixels]
    rfl
  rw [Pictures.step]
  split_ifs with himage
  · -- Images are stored in the frame that is displayed.
    have hpixel : call.storePixel s.display = storeWord s.display.displayedFrame s.display.width :=
      if_pos himage
    rw [hstep (by rw [hpixel])]
    refine h.overdraw hdepth (fun w hw => ?_) fun q hq => ?_
    · obtain ⟨x, hx, hw⟩ := List.mem_flatMap.mp hw
      exact VipFrameReader.storeWord_mem_frame hdepth' (hfits ⟨x, hx, rfl⟩) _ hw
    · have hshown : s.display.frameWord s.mem q = t.shown q := h.shown hq
      rw [VipFrameReader.frameWord_paint hfits (h.box ▸ hq), Canvas.paint_apply,
        Canvas.paint_apply, hshown]
  · have hpixel : call.storePixel s.display =
        storeWord s.display.activeDrawFrame.displayedFrame s.display.activeDrawFrame.width :=
      (if_neg himage).trans
        (funext (VipFrameReader.vidSetPixel_eq_storeWord hdepth' h.displayFrame))
    rw [hstep (by rw [hpixel])]
    refine h.draw hdepth (fun w hw => ?_) fun q hq => ?_
    · obtain ⟨x, hx, hw⟩ := List.mem_flatMap.mp hw
      rw [← VipFrameReader.displayedFrame_activeDrawFrame h.displayFrame]
      exact VipFrameReader.storeWord_mem_frame hdepth' (hfits ⟨x, hx, rfl⟩) _ hw
    · have hdrawn : s.display.activeDrawFrame.frameWord s.mem q = t.drawn q := h.drawn hq
      rw [VipFrameReader.frameWord_paint (p := s.display.activeDrawFrame) hfits (h.box ▸ hq),
        Canvas.paint_apply, Canvas.paint_apply, hdrawn]

/-- A call that fills the frame that is drawn. -/
theorem fill (h : s.Shows p mem t) (hdepth : p.colorDepth = 32)
    (hsize : 0 ≤ p.frameBytes ∧ p.frameBytes < 2 ^ 31) {bytes : List (BitVec 8)}
    (hlength : bytes.length = s.display.nSize) {picture : ℤ × ℤ → BitVec 32} {f : BitVec 8}
    {m : ℤ → BitVec 8}
    (hbytes : ∀ i (hi : i < bytes.length),
      m ({ s.display with displayFrame := f }.displayedFrame + i) = bytes[i])
    (hpicture : Set.EqOn ({ s.display with displayFrame := f }.frameWord m) picture p.box.area) :
    Shows p mem { s with mem := Canvas.paint s.mem (storeBytes s.display.getDrawFrame bytes) }
      { t with drawn := picture } := by
  have hdepth' := h.colorDepth.trans hdepth
  have hsize' : 0 ≤ s.display.frameBytes ∧ s.display.frameBytes < 2 ^ 31 := by
    rw [h.display]
    exact hsize
  refine h.draw hdepth (fun w hw => ?_) fun q hq => ?_
  · exact VipFrameReader.storeBytes_mem_frame hdepth' hsize' hlength hw
  · rw [← hpicture hq]
    refine VipFrameReader.frameWord_eq (p := { s.display with displayFrame := f })
      (f := s.display.activeDrawFrame.displayFrame) hdepth' (fun k hk => ?_) (h.box ▸ hq)
    have hk' : k.toNat < bytes.length := by
      have hlt := hk.2
      have heq := VipFrameReader.nSize_eq hdepth' hsize'
      have hframe : { s.display with displayFrame := f }.frameBytes = s.display.frameBytes := rfl
      omega
    have hpaint := paint_storeBytes s.mem s.display.getDrawFrame hk'
    rw [← hbytes k.toNat hk', Int.toNat_of_nonneg hk.1] at hpaint
    rw [← hpaint, ← VipFrameReader.displayedFrame_activeDrawFrame h.displayFrame]
    rfl

/-- **What one call does to the pictures.** -/
theorem call (h : s.Shows p mem t) (hdepth : p.colorDepth = 32)
    (hsize : 0 ≤ p.frameBytes ∧ p.frameBytes < 2 ^ 31) {c : FrameCall} (hc : c.Fits p) :
    (s.call c).Shows p mem (t.step p c) := by
  cases c with
  | event e =>
    cases e with
    | activeDrawFrame => exact h.swap
    | draw m call => exact h.drawingCall hdepth hc
  | eraseScreen color =>
    refine h.fill hdepth hsize (f := 0) (m := fun _ => color.setWidth 8) (by simp)
      (fun i hi => by simp) fun q _ => rfl
  | reserveBackground =>
    rw [FrameBuffers.call, VipFrameReader.vipfrReserveBackground_eq]
    exact h.fill hdepth hsize (f := s.display.displayFrame) (by simp) (fun i hi => by simp)
      h.shown

end FrameBuffers.Shows

/-- **What is drawn and what is shown.** On a display with 32 bits a pixel, in every run of drawing
calls on the display, of `DRAW_EraseScreen`, `VIPFR_ReserveBackground` and `VIPFR_ActiveDrawFrame`,
the two frames hold the pictures that these functions make of those that the frames held at first,
and no byte outside the frames changes. -/
theorem frames_show_pictures {s : FrameBuffers} (hdepth : s.display.colorDepth = 32)
    (hframe : s.display.displayFrame = 0 ∨ s.display.displayFrame = 1)
    (hsize : 0 ≤ s.display.frameBytes ∧ s.display.frameBytes < 2 ^ 31) {calls : List FrameCall}
    (hfits : ∀ c ∈ calls, c.Fits s.display) :
    (calls.foldl FrameBuffers.call s).Shows s.display s.mem
      (calls.foldl (Pictures.step s.display) s.pictures) := by
  induction calls using List.reverseRecOn with
  | nil => exact ⟨rfl, hframe, fun _ _ => rfl, fun _ _ => rfl, fun _ _ _ => rfl⟩
  | append_singleton calls c ih =>
    rw [List.forall_mem_append, List.forall_mem_singleton] at hfits
    rw [List.foldl_append, List.foldl_append]
    exact (ih hfits.1).call hdepth hsize hfits.2

/-- A copy of the frame that is displayed gets a black pixel and is shown. -/
def blackDot : List FrameCall :=
  [.reserveBackground, .event (.draw blackSurroundings (.setPixel 3 2 0)), .event .activeDrawFrame]

theorem frames_show_pictures_dot :
    (blackDot.foldl FrameBuffers.call (frFrames 0 fun _ => 0xff)).Shows
      (frFrames 0 fun _ => 0xff).display (frFrames 0 fun _ => 0xff).mem
      (blackDot.foldl (Pictures.step (frFrames 0 fun _ => 0xff).display)
        (frFrames 0 fun _ => 0xff).pictures) := by
  refine frames_show_pictures rfl (.inl rfl) (by decide) fun c hc => ?_
  simp only [blackDot, List.mem_cons, List.not_mem_nil, or_false] at hc
  rcases hc with rfl | rfl | rfl
  · trivial
  · refine ⟨trivial, ?_⟩
    rintro q ⟨x, hx, rfl⟩
    rw [List.mem_singleton.mp hx]
    decide
  · trivial

end DigitalModulation
