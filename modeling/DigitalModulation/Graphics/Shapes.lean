import DigitalModulation.Graphics.PixelBytes
import DigitalModulation.Graphics.SlopedLine

/-!
# Shapes

The functions that draw shapes call those that draw lines, blocks and pixels.

* `storesOf`: what some calls store, one after another;
* `Plain`, `plainPixels`: calls of one colour that draw lines, blocks and single pixels;
* `Paints`: carried out on any memory, the calls give a colour to some pixels and change no others;
* `paints_footprint`: so it is for every list of such calls.
-/

namespace DigitalModulation

/-- What some calls store, one after another; each of them finds its own surroundings. -/
def storesOf (display : VipFrameReader) (m : ℕ → Surroundings) :
    List DrawingCall → Option (List Store)
  | [] => some []
  | call :: calls =>
    (call.stores (m 0) display).bind fun ws =>
      (storesOf display (fun i => m (i + 1)) calls).map fun ws' => ws ++ ws'

namespace DrawingCall

/-- The calls of which shapes of one colour are made. -/
def Plain (color : BitVec 32) : DrawingCall → Prop
  | drawLine _ _ _ _ _ c | paintBlock _ _ _ _ c | setPixel _ _ c => c = color
  | _ => False

/-- The pixels that such a call sets. -/
def plainPixels : DrawingCall → List Pixel
  | drawLine horizStart vertStart horizEnd vertEnd width color =>
    (vidDrawLine horizStart vertStart horizEnd vertEnd width color).pixels
  | paintBlock hStart vStart hEnd vEnd color => block hStart vStart hEnd vEnd color
  | setPixel horiz vert color => [((horiz, vert), color)]
  | _ => []

theorem Plain.stores_eq {display : VipFrameReader} (h : display.HasDepth) (m : Surroundings)
    {color : BitVec 32} {call : DrawingCall} (hplain : call.Plain color)
    (hdef : call.Defined display) :
    call.stores m display = some (call.plainPixels.flatMap (vidSetPixel display)) := by
  rw [DrawingCall.stores_eq h m hdef]
  cases call with
  | drawLine => rfl
  | paintBlock => rfl
  | setPixel => rfl
  | printStringAlpha => exact hplain.elim
  | image => exact hplain.elim
  | imageFromGimp => exact hplain.elim

/-- Every pixel of a line has its colour. -/
theorem color_of_mem_vidDrawLine {horizStart vertStart horizEnd vertEnd width : ℤ}
    {color : BitVec 32} {p : Pixel}
    (hp : p ∈ (vidDrawLine horizStart vertStart horizEnd vertEnd width color).pixels) :
    p.2 = color := by
  unfold vidDrawLine at hp
  split_ifs at hp
  · simp only [LineCall.pixels, horizLine] at hp
    split_ifs at hp
    · exact (mem_block.mp hp).2.2.2.2
    · exact (mem_block.mp hp).2.2.2.2
  · rw [LineCall.pixels, vidDrawSlopedLine_eq, List.mem_map] at hp
    obtain ⟨k, -, rfl⟩ := hp
    rfl

theorem Plain.color_eq {color : BitVec 32} {call : DrawingCall} (hplain : call.Plain color)
    {p : Pixel} (hp : p ∈ call.plainPixels) : p.2 = color := by
  cases call with
  | drawLine => exact (color_of_mem_vidDrawLine hp).trans hplain
  | paintBlock => exact (mem_block.mp hp).2.2.2.2.trans hplain
  | setPixel => exact List.mem_singleton.mp hp ▸ hplain
  | printStringAlpha => exact hplain.elim
  | image => exact hplain.elim
  | imageFromGimp => exact hplain.elim

/-- A line to the right that is not too long for the scratch buffer. -/
theorem defined_drawLine {display : VipFrameReader} (h : display.HasDepth) {hStart hEnd v : ℤ}
    (h0 : 0 ≤ hStart) (hle : hStart ≤ hEnd) (hlt : hEnd < 2 ^ 15) {n : ℤ} (hn : hEnd - hStart ≤ n)
    (hbuffer : display.colorDepth / 8 * n ≤ 1024 * 3) (v' width : ℤ) (color : BitVec 32) :
    (drawLine hStart v hEnd v' width color).Defined display := by
  intro _
  rw [toInt_ushort h0 (by omega), toInt_ushort (h0.trans hle) hlt, abs_of_nonneg (by omega)]
  have hdepth : 0 ≤ display.colorDepth / 8 := by
    rcases h with h | h | h <;> rw [h] <;> decide
  exact (Int.mul_le_mul_of_nonneg_left hn hdepth).trans hbuffer

end DrawingCall

section Stores

variable {display : VipFrameReader} {calls : List DrawingCall} {color : BitVec 32}

/-- **Calls are carried out pixel by pixel.** -/
theorem storesOf_eq (h : display.HasDepth) (hplain : ∀ call ∈ calls, call.Plain color)
    (hdef : ∀ call ∈ calls, call.Defined display) (m : ℕ → Surroundings) :
    storesOf display m calls =
      some ((calls.flatMap DrawingCall.plainPixels).flatMap (vidSetPixel display)) := by
  induction calls generalizing m with
  | nil => rfl
  | cons call calls ih =>
    rw [List.forall_mem_cons] at hplain hdef
    rw [storesOf, hplain.1.stores_eq h (m 0) hdef.1, Option.bind_some, ih hplain.2 hdef.2,
      Option.map_some, List.flatMap_cons, List.flatMap_append]

end Stores

/-- Whatever memory holds, the calls can be carried out, give the colour to the pixels of a set and
keep every byte that is not of such a pixel. -/
def Paints (display : VipFrameReader) (calls : List DrawingCall) (color : BitVec 32)
    (S : Set (ℤ × ℤ)) : Prop :=
  ∀ m : ℕ → Surroundings, ∃ ws, storesOf display m calls = some ws ∧ ∀ mem : ℤ → BitVec 8,
    (∀ q ∈ S, display.pixelBytes (Canvas.paint mem ws) q = colorBytes display color) ∧
    ∀ addr, (∀ q ∈ S, ¬ display.ByteOf addr q) → Canvas.paint mem ws addr = mem addr

/-- Calls of one colour paint the pixels that they set. -/
theorem paints_footprint {display : VipFrameReader} (h : display.HasDepth)
    {calls : List DrawingCall} {color : BitVec 32} (hplain : ∀ call ∈ calls, call.Plain color)
    (hdef : ∀ call ∈ calls, call.Defined display) :
    Paints display calls color (footprint (calls.flatMap DrawingCall.plainPixels)) := by
  intro m
  refine ⟨_, storesOf_eq h hplain hdef m, fun mem => ⟨?_, fun addr haddr => ?_⟩⟩
  · rintro q ⟨p, hp, rfl⟩
    have hcolor : ∀ p ∈ calls.flatMap DrawingCall.plainPixels, p.2 = color := fun p hp => by
      obtain ⟨call, hcall, hp⟩ := List.mem_flatMap.mp hp
      exact (hplain call hcall).color_eq hp
    rw [pixelBytes_of_mem h hp (fun p' hp' _ => (hcolor p' hp').trans (hcolor p hp).symm),
      hcolor p hp]
  · exact paint_outside_pixels h haddr mem

end DigitalModulation
