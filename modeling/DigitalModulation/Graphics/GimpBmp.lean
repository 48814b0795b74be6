import DigitalModulation.Graphics.Images
import DigitalModulation.Graphics.Text
import Mathlib.Tactic.IntervalCases

/-!
# `gimp_bmp.c`: the six copy loops

`load_gimp_bmp` makes a bitmap of 16, 24 or 32 bits a pixel of an image with three or four bytes a
pixel. Each of the six combinations has a loop of its own.

* `copyPixMap32To24`, `copyPixMap32To16`, `copyPixMap24To24`, `copyPixMap24To16`: those that do not
  make 32 bits a pixel;
* `loadGimpBmpBits`: the function, with its return code;
* `Picture`, `LoadAlike`: the two encodings of a picture, and that their bitmaps show the same;
* `load_alike_iff`: they do unless the bitmap has 32 bits a pixel.
-/

namespace DigitalModulation

/-! ### The loops -/

/-- The bytes of an `unsigned short`. -/
def shortBytes (pixel : BitVec 16) : List (ℕ × BitVec 8) :=
  [(0, pixel.setWidth 8), (1, (pixel >>> 8).setWidth 8)]

/-- Three bytes, of pixels of three or of four. -/
def copyTo24 : PixelCopy := fun p => [(0, p 0), (1, p 1), (2, p 2)]

/-- `next_short_pixel` of `copy_pix_map_32_to_16`. -/
def shortPixel32 (nextLongPixel : BitVec 32) : BitVec 16 :=
  ((((nextLongPixel >>> 3) &&& 0x1f) <<< 11) ||| (((nextLongPixel >>> 10) &&& 0x3f) <<< 5) |||
    (((nextLongPixel >>> 19) &&& 0x1f) <<< 0)).setWidth 16

/-- `next_short_pixel` of `copy_pix_map_24_to_16`. -/
def shortPixel24 (p₀ p₁ p₂ : BitVec 8) : BitVec 16 :=
  ((p₀ &&& 0xf8).setWidth 32 <<< 8).setWidth 16 |||
    ((p₁ &&& 0xfc).setWidth 32 <<< 3).setWidth 16 |||
    ((p₂ &&& 0xf8).setWidth 32 >>> 3).setWidth 16

def copy32To16 : PixelCopy := fun p => shortBytes (shortPixel32 (p 3 ++ (p 2 ++ (p 1 ++ p 0))))

def copy24To16 : PixelCopy := fun p => shortBytes (shortPixel24 (p 0) (p 1) (p 2))

def copyPixMap32To24 := copyPixMap 4 3 copyTo24

def copyPixMap32To16 := copyPixMap 4 2 copy32To16

def copyPixMap24To24 := copyPixMap 3 3 copyTo24

def copyPixMap24To16 := copyPixMap 3 2 copy24To16

/-! ### `load_gimp_bmp` -/

/-- `bitmap_struct`, with `none` for a null pointer. -/
structure BitmapStruct where
  biWidth : BitVec 16
  biHeight : BitVec 16
  biBitCount : BitVec 16
  data : Option (ℕ → BitVec 8)

/-- The number of pixels of a bitmap; none if a side is negative. -/
def BitmapStruct.pixels (bmp : BitmapStruct) : ℕ :=
  bmp.biHeight.toInt.toNat * bmp.biWidth.toInt.toNat

/-- What `load_gimp_bmp` writes to the data of the bitmap, of an active width and height. -/
def bitmapWrites (image : GimpImage) (outputBitsPerPixel width height : ℕ) : List (ℕ × BitVec 8) :=
  (if outputBitsPerPixel = 16 then
    (if image.bytesPerPixel = 4 then
      copyPixMap32To16 image.pixelData width height width width else []) ++
    (if image.bytesPerPixel = 3 then
      copyPixMap24To16 image.pixelData width height width width else []) else []) ++
  (if outputBitsPerPixel = 24 then
    (if image.bytesPerPixel = 4 then
      copyPixMap32To24 image.pixelData width height width width else []) ++
    (if image.bytesPerPixel = 3 then
      copyPixMap24To24 image.pixelData width height width width else []) else []) ++
  if outputBitsPerPixel = 32 then
    (if image.bytesPerPixel = 4 then
      copyPixMap32To32 image.pixelData width height width width else []) ++
    (if image.bytesPerPixel = 3 then
      copyPixMap24To32 image.pixelData width height width width else []) else []

/-- `load_gimp_bmp`: the return code, and the bitmap. What `malloc` returns is given, with what the
memory holds. -/
def loadGimpBmpBits (image : GimpImage) (malloc : Option (ℕ → BitVec 8))
    (outputBitsPerPixel : ℕ) : ℤ × BitmapStruct :=
  let biWidth := BitVec.ofNat 16 image.width
  let biHeight := BitVec.ofNat 16 image.height
  let biBitCount := BitVec.ofNat 16 outputBitsPerPixel
  match malloc with
  | none => (-1, ⟨biWidth, biHeight, biBitCount, none⟩)
  | some block => (0, ⟨biWidth, biHeight, biBitCount, some (Canvas.paint block
      (bitmapWrites image outputBitsPerPixel biWidth.toInt.toNat biHeight.toInt.toNat))⟩)

-- With 32 bits a pixel and memory to spare this is the bitmap of the drawing functions.
example (image : GimpImage) (block : ℕ → BitVec 8) :
    loadGimpBmpBits image (some block) 32 =
      (0, ⟨(loadGimpBmp image block).biWidth, (loadGimpBmp image block).biHeight, 32,
        some (loadGimpBmp image block).data⟩) :=
  rfl

/-! ### Pictures -/

/-- The three channels as they follow one another in an image. -/
def Channels.byte (c : Channels) : ℕ → BitVec 8
  | 0 => c.red
  | 1 => c.green
  | _ => c.blue

structure Picture where
  width : ℕ
  height : ℕ
  colors : ℕ → Channels

namespace Picture

variable (pic : Picture)

/-- The encoding with three bytes a pixel. -/
def rgb : GimpImage :=
  ⟨pic.width, pic.height, 3, fun i => (pic.colors (i / 3)).byte (i % 3)⟩

/-- The encoding with four bytes a pixel, the last one being `alpha`. -/
def rgba (alpha : ℕ → BitVec 8) : GimpImage :=
  ⟨pic.width, pic.height, 4, fun i =>
    if i % 4 = 3 then alpha (i / 4) else (pic.colors (i / 4)).byte (i % 4)⟩

theorem rgb_pixelData {i : ℕ} (hi : i < 3) (k : ℕ) :
    pic.rgb.pixelData (3 * k + i) = (pic.colors k).byte i := by
  have hdiv : (3 * k + i) / 3 = k := by omega
  have hmod : (3 * k + i) % 3 = i := by omega
  simp only [rgb, hdiv, hmod]

theorem rgba_pixelData (alpha : ℕ → BitVec 8) {i : ℕ} (hi : i < 3) (k : ℕ) :
    (pic.rgba alpha).pixelData (4 * k + i) = (pic.colors k).byte i := by
  have hdiv : (4 * k + i) / 4 = k := by omega
  have hmod : (4 * k + i) % 4 = i := by omega
  simp only [rgba, hdiv, hmod, if_neg (show ¬ i = 3 by omega)]

end Picture

/-- What a bitmap shows at pixel `k`: its 16-bit word, its three bytes, or the low 24 bits of its
32-bit word. -/
def shownColor (outputBitsPerPixel : ℕ) (data : ℕ → BitVec 8) (k : ℕ) : BitVec 24 :=
  if outputBitsPerPixel = 16 then (data (2 * k + 1) ++ data (2 * k)).setWidth 24
  else if outputBitsPerPixel = 24 then data (3 * k + 2) ++ (data (3 * k + 1) ++ data (3 * k))
  else data (4 * k + 2) ++ (data (4 * k + 1) ++ data (4 * k))

/-- The bitmaps of the two encodings are of one size and show the same at every pixel. -/
def LoadAlike (pic : Picture) (alpha : ℕ → BitVec 8) (outputBitsPerPixel : ℕ)
    (malloc malloc' : ℕ → BitVec 8) : Prop :=
  let bmp := (loadGimpBmpBits pic.rgb (some malloc) outputBitsPerPixel).2
  let bmp' := (loadGimpBmpBits (pic.rgba alpha) (some malloc') outputBitsPerPixel).2
  bmp.biWidth = bmp'.biWidth ∧ bmp.biHeight = bmp'.biHeight ∧
    ∀ k < bmp.pixels, bmp.data.map (shownColor outputBitsPerPixel · k) =
      bmp'.data.map (shownColor outputBitsPerPixel · k)

/-- The pixels of the bitmap of a picture. -/
def Picture.loadedPixels (pic : Picture) : ℕ :=
  (BitVec.ofNat 16 pic.height).toInt.toNat * (BitVec.ofNat 16 pic.width).toInt.toNat

/-- The two formulas for 16 bits agree. -/
theorem shortPixel32_eq (nextLongPixel : BitVec 32) :
    shortPixel32 nextLongPixel = shortPixel24 (nextLongPixel.setWidth 8)
      ((nextLongPixel >>> 8).setWidth 8) ((nextLongPixel >>> 16).setWidth 8) := by
  unfold shortPixel32 shortPixel24
  ext i hi
  interval_cases i <;> simp

theorem shortBytes_fits (pixel : (ℕ → BitVec 8) → BitVec 16) :
    PixelCopy.Fits (fun p => shortBytes (pixel p)) 2 := fun _ => by
  change [0, 1].Nodup ∧ ∀ i ∈ [0, 1], i < 2
  decide

theorem copyTo24_fits : PixelCopy.Fits copyTo24 3 := fun _ => by
  change [0, 1, 2].Nodup ∧ ∀ i ∈ [0, 1, 2], i < 3
  decide

section Load

variable (image : GimpImage) (outputBitsPerPixel : ℕ) {destBytes : ℕ} {copy : PixelCopy}

/-- Where `load_gimp_bmp` chooses one of the loops, the bitmap holds what the loop writes. -/
theorem exists_data (hfits : copy.Fits destBytes)
    (hwrites : ∀ width height, bitmapWrites image outputBitsPerPixel width height =
      copyPixMap image.bytesPerPixel destBytes copy image.pixelData width height width width)
    (malloc : ℕ → BitVec 8) :
    let bmp := (loadGimpBmpBits image (some malloc) outputBitsPerPixel).2
    ∃ data, bmp.data = some data ∧ ∀ k < bmp.pixels,
      ∀ w ∈ copy fun i => image.pixelData (image.bytesPerPixel * k + i),
        data (destBytes * k + w.1) = w.2 := by
  intro bmp
  refine ⟨_, rfl, fun k hk w hw => ?_⟩
  rw [hwrites]
  exact data_copyPixMap hfits image.pixelData malloc hk hw

end Load

/-! ### What the bitmaps show -/

/-- What a bitmap shows of a colour with three bytes. -/
def rgbShown (outputBitsPerPixel : ℕ) (c : Channels) : BitVec 24 :=
  if outputBitsPerPixel = 16 then (shortPixel24 c.red c.green c.blue).setWidth 24
  else if outputBitsPerPixel = 24 then c.blue ++ (c.green ++ c.red)
  else c.red ++ (c.green ++ c.blue)

/-- What a bitmap shows of a colour with four bytes: with 32 bits a pixel, red and blue stay where
they were. -/
def rgbaShown (outputBitsPerPixel : ℕ) (c : Channels) : BitVec 24 :=
  if outputBitsPerPixel = 16 then (shortPixel24 c.red c.green c.blue).setWidth 24
  else c.blue ++ (c.green ++ c.red)

/-- Only with 32 bits a pixel the colours differ, in red and blue. -/
theorem rgbShown_eq_rgbaShown_iff {outputBitsPerPixel : ℕ}
    (h : outputBitsPerPixel = 16 ∨ outputBitsPerPixel = 24 ∨ outputBitsPerPixel = 32)
    (c : Channels) :
    rgbShown outputBitsPerPixel c = rgbaShown outputBitsPerPixel c ↔
      outputBitsPerPixel ≠ 32 ∨ c.red = c.blue := by
  rcases h with rfl | rfl | rfl
  · simp [rgbShown, rgbaShown]
  · simp [rgbShown, rgbaShown]
  · simp only [rgbShown, rgbaShown, Nat.reduceEqDiff, if_false, ne_eq, not_true, false_or]
    constructor
    · intro heq
      ext i hi
      have hbit := congrArg (fun x : BitVec 24 => x.getLsbD (16 + i)) heq
      grind
    · rintro heq
      rw [heq]

section ColorAt

variable {data p : ℕ → BitVec 8} {k : ℕ}

theorem shownColor_short {pixel : BitVec 16}
    (h : ∀ w ∈ shortBytes pixel, data (2 * k + w.1) = w.2) :
    shownColor 16 data k = pixel.setWidth 24 := by
  simp only [shortBytes, List.forall_mem_cons, Nat.add_zero] at h
  rw [shownColor, if_pos rfl, h.1, h.2.1, short_bytes, BitVec.setWidth_eq]

theorem shownColor_copyTo24 (h : ∀ w ∈ copyTo24 p, data (3 * k + w.1) = w.2) :
    shownColor 24 data k = p 2 ++ (p 1 ++ p 0) := by
  simp only [copyTo24, List.forall_mem_cons, Nat.add_zero] at h
  rw [shownColor, if_neg (by decide), if_pos rfl, h.1, h.2.1, h.2.2.1]

theorem shownColor_copy24To32 (h : ∀ w ∈ copy24To32 p, data (4 * k + w.1) = w.2) :
    shownColor 32 data k = p 0 ++ (p 1 ++ p 2) := by
  simp only [copy24To32, List.forall_mem_cons, Nat.add_zero] at h
  rw [shownColor, if_neg (by decide), if_neg (by decide), h.1, h.2.1, h.2.2.1]

theorem shownColor_copy32To32 (h : ∀ w ∈ copy32To32 p, data (4 * k + w.1) = w.2) :
    shownColor 32 data k = p 2 ++ (p 1 ++ p 0) := by
  simp only [copy32To32, List.forall_mem_cons, Nat.add_zero] at h
  rw [shownColor, if_neg (by decide), if_neg (by decide), h.1, h.2.1, h.2.2.1]

end ColorAt

section Encodings

variable {outputBitsPerPixel : ℕ} (pic : Picture) (malloc : ℕ → BitVec 8)

theorem shownColor_rgb
    (h : outputBitsPerPixel = 16 ∨ outputBitsPerPixel = 24 ∨ outputBitsPerPixel = 32) :
    let bmp := (loadGimpBmpBits pic.rgb (some malloc) outputBitsPerPixel).2
    ∃ data, bmp.data = some data ∧ ∀ k < bmp.pixels,
      shownColor outputBitsPerPixel data k = rgbShown outputBitsPerPixel (pic.colors k) := by
  have hp (k : ℕ) {i : ℕ} (hi : i < 3) : pic.rgb.pixelData (pic.rgb.bytesPerPixel * k + i) =
      (pic.colors k).byte i := pic.rgb_pixelData hi k
  rcases h with rfl | rfl | rfl
  · obtain ⟨data, hdata, hbytes⟩ := exists_data pic.rgb 16
      (shortBytes_fits fun p => shortPixel24 (p 0) (p 1) (p 2))
      (fun _ _ => by simp [bitmapWrites, Picture.rgb]; rfl) malloc
    refine ⟨data, hdata, fun k hk => ?_⟩
    rw [shownColor_short (hbytes k hk)]
    dsimp only
    rw [hp k (by decide), hp k (by decide), hp k (by decide)]
    rfl
  · obtain ⟨data, hdata, hbytes⟩ := exists_data pic.rgb 24 copyTo24_fits
      (fun _ _ => by simp [bitmapWrites, Picture.rgb]; rfl) malloc
    refine ⟨data, hdata, fun k hk => ?_⟩
    rw [shownColor_copyTo24 (hbytes k hk), hp k (by decide), hp k (by decide), hp k (by decide)]
    rfl
  · obtain ⟨data, hdata, hbytes⟩ := exists_data pic.rgb 32 copy24To32_fits
      (fun _ _ => by simp [bitmapWrites, Picture.rgb]; rfl) malloc
    refine ⟨data, hdata, fun k hk => ?_⟩
    rw [shownColor_copy24To32 (hbytes k hk), hp k (by decide), hp k (by decide), hp k (by decide)]
    rfl

theorem shownColor_rgba
    (h : outputBitsPerPixel = 16 ∨ outputBitsPerPixel = 24 ∨ outputBitsPerPixel = 32)
    (alpha : ℕ → BitVec 8) :
    let bmp := (loadGimpBmpBits (pic.rgba alpha) (some malloc) outputBitsPerPixel).2
    ∃ data, bmp.data = some data ∧ ∀ k < bmp.pixels,
      shownColor outputBitsPerPixel data k = rgbaShown outputBitsPerPixel (pic.colors k) := by
  have hp (k : ℕ) {i : ℕ} (hi : i < 3) :
      (pic.rgba alpha).pixelData ((pic.rgba alpha).bytesPerPixel * k + i) =
        (pic.colors k).byte i := pic.rgba_pixelData alpha hi k
  rcases h with rfl | rfl | rfl
  · obtain ⟨data, hdata, hbytes⟩ := exists_data (pic.rgba alpha) 16
      (shortBytes_fits fun p => shortPixel32 (p 3 ++ (p 2 ++ (p 1 ++ p 0))))
      (fun _ _ => by simp [bitmapWrites, Picture.rgba]; rfl) malloc
    refine ⟨data, hdata, fun k hk => ?_⟩
    rw [shownColor_short (hbytes k hk), shortPixel32_eq]
    obtain ⟨h₀, h₁, h₂, -⟩ := bytes_append ((pic.colors k).byte 0) ((pic.colors k).byte 1)
      ((pic.colors k).byte 2) ((pic.rgba alpha).pixelData ((pic.rgba alpha).bytesPerPixel * k + 3))
    dsimp only
    rw [hp k (show 0 < 3 by decide), hp k (show 1 < 3 by decide), hp k (show 2 < 3 by decide), h₀,
      h₁, h₂]
    rfl
  · obtain ⟨data, hdata, hbytes⟩ := exists_data (pic.rgba alpha) 24 copyTo24_fits
      (fun _ _ => by simp [bitmapWrites, Picture.rgba]; rfl) malloc
    refine ⟨data, hdata, fun k hk => ?_⟩
    rw [shownColor_copyTo24 (hbytes k hk), hp k (by decide), hp k (by decide), hp k (by decide)]
    rfl
  · obtain ⟨data, hdata, hbytes⟩ := exists_data (pic.rgba alpha) 32 copy32To32_fits
      (fun _ _ => by simp [bitmapWrites, Picture.rgba]; rfl) malloc
    refine ⟨data, hdata, fun k hk => ?_⟩
    rw [shownColor_copy32To32 (hbytes k hk), hp k (by decide), hp k (by decide), hp k (by decide)]
    rfl

end Encodings

/-- **When the two encodings load alike.** The colours of the bitmaps agree unless they have 32 bits
a pixel: there they agree iff red and blue are equal in every pixel. -/
theorem load_alike_iff (pic : Picture) (alpha : ℕ → BitVec 8) (outputBitsPerPixel : ℕ)
    (h : outputBitsPerPixel = 16 ∨ outputBitsPerPixel = 24 ∨ outputBitsPerPixel = 32)
    (malloc malloc' : ℕ → BitVec 8) :
    LoadAlike pic alpha outputBitsPerPixel malloc malloc' ↔
      outputBitsPerPixel ≠ 32 ∨
        ∀ k < pic.loadedPixels, (pic.colors k).red = (pic.colors k).blue := by
  obtain ⟨data, hdata, hcolor⟩ := shownColor_rgb pic malloc h
  obtain ⟨data', hdata', hcolor'⟩ := shownColor_rgba pic malloc' h alpha
  have hpixel (k : ℕ) (hk : k < pic.loadedPixels) :
      (some data).map (shownColor outputBitsPerPixel · k) =
          (some data').map (shownColor outputBitsPerPixel · k) ↔
        outputBitsPerPixel ≠ 32 ∨ (pic.colors k).red = (pic.colors k).blue := by
    rw [Option.map_some, Option.map_some, Option.some_inj, hcolor k hk, hcolor' k hk,
      rgbShown_eq_rgbaShown_iff h]
  unfold LoadAlike
  simp only [hdata, hdata']
  constructor
  · rintro ⟨-, -, hall⟩
    by_cases hbits : outputBitsPerPixel = 32
    · exact .inr fun k hk => ((hpixel k hk).mp (hall k hk)).resolve_left (not_not.mpr hbits)
    · exact .inl hbits
  · intro hcond
    exact ⟨rfl, rfl, fun k hk => (hpixel k hk).mpr (hcond.imp_right fun hall => hall k hk)⟩

/-- A red pixel. -/
def redPixel : Picture := ⟨1, 1, fun _ => ⟨0xff, 0, 0⟩⟩

theorem load_alike_red : LoadAlike redPixel (fun _ => 0xff) 16 (fun _ => 0) fun _ => 0 :=
  (load_alike_iff redPixel (fun _ => 0xff) 16 (by decide) (fun _ => 0) fun _ => 0).mpr
    (.inl (by decide))

/-- With three bytes it is loaded as `0xffff0000`, with four as `0xff0000ff`. -/
theorem red_loads_as_blue :
    ¬ ∀ (pic : Picture) (alpha : ℕ → BitVec 8) (outputBitsPerPixel : ℕ),
      outputBitsPerPixel = 16 ∨ outputBitsPerPixel = 24 ∨ outputBitsPerPixel = 32 →
      ∀ malloc malloc' : ℕ → BitVec 8,
        LoadAlike pic alpha outputBitsPerPixel malloc malloc' := by
  intro hall
  obtain ⟨-, -, hpixel⟩ := hall redPixel (fun _ => 0xff) 32 (by decide) (fun _ => 0) fun _ => 0
  have hcolor := hpixel 0 (by decide)
  exact absurd hcolor (by decide)

end DigitalModulation
