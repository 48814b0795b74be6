import DigitalModulation.Graphics.Pixels

/-!
# `gimp_bmp.c` and `draw_gimps.c`: images

An image is copied to a bitmap with four bytes a pixel, and from there to the frame, as a whole or
except for the pixels of the transparent colour.

* `GimpImage`, `loadGimpBmp`: an image, and the bitmap that is made of it;
* `asVidCopyImageToBuffer`, `dispImage`: the copy to the frame, line by line;
* `asVidCopyImageToBuffer3`, `dispImageFromGimp`: the copy without the transparent colour;
* `imagePixels`: the pixels of an image that are not transparent;
* `asVidCopyImageToBuffer_eq`, `dispImageFromGimp_eq`: the stores of an image are those of its
  pixels.
-/

namespace DigitalModulation

/-- `GimpImage`. -/
structure GimpImage where
  width : ℕ
  height : ℕ
  bytesPerPixel : ℕ
  pixelData : ℕ → BitVec 8

/-- The fields of `bitmap_struct` that drawing uses. -/
structure Bitmap where
  biWidth : BitVec 16
  biHeight : BitVec 16
  data : ℕ → BitVec 8

/-- The bytes `copy_pix_map_32_to_32` writes, line by line and pixel by pixel. -/
def copyPixMap32To32 (src : ℕ → BitVec 8)
    (activeWidth activeHeight srcLineWidth destLineWidth : ℕ) : List (ℕ × BitVec 8) :=
  (List.range activeHeight).flatMap fun row => (List.range activeWidth).flatMap fun col =>
    let s := row * (4 * srcLineWidth) + 4 * col
    let d := row * (4 * destLineWidth) + 4 * col
    [(d, src s), (d + 1, src (s + 1)), (d + 2, src (s + 2)), (d + 3, src (s + 3))]

/-- The bytes `copy_pix_map_24_to_32` writes: red and blue change places. -/
def copyPixMap24To32 (src : ℕ → BitVec 8)
    (activeWidth activeHeight srcLineWidth destLineWidth : ℕ) : List (ℕ × BitVec 8) :=
  (List.range activeHeight).flatMap fun row => (List.range activeWidth).flatMap fun col =>
    let s := row * (3 * srcLineWidth) + 3 * col
    let d := row * (4 * destLineWidth) + 4 * col
    [(d + 2, src s), (d + 1, src (s + 1)), (d, src (s + 2)), (d + 3, 0xff)]

/-- `load_gimp_bmp` with 32 bits a pixel, given what the allocated memory holds. The width and the
height are cut to 16 bits, and nothing is copied if one of them is negative then. -/
def loadGimpBmp (image : GimpImage) (malloc : ℕ → BitVec 8) : Bitmap :=
  let biWidth := BitVec.ofNat 16 image.width
  let biHeight := BitVec.ofNat 16 image.height
  let width := biWidth.toInt.toNat
  let height := biHeight.toInt.toNat
  ⟨biWidth, biHeight, Canvas.paint malloc
    ((if image.bytesPerPixel = 4 then
      copyPixMap32To32 image.pixelData width height width width else []) ++
    if image.bytesPerPixel = 3 then
      copyPixMap24To32 image.pixelData width height width width else [])⟩

/-- `reaL_color` of the pixel `k` of a bitmap. -/
def realColor (src : ℕ → BitVec 8) (k : ℕ) : BitVec 32 :=
  (((src (4 * k + 2)).setWidth 32 <<< 16) ||| ((src (4 * k + 1)).setWidth 32 <<< 8) |||
    (src (4 * k)).setWidth 32) &&& 0xffffff

/-- `AsVidCopyImageToBuffer3`. -/
def asVidCopyImageToBuffer3 (dest : ℤ) (src : ℕ → BitVec 8) (destWidth : ℤ)
    (srcWidth srcHeight : ℕ) (x y wFit hFit : ℤ) (transparent : BitVec 32) : List Store :=
  (List.range srcHeight).flatMap fun row : ℕ => (List.range srcWidth).flatMap fun col : ℕ =>
    let color := realColor src (row * srcWidth + col)
    if row ≤ hFit ∧ col ≤ wFit then
      if color ≠ transparent then
        storeBytes (dest + 4 * ((row + y) * destWidth + (col + x)))
          [color.setWidth 8, (color >>> 8).setWidth 8, (color >>> 16).setWidth 8,
            (color >>> 24).setWidth 8]
      else []
    else []

/-- `AsVidCopyImageToBuffer`, whose `memcpy` is undefined if the width is negative. -/
def asVidCopyImageToBuffer (dest : ℤ) (src : ℕ → BitVec 8) (destWidth srcWidth srcHeight : ℤ) :
    Option (List Store) :=
  if srcWidth < 0 ∧ 0 < srcHeight then none
  else
    let bytesPerLine := (srcWidth * 4).toNat
    some ((List.range srcHeight.toNat).flatMap fun y : ℕ =>
      (List.range bytesPerLine).map fun i : ℕ =>
        (dest + y * (destWidth * 4) + i, src (y * bytesPerLine + i)))

/-- `DispIMAGE`, which ignores the place it is given and takes the other frame than
`VIPFR_GetDrawFrame`. -/
def dispImage (display : VipFrameReader) (_x _y : ℤ) (image : GimpImage) (malloc : ℕ → BitVec 8) :
    Option (List Store) :=
  let bmp := loadGimpBmp image malloc
  let dest := if display.displayFrame = 0 then display.frame0Base else display.frame1Base
  asVidCopyImageToBuffer dest bmp.data display.width bmp.biWidth.toInt bmp.biHeight.toInt

/-- `DispIMAGE_from_gimp`, which takes the other frame than `VIPFR_GetDrawFrame`. -/
def dispImageFromGimp (display : VipFrameReader) (image : GimpImage) (malloc : ℕ → BitVec 8)
    (x y : ℤ) (transparent : BitVec 32) : List Store :=
  let bmp := loadGimpBmp image malloc
  let dest := if display.displayFrame = 0 then display.frame0Base else display.frame1Base
  asVidCopyImageToBuffer3 dest bmp.data display.width bmp.biWidth.toInt.toNat
    bmp.biHeight.toInt.toNat x y bmp.biWidth.toInt bmp.biHeight.toInt transparent

/-- The pixels of an image that are not of the transparent colour, given the colours of the pixels
in order. -/
def imagePixels (x y : ℤ) (width height : ℕ) (color : ℕ → BitVec 32) (transparent : BitVec 32) :
    List Pixel :=
  (raster x y width height fun i j => color (i * width + j)).filter fun p => p.2 ≠ transparent

theorem mem_imagePixels {x y : ℤ} {width height : ℕ} {color : ℕ → BitVec 32}
    {transparent : BitVec 32} {p : Pixel} :
    p ∈ imagePixels x y width height color transparent ↔
      ∃ i < height, ∃ j < width, color (i * width + j) ≠ transparent ∧
        ((x + j, y + i), color (i * width + j)) = p := by
  unfold imagePixels
  rw [List.mem_filter, mem_raster]
  constructor
  · rintro ⟨⟨i, hi, j, hj, rfl⟩, hp⟩
    exact ⟨i, hi, j, hj, of_decide_eq_true hp, rfl⟩
  · rintro ⟨i, hi, j, hj, hcolor, rfl⟩
    exact ⟨⟨i, hi, j, hj, rfl⟩, decide_eq_true hcolor⟩

/-- The colour of the pixel `k` of an image with three bytes a pixel. -/
def gimpColor (src : ℕ → BitVec 8) (k : ℕ) : BitVec 32 :=
  (((src (3 * k)).setWidth 32 <<< 16) ||| ((src (3 * k + 1)).setWidth 32 <<< 8) |||
    (src (3 * k + 2)).setWidth 32) &&& 0xffffff

/-! ### The copy loops -/

/-- What is written for a pixel, given its bytes: the numbers of the bytes written, with the new
bytes. -/
abbrev PixelCopy := (ℕ → BitVec 8) → List (ℕ × BitVec 8)

/-- A loop that copies pixels of `srcBytes` bytes to pixels of `destBytes` bytes. -/
def copyPixMap (srcBytes destBytes : ℕ) (copy : PixelCopy) (src : ℕ → BitVec 8)
    (activeWidth activeHeight srcLineWidth destLineWidth : ℕ) : List (ℕ × BitVec 8) :=
  (List.range activeHeight).flatMap fun row => (List.range activeWidth).flatMap fun col =>
    let s := row * (srcBytes * srcLineWidth) + srcBytes * col
    let d := row * (destBytes * destLineWidth) + destBytes * col
    (copy fun i => src (s + i)).map fun w => (d + w.1, w.2)

def copy32To32 : PixelCopy := fun p => [(0, p 0), (1, p 1), (2, p 2), (3, p 3)]

def copy24To32 : PixelCopy := fun p => [(2, p 0), (1, p 1), (0, p 2), (3, 0xff)]

theorem copyPixMap32To32_eq_copyPixMap : copyPixMap32To32 = copyPixMap 4 4 copy32To32 := rfl

theorem copyPixMap24To32_eq_copyPixMap : copyPixMap24To32 = copyPixMap 3 4 copy24To32 := rfl

/-- No byte of a pixel is written twice, and none of another pixel. -/
def PixelCopy.Fits (copy : PixelCopy) (size : ℕ) : Prop :=
  ∀ p, ((copy p).map Prod.fst).Nodup ∧ ∀ i ∈ (copy p).map Prod.fst, i < size

theorem copy32To32_fits : PixelCopy.Fits copy32To32 4 := fun _ => by
  change [0, 1, 2, 3].Nodup ∧ ∀ i ∈ [0, 1, 2, 3], i < 4
  decide

theorem copy24To32_fits : PixelCopy.Fits copy24To32 4 := fun _ => by
  change [2, 1, 0, 3].Nodup ∧ ∀ i ∈ [2, 1, 0, 3], i < 4
  decide

section CopyPixMap

variable {srcBytes destBytes : ℕ} {copy : PixelCopy}

/-- Of an image without gaps between its lines the pixels are copied one after another. -/
theorem copyPixMap_eq (src : ℕ → BitVec 8) (width height : ℕ) :
    copyPixMap srcBytes destBytes copy src width height width width =
      (List.range (height * width)).flatMap fun k =>
        (copy fun i => src (srcBytes * k + i)).map fun w => (destBytes * k + w.1, w.2) := by
  rw [range_mul, List.flatMap_assoc]
  refine List.flatMap_congr fun row _ => ?_
  rw [List.flatMap_map]
  refine List.flatMap_congr fun col _ => ?_
  have hoffset (n : ℕ) : row * (n * width) + n * col = n * (width * row + col) := by ring
  simp only [hoffset]

/-- **The bytes of the copied pixels.** -/
theorem data_copyPixMap (hfits : copy.Fits destBytes) (src malloc : ℕ → BitVec 8)
    {width height k : ℕ} (hk : k < height * width) {w : ℕ × BitVec 8}
    (hw : w ∈ copy fun i => src (srcBytes * k + i)) :
    Canvas.paint malloc (copyPixMap srcBytes destBytes copy src width height width width)
      (destBytes * k + w.1) = w.2 := by
  have hlt {p : ℕ → BitVec 8} {w : ℕ × BitVec 8} (hw : w ∈ copy p) : w.1 < destBytes :=
    (hfits p).2 w.1 (List.mem_map_of_mem hw)
  rw [Canvas.paint_apply, copyPixMap_eq, Canvas.lastWrite_eq_some (v := w.2)]
  · rfl
  · exact List.mem_flatMap.mpr ⟨k, List.mem_range.mpr hk, List.mem_map.mpr ⟨w, hw, rfl⟩⟩
  · intro v hv heq
    obtain ⟨k', -, hv⟩ := List.mem_flatMap.mp hv
    obtain ⟨w', hw', rfl⟩ := List.mem_map.mp hv
    dsimp only at heq
    -- A byte of the bitmap is of one pixel only, and written there once.
    have hk' : k' = k := by
      have hdiv := congrArg (· / destBytes) heq
      have hpos : 0 < destBytes := (Nat.zero_le _).trans_lt (hlt hw)
      simpa [Nat.mul_add_div hpos, Nat.div_eq_of_lt (hlt hw), Nat.div_eq_of_lt (hlt hw')]
        using hdiv
    subst hk'
    rw [List.inj_on_of_nodup_map (hfits _).1 hw' hw (Nat.add_left_cancel heq)]

end CopyPixMap

theorem toInt_ofNat_short {n : ℕ} (hn : n < 2 ^ 15) : (BitVec.ofNat 16 n).toInt = n := by
  rw [BitVec.toInt_ofNat', Int.bmod_def]
  omega

/-- The bitmap of an image with three bytes a pixel has its colours. -/
theorem realColor_loadGimpBmp {image : GimpImage} (hbytes : image.bytesPerPixel = 3)
    (hwidth : image.width < 2 ^ 15) (hheight : image.height < 2 ^ 15) (malloc : ℕ → BitVec 8)
    {k : ℕ} (hk : k < image.height * image.width) :
    realColor (loadGimpBmp image malloc).data k = gimpColor image.pixelData k := by
  have hdata (w : ℕ × BitVec 8) (hw : w ∈ copy24To32 fun i => image.pixelData (3 * k + i)) :
      (loadGimpBmp image malloc).data (4 * k + w.1) = w.2 := by
    simp only [loadGimpBmp, toInt_ofNat_short hwidth, toInt_ofNat_short hheight, Int.toNat_natCast,
      hbytes, Nat.reduceEqDiff, if_false, if_true, List.nil_append, copyPixMap24To32_eq_copyPixMap]
    exact data_copyPixMap copy24To32_fits image.pixelData malloc hk hw
  simp only [copy24To32, List.forall_mem_cons, Nat.add_zero] at hdata
  obtain ⟨hred, hgreen, hblue, -⟩ := hdata
  unfold realColor gimpColor
  rw [hred, hgreen, hblue]

theorem flatMap_filter {α β : Type*} (q : α → Bool) (f : α → List β) (as : List α) :
    (as.filter q).flatMap f = as.flatMap fun a => if q a then f a else [] := by
  induction as with
  | nil => rfl
  | cons a as ih => by_cases h : q a <;> simp [h, ih]

/-- A pixel as it is stored at a base, four bytes whatever the depth. -/
def storeWord (dest destWidth : ℤ) (p : Pixel) : List Store :=
  storeBytes (dest + 4 * (p.1.2 * destWidth + p.1.1))
    [p.2.setWidth 8, (p.2 >>> 8).setWidth 8, (p.2 >>> 16).setWidth 8, (p.2 >>> 24).setWidth 8]

theorem storeWord_swFrame (frame : ℤ) (p : Pixel) :
    storeWord frame (swFrame frame).width p = vidSetPixel (swFrame frame) p := by
  rw [vidSetPixel_swFrame, storeWord]
  congr 1
  simp only [swFrame]
  ring

theorem asVidCopyImageToBuffer3_eq (dest : ℤ) (src : ℕ → BitVec 8) (destWidth : ℤ)
    {width height : ℕ} (x y : ℤ) {wFit hFit : ℤ} (hw : width ≤ wFit.toNat)
    (hh : height ≤ hFit.toNat) (transparent : BitVec 32) :
    asVidCopyImageToBuffer3 dest src destWidth width height x y wFit hFit transparent =
      (imagePixels x y width height (realColor src) transparent).flatMap
        (storeWord dest destWidth) := by
  simp only [asVidCopyImageToBuffer3, imagePixels, raster, List.filter_flatMap, List.flatMap_assoc,
    List.filter_map, List.flatMap_map]
  refine List.flatMap_congr fun row hrow => ?_
  rw [flatMap_filter]
  refine List.flatMap_congr fun col hcol => ?_
  have hfit : (row : ℤ) ≤ hFit ∧ (col : ℤ) ≤ wFit := by
    rw [List.mem_range] at hrow hcol
    omega
  rw [if_pos hfit]
  -- A transparent pixel stores nothing.
  by_cases hcolor : realColor src (row * width + col) = transparent
  · simp [hcolor]
  · simp only [Function.comp, hcolor, ne_eq, not_false_eq_true, if_true, decide_true, storeWord]
    rw [Int.add_comm (row : ℤ), Int.add_comm (col : ℤ)]

theorem index_lt {width height row col : ℕ} (hrow : row < height) (hcol : col < width) :
    row * width + col < height * width :=
  calc row * width + col < row * width + width := by omega
    _ = (row + 1) * width := (Nat.succ_mul row width).symm
    _ ≤ height * width := Nat.mul_le_mul_right width hrow

theorem imagePixels_congr {x y : ℤ} {width height : ℕ} {color color' : ℕ → BitVec 32}
    (transparent : BitVec 32) (h : ∀ k < height * width, color k = color' k) :
    imagePixels x y width height color transparent =
      imagePixels x y width height color' transparent := by
  unfold imagePixels raster
  congr 1
  refine List.flatMap_congr fun i hi => List.map_congr_left fun j hj => ?_
  simp only [h _ (index_lt (List.mem_range.mp hi) (List.mem_range.mp hj))]

/-- The four bytes of the pixel `k` of a bitmap. -/
def bitmapWord (src : ℕ → BitVec 8) (k : ℕ) : BitVec 32 :=
  src (4 * k + 3) ++ (src (4 * k + 2) ++ (src (4 * k + 1) ++ src (4 * k)))

theorem bytes_append (b₀ b₁ b₂ b₃ : BitVec 8) :
    let word : BitVec 32 := b₃ ++ (b₂ ++ (b₁ ++ b₀))
    word.setWidth 8 = b₀ ∧ (word >>> 8).setWidth 8 = b₁ ∧ (word >>> 16).setWidth 8 = b₂ ∧
      (word >>> 24).setWidth 8 = b₃ := by
  refine ⟨?_, ?_, ?_, ?_⟩
  all_goals
    ext i hi
    grind

theorem short_bytes {w : ℕ} (x : BitVec w) :
    (x >>> 8).setWidth 8 ++ x.setWidth 8 = x.setWidth 16 := by
  ext i hi
  simp only [BitVec.getElem_append]
  grind

theorem storeWord_append (dest destWidth horiz vert : ℤ) (b₀ b₁ b₂ b₃ : BitVec 8) :
    storeWord dest destWidth ((horiz, vert), b₃ ++ (b₂ ++ (b₁ ++ b₀))) =
      storeBytes (dest + 4 * (vert * destWidth + horiz)) [b₀, b₁, b₂, b₃] := by
  obtain ⟨h₀, h₁, h₂, h₃⟩ := bytes_append b₀ b₁ b₂ b₃
  unfold storeWord
  rw [h₀, h₁, h₂, h₃]

/-- The lines of a bitmap are copied pixel by pixel, too. -/
theorem asVidCopyImageToBuffer_eq (dest : ℤ) (src : ℕ → BitVec 8)
    (destWidth srcWidth srcHeight : ℤ) :
    asVidCopyImageToBuffer dest src destWidth srcWidth srcHeight =
      if srcWidth < 0 ∧ 0 < srcHeight then none
      else some ((raster 0 0 srcWidth.toNat srcHeight.toNat fun i j =>
        bitmapWord src (i * srcWidth.toNat + j)).flatMap (storeWord dest destWidth)) := by
  unfold asVidCopyImageToBuffer
  congr 2
  simp only [raster, List.flatMap_assoc, List.flatMap_map]
  refine congrArg some (List.flatMap_congr fun row _ => ?_)
  rw [show srcWidth * 4 = srcWidth * (4 : ℕ) from rfl, toNat_mul_natCast, range_mul,
    List.map_flatMap]
  refine List.flatMap_congr fun col _ => ?_
  rw [bitmapWord, storeWord_append]
  have hsrc (i : ℕ) : row * (srcWidth.toNat * 4) + (4 * col + i) =
      4 * (row * srcWidth.toNat + col) + i := by ring
  have hdest (i : ℕ) : dest + row * (destWidth * 4) + ((4 * col + i : ℕ) : ℤ) =
      dest + 4 * ((0 + row) * destWidth + (0 + col)) + i := by
    push_cast
    ring
  rw [List.map_map, show List.range 4 = [0, 1, 2, 3] from rfl]
  simp only [List.map_cons, List.map_nil, Function.comp, hsrc, hdest]
  rfl

/-- **An image is stored pixel by pixel**, whatever was in the memory of its bitmap. -/
theorem dispImageFromGimp_eq (frame : ℤ) {image : GimpImage} (hbytes : image.bytesPerPixel = 3)
    (hwidth : image.width < 2 ^ 15) (hheight : image.height < 2 ^ 15) (malloc : ℕ → BitVec 8)
    (x y : ℤ) (transparent : BitVec 32) :
    dispImageFromGimp (swFrame frame) image malloc x y transparent =
      (imagePixels x y image.width image.height (gimpColor image.pixelData) transparent).flatMap
        (vidSetPixel (swFrame frame)) := by
  have hw : (loadGimpBmp image malloc).biWidth.toInt = image.width := toInt_ofNat_short hwidth
  have hh : (loadGimpBmp image malloc).biHeight.toInt = image.height := toInt_ofNat_short hheight
  simp only [dispImageFromGimp, hw, hh, Int.toNat_natCast]
  rw [show (if (swFrame frame).displayFrame = 0 then (swFrame frame).frame0Base
    else (swFrame frame).frame1Base) = frame from rfl,
    asVidCopyImageToBuffer3_eq _ _ _ _ _ (by simp) (by simp),
    List.flatMap_congr fun p _ => storeWord_swFrame frame p,
    imagePixels_congr transparent fun k hk =>
      realColor_loadGimpBmp hbytes hwidth hheight malloc hk]

end DigitalModulation
