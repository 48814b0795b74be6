import DigitalModulation.Graphics.Frame
import DigitalModulation.Graphics.GimpBmp
import DigitalModulation.Graphics.PixelBytes

/-!
# `DispIMAGE_from_gimp`

The function allocates a bitmap, has `load_gimp_bmp` allocate and fill its data, and copies the data
to the frame that is displayed. Both allocations can fail.

* `Allocations`, `ImageRun`: what `malloc` returns, and what a call does;
* `dispImageFromGimpRun`: the call; it does not look at the return code of `load_gimp_bmp`;
* `frameWord_withImage`: the words of a frame over which an image is drawn;
* `image_blit_correct`: what is drawn if there is memory;
* `ImageRun.FailedCleanly`, `ImageRun.DrewCompletely`: what a call should do without memory, and
  what it should have done if it returns 1;
* `disp_image_cleanly_iff`: when it does.
-/

namespace DigitalModulation

/-- The two blocks of memory. -/
inductive HeapBlock
  | bitmap
  | data
  deriving DecidableEq

/-- What the two calls of `malloc` return: whether there is a block for the bitmap, and what the
block for its data holds if there is one. -/
structure Allocations where
  bitmap : Bool
  data : Option (ℕ → BitVec 8)

/-- What a call does: the blocks it allocates, the pointers it passes to `free`, the bytes of
`pixel_data` it reads, the pointers it dereferences, with `none` for a null pointer, what it stores
in frames, and what it returns. -/
structure ImageRun where
  allocated : List HeapBlock
  freed : List (Option HeapBlock)
  reads : List ℕ
  pointers : List (Option HeapBlock)
  stores : List Store
  result : ℤ

/-- The bytes that a loop with `srcBytes` bytes a pixel reads. -/
def pixMapReads (srcBytes activeWidth activeHeight srcLineWidth : ℕ) : List ℕ :=
  (List.range activeHeight).flatMap fun row => (List.range activeWidth).flatMap fun col =>
    (List.range srcBytes).map fun i => row * (srcBytes * srcLineWidth) + srcBytes * col + i

/-- The bytes of the image that `load_gimp_bmp` reads. -/
def loadReads (image : GimpImage) (width height : ℕ) : List ℕ :=
  (if image.bytesPerPixel = 4 then pixMapReads 4 width height width else []) ++
    if image.bytesPerPixel = 3 then pixMapReads 3 width height width else []

/-- The pointer to the data as `load_gimp_bmp` dereferences it, for four bytes a pixel. -/
def loadPointers (image : GimpImage) (data : Option HeapBlock) (width height : ℕ) :
    List (Option HeapBlock) :=
  if image.bytesPerPixel = 4 ∨ image.bytesPerPixel = 3 then
    List.replicate (4 * (height * width)) data else []

/-- `DispIMAGE_from_gimp`. A null pointer reads `lowMemory`. -/
def dispImageFromGimpRun (display : VipFrameReader) (image : GimpImage) (malloc : Allocations)
    (lowMemory : ℕ → BitVec 8) (x y : ℤ) (transparent : BitVec 32) : ImageRun :=
  if malloc.bitmap then
    let bmp := (loadGimpBmpBits image malloc.data 32).2
    let width := bmp.biWidth.toInt.toNat
    let height := bmp.biHeight.toInt.toNat
    let data := malloc.data.map fun _ => HeapBlock.data
    { allocated := .bitmap :: data.toList
      freed := [data, some .bitmap]
      reads := if data = none then [] else loadReads image width height
      pointers := some .bitmap ::
        (if data = none then [] else loadPointers image data width height) ++
          List.replicate (4 * (height * width)) data
      stores := asVidCopyImageToBuffer3 display.displayedFrame (bmp.data.getD lowMemory)
        display.width width height x y bmp.biWidth.toInt bmp.biHeight.toInt transparent
      result := 1 }
  else ⟨[], [], [], [], [], 0⟩

/-- With memory to spare it stores what `dispImageFromGimp` does. -/
theorem stores_dispImageFromGimpRun (display : VipFrameReader) (image : GimpImage)
    (block lowMemory : ℕ → BitVec 8) (x y : ℤ) (transparent : BitVec 32) :
    (dispImageFromGimpRun display image ⟨true, some block⟩ lowMemory x y transparent).stores =
      dispImageFromGimp display image block x y transparent :=
  rfl

/-! ### The bytes of the image -/

theorem pixMapReads_eq (srcBytes width height : ℕ) :
    pixMapReads srcBytes width height width = List.range (height * width * srcBytes) := by
  rw [range_mul, range_mul, List.flatMap_assoc, pixMapReads]
  refine List.flatMap_congr fun row _ => ?_
  rw [List.flatMap_map]
  refine List.flatMap_congr fun col _ => List.map_congr_left fun i _ => ?_
  ring

theorem mem_loadReads {image : GimpImage} {width height n : ℕ} :
    n ∈ loadReads image width height ↔
      (image.bytesPerPixel = 3 ∨ image.bytesPerPixel = 4) ∧
        n < height * width * image.bytesPerPixel := by
  unfold loadReads
  rw [List.mem_append]
  constructor
  · rintro (h | h) <;> split_ifs at h with hbytes
    · rw [pixMapReads_eq, List.mem_range] at h
      exact ⟨.inr hbytes, hbytes ▸ h⟩
    · exact absurd h List.not_mem_nil
    · rw [pixMapReads_eq, List.mem_range] at h
      exact ⟨.inl hbytes, hbytes ▸ h⟩
    · exact absurd h List.not_mem_nil
  · rintro ⟨hbytes | hbytes, h⟩
    · right
      rw [if_pos hbytes, pixMapReads_eq, List.mem_range]
      exact hbytes ▸ h
    · left
      rw [if_pos hbytes, pixMapReads_eq, List.mem_range]
      exact hbytes ▸ h

section Reads

variable {srcBytes destBytes : ℕ} {copy : PixelCopy} {src src' : ℕ → BitVec 8}

/-- A loop makes no use of other bytes than those it reads. -/
theorem copyPixMap_congr (hcopy : ∀ p p', (∀ i < srcBytes, p i = p' i) → copy p = copy p')
    {activeWidth activeHeight srcLineWidth destLineWidth : ℕ}
    (h : ∀ n ∈ pixMapReads srcBytes activeWidth activeHeight srcLineWidth, src n = src' n) :
    copyPixMap srcBytes destBytes copy src activeWidth activeHeight srcLineWidth destLineWidth =
      copyPixMap srcBytes destBytes copy src' activeWidth activeHeight srcLineWidth
        destLineWidth := by
  refine List.flatMap_congr fun row hrow => List.flatMap_congr fun col hcol => ?_
  dsimp only
  rw [hcopy _ _ fun i hi => h _ ?_]
  exact List.mem_flatMap.mpr ⟨row, hrow, List.mem_flatMap.mpr ⟨col, hcol,
    List.mem_map.mpr ⟨i, List.mem_range.mpr hi, rfl⟩⟩⟩

theorem bitmapWrites_congr {image : GimpImage} {width height : ℕ} {pixelData : ℕ → BitVec 8}
    (h : ∀ n ∈ loadReads image width height, pixelData n = image.pixelData n) :
    bitmapWrites { image with pixelData := pixelData } 32 width height =
      bitmapWrites image 32 width height := by
  obtain ⟨h4, h3⟩ := List.forall_mem_append.mp h
  have hcopy4 (p p' : ℕ → BitVec 8) (hp : ∀ i < 4, p i = p' i) : copy32To32 p = copy32To32 p' := by
    simp [copy32To32, hp]
  have hcopy3 (p p' : ℕ → BitVec 8) (hp : ∀ i < 3, p i = p' i) : copy24To32 p = copy24To32 p' := by
    simp [copy24To32, hp]
  simp only [bitmapWrites, Nat.reduceEqDiff, if_false, if_true, List.nil_append]
  congr 1
  · refine ite_congr rfl (fun hbytes => ?_) fun _ => rfl
    rw [if_pos hbytes] at h4
    exact copyPixMap_congr hcopy4 h4
  · refine ite_congr rfl (fun hbytes => ?_) fun _ => rfl
    rw [if_pos hbytes] at h3
    exact copyPixMap_congr hcopy3 h3

/-- Nor does the whole call. -/
theorem dispImageFromGimpRun_congr {display : VipFrameReader} {image : GimpImage}
    {malloc : Allocations} {lowMemory : ℕ → BitVec 8} {x y : ℤ} {transparent : BitVec 32}
    {pixelData : ℕ → BitVec 8}
    (h : ∀ n ∈ (dispImageFromGimpRun display image malloc lowMemory x y transparent).reads,
      pixelData n = image.pixelData n) :
    dispImageFromGimpRun display { image with pixelData := pixelData } malloc lowMemory x y
        transparent = dispImageFromGimpRun display image malloc lowMemory x y transparent := by
  obtain ⟨bitmap, data⟩ := malloc
  cases bitmap with
  | false => simp only [dispImageFromGimpRun, Bool.false_eq_true, if_false]
  | true =>
    cases data with
    | none => simp only [dispImageFromGimpRun, loadGimpBmpBits, if_true, Option.map_none]
    | some block =>
      simp only [dispImageFromGimpRun, loadGimpBmpBits, if_true, Option.map_some, reduceCtorEq,
        if_false] at h ⊢
      rw [bitmapWrites_congr h]
      rfl

end Reads

/-- The colour of the pixel `k` as the bitmap has it. -/
def imageColor (image : GimpImage) (k : ℕ) : BitVec 32 :=
  if image.bytesPerPixel = 3 then gimpColor image.pixelData k else realColor image.pixelData k

theorem realColor_eq_imageColor {image : GimpImage}
    (hbytes : image.bytesPerPixel = 3 ∨ image.bytesPerPixel = 4) (hwidth : image.width < 2 ^ 15)
    (hheight : image.height < 2 ^ 15) (block : ℕ → BitVec 8) {k : ℕ}
    (hk : k < image.height * image.width) :
    realColor (loadGimpBmp image block).data k = imageColor image k := by
  obtain hbytes | hbytes := hbytes
  · rw [realColor_loadGimpBmp hbytes hwidth hheight block hk, imageColor, if_pos hbytes]
  · have hdata (w : ℕ × BitVec 8) (hw : w ∈ copy32To32 fun i => image.pixelData (4 * k + i)) :
        (loadGimpBmp image block).data (4 * k + w.1) = w.2 := by
      simp only [loadGimpBmp, toInt_ofNat_short hwidth, toInt_ofNat_short hheight,
        Int.toNat_natCast, hbytes, Nat.reduceEqDiff, if_false, if_true, List.append_nil,
        copyPixMap32To32_eq_copyPixMap]
      exact data_copyPixMap copy32To32_fits image.pixelData block hk hw
    simp only [copy32To32, List.forall_mem_cons, Nat.add_zero] at hdata
    obtain ⟨h₀, h₁, h₂, -⟩ := hdata
    rw [imageColor, if_neg (by omega)]
    unfold realColor
    rw [h₀, h₁, h₂]

/-- **What is stored if there is memory**: the pixels that are not transparent. -/
theorem stores_eq_imagePixels (display : VipFrameReader) {image : GimpImage}
    (hbytes : image.bytesPerPixel = 3 ∨ image.bytesPerPixel = 4) (hwidth : image.width < 2 ^ 15)
    (hheight : image.height < 2 ^ 15) (block lowMemory : ℕ → BitVec 8) (x y : ℤ)
    (transparent : BitVec 32) :
    (dispImageFromGimpRun display image ⟨true, some block⟩ lowMemory x y transparent).stores =
      (imagePixels x y image.width image.height (imageColor image) transparent).flatMap
        (storeWord display.displayedFrame display.width) := by
  have hw : (loadGimpBmp image block).biWidth.toInt = image.width := toInt_ofNat_short hwidth
  have hh : (loadGimpBmp image block).biHeight.toInt = image.height := toInt_ofNat_short hheight
  rw [stores_dispImageFromGimpRun, dispImageFromGimp]
  simp only [hw, hh, Int.toNat_natCast]
  rw [asVidCopyImageToBuffer3_eq _ _ _ _ _ (by simp) (by simp),
    imagePixels_congr transparent fun k hk =>
      realColor_eq_imageColor hbytes hwidth hheight block hk]
  rfl

/-- With memory, the bytes are read that the cut width and height tell. -/
theorem reads_dispImageFromGimpRun (display : VipFrameReader) (image : GimpImage)
    (block lowMemory : ℕ → BitVec 8) (x y : ℤ) (transparent : BitVec 32) :
    (dispImageFromGimpRun display image ⟨true, some block⟩ lowMemory x y transparent).reads =
      loadReads image (BitVec.ofNat 16 image.width).toInt.toNat
        (BitVec.ofNat 16 image.height).toInt.toNat := by
  simp [dispImageFromGimpRun, loadGimpBmpBits]

/-! ### The frame -/

/-- The word of the displayed frame at a column and a row, four bytes a pixel. -/
def VipFrameReader.frameWord (display : VipFrameReader) (mem : ℤ → BitVec 8) (q : ℤ × ℤ) :
    BitVec 32 :=
  let addr := display.displayedFrame + 4 * display.pixelIndex q
  mem (addr + 3) ++ (mem (addr + 2) ++ (mem (addr + 1) ++ mem addr))

/-- The bytes of a word as they are stored. -/
def wordBytes (color : BitVec 32) : List (BitVec 8) :=
  [color.setWidth 8, (color >>> 8).setWidth 8, (color >>> 16).setWidth 8,
    (color >>> 24).setWidth 8]

/-- The words of the displayed frame, by the numbers of the pixels. -/
def VipFrameReader.wordLayout (display : VipFrameReader) : Canvas.Layout ℤ ℤ :=
  Canvas.consecutive display.displayedFrame 4

section Words

variable {display : VipFrameReader}

theorem storeWord_eq_write (p : Pixel) : storeWord display.displayedFrame display.width p =
    display.wordLayout.write (display.pixelIndex p.1, wordBytes p.2) := by
  have haddr : display.displayedFrame + 4 * (p.1.2 * display.width + p.1.1) =
      display.displayedFrame + display.pixelIndex p.1 * (4 : ℕ) := by
    unfold VipFrameReader.pixelIndex
    push_cast
    ring
  rw [storeWord, haddr]
  rfl

theorem read_wordLayout (mem : ℤ → BitVec 8) (q : ℤ × ℤ) :
    let addr := display.displayedFrame + 4 * display.pixelIndex q
    display.wordLayout.read mem (display.pixelIndex q) =
      [mem addr, mem (addr + 1), mem (addr + 2), mem (addr + 3)] := by
  intro addr
  have haddr (i : ℕ) : display.wordLayout.addr (display.pixelIndex q) i = addr + i := by
    show display.displayedFrame + display.pixelIndex q * (4 : ℕ) + i = addr + i
    push_cast
    ring
  show (List.range 4).map (fun i => mem (display.wordLayout.addr (display.pixelIndex q) i)) = _
  simp only [haddr]
  simp [List.range_succ]

theorem frameWord_of_read {mem : ℤ → BitVec 8} {q : ℤ × ℤ} {color : BitVec 32}
    (h : display.wordLayout.read mem (display.pixelIndex q) = wordBytes color) :
    display.frameWord mem q = color := by
  rw [read_wordLayout, wordBytes] at h
  simp only [List.cons.injEq, and_true] at h
  obtain ⟨h₀, h₁, h₂, h₃⟩ := h
  unfold VipFrameReader.frameWord
  simp only [h₀, h₁, h₂, h₃, color_bytes]

theorem frameWord_congr {mem mem' : ℤ → BitVec 8} {q : ℤ × ℤ}
    (h : display.wordLayout.read mem (display.pixelIndex q) =
      display.wordLayout.read mem' (display.pixelIndex q)) :
    display.frameWord mem q = display.frameWord mem' q := by
  rw [read_wordLayout, read_wordLayout] at h
  simp only [List.cons.injEq, and_true] at h
  obtain ⟨h₀, h₁, h₂, h₃⟩ := h
  unfold VipFrameReader.frameWord
  simp only [h₀, h₁, h₂, h₃]

end Words

section Drawn

variable {display : VipFrameReader} {x y : ℤ} {width height : ℕ}

theorem place_mem_box (hin : (Box.mk x y (x + width) (y + height)).Within display.box) {i j : ℕ}
    (hj : j < height) (hi : i < width) : (x + i, y + j) ∈ display.box.area :=
  hin.mem (Box.mem_area.mpr (by dsimp only; omega))

/-- A pixel of an image is in one place of the frame. -/
theorem eq_of_mem_imagePixels {color : ℕ → BitVec 32} {transparent : BitVec 32}
    (hin : (Box.mk x y (x + width) (y + height)).Within display.box) {i j : ℕ} (hj : j < height)
    (hi : i < width) {p : Pixel} (hp : p ∈ imagePixels x y width height color transparent)
    (heq : display.pixelIndex p.1 = display.pixelIndex (x + i, y + j)) :
    p.2 = color (j * width + i) ∧ color (j * width + i) ≠ transparent := by
  obtain ⟨j', hj', i', hi', hne, rfl⟩ := mem_imagePixels.mp hp
  have hq := VipFrameReader.pixelIndex_inj (place_mem_box hin hj' hi').1
    (place_mem_box hin hj hi).1 heq
  have hcol := congrArg Prod.fst hq
  have hrow := congrArg Prod.snd hq
  dsimp only at hcol hrow
  obtain rfl : i' = i := by omega
  obtain rfl : j' = j := by omega
  exact ⟨rfl, hne⟩

/-- The frame with an image drawn over it. -/
def VipFrameReader.withImage (display : VipFrameReader) (x y : ℤ) (width height : ℕ)
    (color : ℕ → BitVec 32) (transparent : BitVec 32) (mem : ℤ → BitVec 8) : ℤ → BitVec 8 :=
  Canvas.paint mem ((imagePixels x y width height color transparent).flatMap fun p =>
    display.wordLayout.write (display.pixelIndex p.1, wordBytes p.2))

/-- **The words of a frame with an image**: where the image is, it shows unless it is
transparent. -/
theorem frameWord_withImage (color : ℕ → BitVec 32) (transparent : BitVec 32) (mem : ℤ → BitVec 8)
    (hin : (Box.mk x y (x + width) (y + height)).Within display.box) {i j : ℕ} (hj : j < height)
    (hi : i < width) :
    display.frameWord (display.withImage x y width height color transparent mem) (x + i, y + j) =
      if color (j * width + i) ≠ transparent then color (j * width + i)
      else display.frameWord mem (x + i, y + j) := by
  split_ifs with hne
  · refine frameWord_of_read (read_pixel_of_mem (p := ((x + i, y + j), color (j * width + i)))
      (fun _ => rfl) (mem_imagePixels.mpr ⟨j, hj, i, hi, hne, rfl⟩) (fun p hp heq => ?_) mem)
    exact (eq_of_mem_imagePixels hin hj hi hp heq).1
  · refine frameWord_congr (read_pixel_of_forall_ne (fun _ => rfl) (fun p hp heq => ?_) mem)
    exact hne (eq_of_mem_imagePixels hin hj hi hp heq).2

/-- Where an image is not, the words of the frame stay as they were. -/
theorem frameWord_withImage_of_not_mem (color : ℕ → BitVec 32) (transparent : BitVec 32)
    (mem : ℤ → BitVec 8) (hin : (Box.mk x y (x + width) (y + height)).Within display.box)
    {q : ℤ × ℤ} (hq : q ∈ display.box.area)
    (hout : q ∉ (Box.mk x y (x + width) (y + height)).area) :
    display.frameWord (display.withImage x y width height color transparent mem) q =
      display.frameWord mem q := by
  refine frameWord_congr (read_pixel_of_forall_ne (fun _ => rfl) (fun p hp heq => hout ?_) mem)
  obtain ⟨j, hj, i, hi, -, rfl⟩ := mem_imagePixels.mp hp
  rw [← VipFrameReader.pixelIndex_inj (place_mem_box hin hj hi).1 hq.1 heq]
  exact Box.mem_area.mpr (by dsimp only; omega)

/-- The stores of a call draw the image over the frame. -/
theorem paint_stores_eq_withImage {image : GimpImage}
    (hbytes : image.bytesPerPixel = 3 ∨ image.bytesPerPixel = 4) (hwidth : image.width < 2 ^ 15)
    (hheight : image.height < 2 ^ 15) {block lowMemory : ℕ → BitVec 8} {transparent : BitVec 32}
    {mem : ℤ → BitVec 8} :
    Canvas.paint mem
        (dispImageFromGimpRun display image ⟨true, some block⟩ lowMemory x y transparent).stores =
      display.withImage x y image.width image.height (imageColor image) transparent mem := by
  rw [stores_eq_imagePixels display hbytes hwidth hheight]
  exact congrArg _ (List.flatMap_congr fun p _ => storeWord_eq_write p)

end Drawn

/-! ### With memory to spare -/

/-- The word `0x00RRGGBB`. -/
def rgbWord (red green blue : BitVec 8) : BitVec 32 := (0 : BitVec 8) ++ (red ++ (green ++ blue))

theorem gimpColor_eq_rgbWord (src : ℕ → BitVec 8) (k : ℕ) :
    gimpColor src k = rgbWord (src (3 * k)) (src (3 * k + 1)) (src (3 * k + 2)) := by
  unfold gimpColor rgbWord
  generalize src (3 * k) = red
  generalize src (3 * k + 1) = green
  generalize src (3 * k + 2) = blue
  ext i hi
  have hmask : (0xffffff : BitVec 32)[i] = decide (i < 24) := by
    interval_cases i <;> simp
  rw [BitVec.getElem_and, hmask]
  grind

/-- The colour of the pixel in a column and a row of an image with three bytes a pixel. -/
def GimpImage.wordAt (image : GimpImage) (col row : ℕ) : BitVec 32 :=
  let k := row * image.width + col
  rgbWord (image.pixelData (3 * k)) (image.pixelData (3 * k + 1)) (image.pixelData (3 * k + 2))

/-- **What is drawn.** Of an image with three bytes a pixel that is on the display, every pixel that
is not transparent is in its place, the other words of the frame stay, the bytes of the image are
read and no others, and the function returns 1. The sides of the display are in the range of
`biWidth` and `biHeight`. -/
theorem image_blit_correct (display : VipFrameReader) (hwidth : display.width < 2 ^ 15)
    (hheight : display.height < 2 ^ 15) (image : GimpImage) (hbytes : image.bytesPerPixel = 3)
    (x y : ℤ) (hin : (Box.mk x y (x + image.width) (y + image.height)).Within display.box)
    (transparent : BitVec 32) (block lowMemory : ℕ → BitVec 8) (mem : ℤ → BitVec 8) :
    let run := dispImageFromGimpRun display image ⟨true, some block⟩ lowMemory x y transparent
    let after := Canvas.paint mem run.stores
    (∀ j < image.height, ∀ i < image.width, display.frameWord after (x + i, y + j) =
        if image.wordAt i j ≠ transparent then image.wordAt i j
        else display.frameWord mem (x + i, y + j)) ∧
      (∀ q ∈ display.box.area, q ∉ (Box.mk x y (x + image.width) (y + image.height)).area →
        display.frameWord after q = display.frameWord mem q) ∧
      (∀ n, n ∈ run.reads ↔ n < 3 * (image.width * image.height)) ∧
      (∀ pixelData : ℕ → BitVec 8, (∀ n ∈ run.reads, pixelData n = image.pixelData n) →
        dispImageFromGimpRun display { image with pixelData := pixelData } ⟨true, some block⟩
          lowMemory x y transparent = run) ∧
      run.result = 1 := by
  intro run after
  have hw : (image.width : ℤ) ≤ display.width := by
    have hlo := hin.1.1
    have hhi := hin.1.2
    simp only [VipFrameReader.box] at hlo hhi
    omega
  have hh : (image.height : ℤ) ≤ display.height := by
    have hlo := hin.2.1
    have hhi := hin.2.2
    simp only [VipFrameReader.box] at hlo hhi
    omega
  have hafter : after =
      display.withImage x y image.width image.height (imageColor image) transparent mem :=
    paint_stores_eq_withImage (.inl hbytes) (by omega) (by omega)
  have hcolor (i j : ℕ) : imageColor image (j * image.width + i) = image.wordAt i j := by
    rw [imageColor, if_pos hbytes, gimpColor_eq_rgbWord]
    rfl
  refine ⟨fun j hj i hi => ?_, fun q hq hout => ?_, fun n => ?_,
    fun _ => dispImageFromGimpRun_congr, rfl⟩
  · rw [hafter, ← hcolor]
    exact frameWord_withImage (imageColor image) transparent mem hin hj hi
  · rw [hafter]
    exact frameWord_withImage_of_not_mem (imageColor image) transparent mem hin hq hout
  · have hreads : run.reads = loadReads image image.width image.height := by
      unfold run
      rw [reads_dispImageFromGimpRun, toInt_ofNat_short (by omega), toInt_ofNat_short (by omega),
        Int.toNat_natCast, Int.toNat_natCast]
    rw [hreads, mem_loadReads, hbytes, Nat.mul_comm 3, Nat.mul_comm image.width]
    simp

/-- Two rows of two pixels in the corner of a grey frame; the second one is transparent. -/
theorem image_blit_corner :
    let bytes : List (BitVec 8) := [0xff, 0x80, 0x40, 0, 0, 0, 0x12, 0x34, 0x56, 0xfe, 0xff, 0xff]
    let image : GimpImage := ⟨2, 2, 3, fun n => bytes.getD n 0⟩
    let run := dispImageFromGimpRun (swFrame 0) image ⟨true, some fun _ => 0⟩ (fun _ => 0) 798 598 0
    let word := (swFrame 0).frameWord (Canvas.paint (fun _ => 0x77) run.stores)
    word (798, 598) = 0xff8040 ∧ word (799, 598) = 0x77777777 ∧ word (798, 599) = 0x123456 ∧
      word (799, 599) = 0xfeffff ∧ word (797, 599) = 0x77777777 ∧ 11 ∈ run.reads ∧
      12 ∉ run.reads ∧ run.result = 1 := by
  intro bytes image run word
  obtain ⟨hpixels, hothers, hreads, -, hresult⟩ := image_blit_correct (swFrame 0) (by decide)
    (by decide) image rfl 798 598 (by decide) 0 (fun _ => 0) (fun _ => 0) fun _ => 0x77
  refine ⟨(hpixels 0 (by decide) 0 (by decide)).trans (by decide),
    (hpixels 0 (by decide) 1 (by decide)).trans (by decide),
    (hpixels 1 (by decide) 0 (by decide)).trans (by decide),
    (hpixels 1 (by decide) 1 (by decide)).trans (by decide),
    hothers (797, 599) (by decide) (by decide), (hreads 11).mpr (by decide),
    fun h => absurd ((hreads 12).mp h) (by decide), hresult⟩

/-! ### Without memory -/

/-- One of the allocations fails. -/
def Allocations.Fail (malloc : Allocations) : Prop := malloc.bitmap = false ∨ malloc.data = none

/-- No word of a frame is changed, every pointer that is dereferenced points to a block, every block
is freed, and the function returns 0. -/
def ImageRun.FailedCleanly (run : ImageRun) : Prop :=
  (∀ mem, Canvas.paint mem run.stores = mem) ∧
    (∀ p ∈ run.pointers, ∃ block ∈ run.allocated, p = some block) ∧
    (∀ block ∈ run.allocated, some block ∈ run.freed) ∧ run.result = 0

/-- Every pixel has a place on the display, its three colours are read, and afterwards the frame
shows it there, or what it showed before if the pixel is transparent. -/
def ImageRun.DrewCompletely (run : ImageRun) (display : VipFrameReader) (image : GimpImage)
    (x y : ℤ) (transparent : BitVec 32) : Prop :=
  ∀ j < image.height, ∀ i < image.width,
    let k := j * image.width + i
    (x + i, y + j) ∈ display.box.area ∧ (∀ c < 3, k * image.bytesPerPixel + c ∈ run.reads) ∧
      ∀ mem, display.frameWord (Canvas.paint mem run.stores) (x + i, y + j) =
        if imageColor image k ≠ transparent then imageColor image k
        else display.frameWord mem (x + i, y + j)

/-- An image that `load_gimp_bmp` loads as a whole: its sides are in the range of `short`, and it
has three or four bytes a pixel. -/
def GimpImage.Loads (image : GimpImage) : Prop :=
  (image.bytesPerPixel = 3 ∨ image.bytesPerPixel = 4) ∧ image.width < 2 ^ 15 ∧
    image.height < 2 ^ 15

theorem toNat_toInt_ofNat_le (n : ℕ) :
    (BitVec.ofNat 16 n).toInt.toNat ≤ n ∧ (BitVec.ofNat 16 n).toInt.toNat < 2 ^ 15 := by
  rw [BitVec.toInt_ofNat', Int.bmod_def]
  omega

section Cleanly

variable {display : VipFrameReader} {image : GimpImage} {x y : ℤ} {transparent : BitVec 32}

/-- An image that loads and lies on the display is drawn as a whole. -/
theorem drewCompletely (hloads : image.Loads)
    (hin : (Box.mk x y (x + image.width) (y + image.height)).Within display.box)
    (block lowMemory : ℕ → BitVec 8) :
    (dispImageFromGimpRun display image ⟨true, some block⟩ lowMemory x y
      transparent).DrewCompletely display image x y transparent := by
  obtain ⟨hbytes, hwidth, hheight⟩ := hloads
  intro j hj i hi
  refine ⟨place_mem_box hin hj hi, fun c hc => ?_, fun mem => ?_⟩
  · rw [reads_dispImageFromGimpRun, toInt_ofNat_short hwidth, toInt_ofNat_short hheight,
      Int.toNat_natCast, Int.toNat_natCast, mem_loadReads]
    exact ⟨hbytes, index_lt (index_lt hj hi) (by omega)⟩
  · rw [paint_stores_eq_withImage hbytes hwidth hheight]
    exact frameWord_withImage (imageColor image) transparent mem hin hj hi

/-- What is drawn as a whole lies on the display, unless it has no pixels. -/
theorem within_of_drewCompletely {run : ImageRun}
    (h : run.DrewCompletely display image x y transparent)
    (hwidth : 0 < image.width) (hheight : 0 < image.height) :
    (Box.mk x y (x + image.width) (y + image.height)).Within display.box := by
  have hfirst := (h 0 hheight 0 hwidth).1
  have hlast := (h (image.height - 1) (by omega) (image.width - 1) (by omega)).1
  unfold Box.Within
  rw [Box.mem_area] at hfirst hlast
  dsimp only [VipFrameReader.box] at hfirst hlast ⊢
  omega

/-- Of other images something is left out, unless they have no pixels. -/
theorem loads_of_drewCompletely {block lowMemory : ℕ → BitVec 8}
    (h : (dispImageFromGimpRun display image ⟨true, some block⟩ lowMemory x y
      transparent).DrewCompletely display image x y transparent)
    (hwidth : 0 < image.width) (hheight : 0 < image.height) : image.Loads := by
  -- The first byte of the last pixel is read.
  have hlast := (h (image.height - 1) (by omega) (image.width - 1) (by omega)).2.1 0 (by decide)
  rw [reads_dispImageFromGimpRun, mem_loadReads] at hlast
  obtain ⟨hbytes, hlt⟩ := hlast
  obtain ⟨hw, hw15⟩ := toNat_toInt_ofNat_le image.width
  obtain ⟨hh, hh15⟩ := toNat_toInt_ofNat_le image.height
  generalize (BitVec.ofNat 16 image.width).toInt.toNat = w at *
  generalize (BitVec.ofNat 16 image.height).toInt.toNat = h' at *
  have hcount : (image.height - 1) * image.width + (image.width - 1) + 1 =
      image.height * image.width := by
    rw [Nat.sub_mul, Nat.one_mul]
    have hle : image.width ≤ image.height * image.width := Nat.le_mul_of_pos_left _ hheight
    omega
  have hpixels : image.height * image.width ≤ h' * w := by
    rw [← hcount]
    exact Nat.lt_of_mul_lt_mul_right hlt
  refine ⟨hbytes, ?_, ?_⟩
  · by_contra hwide
    have hcut : h' * w < image.height * image.width :=
      calc h' * w ≤ image.height * w := Nat.mul_le_mul_right w hh
        _ < image.height * image.width := Nat.mul_lt_mul_of_pos_left (by omega) hheight
    omega
  · by_contra htall
    have hcut : h' * w < image.height * image.width :=
      calc h' * w ≤ h' * image.width := Nat.mul_le_mul_left h' hw
        _ < image.height * image.width := Nat.mul_lt_mul_of_pos_right (by omega) hwidth
    omega

end Cleanly

/-- **When the function fails cleanly and returns 1 only after drawing everything.** It does so if
the bitmap cannot be allocated, and else only if its data can be, and the image loads and lies on
the display, or has no pixels. -/
theorem disp_image_cleanly_iff (display : VipFrameReader) (image : GimpImage)
    (malloc : Allocations) (lowMemory : ℕ → BitVec 8) (x y : ℤ) (transparent : BitVec 32) :
    let run := dispImageFromGimpRun display image malloc lowMemory x y transparent
    (malloc.Fail → run.FailedCleanly) ∧
        (run.result = 1 → run.DrewCompletely display image x y transparent) ↔
      malloc.bitmap = false ∨
        malloc.data ≠ none ∧ (image.width = 0 ∨ image.height = 0 ∨ image.Loads ∧
          (Box.mk x y (x + image.width) (y + image.height)).Within display.box) := by
  intro run
  obtain ⟨bitmap, data⟩ := malloc
  cases bitmap with
  | false =>
    -- The function has done nothing and returns 0.
    have hrun : run = ⟨[], [], [], [], [], 0⟩ := by
      simp only [run, dispImageFromGimpRun, Bool.false_eq_true, if_false]
    rw [hrun]
    refine ⟨fun _ => .inl rfl, fun _ => ⟨fun _ => ⟨fun _ => rfl, ?_, ?_, rfl⟩, fun h => ?_⟩⟩
    · simp
    · simp
    · exact absurd h (by decide)
  | true =>
    have hresult : run.result = 1 := by
      simp only [run, dispImageFromGimpRun, if_true]
    cases data with
    | none =>
      constructor
      · rintro ⟨hclean, -⟩
        have hzero := (hclean (.inr rfl)).2.2.2
        rw [hresult] at hzero
        exact absurd hzero (by decide)
      · rintro (h | ⟨h, -⟩)
        · exact absurd h (by decide)
        · exact absurd rfl h
    | some block =>
      constructor
      · rintro ⟨-, hdrew⟩
        refine .inr ⟨Option.some_ne_none block, ?_⟩
        by_cases hempty : image.width = 0 ∨ image.height = 0
        · exact hempty.imp_right .inl
        · rw [not_or] at hempty
          have hall := hdrew hresult
          exact .inr (.inr ⟨loads_of_drewCompletely hall (by omega) (by omega),
            within_of_drewCompletely hall (by omega) (by omega)⟩)
      · rintro (h | ⟨-, hempty⟩)
        · cases h
        · refine ⟨fun hfail => ?_, fun _ => ?_⟩
          · rcases hfail with h | h
            · cases h
            · exact absurd h (Option.some_ne_none block)
          · rcases hempty with hwidth | hheight | ⟨hloads, hin⟩
            · intro j _ i hi
              omega
            · intro j hj
              omega
            · exact drewCompletely hloads hin block lowMemory

/-- Without memory for the data, the function draws what it reads through a null pointer. -/
theorem disp_image_through_null :
    ¬ ∀ (display : VipFrameReader) (image : GimpImage) (malloc : Allocations)
      (lowMemory : ℕ → BitVec 8) (x y : ℤ) (transparent : BitVec 32),
      let run := dispImageFromGimpRun display image malloc lowMemory x y transparent
      (malloc.Fail → run.FailedCleanly) ∧
        (run.result = 1 → run.DrewCompletely display image x y transparent) := by
  intro hall
  have hclean := (hall (swFrame 0) ⟨1, 1, 3, fun _ => 0⟩ ⟨true, none⟩ (fun _ => 0) 0 0 1).1
    (.inr rfl)
  obtain ⟨block, -, hnull⟩ := hclean.2.1 none (by decide)
  exact absurd hnull (by simp)

end DigitalModulation
