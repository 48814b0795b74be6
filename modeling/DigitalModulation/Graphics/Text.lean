import DigitalModulation.Graphics.Pixels

/-!
# `simple_text.c`: strings

A string is printed character by character, each one filling the box of its glyph with the colour
of the text mixed into the background.

* `AbcFontStruct`, `Font`, `tahomabold20`: a glyph, a font, and the font of the buttons;
* `seperateColorChannels`, `mergeColorChannels`, `alphaBlending`: colours;
* `vidPrintCharAlpha`, `vidPrintStringAlpha`, `vidStringPixelLengthAlpha`: the functions;
* `footprint_vidPrintStringAlpha`: where a text on one line is printed.
-/

namespace DigitalModulation

/-- The fields of `abc_font_struct` that printing uses. -/
structure AbcFontStruct where
  boundsWidth : ℕ
  boundsHeight : ℕ
  charAlphaMap : ℕ → BitVec 8

/-- The glyphs from `'!'` on. -/
abbrev Font := ℕ → AbcFontStruct

/-- `font[character - 33]`. -/
def Font.glyph (font : Font) (character : Char) : AbcFontStruct := font (character.toNat - 33)

def tahomabold20Widths : List ℕ :=
  [7, 10, 16, 13, 24, 17, 6, 9, 9, 13, 16, 6, 9, 6, 12, 13, 13, 13, 13, 13, 13, 13, 13, 13, 13, 7,
    7, 16, 16, 16, 11, 18, 14, 14, 13, 15, 12, 12, 15, 15, 10, 10, 14, 11, 18, 15, 15, 13, 15, 15,
    13, 12, 15, 14, 21, 14, 14, 12, 9, 12, 9, 16, 13, 11, 12, 13, 11, 13, 12, 8, 13, 13, 6, 9, 12,
    6, 19, 13, 12, 13, 13, 9, 10, 8, 13, 12, 18, 12, 12, 11, 12, 13, 12, 16]

/-- `tahomabold_20`, with its alpha maps. -/
def tahomabold20 (charAlphaMap : ℕ → ℕ → BitVec 8) : Font :=
  fun i => ⟨tahomabold20Widths.getD i 0, 26, charAlphaMap i⟩

/-! ### Colours -/

structure Channels where
  red : BitVec 8
  green : BitVec 8
  blue : BitVec 8

/-- `seperate_color_channels`. -/
def seperateColorChannels (colorDepth : ℤ) (color : BitVec 32) : Channels :=
  if colorDepth = 16 then
    ⟨((color >>> 11) &&& 0x1F).setWidth 8, ((color >>> 5) &&& 0x3F).setWidth 8,
      (color &&& 0x1F).setWidth 8⟩
  else if colorDepth = 24 ∨ colorDepth = 32 then
    ⟨(color >>> 16).setWidth 8, (color >>> 8).setWidth 8, color.setWidth 8⟩
  else ⟨0, 0, 0⟩

/-- `merge_color_channels`: the bytes of a colour that are not written stay. -/
def mergeColorChannels (colorDepth : ℤ) (c : Channels) (color : BitVec 32) : BitVec 32 :=
  if colorDepth = 16 then
    color.extractLsb' 16 16 ++
      (((c.blue &&& 0x1F).setWidth 16) ||| ((c.green &&& 0x3F).setWidth 16 <<< 5) |||
        ((c.red &&& 0x1F).setWidth 16 <<< 11))
  else if colorDepth = 24 ∨ colorDepth = 32 then
    color.extractLsb' 24 8 ++ (c.red ++ (c.green ++ c.blue))
  else color.extractLsb' 24 8 ++ (0 : BitVec 24)

/-- One channel in `alpha_blending`, clipped. -/
def blend (channel background alpha : BitVec 8) (max : ℕ) : BitVec 8 :=
  let blended := (channel.toNat * alpha.toNat + background.toNat * (255 - alpha.toNat)) / 255
  BitVec.ofNat 8 (if max < blended then max else blended)

def clearBackground : BitVec 32 := -1

/-- What printing reads besides its arguments: what `read_from_frame` returns, and what `new_color`
holds before it is written. -/
structure PrintMemory where
  readFromFrame : ℤ → ℤ → Channels
  newColor : ℤ → ℤ → BitVec 32

/-- `alpha_blending`. -/
def alphaBlending (mem : PrintMemory) (horizOffset vertOffset : ℤ) (backgroundColor : BitVec 32)
    (alpha : BitVec 8) (c : Channels) (colorDepth : ℤ) : Channels :=
  let background := if backgroundColor = clearBackground then
    mem.readFromFrame horizOffset vertOffset else seperateColorChannels colorDepth backgroundColor
  if colorDepth = 16 then
    ⟨blend c.red background.red alpha 0x1F, blend c.green background.green alpha 0x3F,
      blend c.blue background.blue alpha 0x1F⟩
  else if colorDepth = 24 ∨ colorDepth = 32 then
    ⟨blend c.red background.red alpha 0xFF, blend c.green background.green alpha 0xFF,
      blend c.blue background.blue alpha 0xFF⟩
  else c

/-! ### Characters and strings -/

section Print

variable (mem : PrintMemory) (font : Font) (display : VipFrameReader)

/-- `vid_print_char_alpha`. -/
def vidPrintCharAlpha (horizOffset vertOffset : ℤ) (color : BitVec 32) (character : Char)
    (backgroundColor : BitVec 32) : List Pixel :=
  let glyph := font.glyph character
  let original := seperateColorChannels display.colorDepth color
  raster horizOffset vertOffset glyph.boundsWidth glyph.boundsHeight fun i j =>
    mergeColorChannels display.colorDepth
      (alphaBlending mem (horizOffset + j) (vertOffset + i) backgroundColor
        (glyph.charAlphaMap (i * glyph.boundsWidth + j)) original display.colorDepth)
      (mem.newColor (horizOffset + j) (vertOffset + i))

def tabSpacing : ℕ := 2

/-- The places left for a space or a tab, as wide as `'-'` each, filled if there is a background. -/
def printSpaces (horizOffset vertOffset : ℤ) (backgroundColor : BitVec 32) (n : ℕ) : List Pixel :=
  (List.range n).flatMap fun tab : ℕ =>
    if backgroundColor = clearBackground then []
    else vidPrintCharAlpha mem font display (horizOffset + tab * (font.glyph '-').boundsWidth)
      vertOffset backgroundColor '-' backgroundColor

/-- The loop of `vid_print_string_alpha` over the characters that are left. -/
def printFrom (originalHorizOffset : ℤ) (color backgroundColor : BitVec 32) :
    ℤ → ℤ → List Char → List Pixel
  | _, _, [] => []
  | horizOffset, vertOffset, c :: cs =>
    if c = '\n' then
      printFrom originalHorizOffset color backgroundColor originalHorizOffset
        (vertOffset + (font.glyph '|').boundsHeight) cs
    else if c = ' ' then
      printSpaces mem font display horizOffset vertOffset backgroundColor 1 ++
        printFrom originalHorizOffset color backgroundColor
          (horizOffset + (font.glyph '-').boundsWidth) vertOffset cs
    else if c = '\t' then
      printSpaces mem font display horizOffset vertOffset backgroundColor tabSpacing ++
        printFrom originalHorizOffset color backgroundColor
          (horizOffset + tabSpacing * (font.glyph '-').boundsWidth) vertOffset cs
    else
      vidPrintCharAlpha mem font display horizOffset vertOffset color c backgroundColor ++
        printFrom originalHorizOffset color backgroundColor
          (horizOffset + (font.glyph c).boundsWidth) vertOffset cs

/-- `vid_print_string_alpha`. -/
def vidPrintStringAlpha (horizOffset vertOffset : ℤ) (color backgroundColor : BitVec 32)
    (string : String) : List Pixel :=
  printFrom mem font display horizOffset color backgroundColor horizOffset vertOffset string.toList

end Print

/-- The width of a character in `vid_string_pixel_length_alpha`. -/
def charLength (font : Font) (c : Char) : ℕ :=
  if c = ' ' then (font.glyph '-').boundsWidth else (font.glyph c).boundsWidth

/-- `vid_string_pixel_length_alpha`. -/
def vidStringPixelLengthAlpha (font : Font) (string : String) : ℕ :=
  (string.toList.map (charLength font)).sum

/-- Of the display only the depth matters. -/
theorem vidPrintStringAlpha_congr (mem : PrintMemory) (font : Font)
    {display display' : VipFrameReader} (h : display.colorDepth = display'.colorDepth)
    (horizOffset vertOffset : ℤ) (color backgroundColor : BitVec 32) (string : String) :
    vidPrintStringAlpha mem font display horizOffset vertOffset color backgroundColor string =
      vidPrintStringAlpha mem font display' horizOffset vertOffset color backgroundColor
        string := by
  have hchar : vidPrintCharAlpha mem font display = vidPrintCharAlpha mem font display' := by
    unfold vidPrintCharAlpha
    simp only [h]
  have hspaces : printSpaces mem font display = printSpaces mem font display' := by
    unfold printSpaces
    simp only [hchar]
  have hfrom (original horizOffset vertOffset : ℤ) (cs : List Char) :
      printFrom mem font display original color backgroundColor horizOffset vertOffset cs =
        printFrom mem font display' original color backgroundColor horizOffset vertOffset cs := by
    induction cs generalizing horizOffset vertOffset with
    | nil => rfl
    | cons c cs ih => simp only [printFrom, hchar, hspaces, ih]
  exact hfrom horizOffset horizOffset vertOffset string.toList

/-! ### How far a text goes -/

section Extent

variable {mem : PrintMemory} {font : Font} {display : VipFrameReader}

theorem footprint_vidPrintCharAlpha (horizOffset vertOffset : ℤ) (color backgroundColor : BitVec 32)
    (c : Char) :
    footprint (vidPrintCharAlpha mem font display horizOffset vertOffset color c backgroundColor) =
      (Box.mk horizOffset vertOffset (horizOffset + (font.glyph c).boundsWidth)
        (vertOffset + (font.glyph c).boundsHeight)).area :=
  footprint_raster horizOffset vertOffset _ _ _

/-- No character of the text starts a line or is a tab. -/
def OneLine (cs : List Char) : Prop := ∀ c ∈ cs, c ≠ '\n' ∧ c ≠ '\t'

instance (cs : List Char) : Decidable (OneLine cs) :=
  List.decidableBAll (fun c => c ≠ '\n' ∧ c ≠ '\t') cs

/-- What one character of a line prints: its glyph, or `'-'` in the colour of the background. -/
def printOne (mem : PrintMemory) (font : Font) (display : VipFrameReader)
    (horizOffset vertOffset : ℤ) (color backgroundColor : BitVec 32) (c : Char) : List Pixel :=
  if c = ' ' then printSpaces mem font display horizOffset vertOffset backgroundColor 1
  else vidPrintCharAlpha mem font display horizOffset vertOffset color c backgroundColor

theorem printFrom_cons {originalHorizOffset horizOffset vertOffset : ℤ}
    {color backgroundColor : BitVec 32} {c : Char} {cs : List Char} (hc : c ≠ '\n' ∧ c ≠ '\t') :
    printFrom mem font display originalHorizOffset color backgroundColor horizOffset vertOffset
        (c :: cs) =
      printOne mem font display horizOffset vertOffset color backgroundColor c ++
        printFrom mem font display originalHorizOffset color backgroundColor
          (horizOffset + charLength font c) vertOffset cs := by
  simp only [printFrom, printOne, charLength, if_neg hc.1, if_neg hc.2]
  split_ifs <;> rfl

theorem printSpaces_one {horizOffset vertOffset : ℤ} {backgroundColor : BitVec 32}
    (hbackground : backgroundColor ≠ clearBackground) :
    printSpaces mem font display horizOffset vertOffset backgroundColor 1 =
      vidPrintCharAlpha mem font display horizOffset vertOffset backgroundColor '-'
        backgroundColor := by
  simp [printSpaces, hbackground]

/-- All glyphs of the font are of one height. -/
def Font.HasHeight (font : Font) (height : ℕ) : Prop := ∀ i, (font i).boundsHeight = height

theorem footprint_printOne {height : ℕ} (hfont : font.HasHeight height)
    (horizOffset vertOffset : ℤ) (color : BitVec 32) {backgroundColor : BitVec 32}
    (hbackground : backgroundColor ≠ clearBackground) (c : Char) :
    footprint (printOne mem font display horizOffset vertOffset color backgroundColor c) =
      (Box.mk horizOffset vertOffset (horizOffset + charLength font c)
        (vertOffset + height)).area := by
  unfold printOne charLength
  split_ifs with hspace
  · rw [printSpaces_one hbackground, footprint_vidPrintCharAlpha, ← hfont ('-'.toNat - 33)]
    rfl
  · rw [footprint_vidPrintCharAlpha, ← hfont (c.toNat - 33)]
    rfl

theorem footprint_printFrom {height : ℕ} (hfont : font.HasHeight height)
    (originalHorizOffset horizOffset vertOffset : ℤ) (color : BitVec 32)
    {backgroundColor : BitVec 32} (hbackground : backgroundColor ≠ clearBackground)
    {cs : List Char} (hline : OneLine cs) :
    footprint (printFrom mem font display originalHorizOffset color backgroundColor horizOffset
        vertOffset cs) =
      (Box.mk horizOffset vertOffset (horizOffset + (cs.map (charLength font)).sum)
        (vertOffset + height)).area := by
  induction cs generalizing horizOffset with
  | nil =>
    -- The box of no characters has no column.
    ext q
    simp only [printFrom, footprint_nil, Set.mem_empty_iff_false, false_iff, Box.mem_area,
      List.map_nil, List.sum_nil]
    omega
  | cons c cs ih =>
    obtain ⟨hc, hcs⟩ := List.forall_mem_cons.mp hline
    rw [printFrom_cons hc, footprint_append, ih _ hcs,
      footprint_printOne hfont horizOffset vertOffset color hbackground c, List.map_cons,
      List.sum_cons]
    ext q
    simp only [Set.mem_union, Box.mem_area]
    omega

/-- **Where a text on one line is printed**: in the box that its length and its height make up. -/
theorem footprint_vidPrintStringAlpha {height : ℕ} (hfont : font.HasHeight height)
    (horizOffset vertOffset : ℤ) (color : BitVec 32) {backgroundColor : BitVec 32}
    (hbackground : backgroundColor ≠ clearBackground) {string : String}
    (hline : OneLine string.toList) :
    footprint (vidPrintStringAlpha mem font display horizOffset vertOffset color backgroundColor
        string) =
      (Box.mk horizOffset vertOffset (horizOffset + vidStringPixelLengthAlpha font string)
        (vertOffset + height)).area :=
  footprint_printFrom hfont horizOffset horizOffset vertOffset color hbackground hline

end Extent

/-! ### The font of the buttons -/

theorem tahomabold20_hasHeight (charAlphaMap : ℕ → ℕ → BitVec 8) :
    (tahomabold20 charAlphaMap).HasHeight 26 := fun _ => rfl

/-- `SPEAK NOW` is as long as its nine characters, the space as wide as `'-'`. -/
example (charAlphaMap : ℕ → ℕ → BitVec 8) :
    vidStringPixelLengthAlpha (tahomabold20 charAlphaMap) "SPEAK NOW" = 126 := by
  rfl

end DigitalModulation
