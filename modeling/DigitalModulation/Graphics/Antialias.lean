import DigitalModulation.Graphics.PixelBytes
import DigitalModulation.Graphics.Frame
import DigitalModulation.Lib.Mixture
import Mathlib.Tactic.IntervalCases

/-!
# `vid_print_char_alpha`

The pixels of a glyph are set one after another, each in the colour of the text mixed with its
background, which is a colour or what the frame holds at that time.

* `readFromFrame`: a pixel of the frame, by its channels;
* `PrintState`, `printPixel`, `printTurns`: the loops, with the frame as their state;
* `mem_printTurns`: they set the pixels of `vidPrintCharAlpha`, mixed with what the frame held at
  first;
* `blend_eq_mix`: nothing is clipped;
* `antialiased_text_correct`: the channels of the pixels, and that no others change.
-/

namespace DigitalModulation

/-! ### Channels of pixels -/

/-- `read_from_frame`. -/
def readFromFrame (display : VipFrameReader) (mem : ℤ → BitVec 8) (horiz vert : ℤ) : Channels :=
  if display.colorDepth = 32 then
    let addr := display.getDrawFrame + (vert * display.width * 4 + horiz * 4)
    let tempColor : BitVec 32 := mem (addr + 3) ++ (mem (addr + 2) ++ (mem (addr + 1) ++ mem addr))
    ⟨((tempColor >>> 16) &&& 0xFF).setWidth 8, ((tempColor >>> 8) &&& 0xFF).setWidth 8,
      (tempColor &&& 0xFF).setWidth 8⟩
  else if display.colorDepth = 24 then
    let addr := display.getDrawFrame + (vert * display.width * 3 + horiz * 3)
    ⟨mem (addr + 2), mem (addr + 1), mem addr⟩
  else if display.colorDepth = 16 then
    let addr := display.getDrawFrame + (vert * display.width * 2 + horiz * 2)
    let tempColor : BitVec 32 := (mem (addr + 1) ++ mem addr).setWidth 32
    ⟨((tempColor >>> 11) &&& 0x1F).setWidth 8, ((tempColor >>> 5) &&& 0x3F).setWidth 8,
      (tempColor &&& 0x1F).setWidth 8⟩
  else ⟨0, 0, 0⟩

/-- What `read_from_frame` makes of the bytes of a pixel. -/
def channelsOf (colorDepth : ℤ) (bytes : List (BitVec 8)) : Channels :=
  let byte (i : ℕ) := bytes.getD i 0
  if colorDepth = 32 then
    let tempColor : BitVec 32 := byte 3 ++ (byte 2 ++ (byte 1 ++ byte 0))
    ⟨((tempColor >>> 16) &&& 0xFF).setWidth 8, ((tempColor >>> 8) &&& 0xFF).setWidth 8,
      (tempColor &&& 0xFF).setWidth 8⟩
  else if colorDepth = 24 then ⟨byte 2, byte 1, byte 0⟩
  else if colorDepth = 16 then
    let tempColor : BitVec 32 := (byte 1 ++ byte 0).setWidth 32
    ⟨((tempColor >>> 11) &&& 0x1F).setWidth 8, ((tempColor >>> 5) &&& 0x3F).setWidth 8,
      (tempColor &&& 0x1F).setWidth 8⟩
  else ⟨0, 0, 0⟩

section Channels

variable {display : VipFrameReader}

theorem pixelBytes_eq (mem : ℤ → BitVec 8) (q : ℤ × ℤ) :
    display.pixelBytes mem q = (List.range display.bytesPerPixel).map fun i : ℕ =>
      mem (display.getDrawFrame + display.pixelIndex q * display.bytesPerPixel + i) :=
  rfl

theorem readFromFrame_eq (h : display.HasDepth) (mem : ℤ → BitVec 8) (q : ℤ × ℤ) :
    readFromFrame display mem q.1 q.2 =
      channelsOf display.colorDepth (display.pixelBytes mem q) := by
  rcases h with h | h | h
  all_goals
    have haddr (n : ℤ) : q.2 * display.width * n + q.1 * n = display.pixelIndex q * n := by
      unfold VipFrameReader.pixelIndex
      ring
    simp [readFromFrame, channelsOf, pixelBytes_eq, VipFrameReader.bytesPerPixel, h, haddr,
      List.range_succ]

/-- Reading a pixel splits up the colour it has. -/
theorem channelsOf_colorBytes (h : display.HasDepth) (color : BitVec 32) :
    channelsOf display.colorDepth (colorBytes display color) =
      seperateColorChannels display.colorDepth color := by
  rcases h with h | h | h
  · simp only [channelsOf, colorBytes, seperateColorChannels, h, Int.reduceEq, if_true, if_false,
      List.getD_cons_zero, List.getD_cons_succ, short_bytes]
    congr 1 <;> ext i hi <;> interval_cases i <;> simp
  · simp only [channelsOf, colorBytes, seperateColorChannels, h, Int.reduceEq, if_true, if_false,
      List.getD_cons_zero, List.getD_cons_succ, true_or]
  · simp only [channelsOf, colorBytes, seperateColorChannels, h, Int.reduceEq, if_true, if_false,
      List.getD_cons_zero, List.getD_cons_succ, or_true, color_bytes]
    congr 1 <;> ext i hi <;> interval_cases i <;> simp

end Channels

inductive Channel
  | red
  | green
  | blue

def Channels.get (c : Channels) : Channel → BitVec 8
  | .red => c.red
  | .green => c.green
  | .blue => c.blue

theorem Channels.ext_get {c c' : Channels} (h : ∀ ch, c.get ch = c'.get ch) : c = c' := by
  obtain ⟨red, green, blue⟩ := c
  obtain ⟨red', green', blue'⟩ := c'
  exact congr (congr (congrArg Channels.mk (h .red)) (h .green)) (h .blue)

/-- The largest value of a channel. -/
def Channel.max (colorDepth : ℤ) : Channel → ℕ
  | .red | .blue => if colorDepth = 16 then 0x1F else 0xFF
  | .green => if colorDepth = 16 then 0x3F else 0xFF

theorem Channel.max_le (colorDepth : ℤ) (ch : Channel) : ch.max colorDepth ≤ 255 := by
  cases ch <;> unfold Channel.max <;> split_ifs <;> decide

/-- Every channel has a value that the depth allows. -/
def Channels.InRange (colorDepth : ℤ) (c : Channels) : Prop :=
  ∀ ch, (c.get ch).toNat ≤ ch.max colorDepth

theorem inRange_of_ne {colorDepth : ℤ} (h : colorDepth ≠ 16) (c : Channels) :
    c.InRange colorDepth := by
  intro ch
  have hlt := (c.get ch).isLt
  cases ch <;> rw [Channel.max, if_neg h] <;> omega

theorem toNat_mask_le (x : BitVec 32) {m : BitVec 32} {n : ℕ} (hm : m.toNat ≤ n) :
    ((x &&& m).setWidth 8).toNat ≤ n := by
  rw [BitVec.toNat_setWidth, BitVec.toNat_and]
  exact (Nat.mod_le _ _).trans (Nat.and_le_right.trans hm)

theorem seperateColorChannels_inRange (colorDepth : ℤ) (color : BitVec 32) :
    (seperateColorChannels colorDepth color).InRange colorDepth := by
  by_cases h : colorDepth = 16
  · rw [seperateColorChannels, if_pos h]
    intro ch
    cases ch <;> rw [Channel.max, if_pos h] <;> exact toNat_mask_le _ (by decide)
  · exact inRange_of_ne h _

theorem channelsOf_inRange (colorDepth : ℤ) (bytes : List (BitVec 8)) :
    (channelsOf colorDepth bytes).InRange colorDepth := by
  by_cases h : colorDepth = 16
  · rw [channelsOf, if_neg (by omega), if_neg (by omega), if_pos h]
    intro ch
    cases ch <;> rw [Channel.max, if_pos h] <;> exact toNat_mask_le _ (by decide)
  · exact inRange_of_ne h _

theorem mask_eq_self {x : BitVec 8} {n : ℕ} (hx : x.toNat ≤ 2 ^ n - 1) {m : BitVec 8}
    (hm : m.toNat = 2 ^ n - 1) : x &&& m = x := by
  have hpos := Nat.two_pow_pos n
  refine BitVec.eq_of_toNat_eq ?_
  rw [BitVec.toNat_and, hm, Nat.and_two_pow_sub_one_of_lt_two_pow (by omega)]

theorem setWidth_append (hi lo : BitVec 16) : (hi ++ lo : BitVec 32).setWidth 16 = lo := by
  ext i hi
  grind

/-- Of a colour with 16 bits only the low half matters. -/
theorem seperateColorChannels_16 (color : BitVec 32) :
    let tempColor := color.setWidth 16
    seperateColorChannels 16 color = ⟨((tempColor >>> 11) &&& 0x1F).setWidth 8,
      ((tempColor >>> 5) &&& 0x3F).setWidth 8, (tempColor &&& 0x1F).setWidth 8⟩ := by
  rw [seperateColorChannels, if_pos rfl]
  congr 1 <;> ext i hi <;> interval_cases i <;> simp

/-- The fields of `temp_color` as it is put together. -/
theorem tempColor_fields (c : Channels) :
    let tempColor : BitVec 16 := (c.blue &&& 0x1F).setWidth 16 |||
      ((c.green &&& 0x3F).setWidth 16 <<< 5) ||| ((c.red &&& 0x1F).setWidth 16 <<< 11)
    ((tempColor >>> 11) &&& 0x1F).setWidth 8 = c.red &&& 0x1F ∧
      ((tempColor >>> 5) &&& 0x3F).setWidth 8 = c.green &&& 0x3F ∧
      (tempColor &&& 0x1F).setWidth 8 = c.blue &&& 0x1F := by
  refine ⟨?_, ?_, ?_⟩ <;> ext i hi <;> interval_cases i <;> simp

/-- Channels in range come back after they were merged, whatever else the colour held. -/
theorem seperate_merge {colorDepth : ℤ} (h : colorDepth = 16 ∨ colorDepth = 24 ∨ colorDepth = 32)
    {c : Channels} (hc : c.InRange colorDepth) (color : BitVec 32) :
    seperateColorChannels colorDepth (mergeColorChannels colorDepth c color) = c := by
  rcases h with rfl | h
  · obtain ⟨hred, hgreen, hblue⟩ := tempColor_fields c
    rw [mergeColorChannels, if_pos rfl, seperateColorChannels_16, setWidth_append, hred, hgreen,
      hblue]
    refine Channels.ext_get fun ch => ?_
    cases ch
    · exact mask_eq_self (n := 5) (hc .red) rfl
    · exact mask_eq_self (n := 6) (hc .green) rfl
    · exact mask_eq_self (n := 5) (hc .blue) rfl
  · have hne : colorDepth ≠ 16 := by omega
    obtain ⟨h₀, h₁, h₂, -⟩ := bytes_append c.blue c.green c.red (color.extractLsb' 24 8)
    rw [seperateColorChannels, mergeColorChannels, if_neg hne, if_pos h, if_neg hne, if_pos h]
    exact Channels.ext_get fun ch => by cases ch <;> assumption

/-! ### Mixing -/

/-- **No channel is clipped.** -/
theorem blend_eq_mix {channel background : BitVec 8} {max : ℕ} (hmax : max ≤ 255)
    (hc : channel.toNat ≤ max) (hb : background.toNat ≤ max) (alpha : BitVec 8) :
    (blend channel background alpha max).toNat =
        Mixture.mix 255 channel.toNat background.toNat alpha.toNat ∧
      Mixture.mix 255 channel.toNat background.toNat alpha.toNat ≤ max := by
  have halpha : alpha.toNat ≤ 255 := Nat.le_of_lt_succ alpha.isLt
  have hle : Mixture.mix 255 channel.toNat background.toNat alpha.toNat ≤ max :=
    (Mixture.mix_le_max halpha).trans (Nat.max_le.mpr ⟨hc, hb⟩)
  refine ⟨?_, hle⟩
  unfold Mixture.mix at hle ⊢
  rw [blend, if_neg (by omega), BitVec.toNat_ofNat, Nat.mod_eq_of_lt (by omega)]

/-- The background of a pixel: a colour, or what the frame holds. -/
def background (display : VipFrameReader) (mem : ℤ → BitVec 8) (backgroundColor : BitVec 32)
    (q : ℤ × ℤ) : Channels :=
  if backgroundColor = clearBackground then readFromFrame display mem q.1 q.2
  else seperateColorChannels display.colorDepth backgroundColor

theorem background_inRange {display : VipFrameReader} (h : display.HasDepth) (mem : ℤ → BitVec 8)
    (backgroundColor : BitVec 32) (q : ℤ × ℤ) :
    (background display mem backgroundColor q).InRange display.colorDepth := by
  unfold background
  split_ifs
  · rw [readFromFrame_eq h]
    exact channelsOf_inRange _ _
  · exact seperateColorChannels_inRange _ _

/-- `alpha_blending`, channel by channel. -/
theorem get_alphaBlending {display : VipFrameReader} (h : display.HasDepth) (mem : PrintMemory)
    (q : ℤ × ℤ) (backgroundColor : BitVec 32) (alpha : BitVec 8) (c : Channels) (ch : Channel) :
    (alphaBlending mem q.1 q.2 backgroundColor alpha c display.colorDepth).get ch =
      blend (c.get ch) ((if backgroundColor = clearBackground then mem.readFromFrame q.1 q.2
        else seperateColorChannels display.colorDepth backgroundColor).get ch) alpha
        (ch.max display.colorDepth) := by
  rcases h with h | h | h <;> cases ch <;> simp [alphaBlending, Channels.get, Channel.max, h]

/-! ### The loops -/

/-- The frame, how far `alpha` was moved on, and what `new_color` holds. -/
structure PrintState where
  mem : ℤ → BitVec 8
  alpha : ℕ
  newColor : BitVec 32

section Print

variable (display : VipFrameReader) (glyph : AbcFontStruct) (original : Channels)
  (backgroundColor : BitVec 32) (horizOffset vertOffset : ℤ)

/-- One turn of the inner loop, for the pixel in a column and a row. -/
def printPixel (s : PrintState) (q : ℤ × ℤ) : PrintState :=
  let c := alphaBlending ⟨readFromFrame display s.mem, fun _ _ => s.newColor⟩ q.1 q.2
    backgroundColor (glyph.charAlphaMap s.alpha) original display.colorDepth
  let newColor := mergeColorChannels display.colorDepth c s.newColor
  ⟨Canvas.paint s.mem (vidSetPixel display (q, newColor)), s.alpha + 1, newColor⟩

/-- Both loops. -/
def printLoops (s : PrintState) : PrintState :=
  (List.range glyph.boundsHeight).foldl (fun s (i : ℕ) =>
    (List.range glyph.boundsWidth).foldl (fun s (j : ℕ) =>
      printPixel display glyph original backgroundColor s (horizOffset + j, vertOffset + i)) s) s

/-- The place of turn `k`. -/
def glyphPlace (k : ℕ) : ℤ × ℤ :=
  (horizOffset + (k % glyph.boundsWidth : ℕ), vertOffset + (k / glyph.boundsWidth : ℕ))

/-- The state after some turns. -/
def printTurns (s : PrintState) : ℕ → PrintState
  | 0 => s
  | n + 1 => printPixel display glyph original backgroundColor (printTurns s n)
    (glyphPlace glyph horizOffset vertOffset n)

theorem glyphPlace_eq (i : ℕ) {j : ℕ} (hj : j < glyph.boundsWidth) :
    glyphPlace glyph horizOffset vertOffset (i * glyph.boundsWidth + j) =
      (horizOffset + j, vertOffset + i) := by
  have hmod : (i * glyph.boundsWidth + j) % glyph.boundsWidth = j := by
    rw [Nat.mul_add_mod', Nat.mod_eq_of_lt hj]
  have hdiv : (i * glyph.boundsWidth + j) / glyph.boundsWidth = i := by
    rw [Nat.add_comm, Nat.add_mul_div_right _ _ (by omega), Nat.div_eq_of_lt hj, Nat.zero_add]
  rw [glyphPlace, hmod, hdiv]

theorem glyphPlace_injective {k k' : ℕ}
    (h : glyphPlace glyph horizOffset vertOffset k = glyphPlace glyph horizOffset vertOffset k') :
    k = k' := by
  obtain ⟨hmod, hdiv⟩ := Prod.mk.inj h
  rw [← Nat.div_add_mod k glyph.boundsWidth, ← Nat.div_add_mod k' glyph.boundsWidth]
  have hmod' : k % glyph.boundsWidth = k' % glyph.boundsWidth := by omega
  have hdiv' : k / glyph.boundsWidth = k' / glyph.boundsWidth := by omega
  rw [hmod', hdiv']

theorem printLoops_eq_printTurns (s : PrintState) :
    printLoops display glyph original backgroundColor horizOffset vertOffset s =
      printTurns display glyph original backgroundColor horizOffset vertOffset s
        (glyph.boundsHeight * glyph.boundsWidth) := by
  have hrow (i n : ℕ) (hn : n ≤ glyph.boundsWidth) :
      (List.range n).foldl (fun s (j : ℕ) =>
          printPixel display glyph original backgroundColor s (horizOffset + j, vertOffset + i))
          (printTurns display glyph original backgroundColor horizOffset vertOffset s
            (i * glyph.boundsWidth)) =
        printTurns display glyph original backgroundColor horizOffset vertOffset s
          (i * glyph.boundsWidth + n) := by
    induction n with
    | zero => rfl
    | succ n ih =>
      rw [List.range_succ, List.foldl_append, ih (by omega), List.foldl_cons, List.foldl_nil,
        ← Nat.add_assoc, printTurns, glyphPlace_eq glyph horizOffset vertOffset i (by omega)]
  have hrows (m : ℕ) :
      (List.range m).foldl (fun s (i : ℕ) =>
          (List.range glyph.boundsWidth).foldl (fun s (j : ℕ) =>
            printPixel display glyph original backgroundColor s
              (horizOffset + j, vertOffset + i)) s) s =
        printTurns display glyph original backgroundColor horizOffset vertOffset s
          (m * glyph.boundsWidth) := by
    induction m with
    | zero => rw [Nat.zero_mul]; rfl
    | succ m ih =>
      rw [List.range_succ, List.foldl_append, ih, List.foldl_cons, List.foldl_nil,
        hrow m _ le_rfl, Nat.succ_mul]
  exact hrows glyph.boundsHeight

end Print

/-- `vid_print_char_alpha`, given the frame and what `new_color` holds at first. -/
def vidPrintCharAlphaFrame (display : VipFrameReader) (font : Font) (horizOffset vertOffset : ℤ)
    (color : BitVec 32) (character : Char) (backgroundColor : BitVec 32) (mem : ℤ → BitVec 8)
    (newColor : BitVec 32) : ℤ → BitVec 8 :=
  (printLoops display (font.glyph character) (seperateColorChannels display.colorDepth color)
    backgroundColor horizOffset vertOffset ⟨mem, 0, newColor⟩).mem

theorem alphaBlending_congr {m m' : PrintMemory} {horiz vert : ℤ}
    (h : m.readFromFrame horiz vert = m'.readFromFrame horiz vert) (backgroundColor : BitVec 32)
    (alpha : BitVec 8) (c : Channels) (colorDepth : ℤ) :
    alphaBlending m horiz vert backgroundColor alpha c colorDepth =
      alphaBlending m' horiz vert backgroundColor alpha c colorDepth := by
  unfold alphaBlending
  rw [h]

/-- The box of a glyph. -/
def glyphBox (glyph : AbcFontStruct) (horizOffset vertOffset : ℤ) : Box :=
  ⟨horizOffset, vertOffset, horizOffset + glyph.boundsWidth, vertOffset + glyph.boundsHeight⟩

theorem glyphPlace_mem (glyph : AbcFontStruct) (horizOffset vertOffset : ℤ) {k : ℕ}
    (hk : k < glyph.boundsHeight * glyph.boundsWidth) :
    glyphPlace glyph horizOffset vertOffset k ∈ (glyphBox glyph horizOffset vertOffset).area := by
  have hpos : 0 < glyph.boundsWidth := Nat.pos_of_ne_zero fun hzero => by simp [hzero] at hk
  have hmod := Nat.mod_lt k hpos
  have hdiv : k / glyph.boundsWidth < glyph.boundsHeight := (Nat.div_lt_iff_lt_mul hpos).mpr hk
  rw [glyphBox, Box.mem_area, glyphPlace]
  generalize k % glyph.boundsWidth = col at *
  generalize k / glyph.boundsWidth = row at *
  dsimp only
  omega

section Frame

variable (display : VipFrameReader) (glyph : AbcFontStruct) (original : Channels)
  (backgroundColor : BitVec 32) (horizOffset vertOffset : ℤ) (mem : ℤ → BitVec 8)
  (newColor : BitVec 32)

/-- What printing finds in memory: the frame as it was at first, and in `new_color` what the turn
before left there. -/
def printMemory : PrintMemory where
  readFromFrame := readFromFrame display mem
  newColor horiz vert :=
    (printTurns display glyph original backgroundColor horizOffset vertOffset ⟨mem, 0, newColor⟩
      ((vert - vertOffset).toNat * glyph.boundsWidth + (horiz - horizOffset).toNat)).newColor

/-- The pixel of turn `k`. -/
def glyphPixel (k : ℕ) : Pixel :=
  let q := glyphPlace glyph horizOffset vertOffset k
  let m := printMemory display glyph original backgroundColor horizOffset vertOffset mem newColor
  (q, mergeColorChannels display.colorDepth (alphaBlending m q.1 q.2 backgroundColor
    (glyph.charAlphaMap k) original display.colorDepth) (m.newColor q.1 q.2))

variable {display glyph horizOffset vertOffset}

/-- **The turns set pixels**, each mixed with what the frame held there at first. -/
theorem mem_printTurns (h : display.HasDepth)
    (hbox : (glyphBox glyph horizOffset vertOffset).Within display.box) {n : ℕ}
    (hn : n ≤ glyph.boundsHeight * glyph.boundsWidth) :
    let s := printTurns display glyph original backgroundColor horizOffset vertOffset
      ⟨mem, 0, newColor⟩ n
    s.alpha = n ∧ s.mem = Canvas.paint mem (((List.range n).map (glyphPixel display glyph original
      backgroundColor horizOffset vertOffset mem newColor)).flatMap (vidSetPixel display)) := by
  induction n with
  | zero => exact ⟨rfl, rfl⟩
  | succ n ih =>
    obtain ⟨halpha, hmem⟩ := ih (by omega)
    have hplace {k : ℕ} (hk : k ≤ n) :
        display.HasColumn (glyphPlace glyph horizOffset vertOffset k) :=
      (hbox.mem (glyphPlace_mem glyph horizOffset vertOffset (by omega))).1
    -- The pixel of this turn has not been set before.
    have hread : readFromFrame display (printTurns display glyph original backgroundColor
          horizOffset vertOffset ⟨mem, 0, newColor⟩ n).mem
          (glyphPlace glyph horizOffset vertOffset n).1
          (glyphPlace glyph horizOffset vertOffset n).2 =
        readFromFrame display mem (glyphPlace glyph horizOffset vertOffset n).1
          (glyphPlace glyph horizOffset vertOffset n).2 := by
      rw [readFromFrame_eq h, readFromFrame_eq h, hmem, pixelBytes_of_forall_ne h]
      intro p hp heq
      obtain ⟨k, hk, rfl⟩ := List.mem_map.mp hp
      rw [List.mem_range] at hk
      have hkn := glyphPlace_injective glyph horizOffset vertOffset
        (VipFrameReader.pixelIndex_inj (hplace hk.le) (hplace le_rfl) heq)
      omega
    have hnew : (printMemory display glyph original backgroundColor horizOffset vertOffset mem
        newColor).newColor (glyphPlace glyph horizOffset vertOffset n).1
          (glyphPlace glyph horizOffset vertOffset n).2 =
        (printTurns display glyph original backgroundColor horizOffset vertOffset
          ⟨mem, 0, newColor⟩ n).newColor := by
      simp only [printMemory, glyphPlace, add_sub_cancel_left, Int.toNat_natCast,
        Nat.div_add_mod']
    refine ⟨congrArg (· + 1) halpha, ?_⟩
    rw [List.range_succ, List.map_append, List.flatMap_append, Canvas.paint_append, ← hmem,
      List.map_singleton, List.flatMap_singleton, glyphPixel, hnew]
    simp only [printTurns, printPixel, halpha]
    refine congrArg (fun c => Canvas.paint _ (vidSetPixel display
      (_, mergeColorChannels display.colorDepth c _))) ?_
    exact alphaBlending_congr hread _ _ _ _

theorem vidPrintCharAlphaFrame_eq_glyphPixels {font : Font} {character : Char}
    (h : display.HasDepth)
    (hbox : (glyphBox (font.glyph character) horizOffset vertOffset).Within display.box)
    (color : BitVec 32) :
    let glyph := font.glyph character
    vidPrintCharAlphaFrame display font horizOffset vertOffset color character backgroundColor mem
        newColor =
      Canvas.paint mem (((List.range (glyph.boundsHeight * glyph.boundsWidth)).map
        (glyphPixel display glyph (seperateColorChannels display.colorDepth color) backgroundColor
          horizOffset vertOffset mem newColor)).flatMap (vidSetPixel display)) := by
  intro glyph
  rw [vidPrintCharAlphaFrame, printLoops_eq_printTurns]
  exact (mem_printTurns _ backgroundColor mem newColor h hbox le_rfl).2

/-- The loops set the pixels of `vidPrintCharAlpha`. -/
theorem vidPrintCharAlphaFrame_eq {font : Font} {character : Char} (h : display.HasDepth)
    (hbox : (glyphBox (font.glyph character) horizOffset vertOffset).Within display.box)
    (color : BitVec 32) :
    vidPrintCharAlphaFrame display font horizOffset vertOffset color character backgroundColor mem
        newColor =
      Canvas.paint mem ((vidPrintCharAlpha (printMemory display (font.glyph character)
        (seperateColorChannels display.colorDepth color) backgroundColor horizOffset vertOffset mem
        newColor) font display horizOffset vertOffset color character backgroundColor).flatMap
          (vidSetPixel display)) := by
  rw [vidPrintCharAlphaFrame_eq_glyphPixels backgroundColor mem newColor h hbox]
  congr 2
  rw [range_mul, List.map_flatMap, vidPrintCharAlpha, raster]
  refine List.flatMap_congr fun i _ => ?_
  rw [List.map_map]
  refine List.map_congr_left fun j hj => ?_
  rw [Function.comp, glyphPixel, Nat.mul_comm _ i,
    glyphPlace_eq _ horizOffset vertOffset i (List.mem_range.mp hj)]

end Frame

/-! ### The pixels of a glyph -/

section Glyph

variable {display : VipFrameReader} {font : Font} {character : Char} {horizOffset vertOffset : ℤ}
  {color backgroundColor newColor : BitVec 32} {mem : ℤ → BitVec 8}

/-- What is stored at a pixel of the glyph, channel by channel. -/
theorem get_readFromFrame (h : display.HasDepth)
    (hbox : (glyphBox (font.glyph character) horizOffset vertOffset).Within display.box) {i j : ℕ}
    (hi : i < (font.glyph character).boundsHeight) (hj : j < (font.glyph character).boundsWidth)
    (ch : Channel) :
    (readFromFrame display (vidPrintCharAlphaFrame display font horizOffset vertOffset color
        character backgroundColor mem newColor) (horizOffset + j) (vertOffset + i)).get ch =
      blend ((seperateColorChannels display.colorDepth color).get ch)
        ((background display mem backgroundColor (horizOffset + j, vertOffset + i)).get ch)
        ((font.glyph character).charAlphaMap (i * (font.glyph character).boundsWidth + j))
        (ch.max display.colorDepth) := by
  have hk := index_lt hi hj
  have hplace := glyphPlace_eq (font.glyph character) horizOffset vertOffset i hj
  generalize i * (font.glyph character).boundsWidth + j = k at hk hplace ⊢
  rw [vidPrintCharAlphaFrame_eq_glyphPixels backgroundColor mem newColor h hbox]
  have hread := fun mem => readFromFrame_eq h mem (horizOffset + (j : ℤ), vertOffset + (i : ℤ))
  dsimp only at hread
  rw [hread, ← hplace]
  have hbytes := pixelBytes_of_mem h (p := glyphPixel display (font.glyph character)
    (seperateColorChannels display.colorDepth color) backgroundColor horizOffset vertOffset mem
    newColor k) (List.mem_map.mpr ⟨k, List.mem_range.mpr hk, rfl⟩) ?_ mem
  · have hblend (ch : Channel) := get_alphaBlending h (printMemory display (font.glyph character)
      (seperateColorChannels display.colorDepth color) backgroundColor horizOffset vertOffset mem
      newColor) (glyphPlace (font.glyph character) horizOffset vertOffset k) backgroundColor
      ((font.glyph character).charAlphaMap k) (seperateColorChannels display.colorDepth color) ch
    refine Eq.trans (congrArg (Channels.get · ch) ?_) (hblend ch)
    refine (congrArg (channelsOf display.colorDepth) hbytes).trans ?_
    rw [channelsOf_colorBytes h]
    refine seperate_merge h (fun ch => ?_) _
    rw [hblend ch]
    have hmix := blend_eq_mix (ch.max_le display.colorDepth)
      (seperateColorChannels_inRange display.colorDepth color ch)
      (background_inRange h mem backgroundColor
        (glyphPlace (font.glyph character) horizOffset vertOffset k) ch)
      ((font.glyph character).charAlphaMap k)
    exact hmix.1.trans_le hmix.2
  · -- Only turn `k` sets this pixel.
    intro p hp heq
    obtain ⟨k', hk', rfl⟩ := List.mem_map.mp hp
    have hcolumn {k : ℕ} (hk : k < (font.glyph character).boundsHeight *
        (font.glyph character).boundsWidth) :=
      (hbox.mem (glyphPlace_mem (font.glyph character) horizOffset vertOffset hk)).1
    rw [glyphPlace_injective _ _ _ (VipFrameReader.pixelIndex_inj
      (hcolumn (List.mem_range.mp hk')) (hcolumn hk) heq)]

end Glyph

/-- **Antialiased text is mixed with its background.** Printing a character in the display changes
pixels in the box of its glyph only. In each of these a channel becomes the mixture of the text and
of the background in the proportion of `alpha`: it lies between the two, is one of them at either
end, grows with the part of the larger one, and is never clipped. -/
theorem antialiased_text_correct (display : VipFrameReader) (h : display.HasDepth) (font : Font)
    (character : Char) (horizOffset vertOffset : ℤ)
    (hbox : (glyphBox (font.glyph character) horizOffset vertOffset).Within display.box)
    (color backgroundColor newColor : BitVec 32) (mem : ℤ → BitVec 8) :
    let glyph := font.glyph character
    let after := vidPrintCharAlphaFrame display font horizOffset vertOffset color character
      backgroundColor mem newColor
    (∀ addr, (∀ q ∈ (glyphBox glyph horizOffset vertOffset).area, ¬ display.ByteOf addr q) →
        after addr = mem addr) ∧
      ∀ i < glyph.boundsHeight, ∀ j < glyph.boundsWidth, ∀ ch : Channel,
        let alpha := (glyph.charAlphaMap (i * glyph.boundsWidth + j)).toNat
        let fg := ((seperateColorChannels display.colorDepth color).get ch).toNat
        let bg := ((background display mem backgroundColor
          (horizOffset + j, vertOffset + i)).get ch).toNat
        let stored :=
          ((readFromFrame display after (horizOffset + j) (vertOffset + i)).get ch).toNat
        stored = (fg * alpha + bg * (255 - alpha)) / 255 ∧
          (fg * alpha + bg * (255 - alpha)) / 255 ≤ ch.max display.colorDepth ∧
          (min fg bg ≤ stored ∧ stored ≤ max fg bg) ∧
          (alpha = 0 → stored = bg) ∧ (alpha = 255 → stored = fg) ∧
          ∀ a a', a ≤ a' → a' ≤ 255 →
            (bg ≤ fg → (fg * a + bg * (255 - a)) / 255 ≤ (fg * a' + bg * (255 - a')) / 255) ∧
            (fg ≤ bg → (fg * a' + bg * (255 - a')) / 255 ≤
              (fg * a + bg * (255 - a)) / 255) := by
  intro glyph after
  refine ⟨fun addr haddr => ?_, ?_⟩
  · have hafter : after = _ :=
      vidPrintCharAlphaFrame_eq_glyphPixels backgroundColor mem newColor h hbox color
    rw [hafter]
    refine paint_outside_pixels h (fun q hq => haddr q ?_) mem
    obtain ⟨p, hp, rfl⟩ := hq
    obtain ⟨k, hk, rfl⟩ := List.mem_map.mp hp
    exact glyphPlace_mem glyph horizOffset vertOffset (List.mem_range.mp hk)
  · intro i hi j hj ch alpha fg bg stored
    have halpha : alpha ≤ 255 := Nat.le_of_lt_succ
      (glyph.charAlphaMap (i * glyph.boundsWidth + j)).isLt
    obtain ⟨hblend, hmax⟩ := blend_eq_mix (ch.max_le display.colorDepth)
      (seperateColorChannels_inRange display.colorDepth color ch)
      (background_inRange h mem backgroundColor (horizOffset + j, vertOffset + i) ch)
      (glyph.charAlphaMap (i * glyph.boundsWidth + j))
    have hstored : stored = Mixture.mix 255 fg bg alpha :=
      (congrArg BitVec.toNat (get_readFromFrame h hbox hi hj ch)).trans hblend
    refine ⟨hstored, hmax, ⟨?_, ?_⟩, fun hzero => ?_, fun hfull => ?_, fun a a' haa ha' =>
      ⟨fun hle => Mixture.mix_mono hle haa ha', fun hle => Mixture.mix_anti hle haa ha'⟩⟩
    · exact hstored ▸ Mixture.min_le_mix (by decide) halpha
    · exact hstored ▸ Mixture.mix_le_max halpha
    · rw [hstored, hzero, Mixture.mix_zero (by decide)]
    · rw [hstored, hfull, Mixture.mix_full (by decide)]

/-- A glyph of two rows of two pixels over a grey frame: not covered, covered in part twice, and
covered as a whole. -/
theorem antialiased_text_half :
    let alphas : List (BitVec 8) := [0, 64, 128, 255]
    let font : Font := fun _ => ⟨2, 2, fun n => alphas.getD n 0⟩
    let after := vidPrintCharAlphaFrame (swFrame 0) font 798 598 0xff8040 'A' clearBackground
      (fun _ => 0x20) 0
    let shown := readFromFrame (swFrame 0) after
    (∀ ch, ((shown 798 598).get ch).toNat = 0x20) ∧ ((shown 799 598).get .green).toNat = 56 ∧
      ((shown 798 599).get .blue).toNat = 48 ∧ (shown 799 599).get .red = 0xff ∧
      after ((swFrame 0).getDrawFrame + (598 * 800 + 797) * 4) = 0x20 := by
  intro alphas font after shown
  obtain ⟨hothers, hpixels⟩ := antialiased_text_correct (swFrame 0) (swFrame_hasDepth 0) font 'A'
    798 598 (by decide) 0xff8040 clearBackground 0 fun _ => 0x20
  refine ⟨fun ch => ?_, (hpixels 0 (by decide) 1 (by decide) .green).1.trans (by decide),
    (hpixels 1 (by decide) 0 (by decide) .blue).1.trans (by decide), ?_, ?_⟩
  · refine ((hpixels 0 (by decide) 0 (by decide) ch).2.2.2.1 rfl).trans ?_
    cases ch <;> decide
  · exact BitVec.eq_of_toNat_eq
      ((hpixels 1 (by decide) 1 (by decide) .red).2.2.2.2.1 (by decide))
  · -- The pixel to the left of the lower row of the glyph has the same row and a smaller column.
    refine hothers _ fun q hq hbyte => ?_
    obtain ⟨⟨hleft, -⟩, htop, hbottom⟩ := Box.mem_area.mp hq
    obtain ⟨k, hk, haddr⟩ := hbyte
    change 798 ≤ q.1 at hleft
    change 598 ≤ q.2 at htop
    change q.2 < 598 + 2 at hbottom
    change k < 4 at hk
    change _ + (q.2 * 800 + q.1) * 4 + (k : ℤ) = _ at haddr
    omega

end DigitalModulation
