import DigitalModulation.Plot.Pendiente
import DigitalModulation.Plot.ScanPosition
import DigitalModulation.Pointer.Cursor

/-!
# `top.sv`: `MUX DE VIDEO`

On its way to the monitor the picture of the frame reader is overlaid with the pointer and with the
two graphs. Each of them is told the scan position and looks into a memory behind registers of its
own.

* `PlotDisplay.clk`, `graphOn`, `graphRgb`: the display side of `plot_graph.v`;
* `Video`, `Video.clk`: a period of `video_clk_40Mhz`, a rising and a falling edge;
* `BeforePixel`: the waveform of the data enable up to a pixel of a frame;
* `PlotGraph.Lit`: the pixels that a graph lights;
* `Video.layers`, `Video.videoOut_eq`: the colour sent at a pixel, by the periods of its column and
  of the two before it.
-/

namespace DigitalModulation

open Samples

/-! ### The display side of `plot_graph.v` -/

/-- The registers of the read port of `sdram1`, of address and of output, and `SDRAM_OUT_ANT`. -/
structure PlotDisplay where
  rdaddress : BitVec 10
  sdramOut : BitVec 10
  sdramOutAnt : BitVec 10
  deriving DecidableEq

/-- A rising edge of `display_clk`. -/
def PlotDisplay.clk (p : PlotPorts) (g : PlotGraph) (countX : BitVec 11) (d : PlotDisplay) :
    PlotDisplay where
  rdaddress := g.rdaddress p countX
  sdramOut := g.sdram1 d.rdaddress
  sdramOutAnt := displayClk p d.sdramOutAnt d.sdramOut

/-- After three edges the registers hold the words of the columns one and two before. -/
theorem PlotDisplay.clk_clk_clk {p : PlotPorts} (hreset : p.resetN = true) (d : PlotDisplay)
    (g g' g'' : PlotGraph) (x x' x'' : BitVec 11) :
    ((d.clk p g x).clk p g' x').clk p g'' x'' =
      ⟨g''.rdaddress p x'', g''.sdram1 (g'.rdaddress p x'),
        sdramOut1 (g'.sdram1 (g.rdaddress p x))⟩ := by
  simp [clk, displayClk, hreset]

/-- `Graph_on`, with `Graph_en` high and a `line_width` of 0. -/
def graphOn (p : PlotPorts) (g : PlotGraph) (d : PlotDisplay) (scrollEn : Bool)
    (countX countY : BitVec 11) : Bool :=
  p.resetN && (g.verticalLine p scrollEn countX countY ||
    pendienteFx p 0 d.sdramOutAnt (sdramOut1 d.sdramOut) countY && columnTest p countX &&
      decide (countY ≤ 255 / p.height.setWidth 11 + p.posY))

/-- `{R, G, B}` of a graph. -/
def graphRgb (p : PlotPorts) (g : PlotGraph) (scrollEn : Bool) (colorGraph : BitVec 24)
    (countX countY : BitVec 11) : BitVec 24 :=
  if g.verticalLine p scrollEn countX countY then ~~~colorGraph else colorGraph

/-! ### The multiplexer -/

/-- The signals of a period of `video_clk_40Mhz`: those of the frame reader, those of the keys, and
the registers of the graphs, which another clock writes. Of `keys` the scan position is not used. -/
structure VideoIn where
  vgaDe : Bool
  vga : BitVec 24
  keys : CursorIn
  graphEnableScroll : Bool
  graphColour : BitVec 24
  plot1 : PlotGraph
  plot2 : PlotGraph
  barOn : Bool
  leftChannel : BitVec 16
  rightChannel : BitVec 16

/-- `cursor_RGB` with four low bits of zero a colour. -/
def cursorColor (rgb : BitVec 12) : BitVec 24 :=
  (rgb.extractLsb' 8 4 ++ 0#4) ++ ((rgb.extractLsb' 4 4 ++ 0#4) ++ (rgb.extractLsb' 0 4 ++ 0#4))

/-- The colour of the bars, `video_g_out` the sum of the bytes of the left channel. -/
def barColor (leftChannel rightChannel : BitVec 16) : BitVec 24 :=
  255#8 ++ ((leftChannel.extractLsb' 0 8 + leftChannel.extractLsb' 8 8) ++
    rightChannel.extractLsb' 0 8)

/-- What the modules clocked by `video_clk_40Mhz` keep. -/
structure Video where
  scan : ScanPosition
  cursor : Cursor
  graph1 : PlotDisplay
  graph2 : PlotDisplay
  videoOut : BitVec 24

namespace Video

/-- What `Cursor` samples. -/
def cursorIn (s : Video) (i : VideoIn) : CursorIn :=
  { i.keys with iVgaX := s.scan.countX, iVgaY := s.scan.countY }

/-- `MUX DE VIDEO`. Nothing drives `graph_on3`. -/
def mux (s : Video) (i : VideoIn) : BitVec 24 :=
  let on (p : PlotPorts) (g : PlotGraph) (d : PlotDisplay) :=
    graphOn p g d i.graphEnableScroll s.scan.countX s.scan.countY
  let rgb (p : PlotPorts) (g : PlotGraph) :=
    graphRgb p g i.graphEnableScroll i.graphColour s.scan.countX s.scan.countY
  if s.cursor.arrowOn then cursorColor s.cursor.oRgb
  else if on plotGraph1 i.plot1 s.graph1 || on plotGraph2 i.plot2 s.graph2 then
    if on plotGraph1 i.plot1 s.graph1 then rgb plotGraph1 i.plot1 else rgb plotGraph2 i.plot2
  else if i.barOn then barColor i.leftChannel i.rightChannel
  else i.vga

/-- The rising edge, at which the pointer and the graphs take over the scan position. -/
def posedge (s : Video) (i : VideoIn) : Video :=
  { s with
    cursor := s.cursor.clk (s.cursorIn i)
    graph1 := s.graph1.clk plotGraph1 i.plot1 s.scan.countX
    graph2 := s.graph2.clk plotGraph2 i.plot2 s.scan.countX }

/-- A period: at the falling edge the colour is sent and the scan position goes on. -/
def clk (s : Video) (i : VideoIn) : Video :=
  let s' := s.posedge i
  { s' with scan := s.scan.clkLcd true i.vgaDe, videoOut := s'.mux i }

end Video

/-! ### The scan position -/

/-- The data enable up to the pixel in column `x` of row `y`: whole frames, the lines above, and as
many samples of this line. Between two lines it is low for three samples or longer. -/
def BeforePixel (dens : List Bool) (x y : ℕ) : Prop :=
  ∃ (lead : ℕ) (frames : List (List (ℕ × ℕ))) (lines : List (ℕ × ℕ)),
    dens = List.replicate lead false ++ (frames.flatten ++ lines).flatMap pulse ++
      List.replicate x true ∧
    3 ≤ lead ∧ (∀ frame ∈ frames, frame.length = 600) ∧
    (∀ l ∈ frames.flatten ++ lines, 1 ≤ l.1 ∧ 3 ≤ l.2) ∧ lines.length = y ∧ x < 800 ∧ y < 600

theorem BeforePixel.bounds {dens : List Bool} {x y : ℕ} (h : BeforePixel dens x y) :
    x < 800 ∧ y < 600 := by
  obtain ⟨lead, frames, lines, -, -, -, -, -, hx, hy⟩ := h
  exact ⟨hx, hy⟩

/-- The data enable has been low for `n` samples or more and then high for `x`, in row `y`. -/
def InRow (n : ℕ) (dens : List Bool) (x y : ℕ) : Prop :=
  ∃ (before : List Bool) (m : ℕ),
    dens = before ++ List.replicate m false ++ List.replicate x true ∧ n ≤ m ∧ x ≤ 800 ∧
      changes true false (before ++ [false]) % 600 = y

/-- One sample less of the row, or one low sample less. -/
theorem InRow.of_append {n x y : ℕ} {dens : List Bool} {den : Bool}
    (h : InRow (n + 1) (dens ++ [den]) x y) : InRow n dens (x - 1) y := by
  obtain ⟨before, m, hdens, hm, hx, hy⟩ := h
  cases x with
  | zero =>
    obtain ⟨k, rfl⟩ := Nat.exists_eq_add_of_le' (Nat.le_of_add_left_le hm)
    rw [List.replicate_zero, List.append_nil, List.replicate_succ', ← List.append_assoc] at hdens
    refine ⟨before, k, ?_, by omega, by omega, hy⟩
    rw [(List.append_inj' hdens rfl).1, Nat.zero_sub, List.replicate_zero, List.append_nil]
  | succ x =>
    rw [List.replicate_succ', ← List.append_assoc] at hdens
    exact ⟨before, m, (List.append_inj' hdens rfl).1, by omega, by omega, hy⟩

theorem InRow.scan {n x y : ℕ} {dens : List Bool} (h : InRow (n + 1) dens x y) :
    (scan dens).countX.toNat = x ∧ (scan dens).countY.toNat = y := by
  obtain ⟨before, m, rfl, hm, hx, hy⟩ := h
  obtain ⟨k, rfl⟩ := Nat.exists_eq_add_of_le' (Nat.le_of_add_left_le hm)
  refine ⟨?_, ?_⟩
  · have hlow : Low (before ++ List.replicate (k + 1) false) := by
      rw [Low, List.replicate_succ', ← List.append_assoc, List.getLast?_concat]
      decide
    rw [countX_scan, streak_append_replicate, streak_of_low hlow, Nat.zero_add,
      Nat.mod_eq_of_lt (by omega)]
  · have hsplit : before ++ List.replicate (k + 1) false =
        before ++ [false] ++ List.replicate k false := by
      rw [List.replicate_succ, List.append_assoc]
      rfl
    rw [countY_scan, changes_append_ne (by decide), hsplit,
      changes_append_replicate (by decide) List.getLast?_concat, hy]

/-- Before a pixel of a frame there were three low samples. -/
theorem BeforePixel.inRow {dens : List Bool} {x y : ℕ} (h : BeforePixel dens x y) :
    InRow 3 dens x y := by
  obtain ⟨lead, frames, lines, rfl, hlead, hframes, hlines, rfl, hx, hy⟩ := h
  have hcount : (frames.flatten ++ lines).length = lines.length + 600 * frames.length := by
    rw [List.length_append, List.length_flatten, List.map_congr_left hframes]
    simp [Nat.mul_comm, Nat.add_comm]
  generalize frames.flatten ++ lines = all at hlines hcount ⊢
  have hlow {n : ℕ} (hn : 3 ≤ n) : ∃ k, List.replicate n false =
      List.replicate k false ++ List.replicate 3 false :=
    ⟨n - 3, by rw [List.replicate_append_replicate, Nat.sub_add_cancel hn]⟩
  obtain ⟨before, hbefore⟩ : ∃ before,
      List.replicate lead false ++ all.flatMap pulse = before ++ List.replicate 3 false := by
    cases all using List.reverseRecOn with
    | nil =>
      obtain ⟨k, hk⟩ := hlow hlead
      exact ⟨_, by rw [List.flatMap_nil, List.append_nil, hk]⟩
    | append_singleton all l =>
      obtain ⟨k, hk⟩ := hlow (hlines l (by simp)).2
      rw [List.flatMap_append, List.flatMap_singleton, pulse, hk]
      exact ⟨_, by simp only [← List.append_assoc]; rfl⟩
  refine ⟨before, 3, by rw [hbefore], le_rfl, hx.le, ?_⟩
  have hchanges : changes true false (before ++ List.replicate 3 false) = all.length := by
    have hpulses : ∀ l ∈ all, 1 ≤ l.1 ∧ 1 ≤ l.2 := fun l hl =>
      ⟨(hlines l hl).1, le_trans (by decide) (hlines l hl).2⟩
    rw [← hbefore, changes_append_pulses _ hpulses, changes_replicate (by decide), Nat.zero_add]
  have hsplit : before ++ List.replicate 3 false = before ++ [false] ++ List.replicate 2 false := by
    simp [List.replicate]
  rw [hsplit, changes_append_replicate (by decide) List.getLast?_concat] at hchanges
  rw [hchanges, hcount, Nat.add_mul_mod_self_left, Nat.mod_eq_of_lt hy]

/-! ### The layers -/

namespace PlotGraph

/-- A graph has a line at the column that is written next, while it does not scroll. -/
def OnLine (p : PlotPorts) (g : PlotGraph) (scrollEn : Bool) (x y : ℕ) : Prop :=
  scrollEn = false ∧ x + g.difScroll.toNat = g.sdramAddWrite.toNat ∧
    p.posY.toNat ≤ y ∧ y ≤ p.posY.toNat + 255 / p.height.toNat

instance (p : PlotPorts) (g : PlotGraph) (scrollEn : Bool) (x y : ℕ) :
    Decidable (g.OnLine p scrollEn x y) :=
  inferInstanceAs (Decidable (_ ∧ _))

/-- The trace goes from the row of the word before to that of a word. -/
def OnTrace (p : PlotPorts) (before word : BitVec 10) (x y : ℕ) : Prop :=
  let a := sampleRow p (before.setWidth 8)
  let b := sampleRow p (word.setWidth 8)
  x ≤ p.witdh.toNat ∧ lowRow a b 0 ≤ y ∧ y ≤ highRow a b 0

instance (p : PlotPorts) (before word : BitVec 10) (x y : ℕ) :
    Decidable (OnTrace p before word x y) :=
  inferInstanceAs (Decidable (_ ∧ _))

/-- The colour that a graph gives to a pixel, if it lights it. -/
def layer (p : PlotPorts) (g : PlotGraph) (scrollEn : Bool) (color : BitVec 24)
    (before word : BitVec 10) (x y : ℕ) : Option (BitVec 24) :=
  if g.OnLine p scrollEn x y then some (~~~color)
  else if OnTrace p before word x y then some color
  else none

/-- The word of a column: its address is taken in one period and it is read in the next, when the
graph may be another one. -/
def read (p : PlotPorts) (g g' : PlotGraph) (x : ℕ) : BitVec 10 :=
  g'.sdram1 (g.rdaddress p (BitVec.ofNat 11 x))

section Top

variable {posY : BitVec 11} {height : BitVec 3} {x y : ℕ}

/-- The last row of a graph, as it is computed. -/
theorem toNat_lastRow (hfits : posY.toNat + 255 / height.toNat < 2048) :
    (255 / (topPorts posY height).height.setWidth 11 + (topPorts posY height).posY).toNat =
      posY.toNat + 255 / height.toNat := by
  rw [BitVec.toNat_add, BitVec.toNat_udiv, BitVec.toNat_setWidth_of_le (by decide), Nat.add_comm]
  exact Nat.mod_eq_of_lt hfits

theorem verticalLine_eq_onLine (hfits : posY.toNat + 255 / height.toNat < 2048) (g : PlotGraph)
    (scrollEn : Bool) (hx : x < 1024) (hy : y < 2048) :
    g.verticalLine (topPorts posY height) scrollEn (BitVec.ofNat 11 x) (BitVec.ofNat 11 y) =
      decide (g.OnLine (topPorts posY height) scrollEn x y) := by
  have hcolumn : g.column (topPorts posY height) (BitVec.ofNat 11 x) =
      g.sdramAddWrite.setWidth 11 ↔ x + g.difScroll.toNat = g.sdramAddWrite.toNat := by
    unfold column topPorts
    rw [← BitVec.toNat_inj]
    bv_omega
  have hrow : (BitVec.ofNat 11 y).toNat = y := by
    rw [BitVec.toNat_ofNat, Nat.mod_eq_of_lt hy]
  rw [Bool.eq_iff_iff, decide_eq_true_iff]
  unfold verticalLine OnLine
  cases scrollEn with
  | true => simp
  | false =>
    simp only [if_true, Bool.and_eq_true, beq_iff_eq, decide_eq_true_iff, hcolumn, true_and,
      BitVec.le_def, hrow, toNat_lastRow hfits, and_assoc]
    rfl

/-- The row of a word of the RAM, whichever sample it holds. -/
theorem toNat_traceRow_sdramOut1 {p : PlotPorts} (h : p.posY.toNat + 255 / p.height.toNat < 2048)
    (word : BitVec 10) :
    (traceRow p (sdramOut1 word)).toNat = sampleRow p (word.setWidth 8) := by
  have hlow : ((sdramOut1 word).setWidth 8).toNat = 255 - (word.setWidth 8).toNat := by
    unfold sdramOut1
    bv_omega
  rw [toNat_traceRow h, hlow]
  rfl

theorem sampleRow_le (p : PlotPorts) (dataGraph : BitVec 8) :
    sampleRow p dataGraph ≤ p.posY.toNat + 255 / p.height.toNat :=
  Nat.add_le_add_left (Nat.div_le_div_right (Nat.sub_le _ _)) _

/-- The tests on column and row besides that on the slope. -/
theorem pendienteFx_eq_onTrace (hfits : posY.toNat + 255 / height.toNat < 2048)
    (before word : BitVec 10) (hx : x < 1024) (hy : y < 2048) :
    (pendienteFx (topPorts posY height) 0 (sdramOut1 before) (sdramOut1 word) (BitVec.ofNat 11 y) &&
      columnTest (topPorts posY height) (BitVec.ofNat 11 x) &&
      decide (BitVec.ofNat 11 y ≤
        255 / (topPorts posY height).height.setWidth 11 + (topPorts posY height).posY)) =
      decide (OnTrace (topPorts posY height) before word x y) := by
  have hrow : (BitVec.ofNat 11 y).toNat = y := by
    rw [BitVec.toNat_ofNat, Nat.mod_eq_of_lt hy]
  have hcolumn : columnTest (topPorts posY height) (BitVec.ofNat 11 x) = true ↔ x ≤ 640 := by
    unfold columnTest topPorts
    rw [Bool.and_eq_true, decide_eq_true_iff, decide_eq_true_iff]
    bv_omega
  have hhigh := highRow_le _ _ 0 (sampleRow_le (topPorts posY height) (before.setWidth 8))
    (sampleRow_le (topPorts posY height) (word.setWidth 8))
  rw [Bool.eq_iff_iff, Bool.and_eq_true, Bool.and_eq_true, decide_eq_true_iff, decide_eq_true_iff,
    hcolumn, pendienteFx_iff _ _ _ (by rw [hrow]; exact hy), BitVec.le_def, toNat_lastRow hfits,
    toNat_traceRow_sdramOut1 hfits, toNat_traceRow_sdramOut1 hfits, hrow]
  constructor
  · rintro ⟨⟨htrace, hwidth⟩, -⟩
    exact ⟨hwidth, htrace⟩
  · rintro ⟨hwidth, htrace⟩
    exact ⟨⟨htrace, hwidth⟩, htrace.2.trans hhigh⟩

/-- What a graph lights, by the words that its registers hold. -/
theorem graphOn_eq_layer (hfits : posY.toNat + 255 / height.toNat < 2048) (g : PlotGraph)
    (scrollEn : Bool) (color : BitVec 24) (rdaddress before word : BitVec 10) (hx : x < 1024)
    (hy : y < 2048) :
    (if graphOn (topPorts posY height) g ⟨rdaddress, word, sdramOut1 before⟩ scrollEn
        (BitVec.ofNat 11 x) (BitVec.ofNat 11 y) then
      some (graphRgb (topPorts posY height) g scrollEn color (BitVec.ofNat 11 x)
        (BitVec.ofNat 11 y))
    else none) = g.layer (topPorts posY height) scrollEn color before word x y := by
  have hreset : (topPorts posY height).resetN = true := rfl
  unfold graphOn graphRgb layer
  rw [pendienteFx_eq_onTrace hfits before word hx hy, verticalLine_eq_onLine hfits g scrollEn hx hy,
    hreset]
  by_cases hline : g.OnLine (topPorts posY height) scrollEn x y
  · simp [hline]
  · simp [hline]

/-- **What a graph lights in the third of three periods**, whichever columns were read before. -/
theorem clk_eq_layer (hfits : posY.toNat + 255 / height.toNat < 2048) (d : PlotDisplay)
    (g g' g'' : PlotGraph) (scrollEn : Bool) (color : BitVec 24) (x₀ x₁ : ℕ) (hx : x < 1024)
    (hy : y < 2048) :
    let p := topPorts posY height
    let d' := ((d.clk p g (.ofNat 11 x₀)).clk p g' (.ofNat 11 x₁)).clk p g'' (.ofNat 11 x)
    (if graphOn p g'' d' scrollEn (.ofNat 11 x) (.ofNat 11 y) then
      some (graphRgb p g'' scrollEn color (.ofNat 11 x) (.ofNat 11 y))
    else none) = g''.layer p scrollEn color (g.read p g' x₀) (g'.read p g'' x₁) x y := by
  intro p d'
  have hclk : d' = _ :=
    d.clk_clk_clk (p := p) rfl g g' g'' (.ofNat 11 x₀) (.ofNat 11 x₁) (.ofNat 11 x)
  rw [hclk]
  exact graphOn_eq_layer hfits g'' scrollEn color _ _ _ hx hy

end Top

end PlotGraph

/-- The colour of the pointer, if the pixel is in its window and the texel is not transparent. -/
def pointerLayer (window : Bool) (texel : BitVec 12) : Option (BitVec 24) :=
  if window = true ∧ texel ≠ 0xF00 then some (cursorColor texel) else none

/-- The colour of the bars. -/
def barLayer (i : VideoIn) : Option (BitVec 24) :=
  if i.barOn then some (barColor i.leftChannel i.rightChannel) else none

theorem Cursor.arrow_clk_eq (s : Cursor) (i : CursorIn) :
    (s.clk i).arrow = (!i.iRst && s.inWindow i.iVgaX i.iVgaY) := by
  cases hrst : i.iRst with
  | true => simp [Cursor.clk, hrst]
  | false => simp [Cursor.clk, hrst]

namespace Video

/-- The multiplexer takes the first layer that has the pixel. -/
theorem mux_eq (s : Video) (i : VideoIn) : s.mux i =
    ([if s.cursor.arrowOn then some (cursorColor s.cursor.oRgb) else none,
      if graphOn plotGraph1 i.plot1 s.graph1 i.graphEnableScroll s.scan.countX s.scan.countY then
        some (graphRgb plotGraph1 i.plot1 i.graphEnableScroll i.graphColour s.scan.countX
          s.scan.countY)
      else none,
      if graphOn plotGraph2 i.plot2 s.graph2 i.graphEnableScroll s.scan.countX s.scan.countY then
        some (graphRgb plotGraph2 i.plot2 i.graphEnableScroll i.graphColour s.scan.countX
          s.scan.countY)
      else none, barLayer i].findSome? id).getD i.vga := by
  unfold mux barLayer
  dsimp only
  split_ifs <;> simp_all

theorem scan_foldl {s : Video} (hs : s.scan = .powerUp) (is : List VideoIn) :
    (is.foldl clk s).scan = DigitalModulation.scan (is.map VideoIn.vgaDe) := by
  induction is using List.reverseRecOn with
  | nil => exact hs
  | append_singleton is i ih =>
    rw [List.foldl_append, List.map_append, List.map_singleton, scan_concat, ← ih]
    rfl

/-- The counters, as numbers of eleven bits. -/
theorem position_foldl {s : Video} (hs : s.scan = .powerUp) {is : List VideoIn} {n x y : ℕ}
    (h : InRow (n + 1) (is.map VideoIn.vgaDe) x y) :
    (is.foldl clk s).scan.countX = BitVec.ofNat 11 x ∧
      (is.foldl clk s).scan.countY = BitVec.ofNat 11 y := by
  obtain ⟨hcol, hrow⟩ := h.scan
  rw [← scan_foldl hs] at hcol hrow
  exact ⟨by rw [← hcol, BitVec.ofNat_toNat, BitVec.setWidth_eq],
    by rw [← hrow, BitVec.ofNat_toNat, BitVec.setWidth_eq]⟩

end Video

section Layers

variable (a b c : VideoIn) (x y : ℕ)

/-- The pointer at the pixel in column `x` and row `y`, by the periods `a`, `b` and `c` of its
column and of the two before it: the window is that of the column and the texel that of the column
two before it. -/
def Video.pointer (s : Video) : Option (BitVec 24) :=
  pointerLayer
    (!c.keys.iRst && ((s.clk a).clk b).cursor.inWindow (.ofNat 11 x) (.ofNat 11 y))
    (spriteTexel c.keys.iChangeC (s.cursor.spriteYX (.ofNat 11 (x - 2)) (.ofNat 11 y)))

/-- A graph there: the line is at the column, the trace between the words of the two before. -/
def graphLayer (p : PlotPorts) (plot : VideoIn → PlotGraph) : Option (BitVec 24) :=
  (plot c).layer p c.graphEnableScroll c.graphColour ((plot a).read p (plot b) (x - 2))
    ((plot b).read p (plot c) (x - 1)) x y

/-- All that can be seen there, the foremost first. -/
def Video.layers (s : Video) : List (Option (BitVec 24)) :=
  [s.pointer a b c x y, graphLayer a b c x y plotGraph1 VideoIn.plot1,
    graphLayer a b c x y plotGraph2 VideoIn.plot2, barLayer c]

end Layers

namespace Video

/-- The colour of three periods at the columns of a row. -/
theorem videoOut_eq {s : Video} {a b : VideoIn} {x y : ℕ} (hx : x < 1024) (hy : y < 2048)
    (ha : s.scan.countX = .ofNat 11 (x - 2) ∧ s.scan.countY = .ofNat 11 y)
    (hb : (s.clk a).scan.countX = .ofNat 11 (x - 1))
    (hc : ((s.clk a).clk b).scan.countX = .ofNat 11 x ∧
      ((s.clk a).clk b).scan.countY = .ofNat 11 y) (c : VideoIn) :
    (((s.clk a).clk b).clk c).videoOut =
      ((s.layers a b c x y).findSome? id).getD c.vga := by
  let pointer := ((s.clk a).clk b).cursor
  let t := ((s.clk a).clk b).posedge c
  have hgraph1 : t.graph1 = ((s.graph1.clk plotGraph1 a.plot1 (.ofNat 11 (x - 2))).clk plotGraph1
      b.plot1 (.ofNat 11 (x - 1))).clk plotGraph1 c.plot1 (.ofNat 11 x) := by
    rw [← ha.1, ← hb, ← hc.1]
    rfl
  have hgraph2 : t.graph2 = ((s.graph2.clk plotGraph2 a.plot2 (.ofNat 11 (x - 2))).clk plotGraph2
      b.plot2 (.ofNat 11 (x - 1))).clk plotGraph2 c.plot2 (.ofNat 11 x) := by
    rw [← ha.1, ← hb, ← hc.1]
    rfl
  have hcountX : t.scan.countX = .ofNat 11 x := hc.1
  have hcountY : t.scan.countY = .ofNat 11 y := hc.2
  have harrow : t.cursor.arrow =
      (!c.keys.iRst && pointer.inWindow (.ofNat 11 x) (.ofNat 11 y)) := by
    rw [← hcountX, ← hcountY]
    exact pointer.arrow_clk_eq _
  have hrgb : t.cursor.oRgb =
      spriteTexel c.keys.iChangeC (s.cursor.spriteYX (.ofNat 11 (x - 2)) (.ofNat 11 y)) := by
    rw [← ha.1, ← ha.2]
    rfl
  have hpointer : (if t.cursor.arrowOn then some (cursorColor t.cursor.oRgb) else none) =
      pointerLayer (!c.keys.iRst && pointer.inWindow (.ofNat 11 x) (.ofNat 11 y))
        (spriteTexel c.keys.iChangeC (s.cursor.spriteYX (.ofNat 11 (x - 2)) (.ofNat 11 y))) := by
    rw [← harrow, ← hrgb, pointerLayer, Cursor.arrowOn]
    simp only [Bool.and_eq_true, decide_eq_true_eq]
  show t.mux c = _
  rw [mux_eq, hpointer, hcountX, hcountY, hgraph1, hgraph2, plotGraph1, plotGraph2,
    PlotGraph.clk_eq_layer (by decide) _ _ _ _ _ _ _ _ hx hy,
    PlotGraph.clk_eq_layer (by decide) _ _ _ _ _ _ _ _ hx hy]
  rfl

/-- The counters in the periods of a pixel of a frame and of the two columns before it. -/
theorem counters {s₀ : Video} (hs : s₀.scan = .powerUp) {pre : List VideoIn} {a b : VideoIn}
    {x y : ℕ} (h : BeforePixel ((pre ++ [a, b]).map VideoIn.vgaDe) x y) :
    let s := pre.foldl clk s₀
    (s.scan.countX = .ofNat 11 (x - 2) ∧ s.scan.countY = .ofNat 11 y) ∧
      (s.clk a).scan.countX = .ofNat 11 (x - 1) ∧
      ((s.clk a).clk b).scan.countX = .ofNat 11 x ∧
        ((s.clk a).clk b).scan.countY = .ofNat 11 y := by
  intro s
  have hc := h.inRow
  have hb : InRow 2 ((pre ++ [a]).map VideoIn.vgaDe) (x - 1) y :=
    (show InRow 3 ((pre ++ [a]).map VideoIn.vgaDe ++ [b.vgaDe]) x y by simpa using hc).of_append
  have ha : InRow 1 (pre.map VideoIn.vgaDe) (x - 2) y :=
    (show InRow 2 (pre.map VideoIn.vgaDe ++ [a.vgaDe]) (x - 1) y by simpa using hb).of_append
  have hcounters := position_foldl hs hc
  have hcounters' := position_foldl hs hb
  rw [List.foldl_append] at hcounters hcounters'
  exact ⟨position_foldl hs ha, hcounters'.1, hcounters⟩

end Video

end DigitalModulation
