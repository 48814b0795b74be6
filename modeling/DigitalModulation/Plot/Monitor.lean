import DigitalModulation.Desktop.Footprints
import DigitalModulation.Desktop.Residue
import DigitalModulation.Plot.VideoMux

/-!
# What the monitor shows

* `monitor_layers`: from power-up on every pixel of every frame is sent the first of its layers;
* `PlotGraph.Placed`, `PlotGraph.area`: where a graph draws, in every state it can reach;
* `controls_uncovered`: the two graphs leave each other and the controls of the desktop free.
-/

namespace DigitalModulation

open Samples

/-! ### Where a graph draws -/

namespace PlotGraph

/-- The line is at column 641 or further to the left: nothing has scrolled before the samples have
gone once around, and later the two registers go on together. -/
structure Placed (s : PlotGraph) : Prop where
  still : s.banderaScrollFx = false → s.difScroll = 0 ∧ s.sdramAddWrite ≤ 640
  distance : s.sdramAddWrite - s.difScroll ≤ 641

theorem placed_powerUp : powerUp.Placed := ⟨fun _ => by decide, by decide⟩

theorem Placed.tick {s : PlotGraph} (h : s.Placed)
    (stray : Sdram1 → BitVec 10 → BitVec 10 → Sdram1) (posY : BitVec 11) (height : BitVec 3)
    (i : Sample) : (s.tick stray (topPorts posY height) i).Placed := by
  have hdistance := h.distance
  cases hi : i.scrollEn with
  | false =>
    rw [tick_overpaint stray posY height s hi]
    split_ifs with hlast
    · exact ⟨fun _ => ⟨rfl, show (0 : BitVec 10) ≤ 640 by decide⟩,
        show (0 : BitVec 10) - 0 ≤ 641 by decide⟩
    · exact ⟨fun _ => ⟨rfl, by dsimp only; bv_omega⟩, by dsimp only; bv_omega⟩
  | true =>
    rw [tick_scroll stray posY height s hi]
    cases hflag : s.banderaScrollFx with
    | false =>
      obtain ⟨-, hwrite⟩ := h.still hflag
      simp only [Bool.false_eq_true, if_false]
      refine ⟨fun hnext => ⟨rfl, ?_⟩, by dsimp only; bv_omega⟩
      split_ifs at hnext with hlast
      dsimp only
      bv_omega
    | true =>
      simp only [ite_self, if_true]
      exact ⟨fun hnext => by simp at hnext, by dsimp only; bv_omega⟩

/-- In every run the line stays where it is placed. -/
theorem placed_foldl (stray : Sdram1 → BitVec 10 → BitVec 10 → Sdram1) (posY : BitVec 11)
    (height : BitVec 3) (is : List Sample) :
    (is.foldl (tick stray (topPorts posY height)) powerUp).Placed := by
  induction is using List.reverseRecOn with
  | nil => exact placed_powerUp
  | append_singleton is i ih =>
    rw [List.foldl_append]
    exact ih.tick stray posY height i

/-- The columns and rows of a graph. -/
def area (p : PlotPorts) : Box := ⟨0, p.posY.toNat, 642, p.posY.toNat + 255 / p.height.toNat + 1⟩

/-- Wherever its registers are, a graph lights no pixel outside its area. -/
theorem Placed.layer_eq_none {posY : BitVec 11} {height : BitVec 3} {g : PlotGraph} (h : g.Placed)
    {x y : ℕ} (hq : ((x : ℤ), (y : ℤ)) ∉ (area (topPorts posY height)).area) (scrollEn : Bool)
    (color : BitVec 24) (before word : BitVec 10) :
    g.layer (topPorts posY height) scrollEn color before word x y = none := by
  have hout : x ≤ 641 → posY.toNat ≤ y → ¬ y ≤ posY.toNat + 255 / height.toNat := by
    intro hx hlo hhi
    refine hq ⟨⟨Int.natCast_nonneg x, ?_⟩, ?_, ?_⟩
    · show (x : ℤ) < 642
      omega
    · show (posY.toNat : ℤ) ≤ y
      exact_mod_cast hlo
    · show (y : ℤ) < (posY.toNat : ℤ) + 255 / (height.toNat : ℤ) + 1
      exact_mod_cast Nat.lt_succ_of_le hhi
  unfold layer
  rw [if_neg, if_neg]
  · rintro ⟨hx, hlo, hhi⟩
    have hx : x ≤ 640 := hx
    have hlow (d : BitVec 8) : posY.toNat ≤ sampleRow (topPorts posY height) d :=
      Nat.le_add_right _ _
    have hfirst := sub_le_lowRow _ _ 0 (hlow (before.setWidth 8)) (hlow (word.setWidth 8))
    have hlast := highRow_le _ _ 0 (sampleRow_le (topPorts posY height) (before.setWidth 8))
      (sampleRow_le (topPorts posY height) (word.setWidth 8))
    exact hout (by omega) (hfirst.trans hlo) (hhi.trans hlast)
  · rintro ⟨-, hline, hlo, hhi⟩
    refine hout ?_ hlo hhi
    have hdistance := h.distance
    bv_omega

end PlotGraph

/-! ### The controls -/

/-- The boxes of the buttons, of their texts and of the images of the transport. -/
def desktopBoxes : List Box := controlBoxes.flatten ++ transportBoxes

theorem plotAreas_apart : (PlotGraph.area plotGraph1).Apart (PlotGraph.area plotGraph2) := by
  decide

theorem desktopBoxes_apart : ∀ r ∈ desktopBoxes,
    r.Apart (PlotGraph.area plotGraph1) ∧ r.Apart (PlotGraph.area plotGraph2) := by
  decide +kernel

/-! ### Every pixel of every frame -/

/-- **What the monitor is sent.** From power-up on, at every pixel of every frame, the colour is
that of the first layer that has the pixel, and else that of the frame reader. -/
theorem monitor_layers {s₀ : Video} (hs : s₀.scan = .powerUp) {pre : List VideoIn} {a b : VideoIn}
    {x y : ℕ} (hpixel : BeforePixel ((pre ++ [a, b]).map VideoIn.vgaDe) x y) (c : VideoIn) :
    let s := pre.foldl Video.clk s₀
    (((s.clk a).clk b).clk c).videoOut = ((s.layers a b c x y).findSome? id).getD c.vga := by
  intro s
  obtain ⟨ha, hb, hc⟩ := Video.counters hs hpixel
  obtain ⟨hx, hy⟩ := hpixel.bounds
  exact Video.videoOut_eq (by omega) (by omega) ha hb hc c

/-- The modules as initialised, the pointer in the middle. -/
def videoPowerUp : Video := ⟨.powerUp, ⟨400, 300, false, 0, 0, 0, 0, 0⟩, ⟨0, 0, 0⟩, ⟨0, 0, 0⟩, 0⟩

/-- A black picture, no key held. -/
def darkVideo (vgaDe : Bool) : VideoIn where
  vgaDe := vgaDe
  vga := 0
  keys := ⟨false, false, false, false, 0, 0, false, false, false⟩
  graphEnableScroll := false
  graphColour := 0
  plot1 := .powerUp
  plot2 := .powerUp
  barOn := false
  leftChannel := 0
  rightChannel := 0

/-- Five lines, and the sixth up to two columns before the button `FEARLESS`. -/
def toFearless : List VideoIn :=
  (List.replicate 3 false ++ (List.replicate 5 (800, 256)).flatMap pulse ++
    List.replicate 665 true).map darkVideo

theorem beforePixel_fearless :
    BeforePixel ((toFearless ++ [darkVideo true, darkVideo true]).map VideoIn.vgaDe) 667 5 := by
  refine ⟨3, [], List.replicate 5 (800, 256), ?_, le_rfl, by simp, fun l hl => ?_, rfl, by decide,
    by decide⟩
  · have hid : VideoIn.vgaDe ∘ darkVideo = id := rfl
    have hline : List.replicate 665 true ++ [true, true] = List.replicate 667 true :=
      List.replicate_append_replicate (n := 665) (m := 2)
    rw [toFearless, List.map_append, List.map_map, hid, List.map_id, List.flatten_nil,
      List.nil_append, ← hline, ← List.append_assoc]
    rfl
  · rw [List.eq_of_mem_replicate hl]
    decide

/-- The first pixel of `FEARLESS`. -/
theorem monitor_layers_fearless :
    ((((toFearless.foldl Video.clk videoPowerUp).clk (darkVideo true)).clk (darkVideo true)).clk
        (darkVideo true)).videoOut =
      (((toFearless.foldl Video.clk videoPowerUp).layers (darkVideo true) (darkVideo true)
        (darkVideo true) 667 5).findSome? id).getD 0 :=
  monitor_layers rfl beforePixel_fearless (darkVideo true)

/-- **The graphs leave the controls free.** Whatever samples the graphs have been given, at every
pixel of a button, of its text or of an image of the transport the monitor is sent the pointer, a
bar or the picture of the frame reader, and nowhere do both graphs have a pixel. -/
theorem controls_uncovered {s₀ : Video} (hs : s₀.scan = .powerUp) {pre : List VideoIn}
    {a b : VideoIn} {x y : ℕ} (hpixel : BeforePixel ((pre ++ [a, b]).map VideoIn.vgaDe) x y)
    {c : VideoIn} {stray : Sdram1 → BitVec 10 → BitVec 10 → Sdram1} {is₁ is₂ : List Sample}
    (h₁ : c.plot1 = is₁.foldl (PlotGraph.tick stray plotGraph1) .powerUp)
    (h₂ : c.plot2 = is₂.foldl (PlotGraph.tick stray plotGraph2) .powerUp) :
    let s := pre.foldl Video.clk s₀
    ((∃ r ∈ desktopBoxes, ((x : ℤ), (y : ℤ)) ∈ r.area) →
      (((s.clk a).clk b).clk c).videoOut =
        ((s.pointer a b c x y).or (barLayer c)).getD c.vga) ∧
    (graphLayer a b c x y plotGraph1 VideoIn.plot1 = none ∨
      graphLayer a b c x y plotGraph2 VideoIn.plot2 = none) := by
  intro s
  have hplaced₁ : c.plot1.Placed := h₁ ▸ PlotGraph.placed_foldl stray 266 2 is₁
  have hplaced₂ : c.plot2.Placed := h₂ ▸ PlotGraph.placed_foldl stray 438 2 is₂
  constructor
  · rintro ⟨r, hr, hq⟩
    obtain ⟨hapart₁, hapart₂⟩ := desktopBoxes_apart r hr
    have hnone₁ : graphLayer a b c x y plotGraph1 VideoIn.plot1 = none :=
      hplaced₁.layer_eq_none (fun hmem => hapart₁.not_mem hmem hq) _ _ _ _
    have hnone₂ : graphLayer a b c x y plotGraph2 VideoIn.plot2 = none :=
      hplaced₂.layer_eq_none (fun hmem => hapart₂.not_mem hmem hq) _ _ _ _
    obtain ⟨ha, hb, hc⟩ := Video.counters hs hpixel
    obtain ⟨hx, hy⟩ := hpixel.bounds
    rw [Video.videoOut_eq (by omega) (by omega) ha hb hc c, Video.layers, hnone₁, hnone₂]
    cases hpointer : s.pointer a b c x y with
    | none => cases hbar : barLayer c <;> rfl
    | some color => rfl
  · by_cases hmem : ((x : ℤ), (y : ℤ)) ∈ (PlotGraph.area plotGraph1).area
    · exact .inr (hplaced₂.layer_eq_none (fun hmem₂ => plotAreas_apart.not_mem hmem₂ hmem) _ _ _ _)
    · exact .inl (hplaced₁.layer_eq_none hmem _ _ _ _)

/-- Graph 1 has begun to scroll, graph 2 has stopped. -/
theorem controls_uncovered_fearless :
    let overpainted : List Sample := List.replicate 660 ⟨false, 0x55⟩
    let scrolled : List Sample := List.replicate 30 ⟨true, 0xc3⟩
    let c : VideoIn := { darkVideo true with
      vga := 0x746f70
      graphEnableScroll := true
      graphColour := 0x00ff00
      plot1 := (overpainted ++ scrolled).foldl (PlotGraph.tick keepStray plotGraph1) .powerUp
      plot2 := (scrolled ++ overpainted).foldl (PlotGraph.tick keepStray plotGraph2) .powerUp }
    let s := toFearless.foldl Video.clk videoPowerUp
    (((s.clk (darkVideo true)).clk (darkVideo true)).clk c).videoOut =
        (s.pointer (darkVideo true) (darkVideo true) c 667 5).getD 0x746f70 ∧
      (graphLayer (darkVideo true) (darkVideo true) c 667 5 plotGraph1 VideoIn.plot1 = none ∨
        graphLayer (darkVideo true) (darkVideo true) c 667 5 plotGraph2 VideoIn.plot2 = none) := by
  intro overpainted scrolled c s
  have hbutton : ∃ r ∈ desktopBoxes, (((667 : ℕ) : ℤ), ((5 : ℕ) : ℤ)) ∈ r.area := by
    decide +kernel
  have hbar : barLayer c = none := rfl
  have hplot₁ : c.plot1 = (overpainted ++ scrolled).foldl
      (PlotGraph.tick keepStray plotGraph1) .powerUp := by dsimp only [c]
  have hplot₂ : c.plot2 = (scrolled ++ overpainted).foldl
      (PlotGraph.tick keepStray plotGraph2) .powerUp := by dsimp only [c]
  have hscan : videoPowerUp.scan = .powerUp := rfl
  obtain ⟨hvideo, hgraphs⟩ := controls_uncovered hscan beforePixel_fearless hplot₁ hplot₂
  have hcolor := hvideo hbutton
  rw [hbar, Option.or_none] at hcolor
  exact ⟨hcolor, hgraphs⟩

end DigitalModulation
