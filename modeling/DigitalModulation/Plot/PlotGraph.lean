import Mathlib.Data.BitVec
import Mathlib.Logic.Function.Basic
import Mathlib.Tactic.SplitIfs

/-!
# `plot_graph.v`

The samples of a waveform are written into the RAM `sdram1`, and the column that is being displayed
is looked up in it. With `scroll_en` the display moves along; without it the samples overwrite each
other from left to right.

* `PlotGraph`: the registers and the RAM;
* `PlotGraph.tick`: an edge of `data_graph_rdy`;
* `rdaddress`, `verticalLine`, `columnTest`: what the display makes of them;
* `plotGraph1`, `plotGraph2`: the instances of `top.sv`;
* `plot_ram_overrun`: the addresses that are beyond the RAM.
-/

namespace DigitalModulation

/-- The inputs that stay: position, size, `reset_n` and `pause_graph`. -/
structure PlotPorts where
  posX : BitVec 11
  posY : BitVec 11
  witdh : BitVec 11
  height : BitVec 3
  resetN : Bool
  pauseGraph : Bool

/-- The inputs at an edge of `data_graph_rdy`. -/
structure Sample where
  scrollEn : Bool
  dataGraph : BitVec 8

/-- What is written to the RAM, `{{2{data_graph[7]}}, data_graph}`. -/
def Sample.data (i : Sample) : BitVec 10 := i.dataGraph.signExtend 10

/-- The words of `sdram1` by address. There are 640; what is read beyond is whatever was written
there, as far as the memory keeps it. -/
abbrev Sdram1 := BitVec 10 → BitVec 10

/-- `numwords_a`. -/
def numwords : BitVec 10 := 640

/-- A write to the RAM; `stray` is what a write beyond its words does. -/
def Sdram1.write (stray : Sdram1 → BitVec 10 → BitVec 10 → Sdram1) (ram : Sdram1)
    (wraddress data : BitVec 10) : Sdram1 :=
  if wraddress < numwords then Function.update ram wraddress data else stray ram wraddress data

/-- A memory of 1024 words keeps what is written beyond as well. -/
def keepStray : Sdram1 → BitVec 10 → BitVec 10 → Sdram1 := Function.update

/-- The registers `SDRAM_ADD_WRITE`, `Bandera_Scroll_FX` and `Dif_SCROLL`, and the RAM. -/
structure PlotGraph where
  sdramAddWrite : BitVec 10
  banderaScrollFx : Bool
  difScroll : BitVec 10
  sdram1 : Sdram1

namespace PlotGraph

/-- The registers as initialised, the RAM cleared. -/
def powerUp : PlotGraph := ⟨640, false, 0, fun _ => 0⟩

/-- An edge of `data_graph_rdy`. The comparison is one of eleven bits. -/
def tick (stray : Sdram1 → BitVec 10 → BitVec 10 → Sdram1) (p : PlotPorts) (s : PlotGraph)
    (i : Sample) : PlotGraph :=
  if p.pauseGraph then s
  else
    { sdramAddWrite :=
        if p.resetN = false then 0
        else if p.witdh - 1 ≤ s.sdramAddWrite.setWidth 11 then
          if i.scrollEn then s.sdramAddWrite + 1 else 0
        else s.sdramAddWrite + 1
      banderaScrollFx :=
        if p.resetN = false then false
        else if p.witdh - 1 ≤ s.sdramAddWrite.setWidth 11 then i.scrollEn
        else s.banderaScrollFx
      difScroll :=
        if p.resetN = false then 0
        else if i.scrollEn = false then 0
        else if s.banderaScrollFx then s.difScroll + 1
        else 0
      sdram1 := s.sdram1.write stray s.sdramAddWrite i.data }

/-- `CountX_in[9:0] + Dif_SCROLL - Pos_X`, of eleven bits. -/
def column (p : PlotPorts) (s : PlotGraph) (countX : BitVec 11) : BitVec 11 :=
  (countX.setWidth 10).setWidth 11 + s.difScroll.setWidth 11 - p.posX

/-- The read address, of which the RAM has ten bits. -/
def rdaddress (p : PlotPorts) (s : PlotGraph) (countX : BitVec 11) : BitVec 10 :=
  (s.column p countX).setWidth 10

/-- `vertical_line`. -/
def verticalLine (p : PlotPorts) (s : PlotGraph) (scrollEn : Bool) (countX countY : BitVec 11) :
    Bool :=
  if scrollEn = false then
    s.column p countX == s.sdramAddWrite.setWidth 11 && decide (p.posY ≤ countY) &&
      decide (countY ≤ 255 / p.height.setWidth 11 + p.posY)
  else false

end PlotGraph

/-- The column test of `Graph_on`. -/
def columnTest (p : PlotPorts) (countX : BitVec 11) : Bool :=
  decide (p.posX ≤ countX) && decide (countX ≤ p.witdh + p.posX)

/-- The ports as `top.sv` connects them, with `Pos_Y` and `Height`. -/
def topPorts (posY : BitVec 11) (height : BitVec 3) : PlotPorts :=
  ⟨0, posY, 640, height, true, false⟩

def plotGraph1 : PlotPorts := topPorts 266 2
def plotGraph2 : PlotPorts := topPorts 438 2

/-! ### The instances of `top.sv` -/

namespace PlotGraph

section

variable (stray : Sdram1 → BitVec 10 → BitVec 10 → Sdram1) (posY : BitVec 11) (height : BitVec 3)
  (s : PlotGraph) {i : Sample}

/-- The test on the write address, for a width of 640. -/
theorem width_test (w : BitVec 10) : (640 - 1 : BitVec 11) ≤ w.setWidth 11 ↔ 639 ≤ w.toNat := by
  bv_omega

theorem tick_scroll (hi : i.scrollEn = true) :
    s.tick stray (topPorts posY height) i =
      ⟨s.sdramAddWrite + 1, if 639 ≤ s.sdramAddWrite.toNat then true else s.banderaScrollFx,
        if s.banderaScrollFx then s.difScroll + 1 else 0,
        s.sdram1.write stray s.sdramAddWrite i.data⟩ := by
  simp [tick, topPorts, hi, ← width_test]

theorem tick_overpaint (hi : i.scrollEn = false) :
    s.tick stray (topPorts posY height) i =
      ⟨if 639 ≤ s.sdramAddWrite.toNat then 0 else s.sdramAddWrite + 1,
        if 639 ≤ s.sdramAddWrite.toNat then false else s.banderaScrollFx, 0,
        s.sdram1.write stray s.sdramAddWrite i.data⟩ := by
  simp [tick, topPorts, hi, ← width_test]

theorem rdaddress_top (countX : BitVec 11) :
    s.rdaddress (topPorts posY height) countX = countX.setWidth 10 + s.difScroll := by
  unfold rdaddress column topPorts
  bv_omega

end

/-- Every address the RAM is given in a run is one of its words: that of the write at each tick, and
that of the read of each column that passes the test. -/
def InsideRam (stray : Sdram1 → BitVec 10 → BitVec 10 → Sdram1) (p : PlotPorts)
    (is : List Sample) : Prop :=
  (∀ pre i rest, pre ++ i :: rest = is →
    (pre.foldl (tick stray p) powerUp).sdramAddWrite < numwords) ∧
  ∀ pre rest, pre ++ rest = is → ∀ countX, columnTest p countX = true →
    (pre.foldl (tick stray p) powerUp).rdaddress p countX < numwords

/-- The columns that pass the test are 641, so that in every state one of them is read beyond the
RAM. -/
theorem exists_rdaddress_ge (posY : BitVec 11) (height : BitVec 3) (s : PlotGraph) :
    ∃ countX, columnTest (topPorts posY height) countX = true ∧
      ¬ s.rdaddress (topPorts posY height) countX < numwords := by
  -- Some column shows address 640, or the first one is beyond it.
  by_cases hd : s.difScroll.toNat ≤ 640
  · refine ⟨BitVec.ofNat 11 (640 - s.difScroll.toNat), ?_, ?_⟩
    · unfold columnTest topPorts
      rw [Bool.and_eq_true, decide_eq_true_iff, decide_eq_true_iff]
      constructor <;> bv_omega
    · rw [rdaddress_top]
      unfold numwords
      bv_omega
  · refine ⟨0, by simp [columnTest, topPorts], ?_⟩
    rw [rdaddress_top]
    unfold numwords
    bv_omega

/-- The address of the next write. -/
theorem sdramAddWrite_tick_lt_iff (stray : Sdram1 → BitVec 10 → BitVec 10 → Sdram1)
    (posY : BitVec 11) (height : BitVec 3) (s : PlotGraph) (i : Sample) :
    (s.tick stray (topPorts posY height) i).sdramAddWrite < numwords ↔
      i.scrollEn = false ∨ s.sdramAddWrite < 639 ∨ s.sdramAddWrite = 1023 := by
  cases hi : i.scrollEn with
  | false =>
    rw [tick_overpaint stray posY height s hi]
    simp only [numwords, true_or, iff_true]
    split_ifs <;> bv_omega
  | true =>
    rw [tick_scroll stray posY height s hi]
    simp only [numwords, Bool.true_eq_false, false_or]
    bv_omega

end PlotGraph

/-- **The addresses beyond the RAM.** Whatever the samples, the first write goes to address 640 and
in every state some visible column is read at an address that is no word of the RAM, so that no run
stays inside; the write after a tick is inside unless that tick scrolled on from 639 or from beyond,
short of the last address. -/
theorem plot_ram_overrun (stray : Sdram1 → BitVec 10 → BitVec 10 → Sdram1) (posY : BitVec 11)
    (height : BitVec 3) (is : List Sample) :
    let p := topPorts posY height
    let s := is.foldl (PlotGraph.tick stray p) PlotGraph.powerUp
    ¬ PlotGraph.InsideRam stray p is ∧
    PlotGraph.powerUp.sdramAddWrite = numwords ∧
    (∃ countX, columnTest p countX = true ∧ ¬ s.rdaddress p countX < numwords) ∧
    ∀ i : Sample, (s.tick stray p i).sdramAddWrite < numwords ↔
      i.scrollEn = false ∨ s.sdramAddWrite < 639 ∨ s.sdramAddWrite = 1023 := by
  intro p s
  obtain ⟨countX, htest, haddress⟩ := PlotGraph.exists_rdaddress_ge posY height s
  refine ⟨fun h => ?_, rfl, ⟨countX, htest, haddress⟩,
    PlotGraph.sdramAddWrite_tick_lt_iff stray posY height s⟩
  exact haddress (h.2 is [] (List.append_nil is) countX htest)

/-- The first sample is written to address 640. -/
theorem plot_ram_first_write :
    ¬ ∀ is : List Sample, PlotGraph.InsideRam keepStray plotGraph1 is := by
  intro h
  have hwrite := (h [⟨true, 0⟩]).1 [] ⟨true, 0⟩ [] rfl
  exact absurd hwrite (by decide)

end DigitalModulation
