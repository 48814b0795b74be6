import DigitalModulation.Lib.Machine
import DigitalModulation.Plot.PlotGraph

/-!
# `plot_graph.v`: the slope of the trace

`PendienteFX` lights the rows of a column between the sample of the column before and its own.

* `traceRow`, `pendienteFx`, `displayClk`: the row of a word of the RAM, the test, and the register
  that keeps the word of the column before;
* `packSample`: the sample as `top.sv` hands it over;
* `lowRow`, `highRow`, `pendienteFx_iff`: the ends of the lit interval;
* `trace_connected`: the interval of every column of a line, and that neighbours touch.
-/

namespace DigitalModulation

/-- `SDRAM_OUT1`. -/
def sdramOut1 (sdramOut : BitVec 10) : BitVec 10 := ~~~sdramOut

/-- `word[7:0] / Height + Pos_Y`, of eleven bits. -/
def traceRow (p : PlotPorts) (word : BitVec 10) : BitVec 11 :=
  (word.setWidth 8).setWidth 11 / p.height.setWidth 11 + p.posY

/-- `PendienteFX`. -/
def pendienteFx (p : PlotPorts) (lineWidth : BitVec 3) (sdramOutAnt sdramOut1 : BitVec 10)
    (countY : BitVec 11) : Bool :=
  if traceRow p sdramOutAnt ≤ countY + lineWidth.setWidth 11 then
    decide (countY ≤ traceRow p sdramOut1) &&
      decide (traceRow p sdramOutAnt ≤ countY + lineWidth.setWidth 11)
  else if countY ≤ traceRow p sdramOutAnt then
    decide (traceRow p sdramOut1 ≤ countY + lineWidth.setWidth 11) &&
      decide (countY ≤ traceRow p sdramOutAnt)
  else false

/-- The register `SDRAM_OUT_ANT` at an edge of `display_clk`. -/
def displayClk (p : PlotPorts) (_sdramOutAnt sdramOut : BitVec 10) : BitVec 10 :=
  if p.resetN = false then 0 else sdramOut1 sdramOut

/-- The eight bits `{~s[11], s[10:4]}` of a sample. -/
def packSample (s : BitVec 12) : BitVec 8 := BitVec.ofBool (!s.msb) ++ s.extractLsb' 4 7

/-- The test in the column `t` of a line whose columns are read as `samples`. -/
def traceLit (p : PlotPorts) (lineWidth : BitVec 3) (ant : BitVec 10) (samples : ℕ → Sample)
    (t : ℕ) (countY : BitVec 11) : Bool :=
  pendienteFx p lineWidth (Machine.run (displayClk p) ant (fun t => (samples t).data) t)
    (sdramOut1 (samples t).data) countY

/-! ### Rows -/

/-- The eight bits are the sample in offset binary, without its last four bits. -/
theorem toNat_packSample (s : BitVec 12) :
    ((packSample s).toNat : ℤ) = (s.toInt + 2048) / 16 := by
  have hmsb : (BitVec.ofBool (!s.msb)).toNat = if 2048 ≤ s.toNat then 0 else 1 := by
    rw [BitVec.msb_eq_decide]
    by_cases h : 2048 ≤ s.toNat <;> simp [h]
  have hlow : (s.extractLsb' 4 7).toNat = s.toNat / 2 ^ 4 % 2 ^ 7 := by
    rw [BitVec.extractLsb'_toNat, Nat.shiftRight_eq_div_pow]
  have hlt : s.toNat / 2 ^ 4 % 2 ^ 7 < 2 ^ 7 := Nat.mod_lt _ (by decide)
  unfold packSample
  rw [BitVec.toNat_append, hmsb, hlow, ← Nat.shiftLeft_add_eq_or_of_lt hlt, Nat.shiftLeft_eq,
    BitVec.toInt_eq_toNat_cond]
  split_ifs <;> omega

/-- The word that `SDRAM_OUT1` holds of a sample. -/
theorem toNat_sdramOut1 (i : Sample) :
    ((sdramOut1 i.data).setWidth 8).toNat = 255 - i.dataGraph.toNat := by
  have hlow : (sdramOut1 i.data).setWidth 8 = ~~~i.dataGraph := by
    apply BitVec.eq_of_getLsbD_eq
    intro k hk
    simp [sdramOut1, Sample.data, BitVec.getElem_signExtend, hk, show k < 10 by omega]
  rw [hlow, BitVec.toNat_not]

/-- The row of a sample. -/
def sampleRow (p : PlotPorts) (dataGraph : BitVec 8) : ℕ :=
  p.posY.toNat + (255 - dataGraph.toNat) / p.height.toNat

theorem sampleRow_antitone (p : PlotPorts) {s s' : BitVec 12} (h : s.toInt ≤ s'.toInt) :
    sampleRow p (packSample s') ≤ sampleRow p (packSample s) := by
  have hs := toNat_packSample s
  have hs' := toNat_packSample s'
  exact Nat.add_le_add_left (Nat.div_le_div_right (by omega)) _

theorem div_height_le (p : PlotPorts) (word : BitVec 10) :
    (word.setWidth 8).toNat / p.height.toNat ≤ 255 / p.height.toNat :=
  Nat.div_le_div_right (Nat.le_of_lt_succ (word.setWidth 8).isLt)

theorem toNat_traceRow {p : PlotPorts} (h : p.posY.toNat + 255 / p.height.toNat < 2048)
    (word : BitVec 10) :
    (traceRow p word).toNat = p.posY.toNat + (word.setWidth 8).toNat / p.height.toNat := by
  have hdiv := div_height_le p word
  unfold traceRow
  rw [BitVec.toNat_add, BitVec.toNat_udiv, BitVec.toNat_setWidth_of_le (by decide : 8 ≤ 11),
    BitVec.toNat_setWidth_of_le (by decide : 3 ≤ 11), Nat.add_comm]
  exact Nat.mod_eq_of_lt (by omega)

theorem traceRow_bounds {p : PlotPorts} (h : p.posY.toNat + 255 / p.height.toNat < 2048)
    (word : BitVec 10) : p.posY.toNat ≤ (traceRow p word).toNat ∧
      (traceRow p word).toNat ≤ p.posY.toNat + 255 / p.height.toNat := by
  rw [toNat_traceRow h]
  exact ⟨Nat.le_add_right _ _, Nat.add_le_add_left (div_height_le p word) _⟩

/-! ### One column -/

/-- The first lit row, for the row `a` of the column before and the row `b` of this one. -/
def lowRow (a b w : ℕ) : ℕ := min a b - w

/-- The last lit row. -/
def highRow (a b w : ℕ) : ℕ := max b (a - w - 1)

section Interval

variable (a b c w : ℕ)

theorem lowRow_le : lowRow a b w ≤ b := by
  unfold lowRow
  omega

theorem le_highRow : b ≤ highRow a b w := le_max_left _ _

theorem sub_le_lowRow {m : ℕ} (ha : m ≤ a) (hb : m ≤ b) : m - w ≤ lowRow a b w := by
  unfold lowRow
  omega

theorem highRow_le {m : ℕ} (ha : a ≤ m) (hb : b ≤ m) : highRow a b w ≤ m := by
  unfold highRow
  omega

/-- Two columns with the row `b` between them touch. -/
theorem rows_touch : lowRow b c w ≤ highRow a b w + 1 ∧ lowRow a b w ≤ highRow b c w + 1 := by
  unfold lowRow highRow
  omega

end Interval

/-- The lit rows are an interval. -/
theorem pendienteFx_iff (p : PlotPorts) {lineWidth : BitVec 3} (ant out : BitVec 10)
    {y : BitVec 11} (hy : y.toNat + lineWidth.toNat < 2048) :
    pendienteFx p lineWidth ant out y = true ↔
      lowRow (traceRow p ant).toNat (traceRow p out).toNat lineWidth.toNat ≤ y.toNat ∧
        y.toNat ≤ highRow (traceRow p ant).toNat (traceRow p out).toNat lineWidth.toNat := by
  have hsum : (y + lineWidth.setWidth 11).toNat = y.toNat + lineWidth.toNat := by
    rw [BitVec.toNat_add, BitVec.toNat_setWidth_of_le (by decide), Nat.mod_eq_of_lt hy]
  unfold pendienteFx lowRow highRow
  simp only [BitVec.le_def, hsum]
  split_ifs <;> simp <;> omega

/-! ### A line -/

/-- **The trace is connected and faithful.** On a line read as any samples, in every column the lit
rows are an interval that contains the row of the column's sample and keeps to the height of the
graph and the width of the line, and the intervals of neighbouring columns touch. A larger sample
has no larger row. -/
theorem trace_connected (p : PlotPorts) (lineWidth : BitVec 3) (ant : BitVec 10)
    (samples : ℕ → Sample) (hreset : p.resetN = true) (_hheight : 1 ≤ p.height)
    (hfits : p.posY.toNat + 255 / p.height.toNat + lineWidth.toNat < 2048) :
    (∃ lo hi : ℕ → ℕ, ∀ t,
      (∀ y : BitVec 11, y.toNat + lineWidth.toNat < 2048 →
        (traceLit p lineWidth ant samples t y = true ↔ lo t ≤ y.toNat ∧ y.toNat ≤ hi t)) ∧
      (lo t ≤ sampleRow p (samples t).dataGraph ∧ sampleRow p (samples t).dataGraph ≤ hi t) ∧
      (p.posY.toNat - lineWidth.toNat ≤ lo t ∧ hi t ≤ p.posY.toNat + 255 / p.height.toNat) ∧
      lo (t + 1) ≤ hi t + 1 ∧ lo t ≤ hi (t + 1) + 1) ∧
    ∀ s s' : BitVec 12, s.toInt ≤ s'.toInt →
      sampleRow p (packSample s') ≤ sampleRow p (packSample s) := by
  have hfits' : p.posY.toNat + 255 / p.height.toNat < 2048 := by omega
  let before := Machine.run (displayClk p) ant fun t => (samples t).data
  let a : ℕ → ℕ := fun t => (traceRow p (before t)).toNat
  let b : ℕ → ℕ := fun t => (traceRow p (sdramOut1 (samples t).data)).toNat
  have hb : ∀ t, b t = sampleRow p (samples t).dataGraph := by
    intro t
    rw [sampleRow, ← toNat_sdramOut1]
    exact toNat_traceRow hfits' _
  -- The row before a column is the row of the column before.
  have hnext : ∀ t, a (t + 1) = b t := by
    intro t
    simp only [a, b, before, Machine.run, displayClk, hreset, Bool.true_eq_false, if_false]
  refine ⟨⟨fun t => lowRow (a t) (b t) lineWidth.toNat,
    fun t => highRow (a t) (b t) lineWidth.toNat, fun t => ?_⟩, fun s s' => sampleRow_antitone p⟩
  obtain ⟨hamin, hamax⟩ := traceRow_bounds hfits' (before t)
  obtain ⟨hbmin, hbmax⟩ := traceRow_bounds hfits' (sdramOut1 (samples t).data)
  refine ⟨fun y hy => pendienteFx_iff p _ _ hy, ?_, ⟨?_, ?_⟩, ?_⟩
  · rw [← hb]
    exact ⟨lowRow_le _ _ _, le_highRow _ _ _⟩
  · exact sub_le_lowRow _ _ _ hamin hbmin
  · exact highRow_le _ _ _ hamax hbmax
  · dsimp only
    rw [hnext]
    exact rows_touch _ _ _ _

/-- The upper graph of `top.sv`, on a line of rising and falling samples. -/
theorem trace_connected_plotGraph1 : ∃ lo hi : ℕ → ℕ, ∀ t,
    lo t ≤ sampleRow plotGraph1 (BitVec.ofNat 8 (40 * t)) ∧
      sampleRow plotGraph1 (BitVec.ofNat 8 (40 * t)) ≤ hi t := by
  obtain ⟨lo, hi, h⟩ := (trace_connected plotGraph1 0 0
    (fun t => ⟨true, BitVec.ofNat 8 (40 * t)⟩) rfl (by decide) (by decide)).1
  exact ⟨lo, hi, fun t => (h t).2.1⟩

end DigitalModulation
