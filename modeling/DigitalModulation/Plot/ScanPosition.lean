import DigitalModulation.Lib.Machine
import DigitalModulation.Lib.Samples

/-!
# `hack_ltm_sincronization.v`: the scan position

The data enable of the display is its only synchronisation: `count_x` counts the samples for which
it is high and `count_y` the falling edges of `line_rdy`, which follows it by one edge.

* `ScanPosition.clkLcd`, `ScanPosition.resetFall`: a falling edge of `clk_lcd` and one of `reset`;
* `scan`: the counters after a waveform of `den_lcd`;
* `scan_position_recovered`: what they hold, and that they are the position in the frame.
-/

namespace DigitalModulation

open Samples

/-- The registers of `hack_ltm_sincronization`. -/
structure ScanPosition where
  countX : BitVec 11
  countY : BitVec 11
  lineRdy : Bool
  deriving DecidableEq

namespace ScanPosition

/-- The process of `count_x` and `line_rdy`; `WIDTH` is 800. -/
def countLine (s : ScanPosition) (reset den : Bool) : ScanPosition :=
  if reset = false then { s with countX := 0, lineRdy := false }
  else if den then
    if s.countX < 800#11 then { s with countX := s.countX + 1, lineRdy := true }
    else { s with countX := 0, lineRdy := true }
  else { s with countX := 0, lineRdy := false }

/-- The process of `count_y`; `HEIGHT` is 599. -/
def countFrame (s : ScanPosition) (reset : Bool) : ScanPosition :=
  if reset = false then { s with countY := 0 }
  else if s.countY < 599#11 then { s with countY := s.countY + 1 }
  else { s with countY := 0 }

/-- A falling edge of `clk_lcd`, and the one of `line_rdy` that it may cause. -/
def clkLcd (s : ScanPosition) (reset den : Bool) : ScanPosition :=
  let s' := s.countLine reset den
  if s.lineRdy && !s'.lineRdy then s'.countFrame reset else s'

/-- A falling edge of `reset` starts both processes. -/
def resetFall (s : ScanPosition) : ScanPosition := (s.countLine false false).countFrame false

/-- The declared initial values. -/
def powerUp : ScanPosition := ⟨0, 0, false⟩

example (s : ScanPosition) : s.resetFall = powerUp := rfl

/-! ### One edge with `reset` high -/

variable (s : ScanPosition) (den : Bool)

@[simp] theorem countLine_lineRdy : (s.countLine true den).lineRdy = den := by
  unfold countLine
  cases den with
  | false => rfl
  | true => by_cases hx : s.countX < 800#11 <;> simp [hx]

@[simp] theorem countLine_countY : (s.countLine true den).countY = s.countY := by
  unfold countLine
  split_ifs <;> rfl

@[simp] theorem countFrame_lineRdy : (s.countFrame true).lineRdy = s.lineRdy := by
  unfold countFrame
  split_ifs <;> rfl

@[simp] theorem countFrame_countX : (s.countFrame true).countX = s.countX := by
  unfold countFrame
  split_ifs <;> rfl

theorem toNat_countX_countLine : (s.countLine true den).countX.toNat =
    if den then if s.countX.toNat < 800 then s.countX.toNat + 1 else 0 else 0 := by
  unfold countLine
  cases den <;> split_ifs <;> bv_omega

theorem toNat_countY_countFrame : (s.countFrame true).countY.toNat =
    if s.countY.toNat < 599 then s.countY.toNat + 1 else 0 := by
  unfold countFrame
  split_ifs <;> bv_omega

theorem clkLcd_eq : s.clkLcd true den =
    if s.lineRdy = true ∧ den = false then (s.countLine true den).countFrame true
    else s.countLine true den := by
  simp [clkLcd]

theorem lineRdy_clkLcd : (s.clkLcd true den).lineRdy = den := by
  rw [clkLcd_eq]
  split_ifs <;> simp

theorem toNat_countX_clkLcd : (s.clkLcd true den).countX.toNat =
    if den then if s.countX.toNat < 800 then s.countX.toNat + 1 else 0 else 0 := by
  rw [clkLcd_eq, ← toNat_countX_countLine]
  split_ifs <;> simp

theorem toNat_countY_clkLcd : (s.clkLcd true den).countY.toNat =
    if s.lineRdy = true ∧ den = false then
      if s.countY.toNat < 599 then s.countY.toNat + 1 else 0
    else s.countY.toNat := by
  rw [clkLcd_eq]
  split_ifs with hfall <;> simp [toNat_countY_countFrame, *]

end ScanPosition

/-! ### Whole waveforms -/

/-- The counters after a waveform of `den_lcd`, from power-up and with `reset` high. -/
def scan (dens : List Bool) : ScanPosition :=
  dens.foldl (fun s den => s.clkLcd true den) .powerUp

theorem scan_concat (dens : List Bool) (den : Bool) :
    scan (dens ++ [den]) = (scan dens).clkLcd true den := by
  rw [scan, List.foldl_append]
  rfl

theorem lineRdy_scan (dens : List Bool) :
    (scan dens).lineRdy = true ↔ dens.getLast? = some true := by
  cases dens using List.reverseRecOn with
  | nil => decide
  | append_singleton dens den =>
    rw [scan_concat, ScanPosition.lineRdy_clkLcd, List.getLast?_concat, Option.some_inj]

theorem countX_scan (dens : List Bool) : (scan dens).countX.toNat = streak dens % 801 := by
  induction dens using List.reverseRecOn with
  | nil => rfl
  | append_singleton dens den ih =>
    rw [scan_concat, ScanPosition.toNat_countX_clkLcd, ih, streak_concat, Machine.wrap_mod _ 800]
    split_ifs
    · rfl
    · rfl

theorem countY_scan (dens : List Bool) :
    (scan dens).countY.toNat = changes true false dens % 600 := by
  induction dens using List.reverseRecOn with
  | nil => rfl
  | append_singleton dens den ih =>
    rw [scan_concat, ScanPosition.toNat_countY_clkLcd, ih, changes_concat, Machine.wrap_mod _ 599]
    simp only [lineRdy_scan]
    split_ifs
    · rfl
    · rfl

/-- The counters while a line is scanned behind any row of whole lines. -/
theorem scan_lines (lead : ℕ) {lines : List (ℕ × ℕ)} (hlines : ∀ l ∈ lines, 1 ≤ l.1 ∧ 1 ≤ l.2)
    {k : ℕ} (hk : k ≤ 800) :
    let s := scan (List.replicate lead false ++ lines.flatMap pulse ++ List.replicate k true)
    s.countX.toNat = k ∧ s.countY.toNat = lines.length % 600 := by
  have hlow : Low (List.replicate lead false ++ lines.flatMap pulse) :=
    low_append_pulses (low_replicate lead) fun l hl => (hlines l hl).2
  refine ⟨?_, ?_⟩
  · rw [countX_scan, streak_append_replicate, streak_of_low hlow, Nat.zero_add,
      Nat.mod_eq_of_lt (by omega)]
  · rw [countY_scan, changes_append_ne (by decide), changes_append_pulses _ hlines,
      changes_replicate (by decide), Nat.zero_add]

/-- **The scan position is recovered.** From power-up and for every waveform of `den_lcd` the
counters hold how long it has been high, modulo 801, and how often it has gone low, modulo 600. So
in a waveform of whole frames of 600 lines, each high for 1 to 800 samples and followed by a low
one, they hold at sample `k` of line `j` of the next frame `k` and `j`. -/
theorem scan_position_recovered :
    (∀ dens : List Bool, (scan dens).countX.toNat = streak dens % 801 ∧
      (scan dens).countY.toNat = changes true false dens % 600) ∧
    ∀ (lead : ℕ) (frames : List (List (ℕ × ℕ))) (lines : List (ℕ × ℕ)) (k : ℕ),
      (∀ frame ∈ frames, frame.length = 600) → lines.length < 600 →
      (∀ l ∈ frames.flatten ++ lines, (1 ≤ l.1 ∧ l.1 ≤ 800) ∧ 1 ≤ l.2) → 1 ≤ k → k ≤ 800 →
      let s := scan (List.replicate lead false ++ (frames.flatten ++ lines).flatMap pulse ++
        List.replicate k true)
      s.countX.toNat = k ∧ s.countY.toNat = lines.length := by
  refine ⟨fun dens => ⟨countX_scan dens, countY_scan dens⟩, ?_⟩
  intro lead frames lines k hframes hlines hl _ hk
  have hcount : (frames.flatten ++ lines).length = lines.length + 600 * frames.length := by
    rw [List.length_append, List.length_flatten, List.map_congr_left hframes]
    simp [Nat.mul_comm, Nat.add_comm]
  have hscan := scan_lines lead (fun l h => ⟨(hl l h).1.1, (hl l h).2⟩) hk
  rw [hcount, Nat.add_mul_mod_self_left, Nat.mod_eq_of_lt hlines] at hscan
  exact hscan

/-- The fifth sample of the third line of the second frame. -/
theorem scan_position_recovered_third_line :
    let line := (800, 256)
    let s := scan (List.replicate 7 false ++
      ([List.replicate 600 line].flatten ++ [line, line]).flatMap pulse ++ List.replicate 5 true)
    s.countX.toNat = 5 ∧ s.countY.toNat = 2 := by
  refine scan_position_recovered.2 7 [List.replicate 600 (800, 256)] [(800, 256), (800, 256)] 5
    (fun frame h => List.mem_singleton.mp h ▸ List.length_replicate) (by decide) (fun l hl => ?_)
    (by decide) (by decide)
  have hl : l = (800, 256) := by
    rcases List.mem_append.mp hl with hl | hl
    · obtain ⟨frame, hframe, hl⟩ := List.mem_flatten.mp hl
      rw [List.mem_singleton.mp hframe] at hl
      exact List.eq_of_mem_replicate hl
    · exact by simpa using hl
  rw [hl]
  decide

end DigitalModulation
