import DigitalModulation.Lib.Machine
import DigitalModulation.Carrier.SincosLut

/-!
# `waveform_gen.vhd` and `phase_inc_mux.sv`: the carrier

The accumulator adds the increment that `phase_inc_mux` selects on every clock; its top 12 bits
address the two tables, whose outputs are registered one clock later.

* `WaveformGen.clk`, `WaveformGen.step`: one rising edge, and one event (a rising edge or a falling
  `reset`);
* `accumulator_eq_sum`, `lutAddr_step`: what the accumulator holds and how far the address moves;
* `carrier_continuous`: however selector and increment change, the carrier has no jump;
* `outputs_one_phase`: the four outputs belong to one address, and how often the accumulator wraps.
-/

namespace DigitalModulation

open Machine

/-- `phase_inc_mux`: the FSK increment for selector `001`, else the 3 Hz carrier. -/
def phaseIncMux (ddsIncrement : BitVec 32) (sel : BitVec 3) : BitVec 32 :=
  if sel = 0b001#3 then ddsIncrement else 258#32

/-- The registers of `waveform_gen`, the output registers of its `sincos_lut` included. -/
structure WaveformGen where
  phaseAcc : BitVec 32
  lutAddrReg : BitVec 12
  sinOut : BitVec 12
  cosOut : BitVec 12
  deriving DecidableEq

/-- What a rising edge of `clk` samples. `reset` is active low. -/
structure WaveformIn where
  reset : Bool
  en : Bool
  phaseInc : BitVec 32
  deriving DecidableEq

/-- The events of `waveform_gen`: a rising edge of `clk`, or `reset` going low between edges. -/
inductive WaveformEvent
  | clk (i : WaveformIn)
  | resetFall
  deriving DecidableEq

namespace WaveformGen

/-- `lut_addr <= phase_acc(31 downto 20)`. -/
def lutAddr (s : WaveformGen) : BitVec 12 := s.phaseAcc.extractLsb' 20 12

/-- A rising edge of `clk`: `phase_acc_reg`, `delay_regs` and the table's `rom_select`. -/
def clk (s : WaveformGen) (i : WaveformIn) : WaveformGen where
  phaseAcc :=
    if i.reset = false then 0 else if i.en then s.phaseAcc + i.phaseInc else s.phaseAcc
  lutAddrReg := if i.en then s.lutAddr else s.lutAddrReg
  sinOut := if i.en then sinRom s.lutAddr else s.sinOut
  cosOut := if i.en then cosRom s.lutAddr else s.cosOut

/-- `reset` is asynchronous and clears the accumulator only. -/
def resetFall (s : WaveformGen) : WaveformGen := { s with phaseAcc := 0 }

/-- One event. -/
def step (s : WaveformGen) : WaveformEvent → WaveformGen
  | .clk i => s.clk i
  | .resetFall => s.resetFall

/-- `squ_out`: the most significant bit of the registered address. -/
def squOut (s : WaveformGen) : BitVec 12 := if s.lutAddrReg.msb then 0x7ff#12 else 0x800#12

/-- `saw_out`: the registered address. -/
def sawOut (s : WaveformGen) : BitVec 12 := s.lutAddrReg

/-- A clock with `en = 1` and no reset, the increment chosen by `phase_inc_mux`. -/
def tick (s : WaveformGen) (i : BitVec 32 × BitVec 3) : WaveformGen :=
  s.clk ⟨true, true, phaseIncMux i.1 i.2⟩

end WaveformGen

open WaveformGen

theorem phaseIncMux_lt {d : BitVec 32} (hd : d.toNat < 2 ^ 20) (sel : BitVec 3) :
    (phaseIncMux d sel).toNat < 2 ^ 20 := by
  unfold phaseIncMux
  split_ifs
  · exact hd
  · decide

/-- The accumulator holds its start value plus everything added since, modulo `2 ^ 32`. -/
theorem accumulator_eq_sum (s : WaveformGen) (is : ℕ → BitVec 32 × BitVec 3) (t : ℕ) :
    (run tick s is t).phaseAcc.toNat =
      (s.phaseAcc.toNat + ∑ k ∈ Finset.range t, (phaseIncMux (is k).1 (is k).2).toNat) % 2 ^ 32 :=
  modular_sum (a := fun t => (run tick s is t).phaseAcc.toNat) s.phaseAcc.isLt
    (fun _ => BitVec.toNat_add _ _) t

/-- An increment below `2 ^ 20` moves the table address by `0` or `1`. -/
theorem lutAddr_step (s : WaveformGen) {i : BitVec 32 × BitVec 3} (hi : i.1.toNat < 2 ^ 20) :
    (s.tick i).lutAddr = s.lutAddr ∨ (s.tick i).lutAddr = s.lutAddr + 1#12 :=
  Rom.extractLsb'_add_small (k := 20) (w := 12) s.phaseAcc _ (phaseIncMux_lt hi i.2)

/-- Two successive samples of either output are neighbours in their table. -/
theorem sample_step (s : WaveformGen) {i j : BitVec 32 × BitVec 3} (hi : i.1.toNat < 2 ^ 20) :
    (((s.tick i).tick j).sinOut.toInt - (s.tick i).sinOut.toInt).natAbs ≤ 4 ∧
      (((s.tick i).tick j).cosOut.toInt - (s.tick i).cosOut.toInt).natAbs ≤ 4 :=
  ⟨sinRom_slope.step (lutAddr_step s hi), cosRom_slope.step (lutAddr_step s hi)⟩

/-- **The carrier is continuous in phase.** Whatever the selector and the FSK increment do from
clock to clock, the accumulator holds the sum of the selected increments, the address advances by
`0` or `1`, and from the first clock on successive samples differ by at most 4 and avoid -2048. -/
theorem carrier_continuous (s : WaveformGen) (dds : ℕ → BitVec 32) (sel : ℕ → BitVec 3)
    (hdds : ∀ t, (dds t).toNat < 2 ^ 20) :
    let wave := run tick s fun t => (dds t, sel t)
    (∀ t, (wave t).phaseAcc.toNat =
      (s.phaseAcc.toNat + ∑ k ∈ Finset.range t, (phaseIncMux (dds k) (sel k)).toNat) % 2 ^ 32) ∧
    (∀ t, (wave (t + 1)).lutAddr = (wave t).lutAddr ∨
      (wave (t + 1)).lutAddr = (wave t).lutAddr + 1#12) ∧
    (∀ t, 1 ≤ t → ((wave (t + 1)).sinOut.toInt - (wave t).sinOut.toInt).natAbs ≤ 4 ∧
      ((wave (t + 1)).cosOut.toInt - (wave t).cosOut.toInt).natAbs ≤ 4) ∧
    (∀ t, 1 ≤ t → (wave t).sinOut ≠ 0x800#12 ∧ (wave t).cosOut ≠ 0x800#12) := by
  intro wave
  refine ⟨accumulator_eq_sum s _, fun t => lutAddr_step _ (hdds t), fun t ht => ?_, fun t ht => ?_⟩
  · obtain ⟨u, rfl⟩ := Nat.exists_eq_add_of_le' ht
    exact sample_step (run tick s _ u) (hdds u)
  · obtain ⟨u, rfl⟩ := Nat.exists_eq_add_of_le' ht
    exact ⟨sinRom_ne_min _, cosRom_ne_min _⟩

/-- The carrier across a switch from the 3 Hz increment to the FSK one and back. -/
theorem carrier_continuous_fsk :
    let wave := run tick ⟨0xfff00000#32, 0#12, 0#12, 0#12⟩
      fun t => (0x1AE#32, if t % 2 = 0 then 0b001#3 else 0b000#3)
    ((wave 3).sinOut.toInt - (wave 2).sinOut.toInt).natAbs ≤ 4 :=
  ((carrier_continuous ⟨0xfff00000#32, 0#12, 0#12, 0#12⟩ (fun _ => 0x1AE#32)
    (fun t => if t % 2 = 0 then 0b001#3 else 0b000#3) (fun _ => by decide)).2.2.1 2 (by decide)).1

/-! ### The four outputs -/

namespace WaveformGen

/-- The four outputs are those of the address `a`. -/
def Describes (s : WaveformGen) (a : BitVec 12) : Prop :=
  s.sawOut = a ∧ s.sinOut = sinRom a ∧ s.cosOut = cosRom a ∧
    s.squOut.toInt = if 2048 ≤ a.toNat then 2047 else -2048

/-- The registered address and the two table outputs belong together. -/
def Addressed (s : WaveformGen) (a : BitVec 12) : Prop :=
  s.lutAddrReg = a ∧ s.sinOut = sinRom a ∧ s.cosOut = cosRom a

theorem Addressed.describes {s : WaveformGen} {a : BitVec 12} (h : s.Addressed a) :
    s.Describes a := by
  refine ⟨h.1, h.2.1, h.2.2, ?_⟩
  rw [squOut, h.1, BitVec.msb_eq_decide]
  by_cases ha : 2048 ≤ a.toNat
  · rw [if_pos ha, if_pos (by simpa using ha)]
    rfl
  · rw [if_neg ha, if_neg (by simpa using ha)]
    rfl

theorem addressed_clk (s : WaveformGen) {i : WaveformIn} (h : i.en = true) :
    (s.clk i).Addressed s.lutAddr := by
  simp [Addressed, clk, h]

/-- An edge without `en` and a reset leave the registers behind the accumulator. -/
theorem Addressed.step {s : WaveformGen} {a : BitVec 12} (h : s.Addressed a) {e : WaveformEvent}
    (he : ∀ i, e = .clk i → i.en = false) : (s.step e).Addressed a := by
  cases e with
  | clk i => simpa [Addressed, WaveformGen.step, clk, he i rfl] using h
  | resetFall => exact h

theorem Addressed.foldl {s : WaveformGen} {a : BitVec 12} (h : s.Addressed a)
    {es : List WaveformEvent} (hes : ∀ i, .clk i ∈ es → i.en = false) :
    (es.foldl WaveformGen.step s).Addressed a := by
  induction es generalizing s with
  | nil => exact h
  | cons e es ih =>
    refine ih (h.step fun i hi => hes i (by simp [hi])) fun i hi => hes i ?_
    exact List.mem_cons_of_mem e hi

/-- What an edge adds to the accumulator. -/
theorem toNat_phaseAcc_clk (s : WaveformGen) (en : Bool) (phaseInc : BitVec 32) :
    (s.clk ⟨true, en, phaseInc⟩).phaseAcc.toNat =
      (s.phaseAcc.toNat + if en then phaseInc.toNat else 0) % 2 ^ 32 := by
  cases en with
  | false => exact (Nat.mod_eq_of_lt s.phaseAcc.isLt).symm
  | true => exact BitVec.toNat_add _ _

end WaveformGen

theorem sum_range_enabled (en : ℕ → Bool) (p t : ℕ) :
    (∑ k ∈ Finset.range t, if en k then p else 0) = Nat.count (fun k => en k = true) t * p := by
  induction t with
  | zero => simp
  | succ t ih =>
    rw [Finset.sum_range_succ, ih, Nat.count_succ, Nat.add_mul]
    split_ifs <;> simp

/-- **The four outputs describe one phase.** After any events, among them an edge with `en`, the
outputs are those of the address that the accumulator gave before the last such edge. And with one
increment and no reset the accumulator wraps as often as `2 ^ 32` fits into its start plus what the
enabled edges added. -/
theorem outputs_one_phase :
    (∀ (s : WaveformGen) (pre post : List WaveformEvent) (i : WaveformIn), i.en = true →
      (∀ j, .clk j ∈ post → j.en = false) →
      ((pre ++ .clk i :: post).foldl step s).Describes (pre.foldl step s).lutAddr) ∧
    ∀ (s : WaveformGen) (phaseInc : BitVec 32) (en : ℕ → Bool) (t : ℕ),
      let wave := run clk s fun k => ⟨true, en k, phaseInc⟩
      Nat.count (fun k => (wave (k + 1)).phaseAcc < (wave k).phaseAcc) t =
        (s.phaseAcc.toNat + Nat.count (fun k => en k = true) t * phaseInc.toNat) / 2 ^ 32 := by
  constructor
  · intro s pre post i hi hpost
    rw [List.foldl_append, List.foldl_cons]
    exact ((addressed_clk (pre.foldl step s) hi).foldl hpost).describes
  · intro s phaseInc en t wave
    have hwraps := modular_wraps (a := fun k => (wave k).phaseAcc.toNat)
      (d := fun k => if en k then phaseInc.toNat else 0) s.phaseAcc.isLt
      (fun k => by split_ifs <;> omega)
      (fun k => toNat_phaseAcc_clk (wave k) (en k) phaseInc) t
    rw [sum_range_enabled] at hwraps
    exact hwraps

/-- A reset between the last enabled edge and a clock without `en`. -/
theorem outputs_one_phase_reset :
    let i : WaveformIn := ⟨true, true, 0x1AE⟩
    ([.clk i, .resetFall, .clk { i with reset := false, en := false }].foldl step
      ⟨0xfff00000, 0, 0, 0⟩).Describes 0xfff :=
  outputs_one_phase.1 ⟨0xfff00000, 0, 0, 0⟩ []
    [.resetFall, .clk ⟨false, false, 0x1AE⟩] ⟨true, true, 0x1AE⟩ rfl (by simp)

end DigitalModulation
