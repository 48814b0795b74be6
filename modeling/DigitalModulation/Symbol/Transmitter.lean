import DigitalModulation.Carrier.Modulators
import DigitalModulation.Symbol.ClkDivider
import DigitalModulation.Symbol.Sequence

/-!
# The transmitter

Between `CLOCK_50` and the modulated signals are the divider, the LFSR, two synchronizers, the
generator of the carrier and the modulators. After power-up all of them work together without a
reset, whatever the processor writes to the increment and to the selector.

* `Transmitter.clock50`: one rising edge of `CLOCK_50` at everything;
* `Transmitter.signals`: the registers after a number of edges;
* `divider_signals`, `sends_signals`, `syncDibit_signals`: which symbol is where;
* `lutAddr_signals`, `holds_signals`: the address at the carrier tables, and what they put out;
* `transmitted_signals`: every modulated sample, in terms of its number.
-/

namespace DigitalModulation

/-- The registers between `CLOCK_50` and `modulator_mux`. -/
structure Transmitter where
  divider : ClkDivider
  path : SymbolPath
  psk : Psk
  askSig : BitVec 12
  lfsrSig : BitVec 12

/-- What the processor has written. -/
structure Setting where
  ddsIncrement : BitVec 32
  modulationSelector : BitVec 4

/-- `selected_phase_inc`, of which the selector has only two bits. -/
def Setting.selectedPhaseInc (i : Setting) : BitVec 32 :=
  phaseIncMux i.ddsIncrement ((i.modulationSelector.setWidth 2).setWidth 3)

namespace Transmitter

/-- The values at power-up. -/
def powerUp : Transmitter where
  divider := ⟨0, false⟩
  path := ⟨Lfsr.reset, ⟨false, false, false⟩, ⟨false, false, false⟩⟩
  psk := ⟨⟨0, 0, 0, 0⟩, 0, 0⟩
  askSig := 0
  lfsrSig := 0

/-- A rising edge of `CLOCK_50` with `rst` high. An edge of `LFSR_clk` follows the one that causes
it, and the modulators sample what was there before. -/
def clock50 (divisor : BitVec 32) (s : Transmitter) (i : Setting) : Transmitter where
  divider := s.divider.clkIn divisor true
  path :=
    if s.divider.rises divisor true then (s.path.step .clock50).step (.lfsrClk true)
    else s.path.step .clock50
  psk := s.psk.step
    (.clk ⟨true, true, i.selectedPhaseInc⟩ s.path.sync2.syncSig s.path.sync.syncSig)
  askSig := askModulator s.psk.gen.sinOut s.path.sync.syncSig
  lfsrSig := lfsrModulator s.path.sync.syncSig

/-- The registers after `t` edges from power-up. -/
def signals (divisor : BitVec 32) (is : ℕ → Setting) : ℕ → Transmitter :=
  Machine.run (clock50 divisor) powerUp is

variable (divisor : BitVec 32) (is : ℕ → Setting)

/-! ### The symbols -/

theorem divider_signals (t : ℕ) :
    (signals divisor is t).divider = ClkDivider.locked divisor powerUp.divider t := by
  induction t with
  | zero => rfl
  | succ t ih =>
    show (signals divisor is t).divider.clkIn divisor true = _
    rw [ih]
    rfl

variable {divisor}

theorem rises_signals (h : 2 ≤ divisor.toNat) (t : ℕ) :
    (signals divisor is t).divider.rises divisor true = true ↔ divisor.toNat ∣ t := by
  have hrises := ClkDivider.rises_locked_add (s := powerUp.divider) (T := 0) h ⟨rfl, rfl⟩ t
  rwa [Nat.zero_add, ← divider_signals] at hrises

theorem path_succ (h : 2 ≤ divisor.toNat) (t : ℕ) :
    (signals divisor is (t + 1)).path =
      if divisor.toNat ∣ t then ((signals divisor is t).path.step .clock50).step (.lfsrClk true)
      else (signals divisor is t).path.step .clock50 :=
  if_congr (rises_signals is h t) rfl rfl

/-- The first flip-flops hold the bits of a symbol, and the LFSR is one symbol further. -/
def Sends (p : SymbolPath) (k : ℕ) : Prop :=
  p.lfsr = Lfsr.reset.symbol (k + 1) ∧ p.sync.q1 = Lfsr.reset.bit k ∧
    p.sync2.q1 = Lfsr.reset.bit (k + 4)

theorem sends_lfsrClk {p : SymbolPath} {k : ℕ} (h : p.lfsr = Lfsr.reset.symbol k) :
    Sends ((p.step .clock50).step (.lfsrClk true)) k := by
  refine ⟨?_, ?_, ?_⟩
  · show p.lfsr.next = _
    rw [h]
    exact (Function.iterate_succ_apply' _ _ _).symm
  · show p.lfsr.lfsr0 = _
    rw [h]
    rfl
  · show p.lfsr.lfsr4 = _
    rw [h, Lfsr.symbol_eq]

/-- **The first symbol comes with the first edge**, and each stays as long as the divisor says. -/
theorem sends_signals (h : 2 ≤ divisor.toNat) (t : ℕ) :
    Sends (signals divisor is (t + 1)).path (t / divisor.toNat) := by
  induction t with
  | zero =>
    rw [path_succ is h, if_pos (Nat.dvd_zero _), Nat.zero_div]
    exact sends_lfsrClk rfl
  | succ t ih =>
    rw [path_succ is h, Nat.succ_div]
    split_ifs with hdvd
    · exact sends_lfsrClk ih.1
    · exact ih

/-- Three edges later the modulators see it. -/
theorem syncDibit_signals (h : 2 ≤ divisor.toNat) (t : ℕ) :
    (signals divisor is (t + 3)).path.sync.syncSig = Lfsr.reset.bit (t / divisor.toNat) ∧
      (signals divisor is (t + 3)).path.sync2.syncSig = Lfsr.reset.bit (t / divisor.toNat + 4) := by
  -- The flip-flops on `CLOCK_50` take what is before them, whether `LFSR_clk` has an edge or not.
  have hsync (u : ℕ) : (signals divisor is (u + 1)).path.sync.q2 =
      (signals divisor is u).path.sync.q1 ∧
      (signals divisor is (u + 1)).path.sync.syncSig = (signals divisor is u).path.sync.q2 ∧
      (signals divisor is (u + 1)).path.sync2.q2 = (signals divisor is u).path.sync2.q1 ∧
      (signals divisor is (u + 1)).path.sync2.syncSig = (signals divisor is u).path.sync2.q2 := by
    rw [path_succ is h]
    split_ifs <;> exact ⟨rfl, rfl, rfl, rfl⟩
  obtain ⟨-, hq, hq'⟩ := sends_signals is h t
  obtain ⟨-, hout, -, hout'⟩ := hsync (t + 2)
  obtain ⟨hmid, -, hmid', -⟩ := hsync (t + 1)
  exact ⟨hout.trans (hmid.trans hq), hout'.trans (hmid'.trans hq')⟩

/-! ### The carrier -/

/-- The address at the tables after `t` edges. -/
def address (is : ℕ → Setting) (t : ℕ) : BitVec 12 :=
  BitVec.ofNat 12 ((∑ k ∈ Finset.range t, (is k).selectedPhaseInc.toNat) / 2 ^ 20)

theorem lutAddr_signals (t : ℕ) : (signals divisor is t).psk.gen.lutAddr = address is t := by
  have hsum := Machine.modular_sum (a := fun t => (signals divisor is t).psk.gen.phaseAcc.toNat)
    (d := fun t => (is t).selectedPhaseInc.toNat) (BitVec.isLt _)
    (fun _ => BitVec.toNat_add _ _) t
  have hzero : (signals divisor is 0).psk.gen.phaseAcc.toNat = 0 := rfl
  rw [hzero, Nat.zero_add] at hsum
  apply BitVec.eq_of_toNat_eq
  rw [WaveformGen.lutAddr, BitVec.extractLsb'_toNat, hsum, Nat.shiftRight_eq_div_pow, address,
    BitVec.toNat_ofNat]
  omega

/-- The tables are one edge late. -/
theorem holds_signals (t : ℕ) : (signals divisor is (t + 1)).psk.Holds (address is t) := by
  rw [← @lutAddr_signals divisor]
  exact Psk.holds_clk _ rfl _ _

end Transmitter

open Transmitter

/-- **What is transmitted.** With any divisor of at least 2 and whatever the processor writes, each
modulated sample is that of a carrier address, which moves by the increment selected at each edge,
and of a symbol: the bits `k` and `k + 4` of the sequence of the LFSR, where `k` goes up every
`divisor` edges. -/
theorem transmitted_signals {divisor : BitVec 32} (h : 2 ≤ divisor.toNat) (is : ℕ → Setting)
    (t : ℕ) :
    let s := Transmitter.signals divisor is (t + 4)
    let a := address is (t + 2)
    let k := t / divisor.toNat
    let b := Lfsr.reset.bit k
    s.askSig = (if b then sinRom a else 0) ∧
    s.psk.bpskSig = sinRom (a + if b then 2048#12 else 0) ∧
    s.psk.qpskSig =
      sinRom (a + 1024#12 * BitVec.ofNat 12 (quarterTurns (Lfsr.reset.bit (k + 4), b))) ∧
    s.lfsrSig = (if b then 0 else 0x800#12) ∧
    s.psk.gen.sinOut = sinRom (address is (t + 3)) ∧
    s.psk.gen.cosOut = cosRom (address is (t + 3)) := by
  intro s a k b
  obtain ⟨hbit, hbit'⟩ := syncDibit_signals is h t
  have hholds := @holds_signals divisor is (t + 2)
  have hsin : (Transmitter.signals divisor is (t + 3)).psk.gen.sinOut = sinRom a := hholds.1
  let p := (Transmitter.signals divisor is (t + 3)).path
  obtain ⟨hbpsk, hqpsk⟩ := Psk.step_of_holds hholds ⟨true, true, (is (t + 3)).selectedPhaseInc⟩
    p.sync2.syncSig p.sync.syncSig
  obtain ⟨hsin', hcos'⟩ := @holds_signals divisor is (t + 3)
  refine ⟨?_, ?_, ?_, ?_, hsin', hcos'⟩
  · show askModulator (Transmitter.signals divisor is (t + 3)).psk.gen.sinOut
      (Transmitter.signals divisor is (t + 3)).path.sync.syncSig = _
    rw [hsin, hbit]
    rfl
  · refine hbpsk.trans ?_
    rw [hbit]
    rfl
  · refine hqpsk.trans ?_
    rw [hbit, hbit']
    rfl
  · show lfsrModulator (Transmitter.signals divisor is (t + 3)).path.sync.syncSig = _
    rw [hbit]
    rfl

/-- A sample of the second symbol, with five edges each. -/
theorem transmitted_signals_second :
    (Transmitter.signals 5 (fun _ => ⟨0x56, 2⟩) (7 + 4)).psk.bpskSig =
      sinRom (address (fun _ => ⟨0x56, 2⟩) (7 + 2) +
        if Lfsr.reset.bit (7 / (5#32).toNat) then 2048#12 else 0) :=
  have hdivisor : 2 ≤ (5#32).toNat := by decide
  (transmitted_signals hdivisor (fun _ => ⟨0x56, 2⟩) 7).2.1

end DigitalModulation
