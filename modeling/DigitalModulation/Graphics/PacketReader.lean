import Mathlib.Data.Nat.Notation
import Mathlib.Logic.Function.Basic

/-!
# The packet reader

`alt_vipvfr131_prc`, a part of the frame reader, is told by its control registers what to read. It
gives one command for a burst and then asks for the samples, one after another.

* `AvalonMmSlave`: control registers, as the packet reader and the frame reader have them;
* `PrcCore`: the core of the packet reader;
* `PrcCore.Reads`: how many samples a running core has still to ask for;
* `PrcCore.Busy`, `Busy.clock`: what a core that has been enabled has still to tell, and that it
  tells all of it.
-/

namespace DigitalModulation

/-! ### Control registers -/

/-- `alt_vipvfr131_common_avalon_mm_slave` with one interrupt. -/
structure AvalonMmSlave where
  enable : Bool
  interruptEnables : Bool
  interruptRegister : Bool
  internalRegisters : ℕ → BitVec 32

namespace AvalonMmSlave

def reset : AvalonMmSlave := ⟨false, false, false, fun _ => 0⟩

/-- A rising edge at a slave with `noRegisters` registers behind the first three, and the write that
comes with it. -/
def clk {n : ℕ} (noRegisters : ℕ) (s : AvalonMmSlave) (write : Option (BitVec n × BitVec 32))
    (clearEnable interrupts : Bool) : AvalonMmSlave :=
  let enable := s.enable && !clearEnable
  let interruptRegister := s.interruptEnables && (s.interruptRegister || interrupts)
  match write with
  | none => { s with enable := enable, interruptRegister := interruptRegister }
  | some (address, data) =>
    { enable := if address.toNat = 0 then data.getLsbD 0 else enable
      interruptEnables := if address.toNat = 0 then data.getLsbD 1 else s.interruptEnables
      interruptRegister :=
        if address.toNat = 2 then s.interruptRegister && !data.getLsbD 1 else interruptRegister
      internalRegisters :=
        if 3 ≤ address.toNat ∧ address.toNat < 3 + noRegisters then
          Function.update s.internalRegisters (address.toNat - 3) data
        else s.internalRegisters }

variable {n noRegisters : ℕ} {s : AvalonMmSlave} {clearEnable interrupts : Bool}

/-- A slave whose interrupt is low and stays low. -/
theorem interruptRegister_clk (h : s.interruptRegister = false) (hi : interrupts = false)
    (write : Option (BitVec n × BitVec 32)) :
    (s.clk noRegisters write clearEnable interrupts).interruptRegister = false := by
  cases write with
  | none => simp [clk, h, hi]
  | some w => simp [clk, h, hi]

/-- What a write does to the registers behind the first three. -/
def writeRegister (noRegisters : ℕ) (r : ℕ → BitVec 32) (w : BitVec n × BitVec 32) :
    ℕ → BitVec 32 :=
  if 3 ≤ w.1.toNat ∧ w.1.toNat < 3 + noRegisters then Function.update r (w.1.toNat - 3) w.2 else r

theorem internalRegisters_clk (write : Option (BitVec n × BitVec 32)) :
    (s.clk noRegisters write clearEnable interrupts).internalRegisters =
      write.elim s.internalRegisters (writeRegister noRegisters s.internalRegisters) := by
  cases write with
  | none => rfl
  | some w => rfl

/-- A slave that is not told to go. -/
theorem enable_clk (h : s.enable = false) {write : Option (BitVec n × BitVec 32)}
    (hw : ∀ w ∈ write, w.1.toNat = 0 → w.2.getLsbD 0 = false) :
    (s.clk noRegisters write clearEnable interrupts).enable = false := by
  cases write with
  | none => simp [clk, h]
  | some w => simpa [clk, h] using hw w rfl

end AvalonMmSlave

/-- The registers of a frame. -/
structure VidBank where
  baseAddress : BitVec 32
  words : BitVec 32
  samples : BitVec 32
  width : BitVec 16
  height : BitVec 16
  interlaced : BitVec 4

/-! ### The core -/

inductive PrcState
  | idle
  | waiting
  | running
  | ending
  deriving DecidableEq

/-- The registers of `alt_vipvfr131_prc_core`, but for those of the stream it puts out. A frame of
800 × 600 samples, of a word each, makes counters of 19 bits. -/
structure PrcCore where
  state : PrcState
  clearEnable : Bool
  cmd : Bool
  cmdAddr : BitVec 32
  cmdLengthOfBurst : BitVec 19
  packetSamplesReg : BitVec 19
  readsIssued : BitVec 19
  inputValidShiftReg : BitVec 3
  read : Bool
  discardRemainingDataOfReadWord : Bool
  complete : Bool

namespace PrcCore

/-- The registers that a reset does not change are zero at power-up. -/
def reset : PrcCore := ⟨.idle, true, false, 0, 0, 0, 0, 0, false, false, false⟩

/-- `reads_complete`, which compares 32 bits. -/
def readsComplete (s : PrcCore) : Bool :=
  s.readsIssued.setWidth 32 == s.packetSamplesReg.setWidth 32 - 1

/-- A rising edge of its clock. The read master and the stream after the core let it go on if `ena`
is high. -/
def clock (s : PrcCore) (ena : Bool) (slave : AvalonMmSlave) : PrcCore :=
  let s' : PrcCore :=
    { s with
      readsIssued :=
        if s.read && ena && !s.readsComplete then s.readsIssued + 1 else s.readsIssued
      inputValidShiftReg :=
        if ena then s.inputValidShiftReg >>> 1 ||| (if s.read then 4 else 0)
        else s.inputValidShiftReg }
  match s.state with
  | .idle =>
    let s' : PrcCore :=
      { s' with
        readsIssued := 0, complete := false
        discardRemainingDataOfReadWord := s.discardRemainingDataOfReadWord && !ena }
    if slave.enable && !s.discardRemainingDataOfReadWord then
      { s' with
        state := .waiting, clearEnable := true, cmd := true
        cmdAddr := slave.internalRegisters 0
        cmdLengthOfBurst := (slave.internalRegisters 3).setWidth 19
        packetSamplesReg := (slave.internalRegisters 2).setWidth 19 }
    else { s' with state := .idle, clearEnable := false, cmd := false }
  | .waiting =>
    { s' with
      state := if ena then .running else .waiting, clearEnable := false, cmd := s.cmd && !ena }
  | .running =>
    let begins := (s.cmd && ena) || (!s.cmd && !s.readsComplete)
    let last := s.inputValidShiftReg == 1 && s.readsComplete && ena
    { s' with
      state := if last then .ending else .running
      cmd := if begins then false else s.cmd
      read := if s.readsComplete && ena then false else if begins then true else s.read
      discardRemainingDataOfReadWord := s.discardRemainingDataOfReadWord || last }
  | .ending =>
    { s' with
      state := if ena then .idle else .ending, complete := s.complete || ena
      discardRemainingDataOfReadWord := s.discardRemainingDataOfReadWord && !ena }

end PrcCore

/-- What the encoder and the read master are told: the size of a frame, a burst to read, and to hand
over one more sample of it. -/
inductive VfrSignal
  | controlPacket (width height : BitVec 16) (interlaced : BitVec 4)
  | command (address : BitVec 32) (words : BitVec 19)
  | read

namespace PrcCore

/-- What is told to the read master at an edge. -/
def signals (c : PrcCore) (ena : Bool) : List VfrSignal :=
  (if c.cmd && ena then [.command c.cmdAddr c.cmdLengthOfBurst] else []) ++
    if c.read && ena then [.read] else []

/-- The core reads nothing and has no command. -/
structure Quiet (c : PrcCore) : Prop where
  state : c.state = .idle
  cmd : c.cmd = false
  read : c.read = false
  shift : c.inputValidShiftReg = 0

theorem Quiet.signals_eq {c : PrcCore} (h : c.Quiet) (ena : Bool) : c.signals ena = [] := by
  simp [signals, h.cmd, h.read]

/-- If it is not enabled, or drops data, it stays so. -/
theorem Quiet.clock {c : PrcCore} (h : c.Quiet) {slave : AvalonMmSlave}
    (hwaits : (slave.enable && !c.discardRemainingDataOfReadWord) = false) (ena : Bool) :
    (c.clock ena slave).Quiet ∧ (c.clock ena slave).complete = false ∧
      (c.clock ena slave).clearEnable = false := by
  obtain ⟨hstate, hcmd, hread, hshift⟩ := h
  have hnew : (c.clock ena slave).inputValidShiftReg = 0 := by
    simp only [PrcCore.clock, hstate, hwaits, hread, hshift]
    cases ena <;> rfl
  simp only [PrcCore.clock, hstate, hwaits] at hnew ⊢
  exact ⟨⟨rfl, rfl, hread, hnew⟩, rfl, rfl⟩

/-- When it is enabled, it has the packet of its registers to read. -/
theorem Quiet.clock_enable {c : PrcCore} (h : c.Quiet) {slave : AvalonMmSlave}
    (henable : slave.enable = true) (hdiscard : c.discardRemainingDataOfReadWord = false)
    (ena : Bool) :
    c.clock ena slave =
      { c with
        state := .waiting, clearEnable := true, cmd := true
        cmdAddr := slave.internalRegisters 0
        cmdLengthOfBurst := (slave.internalRegisters 3).setWidth 19
        packetSamplesReg := (slave.internalRegisters 2).setWidth 19
        readsIssued := 0, complete := false } := by
  simp [PrcCore.clock, h.state, h.read, h.shift, henable, hdiscard]

theorem clock_waiting {c : PrcCore} (hstate : c.state = .waiting) (hread : c.read = false)
    (ena : Bool) (slave : AvalonMmSlave) :
    c.clock ena slave =
      { c with
        state := if ena then .running else .waiting, clearEnable := false, cmd := c.cmd && !ena
        inputValidShiftReg :=
          if ena then c.inputValidShiftReg >>> 1 else c.inputValidShiftReg } := by
  simp [PrcCore.clock, hstate, hread]

theorem clock_ending {c : PrcCore} (hstate : c.state = .ending) (hread : c.read = false)
    (hshift : c.inputValidShiftReg = 0) (ena : Bool) (slave : AvalonMmSlave) :
    c.clock ena slave =
      { c with
        state := if ena then .idle else .ending, complete := c.complete || ena
        discardRemainingDataOfReadWord := c.discardRemainingDataOfReadWord && !ena } := by
  simp [PrcCore.clock, hstate, hread, hshift]

theorem readsComplete_iff {c : PrcCore} (h : 0 < c.packetSamplesReg.toNat) :
    c.readsComplete = true ↔ c.readsIssued.toNat + 1 = c.packetSamplesReg.toNat := by
  have hlt := c.packetSamplesReg.isLt
  have hlt' := c.readsIssued.isLt
  rw [readsComplete, beq_iff_eq]
  constructor
  · intro heq
    have hnat := congrArg BitVec.toNat heq
    simp at hnat
    omega
  · intro heq
    apply BitVec.eq_of_toNat_eq
    simp
    omega

/-- Of `n` samples a running core has still to ask for `k`: for all of them, for those from the next
one on, or for none. -/
inductive Reads (n : ℕ) (c : PrcCore) (k : ℕ) : Prop
  | all (read : c.read = false) (issued : c.readsIssued = 0) (shift : c.inputValidShiftReg = 0)
    (count : k = n)
  | some (read : c.read = true) (shift : c.inputValidShiftReg ∈ [0, 4, 6, 7]) (pos : 0 < k)
    (count : k + c.readsIssued.toNat = n)
  | none (read : c.read = false) (complete : c.readsComplete = true) (count : k = 0)

/-- An edge at a running core that has given its command. -/
theorem clock_running {c : PrcCore} (hstate : c.state = .running) (hcmd : c.cmd = false)
    (ena : Bool) (slave : AvalonMmSlave) :
    c.clock ena slave =
      let last := c.inputValidShiftReg == 1 && c.readsComplete && ena
      { c with
        state := if last then .ending else .running
        readsIssued :=
          if c.read && ena && !c.readsComplete then c.readsIssued + 1 else c.readsIssued
        inputValidShiftReg :=
          if ena then c.inputValidShiftReg >>> 1 ||| (if c.read then 4 else 0)
          else c.inputValidShiftReg
        read := if c.readsComplete then c.read && !ena else true
        discardRemainingDataOfReadWord := c.discardRemainingDataOfReadWord || last } := by
  simp only [PrcCore.clock, hstate, hcmd]
  cases c.readsComplete <;> cases ena <;> simp

/-- **A running core asks for each sample once.** -/
theorem Reads.clock {n k : ℕ} {c : PrcCore} (h : c.Reads n k) (hstate : c.state = .running)
    (hcmd : c.cmd = false) (hn : c.packetSamplesReg.toNat = n) (hpos : 2 ≤ n) (ena : Bool)
    (slave : AvalonMmSlave) :
    (c.clock ena slave).state = .running ∧
        (∃ k', (c.clock ena slave).Reads n k' ∧ k = k' + if c.read && ena then 1 else 0) ∨
      (c.clock ena slave).state = .ending ∧ (c.clock ena slave).read = false ∧
        (c.clock ena slave).inputValidShiftReg = 0 ∧ c.read = false ∧ k = 0 := by
  have hcomplete := readsComplete_iff (c := c) (by omega)
  rw [hn] at hcomplete
  rw [clock_running hstate hcmd]
  cases h with
  | all hread hissued hshift hk =>
    have hnot : c.readsComplete = false := by
      rw [← Bool.not_eq_true, hcomplete, hissued]
      simp
      omega
    refine .inl ⟨by simp [hnot], k, .some ?_ ?_ (by omega) ?_, by simp [hread]⟩
    · simp [hnot]
    · simp [hread, hshift]
    · simpa [hread, hissued] using hk
  | some hread hshift hk hcount =>
    have hnotlast : (c.inputValidShiftReg == 1) = false := by
      revert hshift
      generalize c.inputValidShiftReg = v
      decide +revert
    refine .inl ⟨by rw [hnotlast]; rfl, ?_⟩
    cases ena with
    | false => exact ⟨k, .some (by simp [hread]) (by simpa using hshift) hk (by simpa using hcount),
        by simp⟩
    | true =>
      refine ⟨k - 1, ?_, by simp [hread]; omega⟩
      cases hdone : c.readsComplete with
      | true =>
        have hlast := hcomplete.mp hdone
        refine .none (by simp) ?_ (by omega)
        simpa [PrcCore.readsComplete, hread, hdone] using hdone
      | false =>
        have hne : c.readsIssued.toNat + 1 ≠ n := fun heq => by simp [hcomplete.mpr heq] at hdone
        have hsize := c.packetSamplesReg.isLt
        refine .some (by simp) ?_ (by omega) ?_
        · simp only [hread]
          revert hshift
          generalize c.inputValidShiftReg = v
          decide +revert
        · simp [hread]
          omega
  | none hread hdone hk =>
    cases hlast : c.inputValidShiftReg == 1 && ena with
    | true =>
      rw [Bool.and_eq_true, beq_iff_eq] at hlast
      exact .inr ⟨by simp [hlast, hdone], by simp [hread, hdone], by simp [hlast, hread], hread, hk⟩
    | false =>
      refine .inl ⟨by simp only [hdone, Bool.and_true, hlast]; rfl, k, .none ?_ ?_ hk, ?_⟩
      · simp [hread, hdone]
      · simpa [PrcCore.readsComplete, hread] using hdone
      · simp [hread]

/-- What the read master is told for a frame. -/
def burst (bank : VidBank) : List VfrSignal :=
  .command bank.baseAddress (bank.words.setWidth 19) ::
    List.replicate (bank.samples.setWidth 19).toNat .read

/-- What a core that has been enabled has still to tell: it gives the command, reads, or has come to
an end. -/
inductive Busy (bank : VidBank) (c : PrcCore) : List VfrSignal → Prop
  | commands (state : c.state = .waiting) (cmd : c.cmd = true)
    (address : c.cmdAddr = bank.baseAddress) (words : c.cmdLengthOfBurst = bank.words.setWidth 19)
    (samples : c.packetSamplesReg = bank.samples.setWidth 19) (read : c.read = false)
    (issued : c.readsIssued = 0) (shift : c.inputValidShiftReg = 0) : Busy bank c (burst bank)
  | reads {k : ℕ} (state : c.state = .running) (cmd : c.cmd = false)
    (samples : c.packetSamplesReg = bank.samples.setWidth 19)
    (reads : c.Reads (bank.samples.setWidth 19).toNat k) : Busy bank c (List.replicate k .read)
  | ends (state : c.state = .ending) (cmd : c.cmd = false) (read : c.read = false)
    (shift : c.inputValidShiftReg = 0) : Busy bank c []

/-- **A core that has been enabled tells all that it has to**, and then it is complete. -/
theorem Busy.clock {bank : VidBank} {c : PrcCore} {owed : List VfrSignal} (h : Busy bank c owed)
    (hcomplete : c.complete = false) (hpos : 2 ≤ (bank.samples.setWidth 19).toNat) (ena : Bool)
    (slave : AvalonMmSlave) :
    ∃ owed', c.signals ena ++ owed' = owed ∧
      (Busy bank (c.clock ena slave) owed' ∧ (c.clock ena slave).complete = false ∨
        owed' = [] ∧ (c.clock ena slave).Quiet ∧ (c.clock ena slave).complete = true) := by
  unfold signals
  cases h with
  | commands state cmd address words samples read issued shift =>
    rw [clock_waiting state read]
    cases ena with
    | true =>
      refine ⟨List.replicate (bank.samples.setWidth 19).toNat .read, ?_,
        .inl ⟨.reads ?_ ?_ samples (.all read issued ?_ rfl), hcomplete⟩⟩
      all_goals simp [cmd, read, address, words, burst, shift]
    | false =>
      refine ⟨burst bank, by simp, .inl ⟨.commands ?_ ?_ address words samples read issued ?_,
        hcomplete⟩⟩
      all_goals simp [cmd, shift]
  | reads state cmd samples reads =>
    have hnext := reads.clock state cmd (by rw [samples]) hpos ena slave
    have hrun := clock_running state cmd ena slave
    have hcmd : (c.clock ena slave).cmd = false := by rw [hrun]; exact cmd
    have hdone : (c.clock ena slave).complete = false := by rw [hrun]; exact hcomplete
    rcases hnext with ⟨hstate, k', hreads, rfl⟩ | ⟨hstate, hread', hshift, hread, rfl⟩
    · refine ⟨List.replicate k' .read, ?_, .inl ⟨.reads hstate hcmd ?_ hreads, hdone⟩⟩
      · rw [cmd]
        cases c.read && ena with
        | true => rfl
        | false => rfl
      · rw [hrun]
        exact samples
    · exact ⟨[], by simp [cmd, hread], .inl ⟨.ends hstate hcmd hread' hshift, hdone⟩⟩
  | ends state cmd read shift =>
    rw [clock_ending state read shift]
    refine ⟨[], by simp [cmd, read], ?_⟩
    cases ena with
    | true => exact .inr ⟨rfl, ⟨rfl, cmd, read, shift⟩, by simp⟩
    | false => exact .inl ⟨.ends rfl cmd read shift, by simp [hcomplete]⟩

theorem Busy.length_le {bank : VidBank} {c : PrcCore} {owed : List VfrSignal}
    (h : Busy bank c owed) : owed.length ≤ (bank.samples.setWidth 19).toNat + 1 := by
  cases h with
  | commands => simp [burst]
  | reads _ _ _ reads =>
    rw [List.length_replicate]
    cases reads with
    | all _ _ _ count => omega
    | some _ _ _ count => omega
    | none _ _ count => omega
  | ends => simp

end PrcCore

end DigitalModulation
