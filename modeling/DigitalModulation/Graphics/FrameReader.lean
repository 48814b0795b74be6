import DigitalModulation.Graphics.PacketReader
import Mathlib.Tactic.SplitIfs

/-!
# The frame reader

The display is read from memory by `alt_vipvfr131_vfr`, frame after frame. Its controller takes one
of two banks of registers, hands it to the packet reader, one register after another, and waits for
the interrupt that tells the end of the frame.

* `VfrController`: the controller;
* `VipVfr`: the frame reader, made of it, its control registers and the packet reader;
* `VipVfr.Idles`, `VipVfr.Hands`, `VipVfr.Fetches`: its states, with what is still to be told of a
  frame in each of them;
* `VipVfr.Owes.clock`: what is told at an edge is the first part of it.
-/

namespace DigitalModulation

/-! ### The controller -/

/-- `next_bank`. -/
def AvalonMmSlave.nextBank (s : AvalonMmSlave) : Bool := (s.internalRegisters 0).getLsbD 0

/-- The bank whose first register has the number `i`. -/
def AvalonMmSlave.bankAt (s : AvalonMmSlave) (i : ℕ) : VidBank where
  baseAddress := s.internalRegisters i
  words := s.internalRegisters (i + 1)
  samples := s.internalRegisters (i + 2)
  width := (s.internalRegisters (i + 4)).setWidth 16
  height := (s.internalRegisters (i + 5)).setWidth 16
  interlaced := (s.internalRegisters (i + 6)).setWidth 4

def AvalonMmSlave.bank (s : AvalonMmSlave) (b : Bool) : VidBank := s.bankAt (if b then 8 else 1)

inductive VfrState
  | idle
  | sendingAddress
  | sendingSamples
  | sendingWords
  | sendingType
  | sendingGoAndEnableInterrupt
  | waitingEndFrame
  deriving DecidableEq

/-- The registers of `alt_vipvfr131_vfr_controller`. -/
structure VfrController where
  state : VfrState
  bankToRead : Bool
  masterWrite : Bool
  masterAddress : BitVec 32
  masterWritedata : BitVec 32
  doControlPacket : Bool
  widthOfNextVidPacket : BitVec 16
  heightOfNextVidPacket : BitVec 16
  interlacedOfNextVidPacket : BitVec 4
  running : Bool
  frameComplete : Bool

namespace VfrController

def reset : VfrController := ⟨.idle, false, false, 0, 0, false, 0, 0, 0, false, false⟩

/-- A rising edge of its clock. -/
def clock (s : VfrController) (slave : AvalonMmSlave) (interrupt : Bool) : VfrController :=
  let bank := slave.bank s.bankToRead
  match s.state with
  | .idle =>
    if slave.enable then
      { s with
        state := .sendingAddress, bankToRead := slave.nextBank, running := true,
        masterWrite := false, frameComplete := false }
    else { s with masterWrite := false, frameComplete := false }
  | .sendingAddress =>
    { s with
      state := .sendingSamples, masterAddress := 3, masterWrite := true,
      masterWritedata := bank.baseAddress, doControlPacket := true,
      widthOfNextVidPacket := bank.width, heightOfNextVidPacket := bank.height,
      interlacedOfNextVidPacket := bank.interlaced }
  | .sendingSamples =>
    { s with
      state := .sendingWords, doControlPacket := false, masterAddress := 5, masterWrite := true,
      masterWritedata := bank.samples }
  | .sendingWords =>
    { s with
      state := .sendingType, masterAddress := 6, masterWrite := true,
      masterWritedata := bank.words }
  | .sendingType =>
    { s with
      state := .sendingGoAndEnableInterrupt, masterAddress := 4, masterWrite := true,
      masterWritedata := 0 }
  | .sendingGoAndEnableInterrupt =>
    { s with
      state := .waitingEndFrame, masterAddress := 0, masterWrite := true, masterWritedata := 3 }
  | .waitingEndFrame =>
    if interrupt then
      { s with
        state := .idle, running := false, frameComplete := true, masterAddress := 2,
        masterWritedata := 2, masterWrite := true }
    else { s with masterAddress := 2, masterWritedata := 2, masterWrite := false }

/-- The write to the packet reader, whose slave has addresses of three bits. -/
def write (s : VfrController) : Option (BitVec 3 × BitVec 32) :=
  if s.masterWrite then some (s.masterAddress.setWidth 3, s.masterWritedata) else none

end VfrController

/-! ### The frame reader -/

/-- `alt_vipvfr131_vfr`, up to the read master and the encoder of control packets. -/
structure VipVfr where
  slave : AvalonMmSlave
  controller : VfrController
  prcSlave : AvalonMmSlave
  core : PrcCore

/-- What comes with an edge: `ena`, and a write of the processor to a register. -/
structure VfrEdge where
  ena : Bool
  write : Option (BitVec 5 × BitVec 32)

namespace VipVfr

def reset : VipVfr := ⟨.reset, .reset, .reset, .reset⟩

/-- A rising edge of the clock. -/
def clock (s : VipVfr) (e : VfrEdge) : VipVfr where
  slave := s.slave.clk 18 e.write false s.controller.frameComplete
  controller := s.controller.clock s.slave s.prcSlave.interruptRegister
  prcSlave := s.prcSlave.clk 4 s.controller.write s.core.clearEnable s.core.complete
  core := s.core.clock e.ena s.prcSlave

/-- What is told at an edge. -/
def signals (s : VipVfr) (e : VfrEdge) : List VfrSignal :=
  (if s.controller.doControlPacket then
    [.controlPacket s.controller.widthOfNextVidPacket s.controller.heightOfNextVidPacket
      s.controller.interlacedOfNextVidPacket] else []) ++
  s.core.signals e.ena

/-- A frame is begun with the edge. -/
def Starts (s : VipVfr) : Prop := s.controller.state = .idle ∧ s.slave.enable = true

instance (s : VipVfr) : Decidable s.Starts := inferInstanceAs (Decidable (_ ∧ _))

end VipVfr

/-! ### Its states -/

/-- The banks do not have the first register. -/
theorem AvalonMmSlave.bank_congr {s s' : AvalonMmSlave}
    (h : ∀ i, 1 ≤ i → s'.internalRegisters i = s.internalRegisters i) (b : Bool) :
    s'.bank b = s.bank b := by
  unfold bank bankAt
  have hpos : 1 ≤ if b then 8 else 1 := by
    cases b <;> decide
  simp only [h _ hpos, h _ (Nat.le_add_right_of_le hpos)]

namespace VipVfr

/-- What the encoder and the read master are told of a frame. -/
def packet (bank : VidBank) : List VfrSignal :=
  .controlPacket bank.width bank.height bank.interlaced :: PrcCore.burst bank

/-- The packet reader has no frame to read. -/
structure Rests (s : VipVfr) : Prop where
  quiet : s.core.Quiet
  complete : s.core.complete = false
  enable : s.prcSlave.enable = false

theorem Rests.clock {s : VipVfr} (h : s.Rests)
    (hw : ∀ w ∈ s.controller.write, w.1.toNat = 0 → w.2.getLsbD 0 = false) (e : VfrEdge) :
    (s.clock e).Rests := by
  obtain ⟨hquiet, hcomplete, -⟩ := h.quiet.clock (by rw [h.enable]; rfl) e.ena
  exact ⟨hquiet, hcomplete, AvalonMmSlave.enable_clk h.enable hw⟩

/-- The first registers of the packet reader have what the controller has sent. -/
structure Sent (bank : VidBank) (s : VipVfr) : Prop where
  address : s.prcSlave.internalRegisters 0 = bank.baseAddress
  samples : s.prcSlave.internalRegisters 2 = bank.samples
  words : s.prcSlave.internalRegisters 3 = bank.words

/-- The controller is in some state, writes something, and no interrupt is pending. -/
structure Sends (s : VipVfr) (phase : VfrState) (word : Option (BitVec 3 × BitVec 32)) : Prop where
  state : s.controller.state = phase
  write : s.controller.write = word
  control : s.controller.doControlPacket = decide (phase = .sendingSamples)
  interrupt : s.prcSlave.interruptRegister = false

/-- The controller waits for the end of the frame, and has enabled the interrupt. -/
structure Waits (s : VipVfr) : Prop where
  state : s.controller.state = .waitingEndFrame
  write : s.controller.write = none
  control : s.controller.doControlPacket = false
  enables : s.prcSlave.interruptEnables = true

/-- No frame is begun. The last interrupt is cleared, or it is being cleared. -/
structure Idles (s : VipVfr) : Prop where
  rests : s.Rests
  state : s.controller.state = .idle
  control : s.controller.doControlPacket = false
  write : s.controller.write = some (2, 2) ∨
    s.controller.write = none ∧ s.prcSlave.interruptRegister = false

/-- What is still to be told while the controller hands the frame of a bank to the packet reader. -/
inductive Hands (bank : VidBank) (s : VipVfr) : List VfrSignal → Prop
  | address (sends : s.Sends .sendingAddress none) : Hands bank s (packet bank)
  | samples (sends : s.Sends .sendingSamples (some (3, bank.baseAddress)))
    (width : s.controller.widthOfNextVidPacket = bank.width)
    (height : s.controller.heightOfNextVidPacket = bank.height)
    (interlaced : s.controller.interlacedOfNextVidPacket = bank.interlaced) :
    Hands bank s (packet bank)
  | words (sends : s.Sends .sendingWords (some (5, bank.samples)))
    (address : s.prcSlave.internalRegisters 0 = bank.baseAddress) :
    Hands bank s (PrcCore.burst bank)
  | type (sends : s.Sends .sendingType (some (6, bank.words)))
    (address : s.prcSlave.internalRegisters 0 = bank.baseAddress)
    (samples : s.prcSlave.internalRegisters 2 = bank.samples) : Hands bank s (PrcCore.burst bank)
  | go (sends : s.Sends .sendingGoAndEnableInterrupt (some (4, 0))) (sent : Sent bank s) :
    Hands bank s (PrcCore.burst bank)
  | enables (sends : s.Sends .waitingEndFrame (some (0, 3))) (sent : Sent bank s) :
    Hands bank s (PrcCore.burst bank)

/-- What is still to be told while the controller waits: the packet reader has not begun, is busy,
or has come to an end. -/
inductive Fetches (bank : VidBank) (s : VipVfr) : List VfrSignal → Prop
  | enabled (interrupt : s.prcSlave.interruptRegister = false) (quiet : s.core.Quiet)
    (complete : s.core.complete = false) (clear : s.core.clearEnable = false)
    (enable : s.prcSlave.enable = true) (sent : Sent bank s) : Fetches bank s (PrcCore.burst bank)
  | busy {owed : List VfrSignal} (interrupt : s.prcSlave.interruptRegister = false)
    (busy : s.core.Busy bank owed) (complete : s.core.complete = false)
    (clear : (s.prcSlave.enable && !s.core.clearEnable) = false) : Fetches bank s owed
  | completes (interrupt : s.prcSlave.interruptRegister = false) (quiet : s.core.Quiet)
    (complete : s.core.complete = true) (enable : s.prcSlave.enable = false) : Fetches bank s []
  | interrupts (rests : s.Rests) (interrupt : s.prcSlave.interruptRegister = true) :
    Fetches bank s []

/-- What the frame reader has still to tell of the frame of a bank. -/
inductive Owes (bank : VidBank) (s : VipVfr) (owed : List VfrSignal) : Prop
  | idle (idles : s.Idles) (nothing : owed = [])
  | hands (rests : s.Rests) (hands : Hands bank s owed)
  | fetches (waits : s.Waits) (fetches : Fetches bank s owed)

/-! ### The edges -/

theorem bankToRead_clock (s : VipVfr) (e : VfrEdge) :
    (s.clock e).controller.bankToRead =
      if s.Starts then s.slave.nextBank else s.controller.bankToRead := by
  cases hstate : s.controller.state <;>
    simp only [clock, VfrController.clock, Starts, hstate, reduceCtorEq, false_and, true_and,
      if_false]
  · split_ifs <;> rfl
  · split_ifs <;> rfl

theorem Rests.signals_eq {s : VipVfr} (h : s.Rests) (e : VfrEdge) :
    s.signals e = if s.controller.doControlPacket then
      [.controlPacket s.controller.widthOfNextVidPacket s.controller.heightOfNextVidPacket
        s.controller.interlacedOfNextVidPacket] else [] := by
  simp [signals, h.quiet.signals_eq]

/-- Where the controller begins no frame. -/
theorem not_starts {s : VipVfr} (h : s.controller.state ≠ .idle) : ¬ s.Starts := fun hs => h hs.1

/-- The edge of a controller that sends something to a packet reader that rests. -/
theorem Rests.clock_sends {s : VipVfr} (rests : s.Rests) {phase : VfrState}
    {word : Option (BitVec 3 × BitVec 32)} (sends : s.Sends phase word)
    (hword : ∀ w ∈ word, w.1.toNat = 0 → w.2.getLsbD 0 = false) (e : VfrEdge) :
    (s.clock e).Rests ∧ (s.clock e).prcSlave.interruptRegister = false ∧
      (s.clock e).prcSlave.internalRegisters = word.elim s.prcSlave.internalRegisters
        (AvalonMmSlave.writeRegister 4 s.prcSlave.internalRegisters) := by
  refine ⟨rests.clock (sends.write ▸ hword) e,
    AvalonMmSlave.interruptRegister_clk sends.interrupt rests.complete _, ?_⟩
  rw [← sends.write]
  exact AvalonMmSlave.internalRegisters_clk _

theorem Idles.clock_rests {s : VipVfr} (h : s.Idles) (e : VfrEdge) :
    (s.clock e).Rests ∧ (s.clock e).prcSlave.interruptRegister = false := by
  obtain ⟨rests, -, -, write⟩ := h
  rcases write with hwrite | ⟨hwrite, hlow⟩
  · constructor
    · exact rests.clock (by simp [hwrite]) e
    · show (s.prcSlave.clk 4 s.controller.write _ _).interruptRegister = false
      simp [hwrite, AvalonMmSlave.clk]
  · constructor
    · exact rests.clock (by simp [hwrite]) e
    · exact AvalonMmSlave.interruptRegister_clk hlow rests.complete _

/-- An idle controller that begins no frame stays idle. -/
theorem Idles.clock_of_not_starts {s : VipVfr} (h : s.Idles) (hstarts : ¬ s.Starts) (e : VfrEdge) :
    (s.clock e).Idles := by
  obtain ⟨hrests, hlow⟩ := h.clock_rests e
  have henable : s.slave.enable = false := by
    simpa [Starts, h.state] using hstarts
  refine ⟨hrests, ?_, ?_, .inr ⟨?_, hlow⟩⟩ <;>
    simp [VipVfr.clock, VfrController.clock, VfrController.write, h.state, henable, h.control]

/-- An idle controller that begins a frame owes the whole of it, and else nothing. -/
theorem Idles.clock {s : VipVfr} (h : s.Idles) (bank : VidBank) (e : VfrEdge) :
    ∃ owed, s.signals e ++ owed =
        (if s.Starts then packet (s.slave.bank s.slave.nextBank) else []) ∧
      Owes (if s.Starts then s.slave.bank s.slave.nextBank else bank) (s.clock e) owed := by
  rw [h.rests.signals_eq, h.control]
  by_cases hstarts : s.Starts
  · obtain ⟨hrests, hlow⟩ := h.clock_rests e
    rw [if_pos hstarts, if_pos hstarts]
    refine ⟨_, rfl, .hands hrests (.address ⟨?_, ?_, ?_, hlow⟩)⟩ <;>
      simp [VipVfr.clock, VfrController.clock, VfrController.write, h.state, hstarts.2, h.control]
  · rw [if_neg hstarts, if_neg hstarts]
    exact ⟨[], rfl, .idle (h.clock_of_not_starts hstarts e) rfl⟩

theorem Hands.state_ne {bank : VidBank} {s : VipVfr} {owed : List VfrSignal}
    (h : Hands bank s owed) : s.controller.state ≠ .idle := by
  cases h with
  | address sends => simp [sends.state]
  | samples sends => simp [sends.state]
  | words sends => simp [sends.state]
  | type sends => simp [sends.state]
  | go sends => simp [sends.state]
  | enables sends => simp [sends.state]

/-- **While a frame is handed to the packet reader**, the encoder is told its size. -/
theorem Hands.clock {bank : VidBank} {s : VipVfr} {owed : List VfrSignal} (h : Hands bank s owed)
    (rests : s.Rests) (hbank : s.slave.bank s.controller.bankToRead = bank) (e : VfrEdge) :
    ∃ owed', s.signals e ++ owed' = owed ∧ Owes bank (s.clock e) owed' := by
  cases h with
  | address sends =>
    obtain ⟨hrests, hlow, -⟩ := rests.clock_sends sends (by simp) e
    refine ⟨_, ?_, .hands hrests (.samples ⟨?_, ?_, ?_, hlow⟩ ?_ ?_ ?_)⟩
    · rw [rests.signals_eq, sends.control]
      rfl
    all_goals simp [VipVfr.clock, VfrController.clock, VfrController.write, sends.state, hbank]
  | samples sends hw hh hi =>
    obtain ⟨hrests, hlow, hregs⟩ := rests.clock_sends sends (by simp) e
    refine ⟨_, ?_, .hands hrests (.words ⟨?_, ?_, ?_, hlow⟩ ?_)⟩
    · rw [rests.signals_eq, sends.control, hw, hh, hi]
      rfl
    · simp [VipVfr.clock, VfrController.clock, sends.state]
    · simp [VipVfr.clock, VfrController.clock, VfrController.write, sends.state, hbank]
    · simp [VipVfr.clock, VfrController.clock, sends.state]
    · rw [hregs]
      rfl
  | words sends ha =>
    obtain ⟨hrests, hlow, hregs⟩ := rests.clock_sends sends (by simp) e
    refine ⟨_, ?_, .hands hrests (.type ⟨?_, ?_, ?_, hlow⟩ ?_ ?_)⟩
    · rw [rests.signals_eq, sends.control]
      rfl
    · simp [VipVfr.clock, VfrController.clock, sends.state]
    · simp [VipVfr.clock, VfrController.clock, VfrController.write, sends.state, hbank]
    · simp [VipVfr.clock, VfrController.clock, sends.state, sends.control]
    · rw [hregs]
      exact ha
    · rw [hregs]
      rfl
  | type sends ha hs =>
    obtain ⟨hrests, hlow, hregs⟩ := rests.clock_sends sends (by simp) e
    refine ⟨_, ?_, .hands hrests (.go ⟨?_, ?_, ?_, hlow⟩ ⟨?_, ?_, ?_⟩)⟩
    · rw [rests.signals_eq, sends.control]
      rfl
    · simp [VipVfr.clock, VfrController.clock, sends.state]
    · simp [VipVfr.clock, VfrController.clock, VfrController.write, sends.state]
    · simp [VipVfr.clock, VfrController.clock, sends.state, sends.control]
    · rw [hregs]
      exact ha
    · rw [hregs]
      exact hs
    · rw [hregs]
      rfl
  | go sends sent =>
    obtain ⟨hrests, hlow, hregs⟩ := rests.clock_sends sends (by simp) e
    refine ⟨_, ?_, .hands hrests (.enables ⟨?_, ?_, ?_, hlow⟩ ⟨?_, ?_, ?_⟩)⟩
    · rw [rests.signals_eq, sends.control]
      rfl
    · simp [VipVfr.clock, VfrController.clock, sends.state]
    · simp [VipVfr.clock, VfrController.clock, VfrController.write, sends.state]
    · simp [VipVfr.clock, VfrController.clock, sends.state, sends.control]
    · rw [hregs]
      exact sent.address
    · rw [hregs]
      exact sent.samples
    · rw [hregs]
      exact sent.words
  | enables sends sent =>
    have hlow := sends.interrupt
    have hslave : (s.clock e).prcSlave =
        s.prcSlave.clk 4 s.controller.write s.core.clearEnable s.core.complete := rfl
    rw [sends.write] at hslave
    obtain ⟨hquiet, hcomplete, hclear⟩ := rests.quiet.clock (by rw [rests.enable]; rfl) e.ena
    refine ⟨_, ?_, .fetches ⟨?_, ?_, ?_, ?_⟩
      (.enabled ?_ hquiet hcomplete hclear ?_ ?_)⟩
    · rw [rests.signals_eq, sends.control]
      rfl
    · simp [VipVfr.clock, VfrController.clock, sends.state, hlow]
    · simp [VipVfr.clock, VfrController.clock, VfrController.write, sends.state, hlow]
    · simp [VipVfr.clock, VfrController.clock, sends.state, sends.control, hlow]
    · rw [hslave]
      rfl
    · exact AvalonMmSlave.interruptRegister_clk hlow rests.complete _
    · rw [hslave]
      rfl
    · exact ⟨hslave ▸ sent.address, hslave ▸ sent.samples, hslave ▸ sent.words⟩

/-- The slave of the packet reader while the controller waits. -/
theorem Waits.prcSlave_clock {s : VipVfr} (waits : s.Waits) (e : VfrEdge) :
    (s.clock e).prcSlave =
      { s.prcSlave with
        enable := s.prcSlave.enable && !s.core.clearEnable
        interruptRegister := s.prcSlave.interruptRegister || s.core.complete } := by
  have hslave : (s.clock e).prcSlave =
      s.prcSlave.clk 4 s.controller.write s.core.clearEnable s.core.complete := rfl
  rw [hslave, waits.write]
  simp [AvalonMmSlave.clk, waits.enables]

/-- Without an interrupt it goes on waiting. -/
theorem Waits.clock {s : VipVfr} (waits : s.Waits) (hlow : s.prcSlave.interruptRegister = false)
    (e : VfrEdge) : (s.clock e).Waits where
  state := by simp [VipVfr.clock, VfrController.clock, waits.state, hlow]
  write := by simp [VipVfr.clock, VfrController.clock, VfrController.write, waits.state, hlow]
  control := by simp [VipVfr.clock, VfrController.clock, waits.state, waits.control, hlow]
  enables := by rw [waits.prcSlave_clock]; exact waits.enables

theorem Waits.signals_eq {s : VipVfr} (waits : s.Waits) (e : VfrEdge) :
    s.signals e = s.core.signals e.ena := by
  simp [signals, waits.control]

/-- **While the controller waits**, the read master is told to read the frame. -/
theorem Fetches.clock {bank : VidBank} {s : VipVfr} {owed : List VfrSignal}
    (h : Fetches bank s owed) (waits : s.Waits) (hpos : 2 ≤ (bank.samples.setWidth 19).toNat)
    (e : VfrEdge) : ∃ owed', s.signals e ++ owed' = owed ∧ Owes bank (s.clock e) owed' := by
  have hcore : (s.clock e).core = s.core.clock e.ena s.prcSlave := rfl
  have hslave := waits.prcSlave_clock e
  rw [waits.signals_eq]
  cases h with
  | enabled hlow quiet complete clear enable sent =>
    rw [clear, complete, enable, hlow] at hslave
    have hlow' : (s.clock e).prcSlave.interruptRegister = false := by rw [hslave]; rfl
    have henable : (s.clock e).prcSlave.enable = true := by rw [hslave]; rfl
    refine ⟨PrcCore.burst bank, by rw [quiet.signals_eq]; rfl, .fetches (waits.clock hlow e) ?_⟩
    cases hdiscard : s.core.discardRemainingDataOfReadWord with
    | true =>
      -- The core still drops what is left of the last frame.
      obtain ⟨hquiet, hcomplete, hclear⟩ := quiet.clock (by rw [enable, hdiscard]; rfl) e.ena
      refine .enabled hlow' hquiet hcomplete hclear henable ?_
      exact ⟨hslave ▸ sent.address, hslave ▸ sent.samples, hslave ▸ sent.words⟩
    | false =>
      have hstart := quiet.clock_enable enable hdiscard e.ena
      rw [← hcore, sent.address, sent.samples, sent.words] at hstart
      refine .busy hlow' (.commands ?_ ?_ ?_ ?_ ?_ ?_ ?_ ?_) ?_ ?_ <;>
        simp [hstart, quiet.read, quiet.shift]
  | busy hlow busy complete clear =>
    rw [complete, clear, hlow] at hslave
    have hlow' : (s.clock e).prcSlave.interruptRegister = false := by rw [hslave]; rfl
    have henable : (s.clock e).prcSlave.enable = false := by rw [hslave]
    obtain ⟨owed', hsignals, ⟨hbusy, hcomplete⟩ | ⟨rfl, hquiet, hcomplete⟩⟩ :=
      busy.clock complete hpos e.ena s.prcSlave
    · exact ⟨owed', hsignals, .fetches (waits.clock hlow e)
        (.busy hlow' hbusy hcomplete (by rw [henable]; rfl))⟩
    · exact ⟨[], hsignals, .fetches (waits.clock hlow e)
        (.completes hlow' hquiet hcomplete henable)⟩
  | completes hlow quiet complete enable =>
    rw [complete, enable, Bool.or_true] at hslave
    obtain ⟨hquiet, hcomplete, -⟩ := quiet.clock (by rw [enable]; rfl) e.ena
    refine ⟨[], by rw [quiet.signals_eq]; rfl, .fetches (waits.clock hlow e)
      (.interrupts ⟨hquiet, hcomplete, ?_⟩ ?_)⟩
    · rw [hslave]
      rfl
    · rw [hslave]
  | interrupts rests interrupt =>
    refine ⟨[], by rw [rests.quiet.signals_eq]; rfl,
      .idle ⟨rests.clock (by simp [waits.write]) e, ?_, ?_, .inl ?_⟩ rfl⟩
    all_goals simp [VipVfr.clock, VfrController.clock, VfrController.write, waits.state, interrupt,
      waits.control]

/-- **An edge of the frame reader**, wherever it is in a frame. -/
theorem Owes.clock {bank : VidBank} {s : VipVfr} {owed : List VfrSignal} (h : Owes bank s owed)
    (hbank : s.slave.bank s.controller.bankToRead = bank)
    (hpos : 2 ≤ (bank.samples.setWidth 19).toNat) (e : VfrEdge) :
    ∃ owed', s.signals e ++ owed' =
        owed ++ (if s.Starts then packet (s.slave.bank s.slave.nextBank) else []) ∧
      Owes (if s.Starts then s.slave.bank s.slave.nextBank else bank) (s.clock e) owed' := by
  cases h with
  | idle idles nothing =>
    subst nothing
    exact idles.clock bank e
  | hands rests hands =>
    rw [if_neg (not_starts hands.state_ne), if_neg (not_starts hands.state_ne), List.append_nil]
    exact hands.clock rests hbank e
  | fetches waits fetches =>
    have hstate : s.controller.state ≠ .idle := by simp [waits.state]
    rw [if_neg (not_starts hstate), if_neg (not_starts hstate), List.append_nil]
    exact fetches.clock waits hpos e

theorem Fetches.length_le {bank : VidBank} {s : VipVfr} {owed : List VfrSignal}
    (h : Fetches bank s owed) : owed.length ≤ (bank.samples.setWidth 19).toNat + 1 := by
  cases h with
  | enabled => simp [PrcCore.burst]
  | busy _ busy => exact busy.length_le
  | completes => simp
  | interrupts => simp

/-- No more than one frame is owed, and nothing by an idle controller. -/
theorem Owes.bounds {bank : VidBank} {s : VipVfr} {owed : List VfrSignal} (h : Owes bank s owed) :
    owed.length ≤ (bank.samples.setWidth 19).toNat + 2 ∧
      (s.controller.state = .idle → owed = []) := by
  cases h with
  | idle idles nothing => simp [nothing]
  | hands rests hands =>
    refine ⟨?_, fun hidle => absurd hidle hands.state_ne⟩
    cases hands <;> simp [packet, PrcCore.burst]
  | fetches waits fetches =>
    refine ⟨Nat.le_succ_of_le fetches.length_le, fun hidle => ?_⟩
    exact absurd (hidle.symm.trans waits.state) (by decide)

end VipVfr

end DigitalModulation
