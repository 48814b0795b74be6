import DigitalModulation.Lib.Machine
import Mathlib.Tactic.Common

/-!
# `handle_lfsr_interrupts`: the interrupt behind the FSK increment

A rising edge of `LFSR_clk` sets the sticky edge capture bit of the port `LFSR_CLK_INTERRUPT_GEN`.
The handler it starts reads `LFSR_VAL`, writes `DDS_INCREMENT`, and only then clears the bit.

* `EdgePio`, `Nios`, `Nios.cpu`: the port and the handler, one access of a port a step;
* `FskPath.step`: the handler's steps and the edges of `LFSR_clk`, in any order;
* `fsk_follows_lfsr`: the increment follows `lfsr[0]` in every run in which no edge that changes the
  bit falls between the read and the clear;
* `clear_follows_iff`: one such edge is enough to lose a symbol;
* `follows_throughout_iff`: unless another edge comes before the return, in every run.
-/

namespace DigitalModulation

/-- The registers of the edge-capturing port, one bit wide. -/
structure EdgePio where
  irqMask : Bool
  edgeCapture : Bool
  deriving DecidableEq

namespace EdgePio

/-- `irq = |(edge_capture & irq_mask)`. -/
def irq (p : EdgePio) : Bool := p.edgeCapture && p.irqMask

/-- A rising edge of `in_port`. -/
def edge (p : EdgePio) : EdgePio := { p with edgeCapture := true }

/-- `IOWR_ALTERA_AVALON_PIO_EDGE_CAP`: any write clears the register. -/
def writeEdgeCap (p : EdgePio) (_writedata : BitVec 32) : EdgePio := { p with edgeCapture := false }

/-- `IOWR_ALTERA_AVALON_PIO_IRQ_MASK`. -/
def writeIrqMask (p : EdgePio) (writedata : BitVec 32) : EdgePio :=
  { p with irqMask := writedata.getLsbD 0 }

end EdgePio

/-- What the handler does next; `lfsr` is its local variable. -/
inductive HandlerPc
  | idle
  | entered
  | read (lfsr : BitVec 32)
  | written (lfsr : BitVec 32)
  | cleared (lfsr : BitVec 32)
  deriving DecidableEq

/-- The ports the handler writes and its place in the code. Nothing reads `completed`, the number of
runs that have returned. -/
structure Nios where
  pio : EdgePio
  ddsIncrement : BitVec 32
  pc : HandlerPc
  completed : ℕ
  deriving DecidableEq

/-- `assign lfsr_val = lfsr[0]`, the 32-bit port `LFSR_VAL`. -/
def lfsrVal (lfsr0 : Bool) : BitVec 32 := (BitVec.ofBool lfsr0).setWidth 32

namespace Nios

/-- The write to `DDS_INCREMENT`. -/
def writeIncrement (lfsr : BitVec 32) : BitVec 32 := if lfsr = 1 then 0x1AE else 0x56

/-- One step of the processor: an idle one enters the handler if it is interrupted. The last step is
the dummy read of the edge capture register and the return. -/
def cpu (n : Nios) (lfsrVal : BitVec 32) : Nios :=
  match n.pc with
  | .idle => if n.pio.irq then { n with pc := .entered } else n
  | .entered => { n with pc := .read lfsrVal }
  | .read lfsr => { n with ddsIncrement := writeIncrement lfsr, pc := .written lfsr }
  | .written lfsr => { n with pio := n.pio.writeEdgeCap 0x0, pc := .cleared lfsr }
  | .cleared _ => { n with pc := .idle, completed := n.completed + 1 }

/-- The edge of `LFSR_clk` at the port. -/
def lfsrEdge (n : Nios) : Nios := { n with pio := n.pio.edge }

/-- `init_lfsr_interrupt`: the handler is registered, no run of it has started. -/
def initLfsrInterrupt (n : Nios) : Nios :=
  { n with pio := (n.pio.writeIrqMask 0x1).writeEdgeCap 0x0, pc := .idle, completed := 0 }

/-- No run of the handler has started. -/
def Ready (n : Nios) : Prop := n.pc = .idle ∧ n.completed = 0

instance (n : Nios) : Decidable n.Ready := inferInstanceAs (Decidable (_ ∧ _))

end Nios

/-- The increment of a data bit: `0x1AE` for 1, `0x56` for 0. -/
def fskIncrement (b : Bool) : BitVec 32 := if b then 0x1AE else 0x56

theorem writeIncrement_lfsrVal (b : Bool) : Nios.writeIncrement (lfsrVal b) = fskIncrement b := by
  cases b <;> rfl

theorem fskIncrement_inj {b c : Bool} : fskIncrement b = fskIncrement c ↔ b = c := by
  revert b c
  decide

theorem lfsrVal_inj {b c : Bool} : lfsrVal b = lfsrVal c ↔ b = c := by
  revert b c
  decide

/-! ### The handler against the edges of `LFSR_clk` -/

/-- The bit `lfsr[0]` and the processor. -/
structure FskPath where
  lfsr0 : Bool
  nios : Nios
  deriving DecidableEq

/-- A rising edge of `LFSR_clk`, leaving any bit in `lfsr[0]`, or a step of the processor. -/
inductive FskEvent
  | lfsrClk (lfsr0 : Bool)
  | cpu
  deriving DecidableEq

namespace FskPath

def step (s : FskPath) : FskEvent → FskPath
  | .lfsrClk lfsr0 => ⟨lfsr0, s.nios.lfsrEdge⟩
  | .cpu => { s with nios := s.nios.cpu (lfsrVal s.lfsr0) }

/-- With the handler idle after a completed run and no edge pending, the increment encodes the
current bit. -/
def Follows (s : FskPath) : Prop :=
  0 < s.nios.completed → s.nios.pc = .idle → s.nios.pio.edgeCapture = false →
    s.nios.ddsIncrement = fskIncrement s.lfsr0

instance (s : FskPath) : Decidable s.Follows := inferInstanceAs (Decidable (_ → _))

/-- The event clears the edge capture register while `lfsr[0]` is no longer the value read. -/
def clearsStale (s : FskPath) (e : FskEvent) : Bool :=
  match e, s.nios.pc with
  | .cpu, .written lfsr => lfsr != lfsrVal s.lfsr0
  | _, _ => false

/-- The state of the ports at each place of the handler, whatever the edges. -/
def Inv (s : FskPath) : Prop :=
  match s.nios.pc with
  | .idle => True
  | .entered => s.nios.pio.edgeCapture = true
  | .read lfsr => s.nios.pio.edgeCapture = true ∧ ∃ b, lfsr = lfsrVal b
  | .written lfsr => s.nios.pio.edgeCapture = true ∧ (∃ b, lfsr = lfsrVal b) ∧
      s.nios.ddsIncrement = Nios.writeIncrement lfsr
  | .cleared _ => True

/-- Past the clear, the increment is right or another edge is pending. -/
def Current (s : FskPath) : Prop :=
  match s.nios.pc with
  | .idle => 0 < s.nios.completed →
      s.nios.pio.edgeCapture = true ∨ s.nios.ddsIncrement = fskIncrement s.lfsr0
  | .cleared _ => s.nios.pio.edgeCapture = true ∨ s.nios.ddsIncrement = fskIncrement s.lfsr0
  | _ => True

theorem inv_step {s : FskPath} (h : s.Inv) (e : FskEvent) : (s.step e).Inv := by
  obtain ⟨lfsr0, ⟨⟨mask, cap⟩, dds, pc, completed⟩⟩ := s
  cases e with
  | lfsrClk b => cases pc <;> simp_all [Inv, step, Nios.lfsrEdge, EdgePio.edge]
  | cpu =>
    cases pc with
    | idle =>
      -- The handler is entered only with the bit set.
      cases cap <;> cases mask <;> simp [Inv, step, Nios.cpu, EdgePio.irq]
    | entered => exact ⟨h, lfsr0, rfl⟩
    | read lfsr => exact ⟨h.1, h.2, rfl⟩
    | written lfsr => trivial
    | cleared lfsr => trivial

/-- An edge is pending until the next clear. -/
theorem current_lfsrClk (s : FskPath) (b : Bool) : (s.step (.lfsrClk b)).Current := by
  obtain ⟨lfsr0, ⟨pio, dds, pc, completed⟩⟩ := s
  cases pc <;> simp [Current, step, Nios.lfsrEdge, EdgePio.edge]

theorem current_step {s : FskPath} (hinv : s.Inv) (h : s.Current) {e : FskEvent}
    (he : s.clearsStale e = false) : (s.step e).Current := by
  cases e with
  | lfsrClk b => exact current_lfsrClk s b
  | cpu =>
    obtain ⟨lfsr0, ⟨⟨mask, cap⟩, dds, pc, completed⟩⟩ := s
    cases pc with
    | idle => cases cap <;> cases mask <;> simp_all [Current, step, Nios.cpu, EdgePio.irq]
    | entered => trivial
    | read lfsr => trivial
    | written lfsr =>
      -- The clear forgets the pending edge, so here the increment has to be current.
      obtain ⟨-, -, hdds⟩ := hinv
      have hlfsr : lfsr = lfsrVal lfsr0 := by simpa [clearsStale] using he
      refine .inr (?_ : dds = fskIncrement lfsr0)
      rw [← writeIncrement_lfsrVal, ← hlfsr]
      exact hdds
    | cleared lfsr => exact fun _ => h

theorem inv_of_ready {s : FskPath} (h : s.nios.Ready) : s.Inv := by
  simp [Inv, h.1]

theorem current_of_ready {s : FskPath} (h : s.nios.Ready) : s.Current := by
  simp [Current, h.1, h.2]

theorem Current.follows {s : FskPath} (h : s.Current) : s.Follows := by
  intro hcompleted hpc hcap
  unfold Current at h
  rw [hpc] at h
  rcases h hcompleted with hpending | hdds
  · rw [hcap] at hpending
    cases hpending
  · exact hdds

/-- **One lost edge is enough.** From a state reached in any way, at the clear: the handler returns
with the increment of the current bit exactly if that bit still is the one it read. -/
theorem clear_follows_iff {s : FskPath} (hinv : s.Inv) {lfsr : BitVec 32}
    (hpc : s.nios.pc = .written lfsr) :
    ((s.step .cpu).step .cpu).Follows ↔ s.clearsStale .cpu = false := by
  obtain ⟨lfsr0, ⟨⟨mask, cap⟩, dds, pc, completed⟩⟩ := s
  cases hpc
  obtain ⟨-, ⟨b, rfl⟩, hdds⟩ := hinv
  rw [writeIncrement_lfsrVal] at hdds
  have hdds : dds = fskIncrement b := hdds
  simp [Follows, step, Nios.cpu, EdgePio.writeEdgeCap, clearsStale, hdds, fskIncrement_inj,
    lfsrVal_inj]

/-! #### Whole runs -/

theorem inv_foldl {s : FskPath} (h : s.nios.Ready) (es : List FskEvent) :
    (es.foldl step s).Inv :=
  List.foldlRecOn (motive := Inv) es step (inv_of_ready h) fun _ hs e _ => inv_step hs e

/-- A stale clear leads to the place behind the clear. -/
theorem pc_of_clearsStale {s : FskPath} (h : s.clearsStale .cpu = true) :
    ∃ lfsr, s.nios.pc = .written lfsr ∧ (s.step .cpu).nios.pc = .cleared lfsr := by
  obtain ⟨lfsr0, ⟨pio, dds, pc, completed⟩⟩ := s
  cases pc <;> simp [clearsStale, step, Nios.cpu] at h ⊢

/-- A run in which no stale clear is followed by the return at once is current, unless its last
event is such a clear. -/
theorem current_or_stale {s : FskPath} (h : s.nios.Ready) {es : List FskEvent}
    (hes : ∀ pre, pre ++ [.cpu, .cpu] <+: es → (pre.foldl step s).clearsStale .cpu = false) :
    (es.foldl step s).Current ∨
      ∃ pre, es = pre ++ [.cpu] ∧ (pre.foldl step s).clearsStale .cpu = true := by
  induction es using List.reverseRecOn with
  | nil => exact .inl (current_of_ready h)
  | append_singleton es e ih =>
    rw [List.foldl_append]
    cases e with
    | lfsrClk b => exact .inl (current_lfsrClk _ b)
    | cpu =>
      rcases ih fun pre hpre => hes pre (hpre.trans (List.prefix_append es [.cpu])) with
        hcurrent | ⟨pre, rfl, hstale⟩
      · cases hclear : (es.foldl step s).clearsStale .cpu with
        | false => exact .inl (current_step (inv_foldl h es) hcurrent hclear)
        | true => exact .inr ⟨es, rfl, hclear⟩
      · -- The return would come right behind the stale clear.
        have hfresh := hes pre (by rw [List.append_assoc]; rfl)
        rw [hstale] at hfresh
        cases hfresh

/-- **When a run goes right throughout**: no clear that finds `lfsr[0]` changed since the read is
followed by the return without another edge in between. -/
theorem follows_throughout_iff {s : FskPath} (h : s.nios.Ready) (es : List FskEvent) :
    (∀ es', es' <+: es → (es'.foldl step s).Follows) ↔
      ∀ pre, pre ++ [.cpu, .cpu] <+: es → (pre.foldl step s).clearsStale .cpu = false := by
  constructor
  · intro hall pre hpre
    have hfollows := hall _ hpre
    rw [List.foldl_append] at hfollows
    cases hclear : (pre.foldl step s).clearsStale .cpu with
    | false => rfl
    | true =>
      obtain ⟨lfsr, hpc, -⟩ := pc_of_clearsStale hclear
      have hfresh := (clear_follows_iff (inv_foldl h pre) hpc).mp hfollows
      exact hclear.symm.trans hfresh
  · intro hfresh es' hes'
    rcases current_or_stale h fun pre hpre => hfresh pre (hpre.trans hes') with
      hcurrent | ⟨pre, rfl, hstale⟩
    · exact hcurrent.follows
    · -- Behind the clear the handler has not returned yet.
      obtain ⟨lfsr, -, hpc⟩ := pc_of_clearsStale hstale
      intro _ hidle _
      rw [List.foldl_append] at hidle
      exact absurd (hpc.symm.trans hidle) (by simp)

end FskPath

/-- **The increment follows `lfsr[0]`.** In every run of edges and handler steps in which every
clear of the edge capture register finds `lfsr[0]` as the handler has read it, the increment encodes
the current bit in each state with a completed run, an idle handler and no edge pending. -/
theorem fsk_follows_lfsr (s : FskPath) (h : s.nios.Ready) (es : List FskEvent)
    (hes : Machine.Along FskPath.step (fun s e => s.clearsStale e = false) s es) :
    (es.foldl FskPath.step s).Follows := by
  have hinv := Machine.foldl_inv (P := fun s => s.Inv ∧ s.Current)
    (fun _ e hs he => ⟨FskPath.inv_step hs.1 e, FskPath.current_step hs.1 hs.2 he⟩)
    ⟨FskPath.inv_of_ready h, FskPath.current_of_ready h⟩ hes
  exact hinv.2.follows

/-- Two edges after the initialisation, the second one before the handler reads. -/
theorem fsk_follows_lfsr_two_edges :
    ([.lfsrClk false, .cpu, .lfsrClk true, .cpu, .cpu, .cpu, .cpu].foldl FskPath.step
      ⟨true, Nios.initLfsrInterrupt ⟨⟨false, true⟩, 0, .idle, 0⟩⟩).Follows :=
  fsk_follows_lfsr ⟨true, Nios.initLfsrInterrupt ⟨⟨false, true⟩, 0, .idle, 0⟩⟩ (by decide)
    [.lfsrClk false, .cpu, .lfsrClk true, .cpu, .cpu, .cpu, .cpu] (by decide)

/-- An edge between the read and the clear: the handler has returned, nothing is pending, and the
increment is that of the bit before. -/
theorem fsk_loses_edge :
    ¬ ∀ (s : FskPath) (es : List FskEvent), s.nios.Ready → s.nios.pio.irqMask = true →
      (es.foldl FskPath.step s).Follows := by
  intro h
  exact absurd (h ⟨false, Nios.initLfsrInterrupt ⟨⟨false, false⟩, 0, .idle, 0⟩⟩
    [.lfsrClk true, .cpu, .cpu, .lfsrClk false, .cpu, .cpu, .cpu] (by decide) (by decide))
    (by decide)

end DigitalModulation
