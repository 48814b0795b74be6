import DigitalModulation.Symbol.ClkDivider
import DigitalModulation.Symbol.Synchronizer
import DigitalModulation.Symbol.Interrupt

/-!
# The two ways of a data bit

`ASK_modulator`, `BPSK_modulator` and `LFSR_modulator` take their bit from the synchronizer, whose
first flip-flop samples `lfsr[0]` on the edge that shifts the register. FSK takes its bit from the
interrupt handler, which reads `lfsr[0]` after that edge.

* `DataPaths.step`: the divider, the LFSR, the synchronizers and the processor;
* `DataPaths.Settles`: a period of `LFSR_clk` in which both ways come to rest;
* `fsk_one_symbol_ahead`: the FSK increment carries the symbol of the next period.
-/

namespace DigitalModulation

/-- Everything between `CLOCK_50` and the modulators' data bits. -/
structure DataPaths where
  divider : ClkDivider
  path : SymbolPath
  nios : Nios
  deriving DecidableEq

/-- A rising edge of `CLOCK_50` with the level of `rst` it meets, `rst` going low between edges, or
a step of the processor. -/
inductive DataEvent
  | clock50 (rst : Bool)
  | rstFall
  | cpu
  deriving DecidableEq

/-- The number of `CLOCK_50` edges among some events. -/
def clock50Ticks : List DataEvent → ℕ
  | [] => 0
  | .clock50 _ :: es => clock50Ticks es + 1
  | .rstFall :: es => clock50Ticks es
  | .cpu :: es => clock50Ticks es

/-- A period of `LFSR_clk`: the level of `rst` at the `CLOCK_50` edge that begins it, and the events
after that edge. -/
structure Period where
  rst : Bool
  events : List DataEvent

namespace DataPaths

/-- The next edge of `CLOCK_50` raises `LFSR_clk`. -/
def rises (divisor : BitVec 32) (s : DataPaths) : Bool := s.divider.rises divisor true

/-- One event. An edge of `LFSR_clk` follows the edge of `CLOCK_50` that causes it, so the registers
on `CLOCK_50` still sample what was there before. -/
def step (divisor : BitVec 32) (s : DataPaths) : DataEvent → DataPaths
  | .clock50 rst =>
    if s.rises divisor then
      { divider := s.divider.clkIn divisor true
        path := (s.path.step .clock50).step (.lfsrClk rst)
        nios := s.nios.lfsrEdge }
    else
      { s with divider := s.divider.clkIn divisor true, path := s.path.step .clock50 }
  | .rstFall => { s with path := s.path.step .rstFall }
  | .cpu => { s with nios := s.nios.cpu (lfsrVal s.path.lfsr.lfsr0) }

/-- The state at the edge that begins a period. -/
def begin (divisor : BitVec 32) (s : DataPaths) (p : Period) : DataPaths :=
  s.step divisor (.clock50 p.rst)

/-- The state after the events of a period. -/
def period (divisor : BitVec 32) (s : DataPaths) (p : Period) : DataPaths :=
  p.events.foldl (step divisor) (s.begin divisor p)

/-- The event is not an edge of `LFSR_clk`. -/
def keepsPeriod (divisor : BitVec 32) (s : DataPaths) : DataEvent → Bool
  | .clock50 _ => !s.rises divisor
  | .rstFall => true
  | .cpu => true

/-- The handler has returned and acknowledged the last edge. -/
def Done (s : DataPaths) : Prop := s.nios.pc = .idle ∧ s.nios.pio.edgeCapture = false

instance (s : DataPaths) : Decidable s.Done := inferInstanceAs (Decidable (_ ∧ _))

/-- A period as the program needs it: one edge of `LFSR_clk` that begins it, at least two further
edges of `CLOCK_50`, and the handler done at its end. -/
def Settles (divisor : BitVec 32) (s : DataPaths) (p : Period) : Prop :=
  s.rises divisor = true ∧
    Machine.Along (step divisor) (fun s e => s.keepsPeriod divisor e = true) (s.begin divisor p)
      p.events ∧
    2 ≤ clock50Ticks p.events ∧ (s.period divisor p).Done

instance (divisor : BitVec 32) (s : DataPaths) (p : Period) : Decidable (s.Settles divisor p) :=
  inferInstanceAs (Decidable (_ ∧ _ ∧ _ ∧ _))

theorem step_clock50_of_rises {divisor : BitVec 32} {s : DataPaths} (h : s.rises divisor = true)
    (rst : Bool) :
    s.step divisor (.clock50 rst) =
      { divider := s.divider.clkIn divisor true
        path := (s.path.step .clock50).step (.lfsrClk rst)
        nios := s.nios.lfsrEdge } := by
  simp [step, h]

theorem step_clock50_of_keepsPeriod {divisor : BitVec 32} {s : DataPaths} {rst : Bool}
    (h : s.keepsPeriod divisor (.clock50 rst) = true) :
    s.step divisor (.clock50 rst) =
      { s with divider := s.divider.clkIn divisor true, path := s.path.step .clock50 } := by
  have h : s.rises divisor = false := by simpa [keepsPeriod] using h
  simp [step, h]

end DataPaths

/-! ### The way through the synchronizer -/

/-- After `k` edges of `clk_B` the bit `b` has come `k` stages far. -/
def Synchronizer.Carries (s : Synchronizer) (b : Bool) (k : ℕ) : Prop :=
  s.q1 = b ∧ (1 ≤ k → s.q2 = b) ∧ (2 ≤ k → s.syncSig = b)

theorem Synchronizer.carries_clkA (s : Synchronizer) (b : Bool) : (s.clkA b).Carries b 0 :=
  ⟨rfl, by omega, by omega⟩

theorem Synchronizer.carries_clkB {s : Synchronizer} {b : Bool} {k : ℕ} (h : s.Carries b k) :
    s.clkB.Carries b (k + 1) :=
  ⟨h.1, fun _ => h.1, fun hk => h.2.1 (by omega)⟩

namespace DataPaths

variable {divisor : BitVec 32} {s : DataPaths} {es : List DataEvent}

/-- Within a period the synchronizer passes on one bit. -/
theorem carries_run {b : Bool} {k : ℕ}
    (hes : Machine.Along (step divisor) (fun s e => s.keepsPeriod divisor e = true) s es)
    (h : s.path.sync.Carries b k) :
    (es.foldl (step divisor) s).path.sync.Carries b (k + clock50Ticks es) := by
  induction es generalizing s k with
  | nil => exact h
  | cons e es ih =>
    obtain ⟨he, hes⟩ := hes
    cases e with
    | clock50 rst =>
      have hstep : (s.step divisor (.clock50 rst)).path.sync.Carries b (k + 1) := by
        rw [step_clock50_of_keepsPeriod he]
        exact Synchronizer.carries_clkB h
      have hrun := ih hes hstep
      rwa [Nat.add_right_comm] at hrun
    | rstFall => exact ih hes h
    | cpu => exact ih hes h

/-- The LFSR keeps its registers between its edges unless it is reset. -/
theorem lfsr_run (hrst : DataEvent.rstFall ∉ es)
    (hes : Machine.Along (step divisor) (fun s e => s.keepsPeriod divisor e = true) s es) :
    (es.foldl (step divisor) s).path.lfsr = s.path.lfsr := by
  induction es generalizing s with
  | nil => rfl
  | cons e es ih =>
    obtain ⟨he, hes⟩ := hes
    have hstep : (s.step divisor e).path.lfsr = s.path.lfsr := by
      cases e with
      | clock50 rst => rw [step_clock50_of_keepsPeriod he]; rfl
      | rstFall => exact absurd List.mem_cons_self hrst
      | cpu => rfl
    exact (ih (fun h => hrst (List.mem_cons_of_mem e h)) hes).trans hstep

end DataPaths

/-! ### The way through the handler -/

/-- What the handler has read, written or acknowledged since the last edge is a bit of which `R`
holds. -/
def Nios.Fetched (R : Bool → Prop) (n : Nios) : Prop :=
  match n.pc with
  | .idle => n.pio.edgeCapture = true ∨ ∃ b, R b ∧ n.ddsIncrement = fskIncrement b
  | .entered => True
  | .read lfsr => ∃ b, R b ∧ lfsr = lfsrVal b
  | .written _ => ∃ b, R b ∧ n.ddsIncrement = fskIncrement b
  | .cleared _ => ∃ b, R b ∧ n.ddsIncrement = fskIncrement b

theorem Nios.fetched_cpu {R : Bool → Prop} {n : Nios} {b : Bool} (h : n.Fetched R) (hb : R b) :
    (n.cpu (lfsrVal b)).Fetched R := by
  obtain ⟨⟨mask, cap⟩, dds, pc, completed⟩ := n
  cases pc with
  | idle => cases cap <;> cases mask <;> simp_all [Fetched, cpu, EdgePio.irq]
  | entered => exact ⟨b, hb, rfl⟩
  | read lfsr =>
    obtain ⟨c, hc, rfl⟩ := h
    exact ⟨c, hc, writeIncrement_lfsrVal c⟩
  | written lfsr => exact h
  | cleared lfsr => exact .inr h

namespace DataPaths

variable {divisor : BitVec 32} {s : DataPaths} {es : List DataEvent}

/-- Within a period the handler takes its bit from a state of that period. -/
theorem fetched_run {R : Bool → Prop}
    (hR : ∀ i, R ((es.take i).foldl (step divisor) s).path.lfsr.lfsr0)
    (hes : Machine.Along (step divisor) (fun s e => s.keepsPeriod divisor e = true) s es)
    (h : s.nios.Fetched R) : (es.foldl (step divisor) s).nios.Fetched R := by
  induction es generalizing s with
  | nil => exact h
  | cons e es ih =>
    obtain ⟨he, hes⟩ := hes
    refine ih (fun i => hR (i + 1)) hes ?_
    cases e with
    | clock50 rst => rwa [step_clock50_of_keepsPeriod he]
    | rstFall => exact h
    | cpu => exact Nios.fetched_cpu h (hR 0)

/-- The synchronizer shows the bit from just before the edge that began the period. -/
theorem Settles.syncSig {p : Period} (h : s.Settles divisor p) :
    (s.period divisor p).path.sync.syncSig = s.path.lfsr.lfsr0 := by
  obtain ⟨hrises, hkeeps, hticks, -⟩ := h
  have hbegin : (s.begin divisor p).path.sync.Carries s.path.lfsr.lfsr0 0 := by
    rw [begin, step_clock50_of_rises hrises]
    exact Synchronizer.carries_clkA _ _
  exact (carries_run hkeeps hbegin).2.2 (by omega)

/-- The increment encodes a bit the LFSR held within the period, after the edge. -/
theorem Settles.exists_read {p : Period} (h : s.Settles divisor p) (hs : s.Done) :
    ∃ i, (s.period divisor p).nios.ddsIncrement = fskIncrement
      ((p.events.take i).foldl (step divisor) (s.begin divisor p)).path.lfsr.lfsr0 := by
  obtain ⟨hrises, hkeeps, -, hidle, hcap⟩ := h
  have hbegin : (s.begin divisor p).nios.Fetched fun b => ∃ i,
      b = ((p.events.take i).foldl (step divisor) (s.begin divisor p)).path.lfsr.lfsr0 := by
    rw [begin, step_clock50_of_rises hrises, Nios.Fetched]
    simp [Nios.lfsrEdge, hs.1, EdgePio.edge]
  have hend := fetched_run (fun i => ⟨i, rfl⟩) hkeeps hbegin
  unfold Nios.Fetched at hend
  rw [← period, hidle, hcap] at hend
  rcases hend with hcap | ⟨b, ⟨i, rfl⟩, hb⟩
  · cases hcap
  · exact ⟨i, hb⟩

/-- Without a reset that is the bit the period ends with. -/
theorem Settles.increment {p : Period} (h : s.Settles divisor p) (hs : s.Done)
    (hrst : DataEvent.rstFall ∉ p.events) :
    (s.period divisor p).nios.ddsIncrement =
      fskIncrement (s.period divisor p).path.lfsr.lfsr0 := by
  obtain ⟨i, hi⟩ := h.exists_read hs
  have hkeeps := h.2.1
  have htake : Machine.Along (step divisor) (fun s e => s.keepsPeriod divisor e = true)
      (s.begin divisor p) (p.events.take i) := by
    rw [← List.take_append_drop i p.events, Machine.along_append] at hkeeps
    exact hkeeps.1
  rw [hi, lfsr_run (fun hmem => hrst (List.mem_of_mem_take hmem)) htake, period,
    lfsr_run hrst hkeeps]

theorem done_foldl {s : DataPaths} {ps : List Period} (hs : s.Done)
    (hps : Machine.Along (period divisor) (Settles divisor) s ps) :
    (ps.foldl (period divisor) s).Done :=
  Machine.foldl_inv (fun _ _ _ h => h.2.2.2) hs hps

end DataPaths

/-- **FSK is one symbol ahead.** In every run of periods that settle, in each of them `sync_lfsr`
is `lfsr[0]` from just before the edge of `LFSR_clk`, and the FSK increment encodes a bit that
`lfsr[0]` held after that edge. With no reset in the period this is the bit `sync_lfsr` shows in the
next period, so the two agree exactly when the edge left `lfsr[0]` as it was. -/
theorem fsk_one_symbol_ahead (divisor : BitVec 32) (s₀ : DataPaths) (h₀ : s₀.Done)
    (ps : List Period) (p : Period)
    (hps : Machine.Along (DataPaths.period divisor) (DataPaths.Settles divisor) s₀ (ps ++ [p])) :
    let s := ps.foldl (DataPaths.period divisor) s₀
    let s' := s.period divisor p
    s'.path.sync.syncSig = s.path.lfsr.lfsr0 ∧
    (∃ i, s'.nios.ddsIncrement = fskIncrement
      ((p.events.take i).foldl (DataPaths.step divisor) (s.begin divisor p)).path.lfsr.lfsr0) ∧
    (DataEvent.rstFall ∉ p.events →
      (∀ p', s'.Settles divisor p' →
        s'.nios.ddsIncrement = fskIncrement (s'.period divisor p').path.sync.syncSig) ∧
      (s'.nios.ddsIncrement = fskIncrement s'.path.sync.syncSig ↔
        s'.path.lfsr.lfsr0 = s.path.lfsr.lfsr0)) := by
  intro s s'
  obtain ⟨hps, hp, -⟩ := Machine.along_append.mp hps
  have hp : s.Settles divisor p := hp
  have hs : s.Done := DataPaths.done_foldl h₀ hps
  refine ⟨hp.syncSig, hp.exists_read hs, fun hrst => ⟨fun p' hp' => ?_, ?_⟩⟩
  · rw [hp'.syncSig]
    exact hp.increment hs hrst
  · rw [hp.increment hs hrst, fskIncrement_inj, hp.syncSig]

/-- The first period after power-up, with the divider as `top` sets it. -/
def firstPeriod : Period :=
  ⟨true, [.cpu, .cpu, .clock50 true, .cpu, .cpu, .clock50 true, .cpu]⟩

/-- The registers at power-up, after `init_lfsr_interrupt`. -/
def powerUp : DataPaths :=
  ⟨⟨0, false⟩, ⟨Lfsr.reset, ⟨false, false, false⟩, ⟨false, false, false⟩⟩,
    Nios.initLfsrInterrupt ⟨⟨false, false⟩, 0, .idle, 0⟩⟩

theorem fsk_one_symbol_ahead_first :
    ((powerUp.period 50000000 firstPeriod).nios.ddsIncrement =
        fskIncrement (powerUp.period 50000000 firstPeriod).path.sync.syncSig ↔
      (powerUp.period 50000000 firstPeriod).path.lfsr.lfsr0 = powerUp.path.lfsr.lfsr0) :=
  ((fsk_one_symbol_ahead 50000000 powerUp (by decide) [] firstPeriod (by decide)).2.2
    (by decide)).2

/-- In the first period the FSK increment encodes 0 and `sync_lfsr` is 1. -/
theorem fsk_data_bit_differs :
    ¬ ∀ (divisor : BitVec 32) (s₀ : DataPaths) (ps : List Period) (p : Period), s₀.Done →
      Machine.Along (DataPaths.period divisor) (DataPaths.Settles divisor) s₀ (ps ++ [p]) →
      ((ps ++ [p]).foldl (DataPaths.period divisor) s₀).nios.ddsIncrement =
        fskIncrement ((ps ++ [p]).foldl (DataPaths.period divisor) s₀).path.sync.syncSig := by
  intro h
  exact absurd (h 50000000 powerUp [] firstPeriod (by decide) (by decide)) (by decide)

end DigitalModulation
