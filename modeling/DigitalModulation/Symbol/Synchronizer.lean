import DigitalModulation.Lib.Crossing

/-!
# `LFSR.sv` and `synchronizer.sv`: the symbol source and its way into the 50 MHz domain

Two synchronizers carry `lfsr[0]` and `lfsr[4]` over. The first flip-flop of each runs on the LFSR's
own clock, the other two on `CLOCK_50`.

* `Lfsr.clk`, `Synchronizer.clkA`, `Synchronizer.clkB`: the edges of the parts;
* `SymbolPath.step`: one edge of the whole path, on either clock, or a falling reset;
* `SymbolPath.line`: the two synchronizers as one line of dibits (`Lib/Crossing.lean`);
* `symbol_delivery`: the dibits seen on `CLOCK_50`.
-/

namespace DigitalModulation

/-- The five flip-flops of `LFSR`. -/
structure Lfsr where
  lfsr4 : Bool
  lfsr3 : Bool
  lfsr2 : Bool
  lfsr1 : Bool
  lfsr0 : Bool
  deriving DecidableEq

namespace Lfsr

/-- The power-up values, which are also the reset values. -/
def reset : Lfsr := ⟨false, false, false, false, true⟩

/-- `feedback = lfsr_0_out ^ lfsr_2_out`. -/
def feedback (s : Lfsr) : Bool := s.lfsr0 ^^ s.lfsr2

/-- A rising edge of `clk`; `rst` is active low. -/
def clk (s : Lfsr) (rst : Bool) : Lfsr :=
  if rst then ⟨s.feedback, s.lfsr4, s.lfsr3, s.lfsr2, s.lfsr1⟩ else reset

/-- The dibit `{lfsr[4], lfsr[0]}`. -/
def dibit (s : Lfsr) : Bool × Bool := (s.lfsr4, s.lfsr0)

end Lfsr

/-- The three flip-flops of `synchronizer`. -/
structure Synchronizer where
  q1 : Bool
  q2 : Bool
  syncSig : Bool
  deriving DecidableEq

namespace Synchronizer

/-- A rising edge of `clk_A`: `dflipflop1`. -/
def clkA (s : Synchronizer) (asyncSig : Bool) : Synchronizer := { s with q1 := asyncSig }

/-- A rising edge of `clk_B`: `dflipflop2` and `dflipflop3`. -/
def clkB (s : Synchronizer) : Synchronizer := { s with q2 := s.q1, syncSig := s.q2 }

end Synchronizer

/-- The LFSR with `synchronizer_inst` on `lfsr[0]` and `synchronizer_inst_2` on `lfsr[4]`. -/
structure SymbolPath where
  lfsr : Lfsr
  sync : Synchronizer
  sync2 : Synchronizer
  deriving DecidableEq

/-- A rising edge of `LFSR_clk` with the level of `rst` it meets, a rising edge of `CLOCK_50`, or
`rst` going low between edges. -/
inductive Edge
  | lfsrClk (rst : Bool)
  | clock50
  | rstFall
  deriving DecidableEq

namespace SymbolPath

/-- One edge. On `LFSR_clk` the first flip-flops sample the LFSR as it was before the edge. -/
def step (s : SymbolPath) : Edge → SymbolPath
  | .lfsrClk rst =>
    { lfsr := s.lfsr.clk rst
      sync := s.sync.clkA s.lfsr.lfsr0
      sync2 := s.sync2.clkA s.lfsr.lfsr4 }
  | .clock50 => { s with sync := s.sync.clkB, sync2 := s.sync2.clkB }
  | .rstFall => { s with lfsr := Lfsr.reset }

/-- The dibit `(sync_lfsr_2, sync_lfsr)`. -/
def syncDibit (s : SymbolPath) : Bool × Bool := (s.sync2.syncSig, s.sync.syncSig)

/-- The dibits seen after the `CLOCK_50` edges. -/
def seen (s : SymbolPath) : List Edge → List (Bool × Bool)
  | [] => []
  | .clock50 :: es => (s.step .clock50).syncDibit :: (s.step .clock50).seen es
  | .lfsrClk rst :: es => (s.step (.lfsrClk rst)).seen es
  | .rstFall :: es => (s.step .rstFall).seen es

/-- The dibits held by the LFSR just before the `LFSR_clk` edges. -/
def sent (s : SymbolPath) : List Edge → List (Bool × Bool)
  | [] => []
  | .lfsrClk rst :: es => s.lfsr.dibit :: (s.step (.lfsrClk rst)).sent es
  | .clock50 :: es => (s.step .clock50).sent es
  | .rstFall :: es => (s.step .rstFall).sent es

end SymbolPath

/-- The number of `CLOCK_50` edges before, between and after the `LFSR_clk` edges of a schedule,
`n` of them counted already. -/
def ticksPerPeriod (n : ℕ) : List Edge → List ℕ
  | [] => [n]
  | .lfsrClk _ :: es => n :: ticksPerPeriod 0 es
  | .clock50 :: es => ticksPerPeriod (n + 1) es
  | .rstFall :: es => ticksPerPeriod n es

/-! ### The two synchronizers as one line -/

namespace SymbolPath

open Crossing

/-- Both synchronizers, stage by stage. -/
def line (s : SymbolPath) : Line (Bool × Bool) :=
  ⟨(s.sync2.q1, s.sync.q1), (s.sync2.q2, s.sync.q2), s.syncDibit⟩

/-- The edges as the line sees them. -/
def lineEvents (s : SymbolPath) : List Edge → List (Ev (Bool × Bool))
  | [] => []
  | .lfsrClk rst :: es => .src s.lfsr.dibit :: (s.step (.lfsrClk rst)).lineEvents es
  | .clock50 :: es => .dst :: (s.step .clock50).lineEvents es
  | .rstFall :: es => (s.step .rstFall).lineEvents es

theorem line_lfsrClk (s : SymbolPath) (rst : Bool) :
    (s.step (.lfsrClk rst)).line = s.line.step (.src s.lfsr.dibit) := rfl

theorem line_clock50 (s : SymbolPath) : (s.step .clock50).line = s.line.step .dst := rfl

theorem line_rstFall (s : SymbolPath) : (s.step .rstFall).line = s.line := rfl

/-- The path shows what the line shows. -/
theorem seen_eq_line (s : SymbolPath) (es : List Edge) :
    s.seen es = s.line.seen (s.lineEvents es) := by
  induction es generalizing s with
  | nil => rfl
  | cons e es ih =>
    cases e with
    | lfsrClk rst => rw [seen, ih, line_lfsrClk, lineEvents, Line.seen]
    | clock50 => rw [seen, ih, line_clock50, lineEvents, Line.seen, ← line_clock50]; rfl
    | rstFall => rw [seen, ih, line_rstFall, lineEvents]

theorem sent_eq_line (s : SymbolPath) (es : List Edge) :
    s.sent es = Crossing.sent (s.lineEvents es) := by
  induction es generalizing s with
  | nil => rfl
  | cons e es ih => cases e <;> simp [sent, lineEvents, Crossing.sent, ih]

theorem ticksPerPeriod_eq_line (s : SymbolPath) (n : ℕ) (es : List Edge) :
    ticksPerPeriod n es = gaps n (s.lineEvents es) := by
  induction es generalizing s n with
  | nil => rfl
  | cons e es ih => cases e <;> simp only [ticksPerPeriod, lineEvents, gaps] <;> rw [← ih]

end SymbolPath

/-- **Symbol delivery.** Take any initial registers, any edges `pre`, an `LFSR_clk` edge and any
edges `post` after it, resets included, with at least two `CLOCK_50` edges in every `LFSR_clk`
period but the one still running. From the second `CLOCK_50` edge on, the dibits seen are those the
LFSR held just before its edges, in order, each for exactly the ticks of its period, one tick being
still under way; all but perhaps the newest have been seen; none mixes two LFSR states. -/
theorem symbol_delivery (s₀ : SymbolPath) (pre post : List Edge) (rst : Bool)
    (hticks : ∀ n ∈ (ticksPerPeriod 0 post).dropLast, 2 ≤ n) :
    let s := pre.foldl SymbolPath.step s₀
    let sent := s.sent (.lfsrClk rst :: post)
    let seen := (s.seen (.lfsrClk rst :: post)).tail
    seen = (Crossing.stretch sent (ticksPerPeriod 0 post)).dropLast ∧
    sent.length = (ticksPerPeriod 0 post).length ∧
    (∃ k ms, seen = Crossing.stretch (sent.take k) ms ∧ ms.length = k ∧ (∀ m ∈ ms, 0 < m) ∧
      k ≤ sent.length ∧ sent.length ≤ k + 1) ∧
    ∀ d ∈ seen, d ∈ sent := by
  intro s sent seen
  have hsent : sent = s.lfsr.dibit :: Crossing.sent ((s.step (.lfsrClk rst)).lineEvents post) := by
    rw [← SymbolPath.sent_eq_line]
    rfl
  have hgaps := (s.step (.lfsrClk rst)).ticksPerPeriod_eq_line 0 post
  have hseen : seen = (Crossing.stretch sent (ticksPerPeriod 0 post)).dropLast := by
    rw [hsent, hgaps, ← s.line.seen_tail, ← s.line_lfsrClk rst, ← SymbolPath.seen_eq_line]
    rfl
  have hlen : sent.length = (ticksPerPeriod 0 post).length := by
    rw [hsent, hgaps, Crossing.length_gaps, List.length_cons]
  refine ⟨hseen, hlen, ?_, fun d hd => ?_⟩
  · rw [hseen]
    exact Crossing.exists_deliveries hlen hticks
  · rw [hseen] at hd
    exact Crossing.mem_of_mem_stretch (List.dropLast_subset _ hd)

/-- Two periods of three and two ticks after the power-up values. -/
theorem symbol_delivery_two_periods :
    let s : SymbolPath := ⟨Lfsr.reset, ⟨true, true, true⟩, ⟨true, true, true⟩⟩
    ∀ d ∈ (s.seen [.lfsrClk true, .clock50, .clock50, .clock50, .lfsrClk true, .clock50, .rstFall,
      .clock50]).tail, d ∈ [(false, true), (true, false)] :=
  (symbol_delivery ⟨Lfsr.reset, ⟨true, true, true⟩, ⟨true, true, true⟩⟩ []
    [.clock50, .clock50, .clock50, .lfsrClk true, .clock50, .rstFall, .clock50] true
    (by decide)).2.2.2

end DigitalModulation
