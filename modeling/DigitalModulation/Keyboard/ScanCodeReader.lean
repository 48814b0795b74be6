import Mathlib.Data.BitVec
import Mathlib.Logic.Function.Iterate
import Mathlib.Tactic.IntervalCases

/-!
# `PS2_ScanCodeReader.v`: from the wires of the keyboard to bytes

The clock of the keyboard is debounced over eight samples; at each of its rising edges a bit of the
data line is taken: a start bit, nine bits that are shifted in, and one that completes the byte.

* `Debouncer`, `Receiver`, `ScanCodeReader.step`: the registers and a rising edge of `iCLK`;
* `ScanCodeReader.tied`: the same with `iRead` tied to `oScanReady`;
* `Ps2Bit`, `Ps2Frame`: the bits and frames a keyboard sends, with any timing;
* `frames_received`: every list of frames comes out as the list of its bytes, and short low pulses
  of the idle clock do nothing.
-/

namespace DigitalModulation

/-- The registers behind `iPS2_CLK`. -/
structure Debouncer where
  ps2ClkBuffer : BitVec 8
  ps2ClkDebounced : Bool
  ps2ClkDebouncedPrev : Bool
  deriving DecidableEq

/-- The registers that assemble a byte. -/
structure Receiver where
  readingChar : Bool
  bitCntr : BitVec 4
  shiftIn : BitVec 9
  oScanByte : BitVec 8
  deriving DecidableEq

/-- The registers of `PS2_ScanCodeReader`. -/
structure ScanCodeReader extends Debouncer, Receiver where
  oScanReady : Bool
  deriving DecidableEq

/-- What a rising edge of `iCLK` samples. -/
structure Ps2In where
  iPs2Clk : Bool
  iPs2Dat : Bool
  iReset : Bool
  iRead : Bool
  deriving DecidableEq

namespace Debouncer

/-- `PS2_CLK_POSEDGE`. -/
def posedge (d : Debouncer) : Bool := d.ps2ClkDebounced && !d.ps2ClkDebouncedPrev

/-- The debouncing of `iPS2_CLK`. -/
def next (d : Debouncer) (iPs2Clk : Bool) : Debouncer where
  ps2ClkBuffer := BitVec.ofBool iPs2Clk ++ d.ps2ClkBuffer.extractLsb' 1 7
  ps2ClkDebounced :=
    if d.ps2ClkBuffer = 0xFF then true
    else if d.ps2ClkBuffer = 0x00 then false
    else d.ps2ClkDebounced
  ps2ClkDebouncedPrev := d.ps2ClkDebounced

end Debouncer

namespace Receiver

/-- A bit at a rising edge of the clock. -/
def receive (r : Receiver) (iPs2Dat : Bool) : Receiver :=
  if r.readingChar = false then
    if iPs2Dat = false then { r with readingChar := true } else r
  else if r.bitCntr = 9 then
    { r with bitCntr := 0, oScanByte := r.shiftIn.setWidth 8, readingChar := false }
  else
    { r with
      bitCntr := r.bitCntr + 1
      shiftIn := BitVec.ofBool iPs2Dat ++ r.shiftIn.extractLsb' 1 8 }

/-- The next bit completes a byte. -/
def complete (r : Receiver) : Bool := r.readingChar && r.bitCntr == 9

end Receiver

namespace ScanCodeReader

/-- A rising edge of `iCLK`. -/
def step (s : ScanCodeReader) (i : Ps2In) : ScanCodeReader :=
  if i.iReset then
    { s with
      toDebouncer := ⟨0, false, false⟩
      bitCntr := 0
      readingChar := false
      oScanReady := false }
  else
    { toDebouncer := s.next i.iPs2Clk
      toReceiver := if s.posedge then s.receive i.iPs2Dat else s.toReceiver
      oScanReady :=
        if s.posedge && s.complete then true else if i.iRead then false else s.oScanReady }

/-- `Keyboard_Controller` ties `iRead` to `oScanReady`. -/
def tied (s : ScanCodeReader) (w : Bool × Bool) : ScanCodeReader :=
  s.step ⟨w.1, w.2, false, s.oScanReady⟩

/-- The bytes put out: `oScanByte` for each edge that leaves `oScanReady` high. -/
def scanned (s : ScanCodeReader) : List (Bool × Bool) → List (BitVec 8)
  | [] => []
  | w :: ws =>
    let s' := s.tied w
    if s'.oScanReady then s'.oScanByte :: scanned s' ws else scanned s' ws

end ScanCodeReader

/-! ### What a keyboard sends -/

/-- A bit on the wires: the clock low for 10 edges of `iCLK` or more, and then high for 10 or more.
The data line has the bit from the low phase on, and after 10 edges of the high phase any value. -/
structure Ps2Bit where
  value : Bool
  low : ℕ
  late : List Bool
  low_ge : 10 ≤ low

/-- The samples of clock and data. -/
def Ps2Bit.wires (b : Ps2Bit) : List (Bool × Bool) :=
  List.replicate b.low (false, b.value) ++ List.replicate 10 (true, b.value) ++
    b.late.map fun dat => (true, dat)

/-- Start bit 0, eight bits from the lowest on, parity and stop bit. -/
def serialise (byte : BitVec 8) (parity stop : Bool) : List Bool :=
  false :: (List.range 8).map byte.getLsbD ++ [parity, stop]

/-- A byte on the wires. -/
structure Ps2Frame where
  byte : BitVec 8
  parity : Bool
  stop : Bool
  bits : List Ps2Bit
  serial : bits.map Ps2Bit.value = serialise byte parity stop

def Ps2Frame.wires (f : Ps2Frame) : List (Bool × Bool) := f.bits.flatMap Ps2Bit.wires

/-! ### The debouncer -/

namespace Debouncer

/-- The line has had one level for ten edges or more. -/
def settled (level : Bool) : Debouncer := ⟨if level then 0xFF else 0, level, level⟩

theorem next_settled (level : Bool) : (settled level).next level = settled level := by
  cases level <;> rfl

theorem iterate_settled (level : Bool) (k : ℕ) :
    (fun d => next d level)^[k] (settled level) = settled level :=
  Function.iterate_fixed (next_settled level) k

theorem posedge_settled (level : Bool) : (settled level).posedge = false := by
  cases level <;> rfl

/-- From one level to the other in ten edges. -/
theorem iterate_ten (level : Bool) :
    (fun d => next d level)^[10] (settled (!level)) = settled level := by
  cases level <;> rfl

theorem iterate_low {n : ℕ} (hn : 10 ≤ n) :
    (fun d => next d false)^[n] (settled true) = settled false := by
  obtain ⟨m, rfl⟩ := Nat.exists_eq_add_of_le' hn
  rw [Function.iterate_add_apply,
    show (fun d => next d false)^[10] (settled true) = settled false from iterate_ten false,
    iterate_settled]

/-- From any state the debouncer comes to rest in ten edges. -/
theorem iterate_high (d : Debouncer) {n : ℕ} (hn : 10 ≤ n) :
    (fun d => next d true)^[n] d = settled true := by
  have hten : ∀ (buffer : BitVec 8) (debounced prev : Bool),
      (fun d => next d true)^[10] ⟨buffer, debounced, prev⟩ = settled true := by
    decide +kernel
  obtain ⟨m, rfl⟩ := Nat.exists_eq_add_of_le' hn
  rw [Function.iterate_add_apply, hten d.1 d.2 d.3, iterate_settled]

/-- There is no rising edge in a low phase. -/
theorem posedge_low (k : ℕ) : ((fun d => next d false)^[k] (settled true)).posedge = false := by
  by_cases hk : k < 10
  · have hfirst : ∀ k < 10, ((fun d => next d false)^[k] (settled true)).posedge = false := by
      decide
    exact hfirst k hk
  · rw [iterate_low (Nat.not_lt.mp hk), posedge_settled]

/-- The rising edge is seen at the tenth edge of a high phase. -/
theorem posedge_high :
    (∀ k < 9, ((fun d => next d true)^[k] (settled false)).posedge = false) ∧
      ((fun d => next d true)^[9] (settled false)).posedge = true := by
  decide

end Debouncer

/-! ### Phases of the clock -/

namespace ScanCodeReader

theorem toDebouncer_tied (s : ScanCodeReader) (w : Bool × Bool) :
    (s.tied w).toDebouncer = s.next w.1 := rfl

theorem tied_quiet {s : ScanCodeReader} (h : s.posedge = false) (w : Bool × Bool) :
    (s.tied w).toReceiver = s.toReceiver ∧ (s.tied w).oScanReady = false := by
  simp [tied, step, h]

theorem tied_posedge {s : ScanCodeReader} (h : s.posedge = true) (w : Bool × Bool) :
    (s.tied w).toReceiver = s.receive w.2 ∧ (s.tied w).oScanReady = s.complete := by
  simp [tied, step, h]

theorem scanned_append (s : ScanCodeReader) (vs ws : List (Bool × Bool)) :
    scanned s (vs ++ ws) = scanned s vs ++ scanned (vs.foldl tied s) ws := by
  induction vs generalizing s with
  | nil => rfl
  | cons v vs ih =>
    rw [List.cons_append, scanned, scanned, ih, List.foldl_cons]
    split_ifs <;> rfl

theorem toDebouncer_run {level : Bool} {ws : List (Bool × Bool)} (hws : ∀ w ∈ ws, w.1 = level)
    (s : ScanCodeReader) :
    (ws.foldl tied s).toDebouncer = (fun d => d.next level)^[ws.length] s.toDebouncer := by
  induction ws generalizing s with
  | nil => rfl
  | cons w ws ih =>
    rw [List.foldl_cons, ih fun v hv => hws v (List.mem_cons_of_mem w hv), toDebouncer_tied,
      hws w (List.mem_cons_self ..)]
    rfl

/-- As long as no edge is seen, the receiver keeps what it has. -/
theorem run_quiet {level : Bool} {ws : List (Bool × Bool)} (hws : ∀ w ∈ ws, w.1 = level)
    {s : ScanCodeReader}
    (hquiet : ∀ k < ws.length, ((fun d => d.next level)^[k] s.toDebouncer).posedge = false) :
    (ws.foldl tied s).toReceiver = s.toReceiver ∧ scanned s ws = [] := by
  induction ws generalizing s with
  | nil => exact ⟨rfl, rfl⟩
  | cons w ws ih =>
    obtain ⟨hreceiver, hready⟩ := tied_quiet (hquiet 0 (Nat.succ_pos _)) w
    obtain ⟨hrec, hscan⟩ := ih (fun v hv => hws v (List.mem_cons_of_mem w hv)) (s := s.tied w)
      fun k hk => by
        rw [toDebouncer_tied, hws w (List.mem_cons_self ..)]
        exact hquiet (k + 1) (Nat.succ_lt_succ hk)
    refine ⟨hrec.trans hreceiver, ?_⟩
    rw [scanned, hready]
    exact hscan

theorem fst_of_mem_replicate {n : ℕ} {level dat : Bool} :
    ∀ w ∈ List.replicate n (level, dat), w.1 = level :=
  fun w hw => by rw [List.eq_of_mem_replicate hw]

/-- A low phase of ten edges or more. -/
theorem run_low {s : ScanCodeReader} (hs : s.toDebouncer = .settled true) {n : ℕ} (hn : 10 ≤ n)
    (dat : Bool) :
    let t := (List.replicate n (false, dat)).foldl tied s
    t.toDebouncer = .settled false ∧ t.toReceiver = s.toReceiver ∧
      scanned s (List.replicate n (false, dat)) = [] := by
  refine ⟨?_, run_quiet fst_of_mem_replicate fun k _ => ?_⟩
  · rw [toDebouncer_run fst_of_mem_replicate, hs, List.length_replicate, Debouncer.iterate_low hn]
  · rw [hs]
    exact Debouncer.posedge_low k

/-- Further edges of a high phase. -/
theorem run_high {s : ScanCodeReader} (hs : s.toDebouncer = .settled true) (late : List Bool) :
    let t := (late.map fun dat => (true, dat)).foldl tied s
    t.toDebouncer = .settled true ∧ t.toReceiver = s.toReceiver ∧
      scanned s (late.map fun dat => (true, dat)) = [] := by
  have hws : ∀ w ∈ late.map fun dat => (true, dat), w.1 = true := by
    intro w hw
    obtain ⟨dat, -, rfl⟩ := List.mem_map.mp hw
    rfl
  refine ⟨?_, run_quiet hws fun k _ => ?_⟩
  · rw [toDebouncer_run hws, hs, Debouncer.iterate_settled]
  · rw [hs, Debouncer.iterate_settled, Debouncer.posedge_settled]

/-- The first ten edges of a high phase: the bit is taken at the last of them. -/
theorem run_rise {s : ScanCodeReader} (hs : s.toDebouncer = .settled false) (dat : Bool) :
    let t := (List.replicate 10 (true, dat)).foldl tied s
    t.toDebouncer = .settled true ∧ t.toReceiver = s.receive dat ∧
      scanned s (List.replicate 10 (true, dat)) =
        if s.complete then [(s.receive dat).oScanByte] else [] := by
  have hhigh : ∀ w ∈ List.replicate 9 (true, dat), w.1 = true := fst_of_mem_replicate
  obtain ⟨hrec, hscan⟩ := run_quiet hhigh (s := s) fun k hk => by
    rw [hs]
    exact Debouncer.posedge_high.1 k (by simpa using hk)
  have hdeb := toDebouncer_run hhigh s
  rw [hs, List.length_replicate] at hdeb
  have hedge : ((List.replicate 9 (true, dat)).foldl tied s).posedge = true := by
    rw [hdeb]
    exact Debouncer.posedge_high.2
  obtain ⟨hreceiver, hready⟩ := tied_posedge hedge (true, dat)
  rw [hrec] at hreceiver hready
  rw [List.replicate_succ', List.foldl_append, scanned_append, hscan]
  refine ⟨?_, hreceiver, ?_⟩
  · show ((List.replicate 9 (true, dat)).foldl tied s).toDebouncer.next true = _
    rw [hdeb]
    exact Debouncer.iterate_ten true
  · rw [List.nil_append, scanned, hready, hreceiver, scanned]

/-- A bit moves the receiver on by one. -/
theorem run_bit {s : ScanCodeReader} (hs : s.toDebouncer = .settled true) (b : Ps2Bit) :
    let t := b.wires.foldl tied s
    t.toDebouncer = .settled true ∧ t.toReceiver = s.receive b.value ∧
      scanned s b.wires = if s.complete then [(s.receive b.value).oScanByte] else [] := by
  obtain ⟨hdebLow, hrecLow, hscanLow⟩ := run_low hs b.low_ge b.value
  obtain ⟨hdebRise, hrecRise, hscanRise⟩ := run_rise hdebLow b.value
  obtain ⟨hdebHigh, hrecHigh, hscanHigh⟩ := run_high hdebRise b.late
  rw [hrecLow] at hrecRise hscanRise
  rw [Ps2Bit.wires, List.foldl_append, List.foldl_append, scanned_append, scanned_append,
    List.foldl_append, hscanLow, hscanRise, hscanHigh]
  exact ⟨hdebHigh, hrecHigh.trans hrecRise, by simp⟩

end ScanCodeReader

/-! ### Frames -/

namespace Receiver

/-- The bytes that a row of bits completes. -/
def assembled (r : Receiver) : List Bool → List (BitVec 8)
  | [] => []
  | b :: bs =>
    let r' := r.receive b
    if r.complete then r'.oScanByte :: assembled r' bs else assembled r' bs

theorem assembled_append (r : Receiver) (as bs : List Bool) :
    r.assembled (as ++ bs) = r.assembled as ++ (as.foldl receive r).assembled bs := by
  induction as generalizing r with
  | nil => rfl
  | cons a as ih =>
    rw [List.cons_append, assembled, assembled, ih, List.foldl_cons]
    split_ifs <;> rfl

/-- A bit shifted in at the top. -/
def shifted (x : BitVec 9) (b : Bool) : BitVec 9 := BitVec.ofBool b ++ x.extractLsb' 1 8

theorem getLsbD_shifted (x : BitVec 9) (b : Bool) (i : ℕ) :
    (shifted x b).getLsbD i = if i < 8 then x.getLsbD (i + 1) else decide (i = 8) && b := by
  simp only [shifted, BitVec.getLsbD_append, BitVec.getLsbD_extractLsb', BitVec.getLsbD_ofBool]
  by_cases hi : i < 8
  · simp [hi, Nat.add_comm]
  · simp [hi, show i - 8 = 0 ↔ i = 8 by omega]

/-- Nine bits fill the shift register, the first of them lowest. -/
theorem setWidth_shifted (x : BitVec 9) (byte : BitVec 8) (parity : Bool) :
    (((List.range 8).map byte.getLsbD ++ [parity]).foldl shifted x).setWidth 8 = byte := by
  apply BitVec.eq_of_getLsbD_eq
  intro i hi
  have hrange : List.range 8 = [0, 1, 2, 3, 4, 5, 6, 7] := rfl
  simp only [hrange, List.map_cons, List.map_nil, List.cons_append, List.nil_append,
    List.foldl_cons, List.foldl_nil, BitVec.getLsbD_setWidth, getLsbD_shifted]
  interval_cases i <;> simp

/-- The start bit, when no byte is being read. -/
theorem receive_start {r : Receiver} (h : r.readingChar = false) :
    r.receive false = { r with readingChar := true } := by
  simp [receive, h]

/-- The bits that are shifted in. -/
theorem receive_shift {r : Receiver} (h : r.readingChar = true) {bs : List Bool}
    (hbs : r.bitCntr.toNat + bs.length ≤ 9) :
    bs.foldl receive r = { r with
      bitCntr := r.bitCntr + BitVec.ofNat 4 bs.length
      shiftIn := bs.foldl shifted r.shiftIn } ∧ r.assembled bs = [] := by
  induction bs generalizing r with
  | nil => simp [assembled]
  | cons b bs ih =>
    rw [List.length_cons] at hbs
    have hcntr : ¬ r.bitCntr = 9#4 := by
      intro h9
      rw [h9] at hbs
      exact absurd hbs (by simp)
    have hstep : r.receive b = { r with
        bitCntr := r.bitCntr + 1, shiftIn := shifted r.shiftIn b } := by
      simp [receive, shifted, h, hcntr]
    obtain ⟨hrun, hnone⟩ := ih (r := r.receive b) (by rw [hstep]; exact h) (by
      rw [hstep]
      dsimp only
      bv_omega)
    have hcomplete : r.complete = false := by simp [complete, hcntr]
    rw [List.foldl_cons, hrun, assembled, hcomplete, hnone, hstep]
    refine ⟨?_, rfl⟩
    dsimp only
    rw [List.length_cons, List.foldl_cons,
      show r.bitCntr + 1 + BitVec.ofNat 4 bs.length = r.bitCntr + BitVec.ofNat 4 (bs.length + 1) by
        bv_omega]

/-- A whole frame from the idle receiver. -/
theorem receive_serialise {r : Receiver} (hreading : r.readingChar = false) (hcntr : r.bitCntr = 0)
    (byte : BitVec 8) (parity stop : Bool) :
    let r' := (serialise byte parity stop).foldl receive r
    r'.readingChar = false ∧ r'.bitCntr = 0 ∧
      r.assembled (serialise byte parity stop) = [byte] := by
  let data := (List.range 8).map byte.getLsbD ++ [parity]
  have hserial : serialise byte parity stop = false :: (data ++ [stop]) := by simp [serialise, data]
  have hlength : data.length = 9 := by simp [data]
  have hstart := receive_start hreading
  have hfits : (r.receive false).bitCntr.toNat + data.length ≤ 9 := by
    rw [hstart, hcntr, hlength]
    decide
  obtain ⟨hshift, hnone⟩ := receive_shift (by rw [hstart]) hfits
  rw [hstart, hlength] at hshift
  rw [hstart] at hnone
  have hfirst : r.complete = false := by simp [complete, hreading]
  rw [hserial, List.foldl_cons, List.foldl_append, assembled, hfirst, hstart, assembled_append,
    hnone, hshift, hcntr]
  refine ⟨rfl, rfl, ?_⟩
  rw [← setWidth_shifted r.shiftIn byte parity]
  rfl

end Receiver

namespace ScanCodeReader

/-- The line has been high for a while and no byte is being read. -/
structure Idle (s : ScanCodeReader) : Prop where
  settled : s.toDebouncer = .settled true
  readingChar : s.readingChar = false
  bitCntr : s.bitCntr = 0

/-- A row of bits moves the receiver on by all of them. -/
theorem run_bits {s : ScanCodeReader} (hs : s.toDebouncer = .settled true) (bits : List Ps2Bit) :
    let t := (bits.flatMap Ps2Bit.wires).foldl tied s
    t.toDebouncer = .settled true ∧
      t.toReceiver = (bits.map Ps2Bit.value).foldl Receiver.receive s.toReceiver ∧
      scanned s (bits.flatMap Ps2Bit.wires) = s.assembled (bits.map Ps2Bit.value) := by
  induction bits generalizing s with
  | nil => exact ⟨hs, rfl, rfl⟩
  | cons b bits ih =>
    obtain ⟨hdeb, hrec, hscan⟩ := run_bit hs b
    obtain ⟨hdebs, hrecs, hscans⟩ := ih hdeb
    rw [hrec] at hrecs hscans
    rw [List.flatMap_cons, List.foldl_append, scanned_append, hscan, hscans]
    refine ⟨hdebs, hrecs, ?_⟩
    rw [List.map_cons, Receiver.assembled]
    split_ifs <;> rfl

/-- A frame puts out its byte and leaves the reader idle. -/
theorem Idle.run_frame {s : ScanCodeReader} (hs : s.Idle) (f : Ps2Frame) :
    (f.wires.foldl tied s).Idle ∧ scanned s f.wires = [f.byte] := by
  obtain ⟨hdeb, hrec, hscan⟩ := run_bits hs.settled f.bits
  rw [f.serial] at hrec hscan
  obtain ⟨hreading, hcntr, hbyte⟩ :=
    Receiver.receive_serialise hs.readingChar hs.bitCntr f.byte f.parity f.stop
  rw [← hrec] at hreading hcntr
  exact ⟨⟨hdeb, hreading, hcntr⟩, hscan.trans hbyte⟩

theorem Idle.run_frames {s : ScanCodeReader} (hs : s.Idle) (fs : List Ps2Frame) :
    ((fs.flatMap Ps2Frame.wires).foldl tied s).Idle ∧
      scanned s (fs.flatMap Ps2Frame.wires) = fs.map Ps2Frame.byte := by
  induction fs generalizing s with
  | nil => exact ⟨hs, rfl⟩
  | cons f fs ih =>
    obtain ⟨hidle, hscan⟩ := hs.run_frame f
    obtain ⟨hidles, hscans⟩ := ih hidle
    rw [List.flatMap_cons, List.foldl_append, scanned_append, hscan, hscans]
    exact ⟨hidles, rfl⟩

/-- The line comes to rest in ten edges, from any state. -/
theorem settled_of_high (s : ScanCodeReader) {n : ℕ} (hn : 10 ≤ n) :
    ((List.replicate n (true, true)).foldl tied s).toDebouncer = .settled true := by
  rw [toDebouncer_run fst_of_mem_replicate, List.length_replicate]
  exact Debouncer.iterate_high _ hn

/-! ### Short low pulses -/

/-- After `m` low samples, fewer than eight, the last high one is still in the buffer. -/
theorem run_short {ws : List (Bool × Bool)} {m : ℕ}
    (hws : ¬ List.replicate 8 false <:+: List.replicate m false ++ ws.map Prod.fst)
    {s : ScanCodeReader} (hm : m < 8) (hhigh : s.ps2ClkBuffer.getLsbD (7 - m) = true)
    (hdeb : s.ps2ClkDebounced = true) (hprev : s.ps2ClkDebouncedPrev = true) :
    (ws.foldl tied s).toReceiver = s.toReceiver ∧ scanned s ws = [] := by
  induction ws generalizing s m with
  | nil => exact ⟨rfl, rfl⟩
  | cons w ws ih =>
    obtain ⟨clk, dat⟩ := w
    have hquiet : s.posedge = false := by simp [Debouncer.posedge, hprev]
    obtain ⟨hreceiver, hready⟩ := tied_quiet hquiet (clk, dat)
    have hbuffer : s.ps2ClkBuffer ≠ 0x00 := by
      intro h0
      rw [h0] at hhigh
      simp at hhigh
    have hdeb' : (s.tied (clk, dat)).ps2ClkDebounced = true := by
      show (if s.ps2ClkBuffer = 0xFF then true else if s.ps2ClkBuffer = 0x00 then false
        else s.ps2ClkDebounced) = true
      rw [if_neg hbuffer, hdeb, ite_self]
    rw [List.foldl_cons, scanned, hready, ← hreceiver]
    cases clk with
    | true =>
      refine ih (m := 0) (fun h => hws ?_) (by decide) ?_ hdeb' hdeb
      · refine h.trans (List.IsSuffix.isInfix ⟨List.replicate m false ++ [true], ?_⟩)
        rw [List.append_assoc]
        rfl
      · show (BitVec.ofBool true ++ s.ps2ClkBuffer.extractLsb' 1 7).getLsbD 7 = true
        rw [BitVec.getLsbD_append]
        rfl
    | false =>
      have hlows : List.replicate m false ++ (((false, dat) :: ws).map Prod.fst) =
          List.replicate (m + 1) false ++ ws.map Prod.fst := by
        rw [List.replicate_succ', List.append_assoc]
        rfl
      rw [hlows] at hws
      have hm' : m + 1 < 8 := by
        by_contra h
        rw [show m + 1 = 8 by omega] at hws
        exact hws (List.prefix_append _ _).isInfix
      refine ih hws hm' ?_ hdeb' hdeb
      show (BitVec.ofBool false ++ s.ps2ClkBuffer.extractLsb' 1 7).getLsbD (7 - (m + 1)) = true
      rw [BitVec.getLsbD_append, if_pos (by omega), BitVec.getLsbD_extractLsb',
        show 1 + (7 - (m + 1)) = 7 - m by omega, hhigh, decide_eq_true (by omega)]
      rfl

end ScanCodeReader

/-- **What a keyboard sends is received.** From the idle reader, any frames with any timing that
gives each phase of the clock ten edges come out as their bytes, each for one edge and in order, and
leave the reader idle; and a clock that is never low for eight samples in a row moves no bit. -/
theorem frames_received (s : ScanCodeReader) (n : ℕ) (hn : 10 ≤ n) :
    let idle := (List.replicate n (true, true)).foldl ScanCodeReader.tied s
    idle.readingChar = false → idle.bitCntr = 0 →
      (∀ fs : List Ps2Frame,
        idle.scanned (fs.flatMap Ps2Frame.wires) = fs.map Ps2Frame.byte ∧
          ((fs.flatMap Ps2Frame.wires).foldl ScanCodeReader.tied idle).Idle) ∧
      ∀ ws : List (Bool × Bool), ¬ List.replicate 8 false <:+: ws.map Prod.fst →
        idle.scanned ws = [] ∧
          (ws.foldl ScanCodeReader.tied idle).toReceiver = idle.toReceiver := by
  intro idle hreading hcntr
  have hidle : idle.Idle := ⟨s.settled_of_high hn, hreading, hcntr⟩
  refine ⟨fun fs => (hidle.run_frames fs).symm, fun ws hws => ?_⟩
  have hsettled := hidle.settled
  refine (ScanCodeReader.run_short (m := 0) hws (by decide) ?_ ?_ ?_).symm <;> rw [hsettled] <;> rfl

/-- The frame of the key code `1C`, with phases of ten edges. -/
def frame1C : Ps2Frame where
  byte := 0x1C
  parity := false
  stop := true
  bits := (serialise 0x1C false true).map fun b => ⟨b, 10, [], by decide⟩
  serial := rfl

/-- Two such frames behind each other. -/
theorem frames_received_twice :
    let idle := (List.replicate 10 (true, true)).foldl ScanCodeReader.tied
      ⟨⟨0, false, false⟩, ⟨false, 0, 0, 0⟩, false⟩
    idle.scanned ([frame1C, frame1C].flatMap Ps2Frame.wires) = [0x1C, 0x1C] :=
  ((frames_received ⟨⟨0, false, false⟩, ⟨false, 0, 0, 0⟩, false⟩ 10 (by decide) rfl rfl).1
    [frame1C, frame1C]).1

end DigitalModulation
