import DigitalModulation.Keyboard.Holding
import DigitalModulation.Keyboard.ScanCodeReader

/-!
# The keyboard as a whole

`PS2_ScanCodeReader` is a part of `Keyboard_Controller`, and both work on `CLK_25MHZ`, like the
registers of `top.sv`. What a keyboard sends on its two wires comes to the registers.

* `Ps2Keyboard.clk25`: one rising edge of `CLK_25MHZ` at all of them;
* `scanTicks`: what the reader shows to the rest, of which `paced_scanTicks` and `bytes_scanTicks`
  tell that it keeps its distance and loses no byte;
* `pressed`: the keys that are held after some scan codes;
* `keys_from_wires`: these are the keys whose registers are high.
-/

namespace DigitalModulation

/-- `kc0` with its `PS2_SCR`, and the registers. -/
structure Ps2Keyboard where
  ps2Scr : ScanCodeReader
  keyboard : Keyboard

namespace Ps2Keyboard

/-- A rising edge of `CLK_25MHZ` without a reset, which samples the clock and the data wire. -/
def clk25 (s : Ps2Keyboard) (w : Bool × Bool) : Ps2Keyboard where
  ps2Scr := s.ps2Scr.tied w
  keyboard := s.keyboard.clk25 ⟨false, false, s.ps2Scr.oScanReady, s.ps2Scr.oScanByte⟩

/-- All registers zero. -/
def powerUp : Ps2Keyboard := ⟨⟨⟨0, false, false⟩, ⟨false, 0, 0, 0⟩, false⟩, Keyboard.powerUp⟩

end Ps2Keyboard

/-! ### What the reader shows to the controller -/

namespace ScanCodeReader

/-- The outputs of the reader before each edge. -/
def scanTicks (s : ScanCodeReader) : List (Bool × Bool) → List ScanTick
  | [] => []
  | w :: ws => ⟨false, s.oScanReady, s.oScanByte⟩ :: scanTicks (s.tied w) ws

theorem scanTicks_append (s : ScanCodeReader) (vs ws : List (Bool × Bool)) :
    s.scanTicks (vs ++ ws) = s.scanTicks vs ++ (vs.foldl tied s).scanTicks ws := by
  induction vs generalizing s with
  | nil => rfl
  | cons v vs ih => exact congrArg _ (ih (s.tied v))

/-- After a byte has come there is no edge of the keyboard clock. -/
def Spaced (s : ScanCodeReader) : Prop := s.oScanReady = true → s.posedge = false

theorem spaced_tied (s : ScanCodeReader) (w : Bool × Bool) : (s.tied w).Spaced := by
  intro hready
  cases hedge : s.posedge with
  | false => rw [(tied_quiet hedge w).2] at hready; cases hready
  | true =>
    have hdebounced : s.ps2ClkDebounced = true := by
      unfold Debouncer.posedge at hedge
      exact (Bool.and_eq_true_iff.mp hedge).1
    unfold Debouncer.posedge
    rw [toDebouncer_tied]
    simp [Debouncer.next, hdebounced]

/-- **Two bytes never come in successive ticks**, whatever is on the wires. -/
theorem paced_scanTicks {s : ScanCodeReader} (hs : s.Spaced) {busy : Bool}
    (hbusy : busy = true → s.oScanReady = false) (ws : List (Bool × Bool)) :
    Paced busy (s.scanTicks ws) := by
  induction ws generalizing s busy with
  | nil => trivial
  | cons w ws ih =>
    exact ⟨rfl, hbusy, ih (s.spaced_tied w) fun hready => (tied_quiet (hs hready) w).2⟩

/-- **No byte is lost on the way**: the controller is shown those that are put out, one tick
later. -/
theorem bytes_scanTicks (s : ScanCodeReader) (ws : List (Bool × Bool)) (w : Bool × Bool) :
    bytes (s.scanTicks (ws ++ [w])) =
      (if s.oScanReady then [s.oScanByte] else []) ++ s.scanned ws := by
  induction ws generalizing s with
  | nil =>
    cases hready : s.oScanReady with
    | false => exact bytes_cons_idle hready []
    | true => exact bytes_cons_ready hready []
  | cons v ws ih =>
    have hrest : bytes ((s.tied v).scanTicks (ws ++ [w])) = s.scanned (v :: ws) := by
      rw [ih, scanned]
      split_ifs <;> rfl
    cases hready : s.oScanReady with
    | false => exact (bytes_cons_idle hready _).trans hrest
    | true => exact (bytes_cons_ready hready _).trans (congrArg _ hrest)

/-- No byte is being read. -/
def Waits (s : ScanCodeReader) : Prop := s.readingChar = false ∧ s.bitCntr = 0

/-- Wires that are high begin no byte. -/
theorem Waits.tied_high {s : ScanCodeReader} (hs : s.Waits) :
    (s.tied (true, true)).Waits ∧ (s.tied (true, true)).oScanReady = false := by
  obtain ⟨hreading, hcntr⟩ := hs
  have hreceive : s.receive true = s.toReceiver := by
    simp [Receiver.receive, hreading]
  have hcomplete : s.complete = false := by
    simp [Receiver.complete, hreading]
  cases hedge : s.posedge with
  | false =>
    obtain ⟨hrec, hready⟩ := tied_quiet hedge (true, true)
    exact ⟨⟨hrec ▸ hreading, hrec ▸ hcntr⟩, hready⟩
  | true =>
    obtain ⟨hrec, hready⟩ := tied_posedge hedge (true, true)
    rw [hreceive] at hrec
    exact ⟨⟨hrec ▸ hreading, hrec ▸ hcntr⟩, hready.trans hcomplete⟩

theorem Waits.run_high {s : ScanCodeReader} (hs : s.Waits) (n : ℕ) :
    let ws := List.replicate n (true, true)
    s.scanned ws = [] ∧ (ws.foldl tied s).Waits := by
  induction n generalizing s with
  | zero => exact ⟨rfl, hs⟩
  | succ n ih =>
    obtain ⟨hwaits, hready⟩ := hs.tied_high
    obtain ⟨hscan, hrun⟩ := ih hwaits
    refine ⟨?_, hrun⟩
    rw [List.replicate_succ, scanned, hready, if_neg Bool.false_ne_true]
    exact hscan

/-- A row of frames between times at which the wires are high. -/
theorem Waits.run_frames {s : ScanCodeReader} (hs : s.Waits) {n : ℕ} (hn : 10 ≤ n)
    (fs : List Ps2Frame) (m : ℕ) :
    let ws := List.replicate n (true, true) ++ fs.flatMap Ps2Frame.wires ++
      List.replicate m (true, true)
    s.scanned ws = fs.map Ps2Frame.byte ∧ (ws.foldl tied s).Waits := by
  intro ws
  obtain ⟨hscan, hwaits⟩ := hs.run_high n
  have hidle : ((List.replicate n (true, true)).foldl tied s).Idle :=
    ⟨s.settled_of_high hn, hwaits.1, hwaits.2⟩
  obtain ⟨hidle', hframes⟩ := hidle.run_frames fs
  obtain ⟨hscan', hwaits'⟩ := Waits.run_high ⟨hidle'.readingChar, hidle'.bitCntr⟩ m
  constructor
  · rw [scanned_append, scanned_append, hscan, hframes, List.foldl_append, hscan',
      List.nil_append, List.append_nil]
  · rw [List.foldl_append, List.foldl_append]
    exact hwaits'

end ScanCodeReader

/-! ### What the registers make of the events -/

/-- The register of a key after an event. -/
def HeldKey.press (k : HeldKey) (held : Bool) (e : BitVec 8) : Bool :=
  if e = k.scMake then true else if e = k.scBreak then false else held

/-- The key is held after some scan codes: the last one of it was a make. -/
def pressed (codes : List (List (BitVec 8) × BitVec 8)) (k : HeldKey) : Bool :=
  (codes.map Prod.snd).foldl k.press false

namespace Keyboard

/-- An edge without a reset takes the event that was put out before. -/
theorem holding_clk25 {s : Keyboard} (hs : s.kc0.Silent) (t : ScanTick) (k : HeldKey) :
    (s.clk25 ⟨false, t⟩).holding k = s.kc0.report.toList.foldl k.press (s.holding k) := by
  have hclk : (s.clk25 ⟨false, t⟩).holding k = k.press (s.holding k) s.kc0.oEventType := rfl
  rw [hclk]
  unfold KeyboardController.report
  cases hready : s.kc0.oEventReady with
  | false =>
    rw [hs hready, HeldKey.press, if_neg k.scMake_ne_none.symm, if_neg k.scBreak_ne_none.symm]
    rfl
  | true => rfl

/-- **The registers take the events one after another.** -/
theorem holding_foldl {s : Keyboard} (hs : s.kc0.Silent) (ts : List ScanTick) (t : ScanTick)
    (k : HeldKey) :
    ((ts ++ [t]).foldl (fun s t => s.clk25 ⟨false, t⟩) s).holding k =
      (s.kc0.report.toList ++ s.kc0.reported ts).foldl k.press (s.holding k) := by
  induction ts generalizing s with
  | nil => simpa [KeyboardController.reported] using holding_clk25 hs t k
  | cons t' ts ih =>
    rw [List.cons_append, List.foldl_cons, ih (s.kc0.silent_step t'), holding_clk25 hs,
      ← List.foldl_append]
    rfl

end Keyboard

/-! ### From the wires to the registers -/

namespace Ps2Keyboard

/-- The two parts of a run. -/
theorem foldl_clk25 (s : Ps2Keyboard) (ws : List (Bool × Bool)) :
    ws.foldl clk25 s = ⟨ws.foldl ScanCodeReader.tied s.ps2Scr,
      (s.ps2Scr.scanTicks ws).foldl (fun s t => s.clk25 ⟨false, t⟩) s.keyboard⟩ := by
  induction ws generalizing s with
  | nil => rfl
  | cons w ws ih =>
    rw [List.foldl_cons, ih]
    rfl

end Ps2Keyboard

/-- **Held keys, from the wires.** Let a keyboard send the scan codes of any list of presses and
releases, bit by bit with any timing that gives each phase of its clock ten edges, after the wires
have been high for ten edges and before they are for three. Then the registers that are high are
those of the keys held, and `mouse_pos` reports a click iff one of them is the space bar. -/
theorem keys_from_wires (codes : List (List (BitVec 8) × BitVec 8))
    (hcodes : ∀ c ∈ codes, c ∈ scanCodes) (fs : List Ps2Frame)
    (hfs : fs.map Ps2Frame.byte = codes.flatMap Prod.fst) {n m : ℕ} (hn : 10 ≤ n) (hm : 3 ≤ m) :
    let ws := List.replicate n (true, true) ++ fs.flatMap Ps2Frame.wires ++
      List.replicate m (true, true)
    let holding := (ws.foldl Ps2Keyboard.clk25 Ps2Keyboard.powerUp).keyboard.holding
    holding = pressed codes ∧
      ∀ statics pos, (mousePos statics pos (keyboardKeys holding)).event = 1 ↔
        pressed codes .space = true := by
  intro ws holding
  have hwaits : Ps2Keyboard.powerUp.ps2Scr.Waits := ⟨rfl, rfl⟩
  have hholding : holding = pressed codes := by
    funext k
    obtain ⟨m, rfl⟩ := Nat.exists_eq_add_of_le' hm
    obtain ⟨hscan, hwaits'⟩ := hwaits.run_frames hn fs m
    generalize hvs : List.replicate n (true, true) ++ fs.flatMap Ps2Frame.wires ++
      List.replicate m (true, true) = vs at hscan hwaits'
    have hsplit : ws = vs ++ [(true, true)] ++ [(true, true)] ++ [(true, true)] := by
      rw [← hvs]
      simp [ws, List.replicate_succ']
    have hbytes : bytes (Ps2Keyboard.powerUp.ps2Scr.scanTicks (vs ++ [(true, true)])) =
        codes.flatMap Prod.fst :=
      (ScanCodeReader.bytes_scanTicks _ vs _).trans (hscan.trans hfs)
    have hpaced : Paced false (Ps2Keyboard.powerUp.ps2Scr.scanTicks (vs ++ [(true, true)])) :=
      ScanCodeReader.paced_scanTicks (fun h => absurd h (by decide)) (by simp) _
    -- The tick after the last byte is idle, and one more brings the last event to the registers.
    set r := (vs ++ [(true, true)]).foldl ScanCodeReader.tied Ps2Keyboard.powerUp.ps2Scr with hr
    have hidle : (⟨false, r.oScanReady, r.oScanByte⟩ : ScanTick).Idle := by
      refine ⟨rfl, ?_⟩
      rw [hr, List.foldl_append]
      exact hwaits'.tied_high.2
    have hcleared : Keyboard.powerUp.kc0.Cleared := by decide
    have hreported := (KeyboardController.reported_of_cleared hcleared hpaced hidle).1
    rw [hbytes, (scanCode.events_words hcodes).1] at hreported
    have hsilent : Keyboard.powerUp.kc0.Silent := fun _ => rfl
    show (ws.foldl Ps2Keyboard.clk25 Ps2Keyboard.powerUp).keyboard.holding k = _
    rw [Ps2Keyboard.foldl_clk25, hsplit, ScanCodeReader.scanTicks_append,
      ScanCodeReader.scanTicks_append]
    refine (Keyboard.holding_foldl hsilent _ _ k).trans ?_
    exact congrArg (List.foldl k.press false) hreported
  refine ⟨hholding, fun statics pos => ?_⟩
  rw [mousePos_down_iff, (keyboardKeys_bits holding).1, hholding]

/-- The frame of the key code `29`, with low phases of twelve edges. -/
def frame29 : Ps2Frame where
  byte := 0x29
  parity := false
  stop := true
  bits := (serialise 0x29 false true).map fun b => ⟨b, 12, [], by decide⟩
  serial := rfl

theorem keys_from_wires_space :
    ((List.replicate 10 (true, true) ++ [frame29].flatMap Ps2Frame.wires ++
      List.replicate 3 (true, true)).foldl Ps2Keyboard.clk25
        Ps2Keyboard.powerUp).keyboard.holding = pressed [([0x29], scMakeSpace)] :=
  (keys_from_wires [([0x29], scMakeSpace)] (by decide +kernel) [frame29] rfl (by decide)
    (by decide)).1

end DigitalModulation
