import DigitalModulation.Lib.Machine
import DigitalModulation.Keyboard.Controller
import DigitalModulation.Keyboard.MousePos

/-!
# The `HOLDING_…` registers of `top.sv`

Seventeen registers follow the make and break events of their keys. They look at the event type
alone, not at whether an event is ready.

* `HeldKey.scMake`, `HeldKey.scBreak`: the two events of a register;
* `Keyboard.clk25`: one rising edge of `CLK_25MHZ`, at the controller and at the registers;
* `keyboardKeys`: the word the processor reads;
* `held_keys`: the registers show the last event of their keys since the last reset.
-/

namespace DigitalModulation

/-- The registers, in the order of `keyboard_keys`. -/
inductive HeldKey
  | key1 | key2 | key3 | key4 | key5 | key6 | key7 | key8
  | f1 | f2 | n | m | space | leftArrow | rightArrow | upArrow | downArrow
  deriving DecidableEq

namespace HeldKey

/-- The event that sets the register. -/
def scMake : HeldKey → BitVec 8
  | key1 => scMake1
  | key2 => scMake2
  | key3 => scMake3
  | key4 => scMake4
  | key5 => scMake5
  | key6 => scMake6
  | key7 => scMake7
  | key8 => scMake8
  | f1 => scMakeF1
  | f2 => scMakeF2
  | n => scMakeN
  | m => scMakeM
  | space => scMakeSpace
  | leftArrow => scMakeLeftArrow
  | rightArrow => scMakeRightArrow
  | upArrow => scMakeUpArrow
  | downArrow => scMakeDownArrow

/-- The event that clears the register. -/
def scBreak : HeldKey → BitVec 8
  | key1 => scBreak1
  | key2 => scBreak2
  | key3 => scBreak3
  | key4 => scBreak4
  | key5 => scBreak5
  | key6 => scBreak6
  | key7 => scBreak7
  | key8 => scBreak8
  | f1 => scBreakF1
  | f2 => scBreakF2
  | n => scBreakN
  | m => scBreakM
  | space => scBreakSpace
  | leftArrow => scBreakLeftArrow
  | rightArrow => scBreakRightArrow
  | upArrow => scBreakUpArrow
  | downArrow => scBreakDownArrow

theorem scMake_ne_none (k : HeldKey) : k.scMake ≠ scNone := by cases k <;> decide

theorem scBreak_ne_none (k : HeldKey) : k.scBreak ≠ scNone := by cases k <;> decide

theorem scBreak_ne_scMake (k : HeldKey) : k.scBreak ≠ k.scMake := by cases k <;> decide

end HeldKey

/-- `keyboard_keys`. -/
def keyboardKeys (holding : HeldKey → Bool) : BitVec 32 :=
  (BitVec.ofBoolListBE [holding .key1, holding .key2, holding .key3, holding .key4, holding .key5,
    holding .key6, holding .key7, holding .key8, holding .f1, holding .f2, holding .n, holding .m,
    holding .space, holding .leftArrow, holding .rightArrow, holding .upArrow,
    holding .downArrow]).setWidth 32

theorem keyboardKeys_bits (holding : HeldKey → Bool) :
    (keyboardKeys holding).getLsbD 4 = holding .space ∧
      (keyboardKeys holding).getLsbD 3 = holding .leftArrow ∧
      (keyboardKeys holding).getLsbD 2 = holding .rightArrow ∧
      (keyboardKeys holding).getLsbD 1 = holding .upArrow ∧
      (keyboardKeys holding).getLsbD 0 = holding .downArrow := by
  simp only [keyboardKeys, BitVec.getLsbD_setWidth, BitVec.getLsbD_ofBoolListBE]
  refine ⟨rfl, rfl, rfl, rfl, rfl⟩

/-- `kc0` and the registers. -/
structure Keyboard where
  kc0 : KeyboardController
  holding : HeldKey → Bool

/-- What an edge of `CLK_25MHZ` samples. -/
structure KeyTick where
  resetFromKey : Bool
  scan : ScanTick

namespace Keyboard

/-- A rising edge of `CLK_25MHZ`; the registers see the event put out before it. -/
def clk25 (s : Keyboard) (t : KeyTick) : Keyboard where
  kc0 := s.kc0.step t.scan
  holding k :=
    if t.resetFromKey then false
    else if s.kc0.oEventType = k.scMake then true
    else if s.kc0.oEventType = k.scBreak then false
    else s.holding k

/-- All registers low. -/
def powerUp : Keyboard := ⟨KeyboardController.reset, fun _ => false⟩

end Keyboard

/-! ### The event type without the ready flag -/

/-- With no event ready the event type is `SC_NONE`. -/
def KeyboardController.Silent (s : KeyboardController) : Prop :=
  s.oEventReady = false → s.oEventType = scNone

theorem KeyboardController.silent_step (s : KeyboardController) (t : ScanTick) :
    (s.step t).Silent := by
  intro hready
  unfold step at hready ⊢
  by_cases hreset : t.iReset = true
  · simp [hreset, reset, scNone]
  · cases hlookup : PrefixCode.lookup scanCodes s.scanBytes.toList with
    | none =>
      rw [scanCodeToEvent_of_none hlookup] at hready ⊢
      cases hscan : t.scanReady <;> simp [hreset]
    | some e =>
      rw [scanCodeToEvent_of_some hlookup] at hready
      simp [hreset] at hready

/-- So the event type alone tells the event. -/
theorem KeyboardController.Silent.report_eq_some_iff {s : KeyboardController} (hs : s.Silent)
    {e : BitVec 8} (he : e ≠ scNone) : s.report = some e ↔ s.oEventType = e := by
  cases hready : s.oEventReady with
  | true => simp [report, hready]
  | false => simp [report, hready, hs hready, he.symm]

namespace Keyboard

variable (ts : ℕ → KeyTick)

/-- The state after `n` ticks from power-up. -/
def states : ℕ → Keyboard := Machine.run clk25 powerUp ts

/-- The event put out when tick `n` comes. -/
def reports (n : ℕ) : Option (BitVec 8) := (states ts n).kc0.report

theorem silent_states (n : ℕ) : (states ts n).kc0.Silent := by
  cases n with
  | zero => exact fun _ => rfl
  | succ n => exact KeyboardController.silent_step _ _

theorem reports_eq_some_iff {e : BitVec 8} (he : e ≠ scNone) (n : ℕ) :
    reports ts n = some e ↔ (states ts n).kc0.oEventType = e :=
  (silent_states ts n).report_eq_some_iff he

/-- One register at one tick. -/
theorem holding_succ (k : HeldKey) (n : ℕ) :
    (states ts (n + 1)).holding k =
      if (ts n).resetFromKey then false
      else if reports ts n = some k.scMake then true
      else if reports ts n = some k.scBreak then false
      else (states ts n).holding k := by
  simp only [reports_eq_some_iff ts k.scMake_ne_none, reports_eq_some_iff ts k.scBreak_ne_none]
  rfl

/-- A register is the latch of its two events and the reset. -/
theorem holding_iff (k : HeldKey) (n : ℕ) :
    (states ts n).holding k = true ↔
      ∃ i, i < n ∧ ((ts i).resetFromKey = false ∧ reports ts i = some k.scMake) ∧
        ∀ j, i < j → j < n →
          ¬ ((ts j).resetFromKey = false ∧ reports ts j = some k.scMake) ∧
          ¬ ((ts j).resetFromKey = true ∨ reports ts j = some k.scBreak) := by
  refine Machine.latch (q := fun n => (states ts n).holding k) rfl ?_ ?_ ?_ n
  · rintro i ⟨hreset, hmake⟩
    simp [holding_succ, hreset, hmake]
  · rintro i (hreset | hbreak)
    · simp [holding_succ, hreset]
    · simp [holding_succ, hbreak, k.scBreak_ne_scMake]
  · intro i hset hclear
    rw [not_or, Bool.not_eq_true] at hclear
    have hmake : reports ts i ≠ some k.scMake := fun h => hset ⟨hclear.1, h⟩
    simp [holding_succ, hclear.1, hclear.2, hmake]

/-- The controller within the whole. -/
theorem kc0_states (n : ℕ) :
    (states ts n).kc0 =
      ((List.range n).map fun i => (ts i).scan).foldl KeyboardController.step powerUp.kc0 := by
  induction n with
  | zero => rfl
  | succ n ih =>
    rw [List.range_succ, List.map_append, List.foldl_append, ← ih]
    rfl

/-- What comes to the registers within `n + 1` ticks is what the controller puts out over the first
`n`. -/
theorem filterMap_reports (n : ℕ) :
    (List.range (n + 1)).filterMap (reports ts) =
      powerUp.kc0.reported ((List.range n).map fun i => (ts i).scan) := by
  induction n with
  | zero => rfl
  | succ n ih =>
    rw [List.range_succ, List.filterMap_append, ih, List.range_succ, List.map_append,
      KeyboardController.reported_append, ← kc0_states]
    simp only [List.map_cons, List.map_nil, KeyboardController.reported, List.append_nil,
      List.filterMap_cons, List.filterMap_nil]
    congr 1

end Keyboard

/-- **Held keys.** From power-up, for every pattern of resets: the events that come to the registers
are those of the scan codes sent; a register is high iff the last of its two events that came
without a reset came after the last reset and is a make; events of other codes leave it; and the low
five bits of the word read are the space bar, which `mouse_pos` takes as the click, and the arrows.
-/
theorem held_keys (ts : ℕ → KeyTick) :
    (∀ (codes : List (List (BitVec 8) × BitVec 8)) (N : ℕ), (∀ c ∈ codes, c ∈ scanCodes) →
      Paced false ((List.range N).map fun i => (ts i).scan) →
      bytes ((List.range N).map fun i => (ts i).scan) = codes.flatMap Prod.fst →
      (ts N).scan.Idle →
      (List.range (N + 2)).filterMap (Keyboard.reports ts) = codes.map Prod.snd) ∧
    (∀ n k, (Keyboard.states ts n).holding k = true ↔
      ∃ i, i < n ∧ ((ts i).resetFromKey = false ∧ Keyboard.reports ts i = some k.scMake) ∧
        ∀ j, i < j → j < n →
          ¬ ((ts j).resetFromKey = false ∧ Keyboard.reports ts j = some k.scMake) ∧
          ¬ ((ts j).resetFromKey = true ∨ Keyboard.reports ts j = some k.scBreak)) ∧
    (∀ (n : ℕ) (k : HeldKey), ∀ c ∈ scanCodes, (ts n).resetFromKey = false →
      Keyboard.reports ts n = some c.2 → c.2 ≠ k.scMake → c.2 ≠ k.scBreak →
      (Keyboard.states ts (n + 1)).holding k = (Keyboard.states ts n).holding k) ∧
    (∀ c ∈ scanCodes, ∀ d ∈ scanCodes, c.2 = d.2 → c = d) ∧
    (∀ n m pos, let holding := (Keyboard.states ts n).holding
      let word := keyboardKeys holding
      word.getLsbD 4 = holding .space ∧ word.getLsbD 3 = holding .leftArrow ∧
      word.getLsbD 2 = holding .rightArrow ∧ word.getLsbD 1 = holding .upArrow ∧
      word.getLsbD 0 = holding .downArrow ∧
      ((mousePos m pos word).event = 1 ↔ holding .space = true)) := by
  refine ⟨fun codes N hcodes hpaced hbytes hidle => ?_, fun n k => Keyboard.holding_iff ts k n,
    fun n k c _ hreset hc hmake hbreak => ?_, fun c hc d hd => scanCodes_events_inj hc hd,
    fun n m pos => ?_⟩
  · obtain ⟨hreported, -⟩ := KeyboardController.reported_of_cleared
      (s := Keyboard.powerUp.kc0) (by decide) hpaced hidle
    rw [Keyboard.filterMap_reports, List.range_succ, List.map_append]
    refine hreported.trans ?_
    rw [hbytes]
    exact (scanCode.events_words hcodes).1
  · rw [Keyboard.holding_succ, hc]
    simp [hreset, hmake, hbreak]
  · intro holding word
    obtain ⟨h4, h3, h2, h1, h0⟩ := keyboardKeys_bits holding
    refine ⟨h4, h3, h2, h1, h0, ?_⟩
    rw [mousePos_down_iff, h4]

/-- The space bar, pressed during a reset of the registers. -/
theorem held_keys_space :
    let ts : ℕ → KeyTick := fun n => ⟨n = 2, ⟨false, n = 0, 0x29⟩⟩
    (List.range (1 + 2)).filterMap (Keyboard.reports ts) = [scMakeSpace] :=
  (held_keys fun n => ⟨n = 2, ⟨false, n = 0, 0x29⟩⟩).1 [([0x29], scMakeSpace)] 1
    (by decide +kernel) (by decide) (by decide) (by decide)

end DigitalModulation
