import DigitalModulation.Desktop.Transport
import Mathlib.Tactic.IntervalCases
import Mathlib.Tactic.Ring

/-!
# The slower and faster buttons: `freq_reader` and the divider of the audio clock

A click on slower or faster moves `freq_reader` by `FREQ_READER_INCREMENT`, clamps it, and writes
the divider anew. The divider is a quotient without its remainder: the higher the frequency, the
closer the quotients of neighbouring frequencies.

* `Speed`: a setting of the control and its divider, and what a click does to it;
* `div_add_lt_div`: when a larger divisor gives a smaller quotient;
* `Desktop.At`: the variable and the register in one setting, through every turn of the loop;
* `Desktop.Tuned`: the range of the variable and of the register;
* `Desktop.Opposes`, `Desktop.Responds`: the divider moves against the frequency, always or as far
  as the quotients tell the frequencies apart;
* `speed_control`: what holds after any clicks.
-/

namespace DigitalModulation

/-! ### The settings -/

inductive SpeedClick
  | slower | faster
  deriving DecidableEq

/-- A setting of the control, in hundreds of hertz. -/
structure Speed where
  hundreds : ℕ
  pos : 0 < hundreds
  le : hundreds ≤ 880

namespace Speed

def nominal : Speed := ⟨440, by decide, by decide⟩

/-- A click moves by one and stays within the bounds. -/
def press (s : Speed) : SpeedClick → Speed
  | .slower => ⟨max 1 (s.hundreds - 1), by omega, by have := s.le; omega⟩
  | .faster => ⟨min 880 (s.hundreds + 1), by omega, by omega⟩

def freq (s : Speed) : ℤ := 100 * s.hundreds

def divider (s : Speed) : ℕ := 250000 / s.hundreds - 1

end Speed

/-! ### Whole quotients -/

/-- A divisor larger by `d` gives a smaller quotient if the two quotients are one apart. -/
theorem div_add_lt_div {n a d : ℕ} (ha : 0 < a) (h : a * (a + d) ≤ n * d) :
    n / (a + d) < n / a := by
  have hq : n / (a + d) * (a + d) ≤ n := Nat.div_mul_le_self n (a + d)
  rw [Nat.lt_iff_add_one_le, Nat.le_div_iff_mul_le ha]
  refine Nat.le_of_mul_le_mul_right ?_ (show 0 < a + d by omega)
  calc (n / (a + d) + 1) * a * (a + d)
      = n / (a + d) * (a + d) * a + a * (a + d) := by ring
    _ ≤ n * a + n * d := Nat.add_le_add (Nat.mul_le_mul_right a hq) h
    _ = n * (a + d) := by ring

/-- Up to 52200 Hz a step of 100 Hz is enough. -/
theorem quotient_step {k : ℕ} (hpos : 0 < k) (hk : k < 522) : 250000 / (k + 1) < 250000 / k := by
  by_cases hlow : k < 500
  · refine div_add_lt_div hpos ?_
    calc k * (k + 1) ≤ 499 * 500 := Nat.mul_le_mul (by omega) (by omega)
      _ ≤ 250000 * 1 := by decide
  · -- The quotients are less than one apart, but a whole number lies between them.
    interval_cases k <;> decide

/-- Up to 88000 Hz a step of 300 Hz is enough. -/
theorem quotient_three {k : ℕ} (hpos : 0 < k) (hk : k + 3 ≤ 880) :
    250000 / (k + 3) < 250000 / k := by
  by_cases hlow : k < 865
  · refine div_add_lt_div hpos ?_
    calc k * (k + 3) ≤ 864 * 867 := Nat.mul_le_mul (by omega) (by omega)
      _ ≤ 250000 * 3 := by decide
  · have htop : k < 878 := by omega
    interval_cases k <;> decide

namespace Speed

theorem quotient_bounds (s : Speed) : 284 ≤ 250000 / s.hundreds ∧ 250000 / s.hundreds ≤ 250000 := by
  have hle := s.le
  constructor
  · rw [Nat.le_div_iff_mul_le s.pos]
    omega
  · exact Nat.div_le_self 250000 s.hundreds

theorem divider_le {s t : Speed} (h : s.hundreds ≤ t.hundreds) : t.divider ≤ s.divider :=
  Nat.sub_le_sub_right (Nat.div_le_div_left h s.pos) 1

/-- Two settings that the quotients tell apart. -/
def Apart (s t : Speed) : Prop :=
  s.hundreds < t.hundreds ∧ (t.hundreds ≤ 522 ∨ s.hundreds + 3 ≤ t.hundreds)

theorem Apart.divider_lt {s t : Speed} (h : s.Apart t) : t.divider < s.divider := by
  have hquot : 250000 / t.hundreds < 250000 / s.hundreds := by
    obtain ⟨hlt, hlow | hfar⟩ := h
    · calc 250000 / t.hundreds ≤ 250000 / (s.hundreds + 1) := Nat.div_le_div_left hlt (by omega)
        _ < 250000 / s.hundreds := quotient_step s.pos (by omega)
    · have hle := t.le
      calc 250000 / t.hundreds ≤ 250000 / (s.hundreds + 3) := Nat.div_le_div_left hfar (by omega)
        _ < 250000 / s.hundreds := quotient_three s.pos (by omega)
  have hbound := t.quotient_bounds
  unfold divider
  omega

end Speed

/-! ### The desktop in a setting -/

/-- The variable and the register are those of the setting. -/
structure Desktop.At (d : Desktop) (s : Speed) : Prop where
  freqReader : d.freqReader = s.freq
  audioDataFregen : d.audioDataFregen = BitVec.ofNat 32 s.divider

theorem Desktop.setAudioFrequency_at {d : Desktop} {s : Speed} (h : d.freqReader = s.freq) :
    d.setAudioFrequency.At s := by
  have hbound := s.quotient_bounds
  have hquot : (50000000 : ℤ).tdiv (2 * s.freq) = ((250000 / s.hundreds : ℕ) : ℤ) := by
    rw [Int.tdiv_eq_ediv_of_nonneg (by decide), Speed.freq,
      show (50000000 : ℤ) = 200 * 250000 by decide,
      show 2 * (100 * (s.hundreds : ℤ)) = 200 * s.hundreds by ring,
      Int.mul_ediv_mul_of_pos _ _ (by decide)]
    rfl
  have hdivider : (50000000 : ℤ).tdiv (2 * s.freq) - 1 = (s.divider : ℤ) := by
    rw [hquot, Speed.divider]
    omega
  refine ⟨h, ?_⟩
  simp only [setAudioFrequency, h, hdivider, BitVec.ofInt_natCast]

/-- What a statement does to the setting. -/
def Stmt.speed : Stmt → Option SpeedClick
  | .slower => some .slower
  | .faster => some .faster
  | _ => none

theorem Desktop.At.exec {d : Desktop} {s : Speed} (h : d.At s) (st : Stmt) :
    (d.exec st).At (st.speed.elim s s.press) := by
  cases st with
  | slower =>
    refine Desktop.setAudioFrequency_at ?_
    have hpos := s.pos
    simp only [h.freqReader, Stmt.speed, Option.elim_some, Speed.press, Speed.freq,
      freqReaderIncrement]
    split_ifs <;> omega
  | faster =>
    refine Desktop.setAudioFrequency_at ?_
    have hle := s.le
    simp only [h.freqReader, Stmt.speed, Option.elim_some, Speed.press, Speed.freq,
      freqReaderIncrement, freqReaderMax, freqReaderNominal]
    split_ifs <;> omega
  | nextSong => simp only [Desktop.exec]; split <;> exact ⟨h.1, h.2⟩
  | previousSong => simp only [Desktop.exec]; split <;> exact ⟨h.1, h.2⟩
  | _ => exact ⟨h.1, h.2⟩

theorem Desktop.At.foldl {d : Desktop} {s : Speed} (h : d.At s) (stmts : List Stmt) :
    (stmts.foldl Desktop.exec d).At ((stmts.filterMap Stmt.speed).foldl Speed.press s) :=
  Machine.foldl_sim (R := Desktop.At) (fun _ _ st h => h.exec st) h stmts

/-! ### The clicks -/

/-- What a button does to the setting. -/
def TransportButton.speed : TransportButton → Option SpeedClick
  | .slower => some .slower
  | .faster => some .faster
  | _ => none

/-- What a turn of the loop does to the setting. -/
def MouseEvent.speed (e : MouseEvent) : Option SpeedClick :=
  (TransportButton.pressed e).bind TransportButton.speed

theorem TransportButton.speed_stmts (b : TransportButton) :
    b.stmts.filterMap Stmt.speed = b.speed.toList := by
  cases b <;> rfl

/-- Only the branches of slower and faster hold a statement that changes the setting. -/
theorem speed_clickStmts (x y : ℤ) :
    (clickStmts x y).filterMap Stmt.speed =
      ((TransportButton.clicked x y).bind TransportButton.speed).toList := by
  have hmodulation : (modulationClick x y).filterMap Stmt.speed = [] := by
    unfold modulationClick
    split_ifs <;> rfl
  have hsignal : (signalClick x y).filterMap Stmt.speed = [] := by
    unfold signalClick
    split_ifs <;> rfl
  have hcolour : (colourClick x y).filterMap Stmt.speed = [] := by
    unfold colourClick
    split_ifs <;> rfl
  rw [clickStmts, List.filterMap_append, List.filterMap_append, hmodulation, hsignal,
    transportClick_eq]
  cases TransportButton.clicked x y with
  | none => exact hcolour
  | some b => exact b.speed_stmts

theorem Desktop.At.task2 {d : Desktop} {s : Speed} (h : d.At s) (e : MouseEvent) :
    (d.task2 e).At (e.speed.elim s s.press) := by
  unfold Desktop.task2 MouseEvent.speed TransportButton.pressed
  split_ifs
  · have hclick := h.foldl (clickStmts e.xMouse e.yMouse)
    rw [speed_clickStmts] at hclick
    cases hb : (TransportButton.clicked e.xMouse e.yMouse).bind TransportButton.speed with
    | none => simpa [hb] using hclick
    | some c => simpa [hb] using hclick
  · exact h

/-- Any turns of the loop keep the variable and the register in one setting. -/
theorem Desktop.At.turns {d : Desktop} {s : Speed} (h : d.At s) (es : List MouseEvent) :
    (es.foldl Desktop.task2 d).At ((es.filterMap MouseEvent.speed).foldl Speed.press s) :=
  Machine.foldl_sim (R := Desktop.At) (fun _ _ e h => h.task2 e) h es

/-! ### The response -/

namespace Desktop

/-- The desktop that the clicks find: `task1` first writes the divider of `freq_reader`. -/
def playing : Desktop := boot.setAudioFrequency

theorem playing_at : playing.At Speed.nominal := setAudioFrequency_at (by decide +kernel)

/-- The divider written last. -/
def divider (d : Desktop) : ℕ := d.audioDataFregen.toNat

theorem At.divider_eq {d : Desktop} {s : Speed} (h : d.At s) : d.divider = s.divider := by
  have hbound := s.quotient_bounds
  rw [divider, h.audioDataFregen, BitVec.toNat_ofNat, Nat.mod_eq_of_lt]
  unfold Speed.divider
  omega

/-- The range of `freq_reader`, what it is divided into, and the range of the register. -/
structure Tuned (d : Desktop) : Prop where
  dvd : freqReaderIncrement ∣ d.freqReader
  ge : freqReaderIncrement ≤ d.freqReader
  le : d.freqReader ≤ freqReaderMax
  divisor_ne : 2 * d.freqReader ≠ 0
  divider_eq : (d.divider : ℤ) = 25000000 / d.freqReader - 1
  divider_ge : 283 ≤ d.divider
  divider_le : d.divider ≤ 249999

theorem At.tuned {d : Desktop} {s : Speed} (h : d.At s) : d.Tuned := by
  have hpos := s.pos
  have hle := s.le
  have hbound := s.quotient_bounds
  have hfreq : d.freqReader = 100 * (s.hundreds : ℤ) := h.freqReader
  have hdivider : d.divider = 250000 / s.hundreds - 1 := h.divider_eq
  have hquot : (25000000 : ℤ) / (100 * s.hundreds) = ((250000 / s.hundreds : ℕ) : ℤ) := by
    rw [show (25000000 : ℤ) = 100 * 250000 by decide, Int.mul_ediv_mul_of_pos _ _ (by decide)]
    rfl
  constructor
  case dvd => exact hfreq ▸ Dvd.intro _ rfl
  case divider_eq =>
    rw [hfreq, hquot, hdivider]
    omega
  case ge =>
    unfold freqReaderIncrement
    omega
  case le =>
    unfold freqReaderMax freqReaderNominal
    omega
  all_goals omega

/-- From `d` to `d'` the divider moves against the frequency. -/
def Opposes (d d' : Desktop) : Prop :=
  (d.freqReader < d'.freqReader → d'.divider < d.divider) ∧
    (d'.freqReader < d.freqReader → d.divider < d'.divider)

/-- From `d` to `d'` the divider never moves with the frequency; it moves against it up to 52200 Hz,
and over 300 Hz or more. -/
structure Responds (d d' : Desktop) : Prop where
  le_of_lt : d.freqReader < d'.freqReader → d'.divider ≤ d.divider
  ge_of_gt : d'.freqReader < d.freqReader → d.divider ≤ d'.divider
  low : d.freqReader ≤ 52200 → d'.freqReader ≤ 52200 → d.Opposes d'
  far : 300 ≤ |d'.freqReader - d.freqReader| → d.Opposes d'

theorem At.responds {d d' : Desktop} {s s' : Speed} (h : d.At s) (h' : d'.At s') :
    d.Responds d' := by
  have hfreq : d.freqReader = 100 * (s.hundreds : ℤ) := h.freqReader
  have hfreq' : d'.freqReader = 100 * (s'.hundreds : ℤ) := h'.freqReader
  have hopposes (hup : s.hundreds < s'.hundreds → s.Apart s')
      (hdown : s'.hundreds < s.hundreds → s'.Apart s) : d.Opposes d' := by
    rw [Opposes, h.divider_eq, h'.divider_eq]
    exact ⟨fun hlt => (hup (by omega)).divider_lt, fun hlt => (hdown (by omega)).divider_lt⟩
  constructor
  case le_of_lt =>
    intro hlt
    rw [h.divider_eq, h'.divider_eq]
    exact Speed.divider_le (by omega)
  case ge_of_gt =>
    intro hlt
    rw [h.divider_eq, h'.divider_eq]
    exact Speed.divider_le (by omega)
  case low =>
    intro hlow hlow'
    exact hopposes (fun hlt => ⟨hlt, .inl (by omega)⟩) fun hlt => ⟨hlt, .inl (by omega)⟩
  case far =>
    intro hfar
    rw [le_abs] at hfar
    exact hopposes (fun hlt => ⟨hlt, .inr (by omega)⟩) fun hlt => ⟨hlt, .inr (by omega)⟩

end Desktop

/-- Where a click moves the frequency. -/
def SpeedClick.move : SpeedClick → ℤ → ℤ
  | .slower, freq => max freqReaderIncrement (freq - freqReaderIncrement)
  | .faster, freq => min freqReaderMax (freq + freqReaderIncrement)

theorem Desktop.At.freqReader_task2 {d : Desktop} {s : Speed} (h : d.At s) (e : MouseEvent) :
    (d.task2 e).freqReader = e.speed.elim d.freqReader fun c => c.move d.freqReader := by
  have hpos := s.pos
  rw [(h.task2 e).freqReader, h.freqReader]
  rcases e.speed with _ | _ | _
  · rfl
  · simp only [Option.elim_some, Speed.press, Speed.freq, SpeedClick.move, freqReaderIncrement]
    omega
  · simp only [Option.elim_some, Speed.press, Speed.freq, SpeedClick.move, freqReaderIncrement,
      freqReaderMax, freqReaderNominal]
    omega

/-- **After any turns of the loop** the variable and the register are in their ranges; a click on
slower or faster moves the frequency by 100 Hz up to the limits; and the divider responds to
whatever turns come next. -/
theorem speed_control (es : List MouseEvent) :
    (es.foldl Desktop.task2 Desktop.playing).Tuned ∧
    (∀ e, ((es ++ [e]).foldl Desktop.task2 Desktop.playing).freqReader =
      e.speed.elim (es.foldl Desktop.task2 Desktop.playing).freqReader
        fun c => c.move (es.foldl Desktop.task2 Desktop.playing).freqReader) ∧
    ∀ es', (es.foldl Desktop.task2 Desktop.playing).Responds
      ((es ++ es').foldl Desktop.task2 Desktop.playing) := by
  have hat := Desktop.playing_at.turns es
  refine ⟨hat.tuned, fun e => ?_, fun es' => ?_⟩
  · rw [List.foldl_append]
    exact hat.freqReader_task2 e
  · rw [List.foldl_append]
    exact hat.responds (hat.turns es')

/-- 52300 Hz have the divider of 52200 Hz. -/
theorem speed_control_stalls :
    ¬ ∀ es : List MouseEvent, (∀ e ∈ es, e.speed.isSome) →
      (es.foldl Desktop.task2 Desktop.playing).Tuned ∧
      ∀ e : MouseEvent, e.speed.isSome →
        (es.foldl Desktop.task2 Desktop.playing).Opposes
          ((es ++ [e]).foldl Desktop.task2 Desktop.playing) := by
  intro hall
  have hfaster : (MouseEvent.mk 1 510 190).speed.isSome := by decide
  have h := (hall (List.replicate 82 ⟨1, 510, 190⟩)
    fun e he => by rwa [List.eq_of_mem_replicate he]).2 ⟨1, 510, 190⟩ hfaster
  have hat := Desktop.playing_at.turns (List.replicate 82 ⟨1, 510, 190⟩)
  have hat' := Desktop.playing_at.turns (List.replicate 82 ⟨1, 510, 190⟩ ++ [⟨1, 510, 190⟩])
  revert h
  rw [Desktop.Opposes, hat.divider_eq, hat'.divider_eq, hat.freqReader, hat'.freqReader]
  decide +kernel

end DigitalModulation
