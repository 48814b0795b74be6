import DigitalModulation.Lib.Machine
import DigitalModulation.Desktop.Task2
import DigitalModulation.Carrier.Modulators
import Mathlib.Data.Fintype.Defs
import Mathlib.Tactic.SplitIfs

/-!
# What is highlighted is what is plotted

Each of the three groups of buttons has a register. The branches of `task2` draw the buttons of a
group and write its register together.

* `Modulation`, `Signal`, `Colour`: the members of the groups, with their buttons, the values they
  write and the waveforms they name;
* `Group`: a group with its register;
* `Group.Shows`, `Group.Writes`: a state, or some statements, in which one member of a group is
  highlighted and has its value in the register;
* `highlighted_is_plotted`: so it is after every sequence of turns of the loop.
-/

namespace DigitalModulation

/-! ### The groups -/

inductive Modulation
  | ask | fsk | bpsk | lfsr | qpsk
  deriving DecidableEq

namespace Modulation

instance : Fintype Modulation where
  elems := {ask, fsk, bpsk, lfsr, qpsk}
  complete := by rintro ⟨⟩ <;> decide

def button : Modulation → Button
  | ask => .ask
  | fsk => .fsk
  | bpsk => .bpsk
  | lfsr => .lfsr
  | qpsk => .qpsk

def value : Modulation → BitVec 4
  | ask => 0
  | fsk => 1
  | bpsk => 2
  | lfsr => 3
  | qpsk => 4

theorem value_injective : Function.Injective value := by
  unfold Function.Injective
  decide

/-- The waveform of that name; for FSK it is the carrier itself. -/
def waveform (askSig sinOut bpskSig lfsrSig qpskSig : BitVec 12) : Modulation → BitVec 12
  | ask => askSig
  | fsk => sinOut
  | bpsk => bpskSig
  | lfsr => lfsrSig
  | qpsk => qpskSig

/-- The button a click hits. -/
def clicked (xMouse yMouse : ℤ) : Option Modulation :=
  if Button.ask.hit xMouse yMouse then some ask
  else if Button.fsk.hit xMouse yMouse then some fsk
  else if Button.bpsk.hit xMouse yMouse then some bpsk
  else if Button.lfsr.hit xMouse yMouse then some lfsr
  else if Button.qpsk.hit xMouse yMouse then some qpsk
  else none

theorem clicked_eq_none {xMouse yMouse : ℤ}
    (h : ∀ m : Modulation, m.button.hit xMouse yMouse = false) : clicked xMouse yMouse = none := by
  have hask := h ask
  have hfsk := h fsk
  have hbpsk := h bpsk
  have hlfsr := h lfsr
  have hqpsk := h qpsk
  simp_all [clicked, button]

end Modulation

inductive Signal
  | sine | cos | saw | square
  deriving DecidableEq

namespace Signal

instance : Fintype Signal where
  elems := {sine, cos, saw, square}
  complete := by rintro ⟨⟩ <;> decide

def button : Signal → Button
  | sine => .sine
  | cos => .cos
  | saw => .saw
  | square => .square

def value : Signal → BitVec 8
  | sine => 0
  | cos => 1
  | saw => 2
  | square => 3

theorem value_injective : Function.Injective value := by
  unfold Function.Injective
  decide

/-- The output of `waveform_gen` of that name. -/
def waveform (sinOut cosOut sawOut squOut : BitVec 12) : Signal → BitVec 12
  | sine => sinOut
  | cos => cosOut
  | saw => sawOut
  | square => squOut

/-- The button a click hits. -/
def clicked (xMouse yMouse : ℤ) : Option Signal :=
  if Button.sine.hit xMouse yMouse then some sine
  else if Button.cos.hit xMouse yMouse then some cos
  else if Button.saw.hit xMouse yMouse then some saw
  else if Button.square.hit xMouse yMouse then some square
  else none

theorem clicked_eq_none {xMouse yMouse : ℤ}
    (h : ∀ s : Signal, s.button.hit xMouse yMouse = false) : clicked xMouse yMouse = none := by
  have hsine := h sine
  have hcos := h cos
  have hsaw := h saw
  have hsquare := h square
  simp_all [clicked, button]

end Signal

inductive Colour
  | fearless | speakNow | red | nineteen89 | reputation | lover | folklore | evermore
  deriving DecidableEq

namespace Colour

instance : Fintype Colour where
  elems := {fearless, speakNow, red, nineteen89, reputation, lover, folklore, evermore}
  complete := by rintro ⟨⟩ <;> decide

def button : Colour → Button
  | fearless => .fearless
  | speakNow => .speakNow
  | red => .red
  | nineteen89 => .nineteen89
  | reputation => .reputation
  | lover => .lover
  | folklore => .folklore
  | evermore => .evermore

/-- The colour the button is drawn in. -/
def value (c : Colour) : BitVec 24 := c.button.color.setWidth 24

theorem value_injective : Function.Injective value := by
  unfold Function.Injective
  decide

/-- The button a click hits, unless the transport is before it. -/
def clicked (xMouse yMouse : ℤ) : Option Colour :=
  if Button.fearless.hit xMouse yMouse then some fearless
  else if Button.speakNow.hit xMouse yMouse then some speakNow
  else if Button.red.hit xMouse yMouse then some red
  else if Button.nineteen89.hit xMouse yMouse then some nineteen89
  else if Button.reputation.hit xMouse yMouse then some reputation
  else if Button.lover.hit xMouse yMouse then some lover
  else if Button.folklore.hit xMouse yMouse then some folklore
  else if Button.evermore.hit xMouse yMouse then some evermore
  else none

theorem clicked_eq_none {xMouse yMouse : ℤ}
    (h : ∀ c : Colour, c.button.hit xMouse yMouse = false) : clicked xMouse yMouse = none := by
  have hfearless := h fearless
  have hspeakNow := h speakNow
  have hred := h red
  have hnineteen89 := h nineteen89
  have hreputation := h reputation
  have hlover := h lover
  have hfolklore := h folklore
  have hevermore := h evermore
  simp_all [clicked, button]

end Colour

/-! ### Buttons on the screen -/

/-- Both buttons cover the same rectangle. -/
def Button.sameBox (b b' : Button) : Bool :=
  b.x == b'.x && b.y == b'.y && b.w == b'.w && b.h == b'.h

/-- The event type a call draws a button with, if it draws it. -/
def Draw.eventType (b : Button) : Draw → Option Bool
  | .button b' eventType => if b.sameBox b' then some eventType else none
  | .niceButton b' eventType => if b.sameBox b' then some eventType else none
  | _ => none

/-- The event type a button was last drawn with. -/
def Desktop.eventType (d : Desktop) (b : Button) : Option Bool :=
  (d.screen.filterMap (Draw.eventType b)).getLast?

/-- The button was last drawn highlighted. -/
def Desktop.Highlighted (d : Desktop) (b : Button) : Prop := d.eventType b = some true

/-- The event type a statement draws a button with, if it draws it. -/
def Stmt.eventType (b : Button) : Stmt → Option Bool
  | .draw call => call.eventType b
  | _ => none

theorem Desktop.eventType_exec (b : Button) (d : Desktop) (st : Stmt) :
    (d.exec st).eventType b = (st.eventType b).or (d.eventType b) := by
  cases st with
  | draw call =>
    simp only [exec, eventType, Stmt.eventType, List.filterMap_append, List.getLast?_append]
    congr 1
    cases h : call.eventType b <;> simp [h]
  | nextSong => simp only [exec]; split <;> rfl
  | previousSong => simp only [exec]; split <;> rfl
  | _ => rfl

/-- A group of buttons and the register that goes with it. -/
structure Group (γ v : Type) where
  button : γ → Button
  value : γ → v
  reg : Desktop → v
  write : Stmt → Option v
  reg_exec : ∀ d st, some (reg (d.exec st)) = (write st).or (some (reg d))

def modulations : Group Modulation (BitVec 4) where
  button := Modulation.button
  value := Modulation.value
  reg := Desktop.modulationSelector
  write
    | .selectModulation modulator => some (modulator.setWidth 4)
    | _ => none
  reg_exec d st := by
    cases st <;> simp only [Desktop.exec] <;> try split
    all_goals rfl

def signals : Group Signal (BitVec 8) where
  button := Signal.button
  value := Signal.value
  reg := Desktop.signalSelector
  write
    | .selectSignal signal => some signal
    | _ => none
  reg_exec d st := by
    cases st <;> simp only [Desktop.exec] <;> try split
    all_goals rfl

def colours : Group Colour (BitVec 24) where
  button := Colour.button
  value := Colour.value
  reg := Desktop.graphColour
  write
    | .graphColour data => some (data.setWidth 24)
    | _ => none
  reg_exec d st := by
    cases st <;> simp only [Desktop.exec] <;> try split
    all_goals rfl

namespace Group

variable {γ v : Type} [DecidableEq γ] (G : Group γ v)

/-- Member `g` is drawn highlighted, the others are drawn plain, and the register holds the value of
`g`. -/
def Shows (d : Desktop) (g : γ) : Prop :=
  (∀ g', d.eventType (G.button g') = some (decide (g' = g))) ∧ G.reg d = G.value g

/-- The last value written by some statements. -/
def last {w : Type} (write : Stmt → Option w) (stmts : List Stmt) : Option w :=
  (stmts.filterMap write).getLast?

/-- The statements draw the group with `g` highlighted and write its value, or neither draw nor
write. -/
def Writes (stmts : List Stmt) (g : Option γ) : Prop :=
  (∀ g', last (Stmt.eventType (G.button g')) stmts = g.map fun g => decide (g' = g)) ∧
    last G.write stmts = g.map G.value

instance [Fintype γ] [DecidableEq v] (stmts : List Stmt) (g : Option γ) :
    Decidable (G.Writes stmts g) :=
  inferInstanceAs (Decidable (_ ∧ _))

variable {G}

theorem last_append {w : Type} (write : Stmt → Option w) (as bs : List Stmt) :
    last write (as ++ bs) = (last write bs).or (last write as) := by
  simp [last, List.filterMap_append, List.getLast?_append]

theorem Writes.append {as bs : List Stmt} {g g' : Option γ} (ha : G.Writes as g)
    (hb : G.Writes bs g') : G.Writes (as ++ bs) (g'.or g) := by
  constructor
  · intro x
    rw [last_append, ha.1, hb.1, Option.map_or]
  · rw [last_append, ha.2, hb.2, Option.map_or]

/-- The state after some statements. -/
theorem Writes.foldl {stmts : List Stmt} {g : Option γ} (h : G.Writes stmts g) (d : Desktop) :
    (∀ g', (stmts.foldl Desktop.exec d).eventType (G.button g') =
      (g.map fun g => decide (g' = g)).or (d.eventType (G.button g'))) ∧
    some (G.reg (stmts.foldl Desktop.exec d)) = (g.map G.value).or (some (G.reg d)) := by
  constructor
  · intro g'
    rw [← h.1]
    exact Machine.foldl_last_write (fun d => d.eventType (G.button g')) (Desktop.eventType_exec _) d
      stmts
  · rw [← h.2]
    exact Machine.foldl_last_write (fun d => some (G.reg d)) G.reg_exec d stmts

/-- Statements that set the group show what they set. -/
theorem Writes.shows {stmts : List Stmt} {g : γ} (h : G.Writes stmts (some g)) (d : Desktop) :
    G.Shows (stmts.foldl Desktop.exec d) g := by
  obtain ⟨hevent, hreg⟩ := h.foldl d
  exact ⟨fun g' => (hevent g').trans rfl, Option.some_inj.mp (hreg.trans rfl)⟩

/-- Statements that leave the group show what was there. -/
theorem Shows.foldl {d : Desktop} {g : γ} (hd : G.Shows d g) {stmts : List Stmt} {g' : Option γ}
    (h : G.Writes stmts g') : G.Shows (stmts.foldl Desktop.exec d) (g'.getD g) := by
  cases g' with
  | some g' => exact h.shows d
  | none =>
    obtain ⟨hevent, hreg⟩ := h.foldl d
    exact ⟨fun x => (hevent x).trans (hd.1 x), (Option.some_inj.mp (hreg.trans rfl)).trans hd.2⟩

theorem Shows.reg_iff {d : Desktop} {g : γ} (h : G.Shows d g)
    (hvalue : Function.Injective G.value) (g' : γ) : G.reg d = G.value g' ↔ g' = g := by
  rw [h.2]
  constructor
  · intro hreg
    exact (hvalue hreg).symm
  · rintro rfl
    rfl

theorem Shows.highlighted_iff {d : Desktop} {g : γ} (h : G.Shows d g) (g' : γ) :
    d.Highlighted (G.button g') ↔ g' = g := by
  rw [Desktop.Highlighted, h.1, Option.some_inj, decide_eq_true_iff]

end Group

/-! ### What the branches write -/

/-- Statements that set the three groups, or leave them. -/
def Sets (stmts : List Stmt) (m : Option Modulation) (s : Option Signal) (c : Option Colour) :
    Prop :=
  modulations.Writes stmts m ∧ signals.Writes stmts s ∧ colours.Writes stmts c

instance (stmts : List Stmt) (m : Option Modulation) (s : Option Signal) (c : Option Colour) :
    Decidable (Sets stmts m s c) :=
  inferInstanceAs (Decidable (_ ∧ _ ∧ _))

theorem Sets.append {as bs : List Stmt} {m m' : Option Modulation} {s s' : Option Signal}
    {c c' : Option Colour} (ha : Sets as m s c) (hb : Sets bs m' s' c') :
    Sets (as ++ bs) (m'.or m) (s'.or s) (c'.or c) :=
  ⟨ha.1.append hb.1, ha.2.1.append hb.2.1, ha.2.2.append hb.2.2⟩

theorem sets_bootStmts :
    Sets bootStmts (some .ask) (some .square) (some .fearless) := by
  decide +kernel

theorem sets_modulationClick (x y : ℤ) :
    Sets (modulationClick x y) (Modulation.clicked x y) none none := by
  unfold modulationClick Modulation.clicked
  split_ifs <;> decide +kernel

theorem sets_signalClick (x y : ℤ) : Sets (signalClick x y) none (Signal.clicked x y) none := by
  unfold signalClick Signal.clicked
  split_ifs <;> decide +kernel

theorem sets_colourClick (x y : ℤ) : Sets (colourClick x y) none none (Colour.clicked x y) := by
  unfold colourClick Colour.clicked
  split_ifs <;> decide +kernel

/-- The transport images come before the colours and belong to no group. -/
theorem exists_sets_transportClick (x y : ℤ) :
    ∃ c, Sets (transportClick x y) none none c ∧ (Colour.clicked x y = none → c = none) := by
  unfold transportClick
  split_ifs
  case neg => exact ⟨_, sets_colourClick x y, id⟩
  all_goals exact ⟨none, by decide +kernel, fun _ => rfl⟩

/-- A click sets at most one member of each group, and none outside the buttons. -/
theorem exists_sets_clickStmts (x y : ℤ) :
    ∃ m s c, Sets (clickStmts x y) m s c ∧ (Modulation.clicked x y = none → m = none) ∧
      (Signal.clicked x y = none → s = none) ∧ (Colour.clicked x y = none → c = none) := by
  obtain ⟨c, htransport, hc⟩ := exists_sets_transportClick x y
  have h := ((sets_modulationClick x y).append (sets_signalClick x y)).append htransport
  simp only [Option.none_or, Option.or_none] at h
  exact ⟨_, _, c, h, id, id, hc⟩

/-! ### Whole runs -/

/-- The members of the three groups that are highlighted and written. -/
def Desktop.Shows (d : Desktop) (m : Modulation) (s : Signal) (c : Colour) : Prop :=
  modulations.Shows d m ∧ signals.Shows d s ∧ colours.Shows d c

theorem shows_boot : Desktop.boot.Shows .ask .square .fearless :=
  ⟨sets_bootStmts.1.shows _, sets_bootStmts.2.1.shows _, sets_bootStmts.2.2.shows _⟩

theorem Desktop.Shows.task2 {d : Desktop} {m : Modulation} {s : Signal} {c : Colour}
    (h : d.Shows m s c) (e : MouseEvent) :
    ∃ m' s' c', (d.task2 e).Shows m' s' c' ∧
      (Modulation.clicked e.xMouse e.yMouse = none → m' = m) ∧
      (Signal.clicked e.xMouse e.yMouse = none → s' = s) ∧
      (Colour.clicked e.xMouse e.yMouse = none → c' = c) := by
  unfold Desktop.task2
  split_ifs
  · obtain ⟨m', s', c', hsets, hm, hs, hc⟩ := exists_sets_clickStmts e.xMouse e.yMouse
    refine ⟨m'.getD m, s'.getD s, c'.getD c,
      ⟨h.1.foldl hsets.1, h.2.1.foldl hsets.2.1, h.2.2.foldl hsets.2.2⟩, ?_, ?_, ?_⟩
    · exact fun hnone => by rw [hm hnone]; rfl
    · exact fun hnone => by rw [hs hnone]; rfl
    · exact fun hnone => by rw [hc hnone]; rfl
  · exact ⟨m, s, c, h, fun _ => rfl, fun _ => rfl, fun _ => rfl⟩

/-- A turn with the pointer outside all buttons leaves all three groups. -/
theorem Desktop.Shows.task2_outside {d : Desktop} {m : Modulation} {s : Signal} {c : Colour}
    (h : d.Shows m s c) {e : MouseEvent}
    (hm : ∀ m' : Modulation, m'.button.hit e.xMouse e.yMouse = false)
    (hs : ∀ s' : Signal, s'.button.hit e.xMouse e.yMouse = false)
    (hc : ∀ c' : Colour, c'.button.hit e.xMouse e.yMouse = false) : (d.task2 e).Shows m s c := by
  obtain ⟨m', s', c', h', hmsame, hssame, hcsame⟩ := h.task2 e
  obtain rfl := hmsame (Modulation.clicked_eq_none hm)
  obtain rfl := hssame (Signal.clicked_eq_none hs)
  obtain rfl := hcsame (Colour.clicked_eq_none hc)
  exact h'

theorem exists_shows (es : List MouseEvent) :
    ∃ m s c, (es.foldl Desktop.task2 Desktop.boot).Shows m s c := by
  induction es using List.reverseRecOn with
  | nil => exact ⟨_, _, _, shows_boot⟩
  | append_singleton es e ih =>
    obtain ⟨m, s, c, h⟩ := ih
    obtain ⟨m', s', c', h', -⟩ := h.task2 e
    rw [List.foldl_append]
    exact ⟨m', s', c', h'⟩

/-! ### What the registers select -/

theorem modulatorMux_value (askSig sinOut bpskSig lfsrSig qpskSig : BitVec 12) (m : Modulation) :
    modulatorMux askSig sinOut bpskSig lfsrSig qpskSig (m.value.setWidth 3) =
      m.waveform askSig sinOut bpskSig lfsrSig qpskSig := by
  cases m <;> rfl

theorem sigMux_value (sinOut cosOut sawOut squOut : BitVec 12) (s : Signal) :
    sigMux sinOut cosOut sawOut squOut (s.value.setWidth 2) =
      s.waveform sinOut cosOut sawOut squOut := by
  cases s <;> rfl

/-- The two low selector bits at the three-bit port of `phase_inc_mux`. -/
theorem phaseIncMux_value (ddsIncrement : BitVec 32) (m : Modulation) :
    phaseIncMux ddsIncrement ((m.value.setWidth 2).setWidth 3) =
      if m = .fsk then ddsIncrement else 258 := by
  cases m <;> rfl

/-- **What is highlighted is what is plotted.** After `main` and any turns of the loop of `task2`,
in each group exactly one button is highlighted, and it is the one whose value the register holds;
the multiplexers give the waveforms the buttons name, and the FSK increment is used exactly for FSK.
A turn with the pointer outside all buttons changes none of this. -/
theorem highlighted_is_plotted (es : List MouseEvent) :
    let d := es.foldl Desktop.task2 Desktop.boot
    ∃ m s c,
      ((∀ m' : Modulation, d.Highlighted m'.button ↔ m' = m) ∧
        (∀ s' : Signal, d.Highlighted s'.button ↔ s' = s) ∧
        (∀ c' : Colour, d.Highlighted c'.button ↔ c' = c)) ∧
      ((∀ m' : Modulation, d.modulationSelector = m'.value ↔ m' = m) ∧
        (∀ s' : Signal, d.signalSelector = s'.value ↔ s' = s) ∧
        (∀ c' : Colour, d.graphColour = c'.value ↔ c' = c)) ∧
      (∀ askSig sinOut bpskSig lfsrSig qpskSig,
        modulatorMux askSig sinOut bpskSig lfsrSig qpskSig (d.modulationSelector.setWidth 3) =
          m.waveform askSig sinOut bpskSig lfsrSig qpskSig) ∧
      (∀ sinOut cosOut sawOut squOut,
        sigMux sinOut cosOut sawOut squOut (d.signalSelector.setWidth 2) =
          s.waveform sinOut cosOut sawOut squOut) ∧
      (∀ ddsIncrement,
        phaseIncMux ddsIncrement ((d.modulationSelector.setWidth 2).setWidth 3) =
          if m = .fsk then ddsIncrement else 258) ∧
      ∀ e : MouseEvent,
        (∀ m' : Modulation, m'.button.hit e.xMouse e.yMouse = false) →
        (∀ s' : Signal, s'.button.hit e.xMouse e.yMouse = false) →
        (∀ c' : Colour, c'.button.hit e.xMouse e.yMouse = false) →
        ((∀ m' : Modulation, (d.task2 e).Highlighted m'.button ↔ m' = m) ∧
          (∀ s' : Signal, (d.task2 e).Highlighted s'.button ↔ s' = s) ∧
          (∀ c' : Colour, (d.task2 e).Highlighted c'.button ↔ c' = c)) ∧
        (d.task2 e).modulationSelector = d.modulationSelector ∧
        (d.task2 e).signalSelector = d.signalSelector ∧
        (d.task2 e).graphColour = d.graphColour := by
  intro d
  obtain ⟨m, s, c, hm, hs, hc⟩ := exists_shows es
  have hmreg : d.modulationSelector = m.value := hm.2
  have hsreg : d.signalSelector = s.value := hs.2
  have hcreg : d.graphColour = c.value := hc.2
  refine ⟨m, s, c, ⟨hm.highlighted_iff, hs.highlighted_iff, hc.highlighted_iff⟩,
    ⟨hm.reg_iff Modulation.value_injective, hs.reg_iff Signal.value_injective,
      hc.reg_iff Colour.value_injective⟩, ?_, ?_, ?_, fun e hme hse hce => ?_⟩
  · intro askSig sinOut bpskSig lfsrSig qpskSig
    rw [hmreg, modulatorMux_value]
  · intro sinOut cosOut sawOut squOut
    rw [hsreg, sigMux_value]
  · intro ddsIncrement
    rw [hmreg, phaseIncMux_value]
  · obtain ⟨hm', hs', hc'⟩ := Desktop.Shows.task2_outside ⟨hm, hs, hc⟩ hme hse hce
    exact ⟨⟨hm'.highlighted_iff, hs'.highlighted_iff, hc'.highlighted_iff⟩, hm'.2.trans hmreg.symm,
      hs'.2.trans hsreg.symm, hc'.2.trans hcreg.symm⟩

end DigitalModulation
