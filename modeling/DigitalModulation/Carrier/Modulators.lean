import DigitalModulation.Carrier.WaveformGen

/-!
# The modulators: `ASK_modulator`, `BPSK_modulator`, `QPSK_modulator`, `LFSR_modulator`

Each modulator registers, on every clock, a choice between the carrier samples and their negations;
`modulator_mux` and `sig_mux` choose what is plotted.
Because the cosine table is the sine table a quarter turn ahead and half a turn negates it, the two
PSK modulators rotate the phase of the carrier and do nothing else.

* `bpskModulator_rom`, `qpskModulator_rom`: what the modulators make of the table outputs at an
  address;
* `Psk`, `Psk.run`: `waveform_gen` feeding both modulators, over any list of events;
* `psk_rotation`: the modulated samples are sine samples at the rotated address.
-/

namespace DigitalModulation

/-- `ASK_modulator`. -/
def askModulator (signal : BitVec 12) (lfsr : Bool) : BitVec 12 :=
  if lfsr then signal else 0#12

/-- Invert and add one, on 12 bits. -/
def negate (signal : BitVec 12) : BitVec 12 := (signal ^^^ 0xfff#12) + 1#12

/-- `BPSK_modulator`. -/
def bpskModulator (signal : BitVec 12) (lfsr : Bool) : BitVec 12 :=
  if lfsr then negate signal else signal

/-- `QPSK_modulator`; the two bits are `lfsr[1]` and `lfsr[0]`. -/
def qpskModulator (sinSig cosSig : BitVec 12) : Bool × Bool → BitVec 12
  | (false, false) => negate cosSig
  | (false, true) => negate sinSig
  | (true, false) => cosSig
  | (true, true) => sinSig

/-- `LFSR_modulator`. -/
def lfsrModulator (lfsr : Bool) : BitVec 12 := if lfsr then 0#12 else 0x800#12

/-- `modulator_mux`. -/
def modulatorMux (sig1 sig2 sig3 sig4 sig5 : BitVec 12) (sel : BitVec 3) : BitVec 12 :=
  if sel = 0b000#3 then sig1
  else if sel = 0b001#3 then sig2
  else if sel = 0b010#3 then sig3
  else if sel = 0b011#3 then sig4
  else if sel = 0b100#3 then sig5
  else sig1

/-- `sig_mux`. -/
def sigMux (sig1 sig2 sig3 sig4 : BitVec 12) (sel : BitVec 2) : BitVec 12 :=
  if sel = 0b00#2 then sig1
  else if sel = 0b01#2 then sig2
  else if sel = 0b10#2 then sig3
  else sig4

/-! ### Rotations -/

theorem negate_eq_neg (x : BitVec 12) : negate x = -x := by
  rw [negate, show 0xfff#12 = BitVec.allOnes 12 from rfl, BitVec.xor_allOnes, BitVec.neg_eq_not_add]

/-- Away from -2048 the 12-bit negation is the negation of integers. -/
theorem toInt_negate {x : BitVec 12} (hx : x ≠ 0x800#12) : (negate x).toInt = -x.toInt := by
  rw [negate_eq_neg, BitVec.toInt_neg_of_ne_intMin]
  rwa [show BitVec.intMin 12 = 0x800#12 from rfl]

/-- The phase shift of a BPSK bit, in table entries. -/
def bpskShift (b : Bool) : BitVec 12 := if b then 2048#12 else 0#12

/-- The number of quarter turns of a dibit. -/
def quarterTurns : Bool × Bool → Fin 4
  | (true, true) => 0
  | (true, false) => 1
  | (false, true) => 2
  | (false, false) => 3

/-- The phase shift of a dibit, in table entries. -/
def qpskShift (d : Bool × Bool) : BitVec 12 := 1024#12 * BitVec.ofNat 12 (quarterTurns d)

theorem quarterTurns_injective : Function.Injective quarterTurns := by
  rintro ⟨_ | _, _ | _⟩ ⟨_ | _, _ | _⟩ h <;> first | rfl | cases h

theorem bpskModulator_rom (a : BitVec 12) (b : Bool) :
    bpskModulator (sinRom a) b = sinRom (a + bpskShift b) := by
  cases b
  · simp [bpskModulator, bpskShift]
  · simp [bpskModulator, bpskShift, negate_eq_neg, sinRom_half_turn]

theorem qpskModulator_rom (a : BitVec 12) (d : Bool × Bool) :
    qpskModulator (sinRom a) (cosRom a) d = sinRom (a + qpskShift d) := by
  have hhalf : a + 3072#12 = a + 1024#12 + 2048#12 := by
    rw [BitVec.add_assoc]
    rfl
  rcases d with ⟨_ | _, _ | _⟩
  · rw [qpskModulator, negate_eq_neg, cosRom_eq, ← sinRom_half_turn, ← hhalf]
    rfl
  · rw [qpskModulator, negate_eq_neg, ← sinRom_half_turn]
    rfl
  · rw [qpskModulator, cosRom_eq]
    rfl
  · rw [qpskModulator, show qpskShift (true, true) = 0#12 from rfl, BitVec.add_zero]

/-! ### The generator feeding the modulators -/

/-- `waveform_gen` and the output registers of the two PSK modulators. -/
structure Psk where
  gen : WaveformGen
  bpskSig : BitVec 12
  qpskSig : BitVec 12
  deriving DecidableEq

/-- A rising edge of the clock, with the bits `sync_lfsr_2` and `sync_lfsr` it samples, or a falling
reset. -/
inductive PskEvent
  | clk (i : WaveformIn) (syncLfsr2 syncLfsr : Bool)
  | resetFall
  deriving DecidableEq

namespace Psk

/-- One event; the modulators sample the table outputs as they were before the edge. -/
def step (s : Psk) : PskEvent → Psk
  | .clk i syncLfsr2 syncLfsr =>
    { gen := s.gen.clk i
      bpskSig := bpskModulator s.gen.sinOut syncLfsr
      qpskSig := qpskModulator s.gen.sinOut s.gen.cosOut (syncLfsr2, syncLfsr) }
  | .resetFall => { s with gen := s.gen.resetFall }

/-- The state after a list of events. -/
def run (s : Psk) (es : List PskEvent) : Psk := es.foldl step s

/-- The table outputs are the entries at address `a`. -/
def Holds (s : Psk) (a : BitVec 12) : Prop := s.gen.sinOut = sinRom a ∧ s.gen.cosOut = cosRom a

end Psk

/-- An event at which no address is registered. -/
def PskEvent.Pauses : PskEvent → Prop
  | .clk i _ _ => i.en = false
  | .resetFall => True

namespace Psk

/-- An enabled clock registers the entries at the address the accumulator shows. -/
theorem holds_clk (s : Psk) {i : WaveformIn} (hen : i.en = true) (b₂ b₁ : Bool) :
    (s.step (.clk i b₂ b₁)).Holds s.gen.lutAddr := by
  simp [Holds, step, WaveformGen.clk, hen]

theorem holds_of_pauses {s : Psk} {a : BitVec 12} (h : s.Holds a) {e : PskEvent} (he : e.Pauses) :
    (s.step e).Holds a := by
  cases e with
  | clk i b₂ b₁ =>
    have hen : i.en = false := he
    simpa [Holds, step, WaveformGen.clk, hen] using h
  | resetFall => exact h

/-- The entries stay registered as long as no further address is. -/
theorem holds_run {s : Psk} {a : BitVec 12} (h : s.Holds a) {es : List PskEvent}
    (hes : ∀ e ∈ es, e.Pauses) : (s.run es).Holds a := by
  induction es generalizing s with
  | nil => exact h
  | cons e es ih =>
    exact ih (holds_of_pauses h (hes e List.mem_cons_self))
      fun f hf => hes f (List.mem_cons_of_mem e hf)

/-- A clock on registered entries outputs the carrier at the two rotated addresses. -/
theorem step_of_holds {s : Psk} {a : BitVec 12} (h : s.Holds a) (i : WaveformIn) (b₂ b₁ : Bool) :
    (s.step (.clk i b₂ b₁)).bpskSig = sinRom (a + bpskShift b₁) ∧
      (s.step (.clk i b₂ b₁)).qpskSig = sinRom (a + qpskShift (b₂, b₁)) := by
  obtain ⟨hsin, hcos⟩ := h
  constructor
  · rw [← bpskModulator_rom, ← hsin]
    rfl
  · rw [← qpskModulator_rom, ← hsin, ← hcos]
    rfl

/-- Outputs one clock after an address was registered, reset pulses and disabled clocks in between
allowed. -/
theorem run_registered (s : Psk) (es : List PskEvent) {mid : List PskEvent} {i : WaveformIn}
    (hen : i.en = true) (hmid : ∀ e ∈ mid, e.Pauses) (i' : WaveformIn) (b₂ b₁ c₂ c₁ : Bool) :
    (s.run (es ++ .clk i b₂ b₁ :: mid ++ [.clk i' c₂ c₁])).bpskSig =
        sinRom ((s.run es).gen.lutAddr + bpskShift c₁) ∧
      (s.run (es ++ .clk i b₂ b₁ :: mid ++ [.clk i' c₂ c₁])).qpskSig =
        sinRom ((s.run es).gen.lutAddr + qpskShift (c₂, c₁)) := by
  have hA := holds_run ((s.run es).holds_clk hen b₂ b₁) hmid
  have hrun : s.run (es ++ .clk i b₂ b₁ :: mid ++ [.clk i' c₂ c₁]) =
      (((s.run es).step (.clk i b₂ b₁)).run mid).step (.clk i' c₂ c₁) := by
    simp only [run, List.foldl_append, List.foldl_cons, List.foldl_nil]
  rw [hrun]
  exact step_of_holds hA i' c₂ c₁

end Psk

/-- **PSK is an exact rotation.** In every run, with `A` the address registered on an enabled clock
and `b`, `d` the bit and the dibit sampled on a later clock before the next address is registered,
the modulated samples are the sine entries at `A + 2048 b` and at `A + 1024 k`, with a different
number `k` of quarter turns for each dibit. No negation of a table entry overflows, and from one
symbol to the next the phase moves by the advance of the carrier plus the difference of the two
rotations. -/
theorem psk_rotation (s : Psk) (es mid : List PskEvent) (i i' : WaveformIn) (b₂ b₁ c₂ c₁ : Bool)
    (hen : i.en = true) (hmid : ∀ e ∈ mid, e.Pauses) :
    let A := (s.run es).gen.lutAddr
    let s' := s.run (es ++ .clk i b₂ b₁ :: mid ++ [.clk i' c₂ c₁])
    (s'.bpskSig = sinRom (A + if c₁ then 2048#12 else 0#12) ∧
      s'.qpskSig = sinRom (A + 1024#12 * BitVec.ofNat 12 (quarterTurns (c₂, c₁)))) ∧
    Function.Injective quarterTurns ∧
    (∀ a, (negate (sinRom a)).toInt = -(sinRom a).toInt ∧
      (negate (cosRom a)).toInt = -(cosRom a).toInt) ∧
    ∀ (mid' : List PskEvent) (i'' : WaveformIn) (d₂ d₁ : Bool), i'.en = true →
      (∀ e ∈ mid', e.Pauses) →
      let A' := (s.run (es ++ .clk i b₂ b₁ :: mid)).gen.lutAddr
      let s'' := s.run (es ++ .clk i b₂ b₁ :: mid ++ .clk i' c₂ c₁ :: mid' ++ [.clk i'' d₂ d₁])
      s''.bpskSig = sinRom (A + bpskShift c₁ + (A' - A) + (bpskShift d₁ - bpskShift c₁)) ∧
        s''.qpskSig = sinRom
          (A + qpskShift (c₂, c₁) + (A' - A) + (qpskShift (d₂, d₁) - qpskShift (c₂, c₁))) := by
  intro A s'
  refine ⟨s.run_registered es hen hmid i' b₂ b₁ c₂ c₁, quarterTurns_injective, fun a => ?_, ?_⟩
  · exact ⟨toInt_negate (sinRom_ne_min a), toInt_negate (cosRom_ne_min a)⟩
  · intro mid' i'' d₂ d₁ hen' hmid' A' s''
    have hjump : ∀ x y : BitVec 12, A + x + (A' - A) + (y - x) = A' + y := fun x y => by ring
    rw [hjump, hjump]
    exact s.run_registered (es ++ .clk i b₂ b₁ :: mid) hen' hmid' i'' c₂ c₁ d₂ d₁

/-- A reset pulse and a stopped clock between the registered address and the dibit `00`. -/
theorem psk_rotation_paused :
    ((⟨⟨0x40000000#32, 0#12, 0#12, 0#12⟩, 0#12, 0#12⟩ : Psk).run
      [.clk ⟨true, true, 258#32⟩ true true, .resetFall, .clk ⟨true, false, 258#32⟩ true false,
        .clk ⟨true, true, 258#32⟩ false false]).qpskSig = sinRom (1024#12 + 3072#12) :=
  (psk_rotation ⟨⟨0x40000000#32, 0#12, 0#12, 0#12⟩, 0#12, 0#12⟩ []
    [.resetFall, .clk ⟨true, false, 258#32⟩ true false] ⟨true, true, 258#32⟩ ⟨true, true, 258#32⟩
    true true false false rfl
    (by simp [PskEvent.Pauses])).1.2

end DigitalModulation
