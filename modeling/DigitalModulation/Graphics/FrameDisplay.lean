import DigitalModulation.Graphics.DoubleBuffer
import DigitalModulation.Graphics.FrameReader

/-!
# The frame reader and `vip_fr.c`

The program writes the registers of the frame reader while this one reads frame after frame.

* `VipFrameReader.configure`, `selectFrame`, `vipfrGo`: what the functions of `vip_fr.c` write;
* `FrameDisplay`: the frame reader and `VIP_FRAME_READER`, which the program changes with it;
* `FrameDisplay.Follows`: the registers are those that the program has set;
* `frames_read_whole`: what is read are whole frames, each of them the one that was displayed when
  it was begun.
-/

namespace DigitalModulation

/-! ### What the functions of `vip_fr.c` write -/

/-- `FrameReader_SelectFrame`. -/
def selectFrame (frameIndex : BitVec 8) : BitVec 5 × BitVec 32 := (3, frameIndex.setWidth 32)

/-- `FrameReader_Go`, which `VIPFR_Go` does again. -/
def vipfrGo (bGo : Bool) : BitVec 5 × BitVec 32 := (0, if bGo then 1 else 0)

/-- `FrameReader_SetFrame0` and `FrameReader_SetFrame1`, whose first registers are 4 and 11. -/
def setFrame (register : BitVec 5) (frameBase words cycle width height interlace : BitVec 32) :
    List (BitVec 5 × BitVec 32) :=
  [(register, frameBase), (register + 1, words), (register + 2, cycle), (register + 4, width),
    (register + 5, height), (register + 6, interlace)]

/-- `VIPFR_SetFrameSize` of a reader that has the size. -/
def VipFrameReader.setFrameSize (p : VipFrameReader) : List (BitVec 5 × BitVec 32) :=
  let words := BitVec.ofInt 32 (p.width * p.height)
  let set (register : BitVec 5) (frameBase : ℤ) :=
    setFrame register (BitVec.ofInt 32 frameBase) words words (BitVec.ofInt 32 p.width)
      (BitVec.ofInt 32 p.height) 0
  set 4 p.frame0Base ++ set 11 p.frame1Base

/-- `VIPFR_Init`. -/
def vipfrInit (frame0Base frame1Base frameWidth frameHeight : ℤ) : VipFrameReader :=
  ⟨frame0Base, frame1Base, 0, 32, frameWidth, frameHeight⟩

/-- What `VIPFR_Init` writes, up to the last write. -/
def VipFrameReader.configure (p : VipFrameReader) : List (BitVec 5 × BitVec 32) :=
  vipfrGo false :: p.setFrameSize ++ [selectFrame p.displayFrame]

/-- The frame reader, and what the program knows of it. -/
structure FrameDisplay where
  display : VipFrameReader
  vfr : VipVfr

/-- An edge, at which a function of the program may write. -/
inductive DisplayEvent
  | clock (ena : Bool)
  | activeDrawFrame (ena : Bool)
  | go (bGo ena : Bool)

namespace FrameDisplay

/-- The edge at the frame reader. -/
def edge (s : FrameDisplay) : DisplayEvent → VfrEdge
  | .clock ena => ⟨ena, none⟩
  | .activeDrawFrame ena => ⟨ena, some (selectFrame s.display.activeDrawFrame.displayFrame)⟩
  | .go bGo ena => ⟨ena, some (vipfrGo bGo)⟩

def step (s : FrameDisplay) (e : DisplayEvent) : FrameDisplay where
  display := match e with
    | .activeDrawFrame _ => s.display.activeDrawFrame
    | _ => s.display
  vfr := s.vfr.clock (s.edge e)

/-- What the frame reader tells at an edge. -/
def signals (s : FrameDisplay) (e : DisplayEvent) : List VfrSignal := s.vfr.signals (s.edge e)

/-- The frame that is displayed when the reader begins one. -/
def started (s : FrameDisplay) (_ : DisplayEvent) : List ℤ :=
  if s.vfr.Starts then [s.display.displayedFrame] else []

/-- After `VIPFR_Init`, between whose writes there were some edges. -/
def boot (p : VipFrameReader) (es : List VfrEdge) (ena : Bool) : FrameDisplay where
  display := p
  vfr := (es.foldl VipVfr.clock .reset).clock ⟨ena, some (vipfrGo true)⟩

end FrameDisplay

/-! ### The registers and the program -/

namespace VipFrameReader

variable (p : VipFrameReader)

/-- The registers of the frame at a base. -/
def frameBank (base : ℤ) : VidBank where
  baseAddress := BitVec.ofInt 32 base
  words := BitVec.ofInt 32 (p.width * p.height)
  samples := BitVec.ofInt 32 (p.width * p.height)
  width := (BitVec.ofInt 32 p.width).setWidth 16
  height := (BitVec.ofInt 32 p.height).setWidth 16
  interlaced := 0

/-- The registers of one of its frames. -/
def vidBank (b : Bool) : VidBank := p.frameBank (if b then p.frame1Base else p.frame0Base)

/-- What is told of the frame at a base: its size, one burst, and as many samples as it has
pixels. -/
def framePacket (base : ℤ) : List VfrSignal := VipVfr.packet (p.frameBank base)

end VipFrameReader

/-- The registers of the frame reader are those that the program has set. -/
structure FrameDisplay.Follows (p : VipFrameReader) (s : FrameDisplay) : Prop where
  display : s.display = { p with displayFrame := s.display.displayFrame }
  displayFrame : s.display.displayFrame = 0 ∨ s.display.displayFrame = 1
  next : s.vfr.slave.nextBank = decide (s.display.displayFrame ≠ 0)
  bank (b : Bool) : s.vfr.slave.bank b = p.vidBank b

namespace FrameDisplay

theorem Follows.displayed {p : VipFrameReader} {s : FrameDisplay} (h : s.Follows p) :
    s.vfr.slave.bank s.vfr.slave.nextBank = p.frameBank s.display.displayedFrame := by
  rw [h.bank, h.next, h.display]
  unfold VipFrameReader.vidBank VipFrameReader.displayedFrame
  by_cases hzero : s.display.displayFrame = 0 <;> simp [hzero]

theorem Follows.step {p : VipFrameReader} {s : FrameDisplay} (h : s.Follows p) (e : DisplayEvent) :
    (s.step e).Follows p := by
  have hregs : (s.step e).vfr.slave.internalRegisters =
      (s.edge e).write.elim s.vfr.slave.internalRegisters
        (AvalonMmSlave.writeRegister 18 s.vfr.slave.internalRegisters) :=
    AvalonMmSlave.internalRegisters_clk _
  have hkeep (hsame : (s.step e).vfr.slave.internalRegisters = s.vfr.slave.internalRegisters)
      (hdisplay : (s.step e).display = s.display) : (s.step e).Follows p := by
    refine ⟨hdisplay ▸ h.display, hdisplay ▸ h.displayFrame, ?_, fun b => ?_⟩
    · rw [AvalonMmSlave.nextBank, hsame, hdisplay]
      exact h.next
    · rw [AvalonMmSlave.bank_congr fun i _ => congrFun hsame i]
      exact h.bank b
  cases e with
  | clock ena => exact hkeep hregs rfl
  | go bGo ena => exact hkeep hregs rfl
  | activeDrawFrame ena =>
    have hnew : (s.display.activeDrawFrame.displayFrame = 0 ∨
        s.display.activeDrawFrame.displayFrame = 1) ∧
        (s.display.activeDrawFrame.displayFrame.setWidth 32).getLsbD 0 =
          decide (s.display.activeDrawFrame.displayFrame ≠ 0) := by
      unfold VipFrameReader.activeDrawFrame
      rcases h.displayFrame with hframe | hframe
      · simp [hframe]
      · simp [hframe]
    refine ⟨?_, hnew.1, ?_, fun b => ?_⟩
    · show s.display.activeDrawFrame = _
      rw [VipFrameReader.activeDrawFrame, h.display]
      rfl
    · rw [AvalonMmSlave.nextBank, hregs]
      exact hnew.2
    · rw [AvalonMmSlave.bank_congr fun i hi => ?_]
      · exact h.bank b
      · rw [hregs]
        exact Function.update_of_ne (show i ≠ 0 by omega) _ _

/-! ### `VIPFR_Init` -/

theorem of_mem_configure {p : VipFrameReader} {w : BitVec 5 × BitVec 32} (hw : w ∈ p.configure)
    (haddress : w.1.toNat = 0) : w.2.getLsbD 0 = false := by
  simp only [VipFrameReader.configure, VipFrameReader.setFrameSize, setFrame, selectFrame, vipfrGo,
    List.cons_append, List.nil_append, List.mem_cons, List.not_mem_nil, or_false] at hw
  rcases hw with rfl | hw
  · rfl
  · -- All the other registers have higher numbers.
    rcases hw with rfl | rfl | rfl | rfl | rfl | rfl | rfl | rfl | rfl | rfl | rfl | rfl | rfl <;>
      simp at haddress

/-- While the frame reader is configured it does not go. -/
theorem booting {p : VipFrameReader} {es : List VfrEdge}
    (hes : ∀ w ∈ es.filterMap VfrEdge.write, w ∈ p.configure) :
    (es.foldl VipVfr.clock .reset).slave.enable = false ∧
      (es.foldl VipVfr.clock .reset).Idles := by
  induction es using List.reverseRecOn with
  | nil => exact ⟨rfl, ⟨⟨rfl, rfl, rfl, rfl⟩, rfl, rfl⟩, rfl, rfl, .inr ⟨rfl, rfl⟩⟩
  | append_singleton es e ih =>
    rw [List.filterMap_append, List.forall_mem_append] at hes
    obtain ⟨henable, hidles⟩ := ih hes.1
    rw [List.foldl_append]
    refine ⟨AvalonMmSlave.enable_clk henable fun w hw => of_mem_configure (hes.2 w ?_),
      hidles.clock_of_not_starts (fun hstarts => by simp [hstarts.2] at henable) e⟩
    simpa using hw

/-- The registers of the frame reader hold what was written to them. -/
theorem registers_foldl (s : VipVfr) (es : List VfrEdge) :
    (es.foldl VipVfr.clock s).slave.internalRegisters =
      (es.filterMap VfrEdge.write).foldl (AvalonMmSlave.writeRegister 18)
        s.slave.internalRegisters := by
  have hstep (s : VipVfr) (r : ℕ → BitVec 32) (e : VfrEdge) (h : s.slave.internalRegisters = r) :
      (s.clock e).slave.internalRegisters = e.write.elim r (AvalonMmSlave.writeRegister 18 r) := by
    rw [← h]
    exact AvalonMmSlave.internalRegisters_clk _
  exact Machine.foldl_sim hstep rfl es

/-- After `VIPFR_Init` the registers are those of its frames, and no frame is begun. -/
theorem boot_spec {p : VipFrameReader} (hp : p.displayFrame = 0) {es : List VfrEdge}
    (hes : es.filterMap VfrEdge.write = p.configure) (ena : Bool) :
    (boot p es ena).Follows p ∧ (boot p es ena).vfr.Idles := by
  obtain ⟨henable, hidles⟩ := booting (fun w hw => hes ▸ hw)
  have hregs : (boot p es ena).vfr.slave.internalRegisters =
      p.configure.foldl (AvalonMmSlave.writeRegister 18) fun _ => 0 :=
    hes ▸ registers_foldl .reset es
  refine ⟨⟨rfl, .inl hp, ?_, fun b => ?_⟩, ?_⟩
  · rw [AvalonMmSlave.nextBank, hregs]
    show (p.displayFrame.setWidth 32).getLsbD 0 = decide (p.displayFrame ≠ 0)
    rw [hp]
    rfl
  · unfold AvalonMmSlave.bank AvalonMmSlave.bankAt
    rw [hregs]
    cases b <;> rfl
  · exact hidles.clock_of_not_starts (fun hstarts => by simp [hstarts.2] at henable) _

/-- An edge, with what the program may write. -/
theorem Follows.owes_step {p : VipFrameReader} {s : FrameDisplay} (h : s.Follows p)
    {owed : List VfrSignal} (hpos : ∀ b, 2 ≤ ((p.vidBank b).samples.setWidth 19).toNat)
    (howes : s.vfr.Owes (p.vidBank s.vfr.controller.bankToRead) owed) (e : DisplayEvent) :
    ∃ owed', s.signals e ++ owed' = owed ++ (s.started e).flatMap p.framePacket ∧
      (s.step e).vfr.Owes (p.vidBank (s.step e).vfr.controller.bankToRead) owed' := by
  obtain ⟨owed', hsignals, howes'⟩ := howes.clock (h.bank _) (hpos _) (s.edge e)
  have hread : (s.step e).vfr.controller.bankToRead = _ := s.vfr.bankToRead_clock (s.edge e)
  refine ⟨owed', ?_, ?_⟩
  · rw [signals, hsignals, started]
    split_ifs
    · rw [h.displayed]
      simp [VipFrameReader.framePacket]
    · rfl
  · rw [hread]
    split_ifs at howes' ⊢
    · rw [← h.bank]
      exact howes'
    · exact howes'

end FrameDisplay

/-- **What the frame reader reads are whole frames.** After `VIPFR_Init`, however its writes and
those of `VIPFR_ActiveDrawFrame` and `VIPFR_Go` come between the edges, and however often the reader
has to wait, it tells the encoder and the read master, frame after frame: the size, one burst from
the base of the frame that was displayed when this one was begun, and each of its samples once. At
any time no more than a frame is still to be told. -/
theorem frames_read_whole {frame0Base frame1Base width height : ℤ} (hpos : 2 ≤ width * height)
    (hsize : width * height < 2 ^ 19) {es : List VfrEdge}
    (hes : es.filterMap VfrEdge.write = (vipfrInit frame0Base frame1Base width height).configure)
    (ena : Bool) (events : List DisplayEvent) :
    let p := vipfrInit frame0Base frame1Base width height
    let s := FrameDisplay.boot p es ena
    ∃ rest, Machine.outputs FrameDisplay.step FrameDisplay.signals s events ++ rest =
        (Machine.outputs FrameDisplay.step FrameDisplay.started s events).flatMap p.framePacket ∧
      rest.length ≤ width * height + 2 ∧
      ((events.foldl FrameDisplay.step s).vfr.controller.state = .idle → rest = []) := by
  intro p s
  have hsamples (b : Bool) : ((p.vidBank b).samples.setWidth 19).toNat = width * height := by
    show ((BitVec.ofInt 32 (width * height)).setWidth 19).toNat = width * height
    rw [BitVec.toNat_setWidth, BitVec.toNat_ofInt]
    omega
  have hstep (s : FrameDisplay) (e : DisplayEvent) (owed : List VfrSignal)
      (h : s.Follows p ∧ s.vfr.Owes (p.vidBank s.vfr.controller.bankToRead) owed) :
      ∃ owed', ((s.step e).Follows p ∧
          (s.step e).vfr.Owes (p.vidBank (s.step e).vfr.controller.bankToRead) owed') ∧
        s.signals e ++ owed' = owed ++ (s.started e).flatMap p.framePacket := by
    have hpos (b : Bool) : 2 ≤ ((p.vidBank b).samples.setWidth 19).toNat := by
      have hb := hsamples b
      omega
    obtain ⟨owed', hsignals, howes⟩ := h.1.owes_step hpos h.2 e
    exact ⟨owed', ⟨h.1.step e, howes⟩, hsignals⟩
  obtain ⟨hfollows, hidles⟩ := FrameDisplay.boot_spec (p := p) rfl hes ena
  obtain ⟨rest, ⟨-, howes⟩, hrest⟩ :=
    Machine.outputs_owed hstep ⟨hfollows, .idle hidles rfl⟩ events
  obtain ⟨hlength, hidle⟩ := howes.bounds
  refine ⟨rest, ?_, ?_, hidle⟩
  · rw [hrest, List.nil_append, Machine.outputs_flatMap]
  · rw [← hsamples]
    exact_mod_cast hlength

/-- One frame behind the other, without an edge between the writes. -/
def screenDisplay : FrameDisplay :=
  .boot (vipfrInit 0 1920000 800 600)
    ((vipfrInit 0 1920000 800 600).configure.map fun w => ⟨true, some w⟩) true

/-- A swap and `VIPFR_Go` while the first frame is read, of the screen and of a display of two
pixels, where the other frame follows. -/
theorem frames_read_whole_screen :
    let events (n : ℕ) : List DisplayEvent :=
      [.clock true, .activeDrawFrame true, .clock false, .go true true] ++
        List.replicate n (.clock true)
    let told := Machine.outputs FrameDisplay.step FrameDisplay.signals
    let screen := vipfrInit 0 1920000 800 600
    let small := vipfrInit 0 1920000 2 1
    let smallDisplay := FrameDisplay.boot small (small.configure.map fun w => ⟨true, some w⟩) true
    (∃ rest, [.controlPacket 800 600 0, .command 0 480000, .read, .read] ++ rest =
        screen.framePacket 0 ∧ rest.length ≤ 480002) ∧
      told screenDisplay (events 8) =
        [.controlPacket 800 600 0, .command 0 480000, .read, .read] ∧
      told smallDisplay (events 14) = small.framePacket 0 ∧
      ∃ rest, told smallDisplay (events 19) ++ rest =
        small.framePacket 0 ++ small.framePacket 1920000 := by
  intro events told screen small smallDisplay
  have htold : told screenDisplay (events 8) =
      [.controlPacket 800 600 0, .command 0 480000, .read, .read] := rfl
  have hwrites (p : VipFrameReader) :
      (p.configure.map fun w => (⟨true, some w⟩ : VfrEdge)).filterMap VfrEdge.write =
        p.configure := by
    rw [List.filterMap_map]
    exact List.filterMap_some
  have hscreen : (2 : ℤ) ≤ 800 * 600 ∧ (800 : ℤ) * 600 < 2 ^ 19 := by decide
  have hsmall : (2 : ℤ) ≤ 2 * 1 ∧ (2 : ℤ) * 1 < 2 ^ 19 := by decide
  obtain ⟨rest, hrest, hlength, -⟩ :=
    frames_read_whole hscreen.1 hscreen.2 (hwrites (vipfrInit 0 1920000 800 600)) true (events 8)
  obtain ⟨rest₁, hrest₁, -, hidle⟩ :=
    frames_read_whole hsmall.1 hsmall.2 (hwrites (vipfrInit 0 1920000 2 1)) true (events 14)
  obtain ⟨rest₂, hrest₂, -⟩ :=
    frames_read_whole hsmall.1 hsmall.2 (hwrites (vipfrInit 0 1920000 2 1)) true (events 19)
  rw [hidle rfl, List.append_nil] at hrest₁
  have hbegun :
      Machine.outputs FrameDisplay.step FrameDisplay.started screenDisplay (events 8) = [0] := rfl
  have hframe : told screenDisplay (events 8) ++ rest =
      (Machine.outputs FrameDisplay.step FrameDisplay.started screenDisplay (events 8)).flatMap
        screen.framePacket := hrest
  rw [htold, hbegun, List.flatMap_singleton] at hframe
  exact ⟨⟨rest, hframe, by omega⟩, htold, hrest₁, rest₂, hrest₂⟩

end DigitalModulation
