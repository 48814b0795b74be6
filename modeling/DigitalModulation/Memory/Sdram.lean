import DigitalModulation.Memory.SdramBus
import DigitalModulation.Memory.SdramChip
import DigitalModulation.Memory.SdramRequests

/-!
# The SDRAM as a memory

The controller and the chip have the lines between them and nothing else. The controller takes a
word from the lines when it believes that the chip puts one on them.

* `Sdram`: the two together;
* `Sdram.todo`, `Sdram.inFlight`, `Sdram.contents`: the requests that have been accepted and not
  been given to the chip, the words that have been asked of it and not been given back, and the
  memory;
* `Sdram.Inv`: what the controller believes of the chip is so;
* `Inv.contents_clock`, `Inv.inFlight_clock`: what an edge does to the memory and to the words;
* `sdram_is_memory`: a run.
-/

namespace DigitalModulation

/-! ### What the commands leave -/

namespace SdramBus

theorem rd_next_le (b : SdramBus) (p : SdramPins) : (b.next p).rd ≤ b.rd + 1 := by
  obtain ⟨⟨csN, code⟩, ba, addr, dqm⟩ := p
  cases csN with
  | true => exact le_rfl
  | false => cases code <;> first | exact le_rfl | exact Nat.le_add_left 1 _

theorem row_next {b : SdramBus} {p : SdramPins} {bank : BitVec 2} {row : BitVec 13}
    (h : (b.next p).row = .opened bank row) :
    p.isCode .act = true ∧ p.ba = bank ∧ p.addr = row ∨
      p.isCode .act = false ∧ b.row = .opened bank row := by
  obtain ⟨⟨csN, code⟩, ba, addr, dqm⟩ := p
  cases csN with
  | true => exact .inr ⟨rfl, h⟩
  | false =>
    cases code with
    | act =>
      injection h with hbank hrow
      exact .inl ⟨rfl, hbank, hrow⟩
    | pre =>
      simp only [next] at h
      split_ifs at h
      exact .inr ⟨rfl, h⟩
    | _ => exact .inr ⟨rfl, h⟩

theorem mode_next {b : SdramBus} {p : SdramPins} {mode : BitVec 13}
    (h : (b.next p).mode = some mode) :
    p.isCode .lmr = true ∧ p.addr = mode ∨ p.isCode .lmr = false ∧ b.mode = some mode := by
  obtain ⟨⟨csN, code⟩, ba, addr, dqm⟩ := p
  cases csN with
  | true => exact .inr ⟨rfl, h⟩
  | false =>
    cases code with
    | lmr =>
      injection h with hmode
      exact .inl ⟨rfl, hmode⟩
    | _ => exact .inr ⟨rfl, h⟩

end SdramBus

/-! ### Controller and chip -/

structure Sdram where
  controller : SdramController
  chip : SdramChip

/-- What is asked for at an edge, and what lines carry that are not driven. -/
structure SdramEdge where
  ask : SdramIn
  floating : BitVec 16

namespace Sdram

def pins (s : Sdram) : SdramPins := s.controller.main.pins

/-- What the controller drives byte `k` of the data lines with. -/
def drives (s : Sdram) (k : ℕ) : Option (BitVec 8) :=
  if s.controller.main.oe then some (laneOf s.controller.main.mData k) else none

def lane (s : Sdram) (floating : BitVec 16) (k : ℕ) : BitVec 8 :=
  wire (s.drives k) (s.chip.drives s.pins k) (laneOf floating k)

def zsDq (s : Sdram) (floating : BitVec 16) : BitVec 16 := s.lane floating 1 ++ s.lane floating 0

/-- A rising edge at both. -/
def clock (s : Sdram) (e : SdramEdge) : Sdram where
  controller := s.controller.clock e.ask (s.zsDq e.floating)
  chip := s.chip.clock s.pins (s.zsDq e.floating)

/-- The request that is accepted with an edge. -/
def accepted (s : Sdram) (e : SdramEdge) : List SdramRequest :=
  if s.controller.accepts e.ask then [e.ask.request] else []

/-- The word that is given back with an edge. -/
def answered (s : Sdram) (_ : SdramEdge) : List (BitVec 16) :=
  if s.controller.zaValid then [s.controller.zaData] else []

/-- The requests that have been accepted and not been given to the chip. -/
def todo (s : Sdram) : List SdramRequest := s.controller.main.inHand ++ s.controller.fifo.toList

/-- The memory when the command on the lines has been carried out. -/
def contents (s : Sdram) : BitVec 25 → BitVec 16 :=
  if s.pins.cmd.code = .wr then
    Function.update s.chip.memArray (s.chip.testAddr s.pins)
      (masked s.pins.dqm (s.chip.memArray (s.chip.testAddr s.pins)) s.controller.main.mData)
  else s.chip.memArray

/-- The words that have been asked of the chip and not been given back. -/
def inFlight (s : Sdram) : List (BitVec 16) :=
  (if s.controller.zaValid then [s.controller.zaData] else []) ++
    ((if s.controller.rdValid.getLsbD 2 then [s.contents s.chip.pipe2.addr] else []) ++
      ((if s.controller.rdValid.getLsbD 1 then [s.contents s.chip.pipe1.addr] else []) ++
        ((if s.controller.rdValid.getLsbD 0 then [s.contents s.chip.pipe0.addr] else []) ++
          if s.pins.cmd.code = .rd then [s.contents (s.chip.testAddr s.pins)] else [])))

/-- What the controller believes of a register of the pipe is so, and, some clocks after power-up,
nothing else is in it. -/
structure Tracks (valid : Bool) (p : ReadStage) (b : SdramBus) (k : ℕ) : Prop where
  sound : valid = true → p.valid = true ∧ p.mask = 0 ∧ b.rd ≤ k + 2
  complete : k + 1 ≤ b.up → p.valid = true → valid = true

theorem Tracks.next {valid : Bool} {p : ReadStage} {b : SdramBus} {k : ℕ} (h : Tracks valid p b k)
    (pins : SdramPins) : Tracks valid p (b.next pins) (k + 1) := by
  refine ⟨fun hv => ?_, fun hup => h.complete ?_⟩
  · obtain ⟨hvalid, hmask, hrd⟩ := h.sound hv
    have hnext := b.rd_next_le pins
    exact ⟨hvalid, hmask, by omega⟩
  · rw [SdramBus.up_next] at hup
    omega

/-- The controller, the chip and what the commands have left fit together. -/
structure Inv (s : Sdram) (b : SdramBus) : Prop where
  obeys : s.controller.Obeys b
  start : s.controller.initDone = false → s.controller.rdValid = 0 ∧
    s.pins.cmd.code ≠ .rd ∧ s.pins.cmd.code ≠ .wr ∧
      s.controller.init.iCmd.code ≠ .rd ∧ s.controller.init.iCmd.code ≠ .wr
  reads : s.pins.cmd.code = .rd → s.pins.cmd.csN = false ∧ s.pins.dqm = 0 ∧ b.rd = 1
  writes : s.pins.cmd.code = .wr → s.pins.cmd.csN = false ∧ s.controller.main.oe = true ∧ 5 ≤ b.rd
  oe : s.controller.main.oe = true → s.pins.cmd.code = .wr
  crb : ∀ bank row, b.row = .opened bank row → (s.chip.clock s.pins 0).addrCrb =
    bank.extractLsb' 1 1 ++ row ++ bank.extractLsb' 0 1
  latency : b.mode = some 0x030 → (s.chip.clock s.pins 0).latency = 3
  latched : s.controller.rdValid ≠ 0 → s.chip.latency = 3
  pipe0 : Tracks (s.controller.rdValid.getLsbD 0) s.chip.pipe0 b 0
  pipe1 : Tracks (s.controller.rdValid.getLsbD 1) s.chip.pipe1 b 1
  pipe2 : Tracks (s.controller.rdValid.getLsbD 2) s.chip.pipe2 b 2
  masks : ∀ r ∈ s.todo, r.rnw = true → r.dqm = 0

theorem rdValid_shift (v : BitVec 3) (strobe : Bool) :
    (v <<< 1 ||| if strobe then 1 else 0).getLsbD 0 = strobe ∧
      (v <<< 1 ||| if strobe then 1 else 0).getLsbD 1 = v.getLsbD 0 ∧
      (v <<< 1 ||| if strobe then 1 else 0).getLsbD 2 = v.getLsbD 1 := by
  revert v strobe
  decide

variable {s : Sdram} {b : SdramBus}

/-- The request that is given to the chip with an edge. -/
def given (s : Sdram) : List SdramRequest := s.controller.main.issued s.controller.fifo

theorem Inv.issue (h : s.Inv b) (e : SdramEdge) :
    (s.clock e).controller.main.Gives s.given ∧ (∀ r ∈ s.given, b.row = .opened r.bank r.row) ∧
      s.todo ++ s.accepted e = s.given ++ (s.clock e).todo := by
  have hfifo := (SdramController.fifo_clock h.obeys.wf e.ask).2
  have hobeys := h.obeys
  cases hobeys with
  | starts wf done state pop ack legal stage =>
    obtain ⟨-, -, -, hrd, hwr⟩ := h.start done
    have hmain : (s.clock e).controller.main =
        { s.controller.main with
          fPop := false, oe := false, mAddr := s.controller.init.iAddr, mState := .idle
          mNext := .idle, mCmd := s.controller.init.iCmd } := by
      simp [Sdram.clock, SdramController.clock, MainFsm.clock, state, done]
    have hgiven : s.given = [] := by simp only [given, MainFsm.issued, state]
    rw [hgiven]
    refine ⟨hmain ▸ .none hrd hwr rfl, fun r hr => absurd hr List.not_mem_nil, ?_⟩
    have hinHand : s.controller.main.inHand = [] := by simp only [MainFsm.inHand, state]
    show _ ++ _ ++ _ = [] ++ (_ ++ (s.controller.fifo.clock _ _ _).toList)
    rw [hfifo, MainFsm.fSelect_of_pop pop, if_neg Bool.false_ne_true, hinHand, hmain]
    rfl
  | runs wf done mode up stage =>
    have hmain : (s.clock e).controller.main = s.controller.main.clock s.controller.init true
        s.controller.refreshRequest s.controller.fifo := SdramController.main_clock done _ _
    refine ⟨hmain ▸ stage.gives, fun r hr => stage.row_of_mem_issued hr, ?_⟩
    have hkeep := stage.conservation s.controller.init
    show _ ++ _ ++ _ = _ ++ (_ ++ (s.controller.fifo.clock _ _ _).toList)
    rw [hkeep, hfifo, hmain, List.append_assoc, List.append_assoc]
    rfl

theorem isCode_of {p : SdramPins} {code : SdramCode} (hcsN : p.cmd.csN = false)
    (hcode : p.cmd.code = code) : p.isCode code = true := by
  simp [SdramPins.isCode, hcsN, hcode]

theorem code_of_isCode {p : SdramPins} {code : SdramCode} (h : p.isCode code = true) :
    p.cmd.code = code := by
  have hcode := (Bool.and_eq_true_iff.mp h).2
  exact of_decide_eq_true hcode

/-- A word is only written when nothing that is read is in the chip. -/
theorem Inv.not_read (h : s.Inv b) (hwr : s.pins.cmd.code = .wr) : s.chip.read.valid = false := by
  obtain ⟨-, -, hrd⟩ := h.writes hwr
  have hup : 14286 ≤ b.up := by
    have hobeys := h.obeys
    cases hobeys with
    | starts wf done => exact absurd hwr (h.start done).2.2.1
    | runs wf done mode up => exact up
  have hnot {valid : Bool} {p : ReadStage} {k : ℕ} (hk : k ≤ 2) (ht : Tracks valid p b k) :
      p.valid = false := by
    by_contra hne
    have hage := (ht.sound (ht.complete (by omega) (by simpa using hne))).2.2
    omega
  unfold SdramChip.read
  split_ifs
  · exact hnot (by decide) h.pipe0
  · exact hnot (by decide) h.pipe1
  · exact hnot (by decide) h.pipe2

/-- The chip carries out the command on the lines. -/
theorem Inv.memArray_clock (h : s.Inv b) (e : SdramEdge) :
    (s.clock e).chip.memArray = s.contents := by
  unfold contents
  split_ifs with hwr
  · obtain ⟨hcsN, hoe, -⟩ := h.writes hwr
    have hcode := isCode_of hcsN hwr
    have hdata : s.zsDq e.floating = s.controller.main.mData := by
      unfold zsDq lane drives SdramChip.drives
      simp only [hoe, h.not_read hwr, if_true, Bool.false_and, Bool.false_eq_true, if_false, wire]
      exact laneOf_append _
    simp only [Sdram.clock, SdramChip.clock, SdramChip.readData, hcode, hdata, if_true]
  · have hcode : s.pins.isCode .wr = false := by
      by_contra hne
      exact hwr (code_of_isCode (by simpa using hne))
    simp only [Sdram.clock, SdramChip.clock, hcode, Bool.false_eq_true, if_false]

/-- The word that the controller takes from the lines is the one that was asked for. -/
theorem Inv.zsDq_eq (h : s.Inv b) (hvalid : s.controller.rdValid.getLsbD 2 = true)
    (floating : BitVec 16) : s.zsDq floating = s.contents s.chip.pipe2.addr := by
  obtain ⟨hpipe, hmask, hrd⟩ := h.pipe2.sound hvalid
  have hwr : s.pins.cmd.code ≠ .wr := fun hwr => by
    have hage := (h.writes hwr).2.2
    omega
  have hcode : s.pins.isCode .wr = false := by
    by_contra hne
    exact hwr (code_of_isCode (by simpa using hne))
  have hoe : s.controller.main.oe = false := by
    by_contra hne
    exact hwr (h.oe (by simpa using hne))
  have hlatency : s.chip.latency = 3 := h.latched fun hzero => by simp [hzero] at hvalid
  have hread : s.chip.read = s.chip.pipe2 := by
    unfold SdramChip.read
    rw [hlatency]
    rfl
  unfold zsDq lane drives SdramChip.drives
  rw [hread, hpipe, hmask]
  simp only [hoe, SdramChip.readData, hcode, hread, wire, contents, hwr, if_false,
    Bool.false_eq_true]
  exact laneOf_append _

/-- The address on the lines is that of the request that is given. -/
theorem Inv.testAddr_clock (h : s.Inv b) (e : SdramEdge) {r : SdramRequest}
    (hrow : b.row = .opened r.bank r.row) (haddr : (s.clock e).pins.addr = r.casAddr) :
    (s.clock e).chip.testAddr (s.clock e).pins = r.addr := by
  have hcrb : (s.clock e).chip.addrCrb =
      r.bank.extractLsb' 1 1 ++ r.row ++ r.bank.extractLsb' 0 1 := h.crb _ _ hrow
  rw [SdramChip.testAddr, hcrb, haddr, crb_append]

/-- The memory goes on by what is given to the chip. -/
theorem Inv.contents_clock (h : s.Inv b) (e : SdramEdge) {rs : List SdramRequest}
    (hgives : (s.clock e).controller.main.Gives rs)
    (hrow : ∀ r ∈ rs, b.row = .opened r.bank r.row) :
    (s.clock e).contents = rs.foldl SdramRequest.execute s.contents := by
  have hmem := h.memArray_clock e
  cases hgives with
  | none hrd hwr hoe =>
    have hwr' : (s.clock e).pins.cmd.code ≠ .wr := hwr
    rw [contents, if_neg hwr', hmem]
    rfl
  | one r hcmd hba haddr hdqm hoe hdata =>
    have haddr' := h.testAddr_clock e (hrow r List.mem_cons_self) haddr
    have hcode : (s.clock e).pins.cmd.code = if r.rnw then .rd else .wr := congrArg _ hcmd
    have hdqm' : (s.clock e).pins.dqm = r.dqm := hdqm
    show _ = r.execute s.contents
    rw [contents, hcode, haddr', hmem, hdqm', SdramRequest.execute]
    cases hrnw : r.rnw with
    | true => rfl
    | false =>
      rw [hdata hrnw]
      rfl

/-- What a write has to wait for. -/
theorem Inv.drained (h : s.Inv b) (hrd : 4 ≤ b.rd) :
    s.controller.rdValid.getLsbD 0 = false ∧ s.controller.rdValid.getLsbD 1 = false ∧
      s.pins.cmd.code ≠ .rd := by
  have hnot {valid : Bool} {p : ReadStage} {k : ℕ} (hk : k ≤ 1) (ht : Tracks valid p b k) :
      valid = false := by
    by_contra hne
    have hage := (ht.sound (by simpa using hne)).2.2
    omega
  refine ⟨hnot (by decide) h.pipe0, hnot (by decide) h.pipe1, fun hcode => ?_⟩
  have hage := (h.reads hcode).2.2
  omega

/-- Each read that is given to the chip comes to be in flight, and the first one in flight to be
given back. -/
theorem Inv.inFlight_clock (h : s.Inv b) (e : SdramEdge) {rs : List SdramRequest}
    (hgives : (s.clock e).controller.main.Gives rs) (hlegal : b.Legal (s.clock e).pins)
    (hrow : ∀ r ∈ rs, b.row = .opened r.bank r.row) :
    s.answered e ++ (s.clock e).inFlight =
      s.inFlight ++ Machine.outputs SdramRequest.execute SdramRequest.answer s.contents rs := by
  have hcontents := h.contents_clock e hgives hrow
  obtain ⟨hv0, hv1, hv2⟩ := rdValid_shift s.controller.rdValid (s.pins.cmd.code == .rd)
  have hback : (if (s.clock e).controller.zaValid then [(s.clock e).controller.zaData] else []) =
      if s.controller.rdValid.getLsbD 2 then [s.contents s.chip.pipe2.addr] else [] := by
    show (if s.controller.rdValid.getLsbD 2 then [s.zsDq e.floating] else []) = _
    split_ifs with hvalid
    · rw [h.zsDq_eq hvalid]
    · rfl
  have hnext : (s.clock e).inFlight =
      (if s.controller.rdValid.getLsbD 2 then [s.contents s.chip.pipe2.addr] else []) ++
        ((if s.controller.rdValid.getLsbD 1 then [(s.clock e).contents s.chip.pipe1.addr]
          else []) ++
          ((if s.controller.rdValid.getLsbD 0 then [(s.clock e).contents s.chip.pipe0.addr]
            else []) ++
            ((if s.pins.cmd.code = .rd then [(s.clock e).contents (s.chip.testAddr s.pins)]
              else []) ++
              if (s.clock e).pins.cmd.code = .rd then
                [(s.clock e).contents ((s.clock e).chip.testAddr (s.clock e).pins)] else []))) := by
    have hv0' : (s.clock e).controller.rdValid.getLsbD 0 = (s.pins.cmd.code == .rd) := hv0
    have hv1' : (s.clock e).controller.rdValid.getLsbD 1 = s.controller.rdValid.getLsbD 0 := hv1
    have hv2' : (s.clock e).controller.rdValid.getLsbD 2 = s.controller.rdValid.getLsbD 1 := hv2
    rw [inFlight, hback, hv0', hv1', hv2']
    simp only [beq_iff_eq]
    rfl
  rw [hnext, hcontents, answered, inFlight]
  cases hgives with
  | none hrd hwr hoe =>
    have hrd' : (s.clock e).pins.cmd.code ≠ .rd := hrd
    rw [if_neg hrd']
    simp [Machine.outputs]
  | one r hcmd hba haddr hdqm hoe hdata =>
    have haddr' := h.testAddr_clock e (hrow r List.mem_cons_self) haddr
    have hcmd' : (s.clock e).pins.cmd = ⟨false, if r.rnw then .rd else .wr⟩ := hcmd
    rw [haddr', hcmd']
    cases hrnw : r.rnw with
    | true => simp [Machine.outputs, SdramRequest.execute, SdramRequest.answer, hrnw]
    | false =>
      -- A write changes the memory, but nothing is in flight that has not been read.
      have hrd : 4 ≤ b.rd := by
        unfold SdramBus.Legal at hlegal
        rw [hcmd', hrnw] at hlegal
        exact hlegal.2.2.2
      obtain ⟨hnot0, hnot1, hnot⟩ := h.drained hrd
      rw [hnot0, hnot1]
      simp [Machine.outputs, SdramRequest.answer, hrnw, hnot]

/-- The starting machine reads and writes nothing. -/
theorem code_clock {i : InitFsm} (counted : Bool)
    (h : i.iCmd.code ≠ .rd ∧ i.iCmd.code ≠ .wr) :
    (i.clock counted).iCmd.code ≠ .rd ∧ (i.clock counted).iCmd.code ≠ .wr := by
  cases hstate : i.iState with
  | done => simpa only [InitFsm.clock, hstate] using h
  | wait =>
    simp only [InitFsm.clock, hstate]
    split_ifs <;> simp
  | _ => simp [InitFsm.clock, hstate, SdramCmd.inhibit]

/-- **Every edge keeps the invariant.** -/
theorem Inv.clock (h : s.Inv b) (e : SdramEdge) : (s.clock e).Inv (b.next (s.clock e).pins) := by
  obtain ⟨hlegal, hobeys⟩ := h.obeys.clock e.ask (s.zsDq e.floating)
  obtain ⟨hgives, hrow, htodo⟩ := h.issue e
  generalize s.given = rs at hgives hrow htodo
  obtain ⟨hv0, hv1, hv2⟩ := rdValid_shift s.controller.rdValid (s.pins.cmd.code == .rd)
  have hmasks : ∀ r ∈ s.todo ++ s.accepted e, r.rnw = true → r.dqm = 0 := by
    intro r hr hrnw
    rcases List.mem_append.mp hr with hr | hr
    · exact h.masks r hr hrnw
    · unfold accepted at hr
      split_ifs at hr
      · rw [List.mem_singleton] at hr
        subst hr
        exact if_pos hrnw
      · exact absurd hr List.not_mem_nil
  rw [htodo] at hmasks
  have hdone : s.controller.rdValid ≠ 0 ∨ s.pins.cmd.code = .rd → b.mode = some 0x030 := by
    intro hreads
    have hobeys := h.obeys
    cases hobeys with
    | starts wf done =>
      obtain ⟨hzero, hrd, -⟩ := h.start done
      rcases hreads with hne | hcode
      · exact absurd hzero hne
      · exact absurd hcode hrd
    | runs wf done mode => exact mode
  refine ⟨hobeys, fun hstart => ?_, fun hcode => ?_, fun hcode => ?_, fun hoe => ?_,
    fun bank row hopen => ?_, fun hmode => ?_, fun hne => ?_, ⟨?_, ?_⟩, ?_, ?_,
    fun r hr => hmasks r (List.mem_append_right rs hr)⟩
  · have hor : (s.controller.initDone || s.controller.init.iState == .done) = false := hstart
    have hnot : s.controller.initDone = false := (Bool.or_eq_false_iff.mp hor).1
    obtain ⟨hzero, hrd, -, hcmd⟩ := h.start hnot
    have hpins : (s.clock e).pins.cmd = s.controller.init.iCmd := by
      have hobeys := h.obeys
      cases hobeys with
      | starts wf done state =>
        simp [Sdram.pins, MainFsm.pins, Sdram.clock, SdramController.clock, MainFsm.clock, state,
          done]
      | runs wf done => exact absurd (hnot.symm.trans done) Bool.noConfusion
    refine ⟨?_, hpins ▸ hcmd.1, hpins ▸ hcmd.2, code_clock _ hcmd⟩
    show s.controller.rdValid <<< 1 ||| (if s.pins.cmd.code == .rd then 1 else 0) = 0
    rw [hzero, if_neg (by simpa using hrd)]
    rfl
  · cases hgives with
    | none hrd => exact absurd hcode hrd
    | one r hcmd hba haddr hdqm hoe hdata =>
      have hcmd' : (s.clock e).pins.cmd = ⟨false, if r.rnw then .rd else .wr⟩ := hcmd
      have hrnw : r.rnw = true := by
        by_contra hne
        rw [hcmd', if_neg hne] at hcode
        exact SdramCode.noConfusion hcode
      rw [hrnw] at hcmd'
      refine ⟨congrArg _ hcmd', ?_, ?_⟩
      · exact hdqm.trans (hmasks r (List.mem_append_left _ List.mem_cons_self) hrnw)
      · unfold SdramBus.next
        rw [hcmd']
        rfl
  · cases hgives with
    | none hrd hwr => exact absurd hcode hwr
    | one r hcmd hba haddr hdqm hoe hdata =>
      have hcmd' : (s.clock e).pins.cmd = ⟨false, if r.rnw then .rd else .wr⟩ := hcmd
      have hrnw : r.rnw = false := by
        by_contra hne
        rw [hcmd', if_pos (by simpa using hne)] at hcode
        exact SdramCode.noConfusion hcode
      rw [hrnw] at hcmd'
      refine ⟨congrArg _ hcmd', hoe.trans (hrnw ▸ rfl), ?_⟩
      have hlegal' : b.Legal (s.clock e).pins := hlegal
      unfold SdramBus.Legal at hlegal'
      unfold SdramBus.next
      rw [hcmd'] at hlegal' ⊢
      exact Nat.succ_le_succ hlegal'.2.2.2
  · cases hgives with
    | none hrd hwr hoe' => exact absurd (hoe'.symm.trans hoe) Bool.noConfusion
    | one r hcmd hba haddr hdqm hoe' hdata =>
      have hrnw : r.rnw = false := by simpa using hoe'.symm.trans hoe
      have hcode : (s.clock e).pins.cmd.code = if r.rnw then .rd else .wr := congrArg _ hcmd
      rw [hcode, hrnw]
      rfl
  · show (if (s.clock e).pins.isCode .act then _ else (s.clock e).chip.addrCrb) = _
    rcases SdramBus.row_next hopen with ⟨hact, rfl, rfl⟩ | ⟨hact, hopen⟩
    · rw [if_pos hact]
    · rw [if_neg (by simp [hact])]
      exact h.crb bank row hopen
  · show (if (s.clock e).pins.isCode .lmr then _ else (s.clock e).chip.latency) = _
    rcases SdramBus.mode_next hmode with ⟨hlmr, haddr⟩ | ⟨hlmr, hmode⟩
    · rw [if_pos hlmr, haddr]
      rfl
    · rw [if_neg (by simp [hlmr])]
      exact h.latency hmode
  · refine h.latency (hdone ?_)
    by_contra hnot
    obtain ⟨hzero, hcode⟩ := not_or.mp hnot
    rw [not_not] at hzero
    have hnext : s.controller.rdValid <<< 1 ||| (if s.pins.cmd.code == .rd then 1 else 0) = 0 := by
      rw [hzero, if_neg (by simpa using hcode)]
      rfl
    exact hne hnext
  · intro hvalid
    have hcode : s.pins.cmd.code = .rd := by
      have hbeq : (s.pins.cmd.code == .rd) = true := hv0.symm.trans hvalid
      simpa using hbeq
    obtain ⟨hcsN, hdqm, hrd⟩ := h.reads hcode
    have hnext := b.rd_next_le (s.clock e).pins
    exact ⟨isCode_of hcsN hcode, hdqm, by omega⟩
  · intro _ hvalid
    have hcode := code_of_isCode hvalid
    exact hv0.trans (by simp [hcode])
  · have hnext := h.pipe0.next (s.clock e).pins
    rw [← hv1] at hnext
    exact hnext
  · have hnext := h.pipe1.next (s.clock e).pins
    rw [← hv2] at hnext
    exact hnext

theorem inv_reset (c : SdramController) (chip : SdramChip) :
    Inv ⟨c.reset, chip⟩ .powerUp where
  obeys := c.obeys_reset
  start := fun _ => ⟨rfl, nofun, nofun, nofun, nofun⟩
  reads := nofun
  writes := nofun
  oe := fun h => Bool.noConfusion h
  crb := fun _ _ h => SdramRow.noConfusion h
  latency := fun h => (Option.some_ne_none _ h.symm).elim
  latched := fun hne => absurd rfl hne
  pipe0 := ⟨fun hv => absurd hv (by simp [SdramController.reset]),
    fun hup => absurd hup (by decide)⟩
  pipe1 := ⟨fun hv => absurd hv (by simp [SdramController.reset]),
    fun hup => absurd hup (by decide)⟩
  pipe2 := ⟨fun hv => absurd hv (by simp [SdramController.reset]),
    fun hup => absurd hup (by decide)⟩
  masks := nofun

/-- The words that are still to come, and the memory after all that has been accepted. -/
structure Owes (s : Sdram) (owed : List (BitVec 16)) (mem : BitVec 25 → BitVec 16) : Prop where
  inv : ∃ b, s.Inv b
  words : owed = s.inFlight ++
    Machine.outputs SdramRequest.execute SdramRequest.answer s.contents s.todo
  memory : mem = s.todo.foldl SdramRequest.execute s.contents

theorem owes_reset (c : SdramController) (chip : SdramChip) :
    Owes ⟨c.reset, chip⟩ [] chip.memArray where
  inv := ⟨_, inv_reset c chip⟩
  words := by
    simp [inFlight, todo, pins, SdramController.reset, MainFsm.reset, MainFsm.pins, MainFsm.inHand,
      SdramCmd.inhibit, EFifo.toList_reset, Machine.outputs]
  memory := rfl

/-- **One edge**: it gives back some of what is owed, and the answer to what it accepts is added. -/
theorem Owes.clock {owed : List (BitVec 16)} {mem : BitVec 25 → BitVec 16} (h : s.Owes owed mem)
    (e : SdramEdge) : ∃ owed',
      (s.clock e).Owes owed' ((s.accepted e).foldl SdramRequest.execute mem) ∧
        s.answered e ++ owed' = owed ++
          Machine.outputs SdramRequest.execute SdramRequest.answer mem (s.accepted e) := by
  obtain ⟨⟨b, hinv⟩, rfl, rfl⟩ := h
  obtain ⟨hgives, hrow, htodo⟩ := hinv.issue e
  have hlegal := (hinv.obeys.clock e.ask (s.zsDq e.floating)).1
  have hcontents := hinv.contents_clock e hgives hrow
  refine ⟨_, ⟨⟨_, hinv.clock e⟩, rfl, ?_⟩, ?_⟩
  · rw [← List.foldl_append, htodo, List.foldl_append, hcontents]
  · rw [← List.append_assoc, hinv.inFlight_clock e hgives hlegal hrow, List.append_assoc,
      List.append_assoc, hcontents, ← Machine.outputs_append, ← htodo, Machine.outputs_append]

theorem length_todo_le (s : Sdram) : s.todo.length ≤ 3 := by
  have hfifo := s.controller.fifo.length_toList_le
  have hinHand : s.controller.main.inHand.length ≤ 1 := by
    unfold MainFsm.inHand
    split <;> (try split_ifs) <;> simp
  rw [todo, List.length_append]
  omega

theorem length_inFlight_le (s : Sdram) : s.inFlight.length ≤ 5 := by
  unfold inFlight
  split_ifs <;> simp

/-- A request has at most one answer. -/
theorem length_answers_le (mem : BitVec 25 → BitVec 16) (rs : List SdramRequest) :
    (Machine.outputs SdramRequest.execute SdramRequest.answer mem rs).length ≤ rs.length := by
  induction rs generalizing mem with
  | nil => exact le_rfl
  | cons r rs ih =>
    have hrest := ih (r.execute mem)
    have hone : (r.answer mem).length ≤ 1 := by
      unfold SdramRequest.answer
      split_ifs <;> simp
    rw [Machine.outputs, List.length_append, List.length_cons]
    omega

end Sdram

/-- The two never drive the lines at once. -/
theorem Sdram.Inv.not_both {s : Sdram} {b : SdramBus} (h : s.Inv b) (k : ℕ) :
    s.drives k = none ∨ s.chip.drives s.pins k = none := by
  cases hoe : s.controller.main.oe with
  | false => exact .inl (by simp [drives, hoe])
  | true => exact .inr (by simp [SdramChip.drives, h.not_read (h.oe hoe)])

/-- **Controller and chip together are a memory**: whatever they held at power-up, whatever is asked
for and whatever the lines carry that are not driven, the words that are given back are, in turn,
the answers of a memory that carries out the accepted requests one after another, and at any time no
more than eight of them are to come; and controller and chip never drive the lines at once. -/
theorem sdram_is_memory (c : SdramController) (chip : SdramChip) (es : List SdramEdge) :
    (∃ owed, owed.length ≤ 8 ∧
      Machine.outputs Sdram.clock Sdram.answered ⟨c.reset, chip⟩ es ++ owed =
        Machine.outputs SdramRequest.execute SdramRequest.answer chip.memArray
          (Machine.outputs Sdram.clock Sdram.accepted ⟨c.reset, chip⟩ es)) ∧
      ∀ k, (es.foldl Sdram.clock ⟨c.reset, chip⟩).drives k = none ∨
        (es.foldl Sdram.clock ⟨c.reset, chip⟩).chip.drives
          (es.foldl Sdram.clock ⟨c.reset, chip⟩).pins k = none := by
  obtain ⟨owed, howes, hout⟩ := Machine.outputs_served (P := Sdram.Owes)
    (fun _ e _ _ h => h.clock e) (Sdram.owes_reset c chip) es
  obtain ⟨b, hinv⟩ := howes.inv
  refine ⟨⟨owed, ?_, hout⟩, hinv.not_both⟩
  have hflight := (es.foldl Sdram.clock ⟨c.reset, chip⟩).length_inFlight_le
  have htodo := (es.foldl Sdram.clock ⟨c.reset, chip⟩).length_todo_le
  have hanswers := Sdram.length_answers_le (es.foldl Sdram.clock ⟨c.reset, chip⟩).contents
    (es.foldl Sdram.clock ⟨c.reset, chip⟩).todo
  rw [howes.words, List.length_append]
  omega

end DigitalModulation
