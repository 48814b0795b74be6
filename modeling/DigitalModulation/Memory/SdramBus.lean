import DigitalModulation.Lib.Machine
import DigitalModulation.Memory.SdramStages

/-!
# The commands of the SDRAM controller

One machine starts the chip up, and then the main one reads, writes and refreshes. The chip gets
their commands in one row, and each of them is legal after those before it.

* `InitFsm.Stage`: the stages of starting up;
* `SdramController.Obeys`, `Obeys.clock`: the controller keeps to the rules;
* `sdram_commands_legal`: a run.
-/

namespace DigitalModulation

/-! ### Starting up -/

/-- Nothing has been told for `n` clocks. -/
def SdramBus.untouched (n : ℕ) : SdramBus := ⟨.unknown, none, n, n, n, n, n, n, n⟩

namespace InitFsm

variable {counter : BitVec 14} {i : InitFsm} {b : SdramBus}

/-- Nothing is read or written. -/
structure Unused (b : SdramBus) : Prop where
  up : 14286 ≤ b.up
  rd : 4 ≤ b.rd
  wr : 2 ≤ b.wr

theorem Unused.tick (h : Unused b) : Unused b.tick :=
  ⟨Nat.le_succ_of_le h.up, Nat.le_succ_of_le h.rd, Nat.le_succ_of_le h.wr⟩

/-- What is true of the machine that starts the chip up, and of what the commands up to `i_cmd` have
left. -/
inductive Stage (counter : BitVec 14) (i : InitFsm) (b : SdramBus) : Prop
  | counts (n : ℕ) (state : i.iState = .start) (untouched : b = SdramBus.untouched n)
      (count : 14286 ≤ n + counter.toNat)
  | precharges (n : ℕ) (state : i.iState = .precharge) (untouched : b = SdramBus.untouched n)
      (count : 14286 ≤ n)
  | waits (state : i.iState = .wait) (next : i.iNext = .refresh ∨ i.iNext = .mode)
      (row : b.row = .closed) (pos : 1 ≤ i.iCount.toNat) (pre : 3 ≤ b.pre + i.iCount.toNat)
      (arf : 10 ≤ b.arf + i.iCount.toNat) (lmr : 3 ≤ b.lmr) (unused : Unused b)
  | refreshes (state : i.iState = .refresh ∨ i.iState = .mode) (rest : b.AtRest)
      (unused : Unused b)
  | settles (state : i.iState = .wait) (next : i.iNext = .done) (row : b.row = .closed)
      (pos : 1 ≤ i.iCount.toNat) (pre : 3 ≤ b.pre) (arf : 10 ≤ b.arf)
      (lmr : 3 ≤ b.lmr + i.iCount.toNat) (mode : b.mode = some 0x030) (unused : Unused b)
  | done (state : i.iState = .done) (cmd : i.iCmd = ⟨false, .nop⟩) (rest : b.AtRest)
      (mode : b.mode = some 0x030) (unused : Unused b)

/-- **From stage to stage**, with legal commands. -/
theorem Stage.clock (h : i.Stage counter b) (ba dqm : BitVec 2) :
    b.Legal ⟨(i.clock (counter == 0)).iCmd, ba, (i.clock (counter == 0)).iAddr, dqm⟩ ∧
      (i.clock (counter == 0)).Stage (if counter == 0 then 1116 else counter - 1)
        (b.next ⟨(i.clock (counter == 0)).iCmd, ba, (i.clock (counter == 0)).iAddr, dqm⟩) := by
  cases h with
  | counts n state untouched count =>
    have hclock : i.clock (counter == 0) =
        { i with
          iAddr := BitVec.allOnes 13, iCmd := .inhibit, iRefs := 0
          iState := if counter == 0 then .precharge else .start } := by
      simp only [InitFsm.clock, state]
    rw [hclock]
    refine ⟨trivial, ?_⟩
    show Stage _ _ b.tick
    cases hzero : counter == 0 with
    | true =>
      rw [beq_iff_eq.mp hzero] at count
      exact .precharges (n + 1) rfl (untouched ▸ rfl) (Nat.le_succ_of_le count)
    | false =>
      refine .counts (n + 1) rfl (untouched ▸ rfl) ?_
      have hne : counter ≠ 0 := beq_eq_false_iff_ne.mp hzero
      simp only [Bool.false_eq_true, if_false]
      bv_omega
  | precharges n state untouched count =>
    have hclock : i.clock (counter == 0) =
        { i with
          iAddr := BitVec.allOnes 13, iState := .wait, iCmd := ⟨false, .pre⟩, iCount := 2
          iNext := .refresh } := by
      simp only [InitFsm.clock, state]
    have hall : (BitVec.allOnes 13).getLsbD 10 = true := by decide
    subst untouched
    rw [hclock]
    refine ⟨⟨hall, count, ?_⟩, .waits rfl (.inl rfl) (if_pos hall) ?_ ?_ ?_ ?_ ⟨?_, ?_, ?_⟩⟩
    · show 2 ≤ n
      omega
    · exact (by decide : 1 ≤ (2 : BitVec 4).toNat)
    · exact (by decide : 3 ≤ 1 + (2 : BitVec 4).toNat)
    · show 10 ≤ n + 1 + 2
      omega
    · show 3 ≤ n + 1
      omega
    · show 14286 ≤ n + 1
      omega
    · show 4 ≤ n + 1
      omega
    · show 2 ≤ n + 1
      omega
  | waits state next row pos pre arf lmr unused =>
    have hclock : i.clock (counter == 0) =
        if 1 < i.iCount.toNat then
          { i with
            iAddr := BitVec.allOnes 13, iCmd := ⟨false, .nop⟩, iCount := i.iCount - 1 }
        else { i with iAddr := BitVec.allOnes 13, iCmd := ⟨false, .nop⟩, iState := i.iNext } := by
      simp only [InitFsm.clock, state]
    rw [hclock]
    rcases Nat.lt_or_ge 1 i.iCount.toNat with hcount | hcount
    · rw [if_pos hcount]
      refine ⟨trivial, .waits state next row ?_ ?_ ?_ (Nat.le_succ_of_le lmr) unused.tick⟩
      all_goals
        simp only [MainFsm.toNat_sub_one hcount, SdramBus.next_nop, SdramBus.tick]
        omega
    · rw [if_neg (Nat.not_lt.mpr hcount)]
      refine ⟨trivial, .refreshes next ⟨row, ?_, ?_, Nat.le_succ_of_le lmr⟩ unused.tick⟩
      all_goals
        simp only [SdramBus.next_nop, SdramBus.tick]
        omega
  | refreshes state rest unused =>
    rcases state with state | state
    · have hclock : i.clock (counter == 0) =
          { i with
            iAddr := BitVec.allOnes 13, iCmd := ⟨false, .arf⟩, iRefs := i.iRefs + 1
            iState := .wait, iCount := 9, iNext := if i.iRefs == 1 then .mode else .refresh } := by
        simp only [InitFsm.clock, state]
      rw [hclock]
      refine ⟨rest, .waits rfl ?_ rest.row ?_ ?_ ?_ (Nat.le_succ_of_le rest.lmr)
        ⟨unused.tick.up, unused.tick.rd, unused.tick.wr⟩⟩
      · dsimp only
        split_ifs
        · exact .inr rfl
        · exact .inl rfl
      · exact (by decide : 1 ≤ (9 : BitVec 4).toNat)
      · exact Nat.le_add_right_of_le (Nat.le_succ_of_le rest.pre)
      · exact (by decide : 10 ≤ 1 + (9 : BitVec 4).toNat)
    · have hclock : i.clock (counter == 0) =
          { i with
            iState := .wait, iCmd := ⟨false, .lmr⟩, iAddr := 0x030, iCount := 4
            iNext := .done } := by
        simp only [InitFsm.clock, state]
      rw [hclock]
      refine ⟨rest, .settles rfl rfl rest.row ?_ (Nat.le_succ_of_le rest.pre)
        (Nat.le_succ_of_le rest.arf) ?_ rfl ⟨unused.tick.up, unused.tick.rd, unused.tick.wr⟩⟩
      · exact (by decide : 1 ≤ (4 : BitVec 4).toNat)
      · exact (by decide : 3 ≤ 1 + (4 : BitVec 4).toNat)
  | settles state next row pos pre arf lmr mode unused =>
    have hclock : i.clock (counter == 0) =
        if 1 < i.iCount.toNat then
          { i with
            iAddr := BitVec.allOnes 13, iCmd := ⟨false, .nop⟩, iCount := i.iCount - 1 }
        else { i with iAddr := BitVec.allOnes 13, iCmd := ⟨false, .nop⟩, iState := i.iNext } := by
      simp only [InitFsm.clock, state]
    rw [hclock]
    rcases Nat.lt_or_ge 1 i.iCount.toNat with hcount | hcount
    · rw [if_pos hcount]
      refine ⟨trivial, .settles state next row ?_ (Nat.le_succ_of_le pre) (Nat.le_succ_of_le arf)
        ?_ mode unused.tick⟩
      all_goals
        simp only [MainFsm.toNat_sub_one hcount, SdramBus.next_nop, SdramBus.tick]
        omega
    · rw [if_neg (Nat.not_lt.mpr hcount)]
      refine ⟨trivial, .done next rfl ⟨row, Nat.le_succ_of_le pre, Nat.le_succ_of_le arf, ?_⟩ mode
        unused.tick⟩
      simp only [SdramBus.next_nop, SdramBus.tick]
      omega
  | done state cmd rest mode unused =>
    have hclock : i.clock (counter == 0) = { i with iAddr := BitVec.allOnes 13 } := by
      simp only [InitFsm.clock, state]
    rw [hclock, cmd]
    exact ⟨trivial, .done state rfl rest.tick mode unused.tick⟩

end InitFsm

/-! ### The whole controller -/

namespace SdramController

variable {c : SdramController} {b : SdramBus}

/-- The queue gives no entry that it does not have, and takes none that it has no place for. -/
theorem fifo_clock (h : c.fifo.Wf) (i : SdramIn) :
    (c.fifo.clock (c.main.fSelect c.fifo) (c.accepts i) i.request).Wf ∧
      (c.fifo.clock (c.main.fSelect c.fifo) (c.accepts i) i.request).toList =
        (if c.main.fSelect c.fifo then c.fifo.toList.tail else c.fifo.toList) ++
          if c.accepts i then [i.request] else [] := by
  refine h.clock (fun hrd => ?_) (fun hwr => ?_) _
  · exact (MainFsm.pending_iff.mp (Bool.and_eq_true_iff.mp hrd).2).1
  · simpa using (Bool.and_eq_true_iff.mp hwr).2

/-- What the starting machine has for the lines of the chip. -/
def startPins (c : SdramController) : SdramPins :=
  ⟨c.init.iCmd, c.main.mBank, c.init.iAddr, c.main.mDqm⟩

/-- The controller keeps to the rules after what its commands up to the present one have left. -/
inductive Obeys (c : SdramController) (b : SdramBus) : Prop
  | starts (wf : c.fifo.Wf) (done : c.initDone = false) (state : c.main.mState = .idle)
      (pop : c.main.fPop = false) (ack : c.main.ackRefreshRequest = false)
      (legal : b.Legal c.startPins)
      (stage : c.init.Stage c.refreshCounter (b.next c.startPins))
  | runs (wf : c.fifo.Wf) (done : c.initDone = true) (mode : b.mode = some 0x030)
      (up : 14286 ≤ b.up) (stage : c.main.Stage c.fifo c.refreshRequest b)

theorem Obeys.wf (h : c.Obeys b) : c.fifo.Wf := by
  cases h with
  | starts wf => exact wf
  | runs wf => exact wf

theorem obeys_reset (c : SdramController) : c.reset.Obeys .powerUp :=
  .starts (EFifo.wf_reset _) rfl rfl rfl rfl trivial
    (.counts 1 rfl rfl (by decide : 14286 ≤ 1 + (14286 : BitVec 14).toNat))

/-- The main machine is in a stage when the chip has been started up. -/
theorem Obeys.runs_of_done (h : c.Obeys b) (hdone : c.initDone = true) :
    (b.mode = some 0x030 ∧ 14286 ≤ b.up) ∧ c.main.Stage c.fifo c.refreshRequest b := by
  cases h with
  | starts wf done => exact absurd (hdone.symm.trans done) Bool.noConfusion
  | runs wf done mode up stage => exact ⟨⟨mode, up⟩, stage⟩

theorem Obeys.stage (h : c.Obeys b) (hdone : c.initDone = true) :
    c.main.Stage c.fifo c.refreshRequest b :=
  (h.runs_of_done hdone).2

/-- What is around the main machine then. -/
theorem Obeys.around (h : c.Obeys b) (hdone : c.initDone = true) (i : SdramIn)
    (zsDq : BitVec 16) :
    MainFsm.Around c.fifo (c.clock i zsDq).fifo c.refreshRequest (c.clock i zsDq).refreshRequest
      c.main b where
  mode := (h.runs_of_done hdone).1.1
  up := (h.runs_of_done hdone).1.2
  refresh := fun hrefresh hack => by simp [clock, hrefresh, hack, hdone]
  ack := fun hack => by simp [clock, hack]
  queue := fun hpop => by
    have hselect : c.main.fSelect c.fifo = false := by simp [MainFsm.fSelect, hpop]
    show _ <+: (c.fifo.clock _ _ _).toList
    rw [(fifo_clock h.wf i).2, hselect]
    exact List.prefix_append _ _

/-- An edge at the main machine after the start-up. -/
theorem main_clock (hdone : c.initDone = true) (i : SdramIn) (zsDq : BitVec 16) :
    (c.clock i zsDq).main = c.main.clock c.init true c.refreshRequest c.fifo := by
  simp only [SdramController.clock, hdone]

/-- **One edge**: the command is legal, and the controller goes on keeping to the rules. -/
theorem Obeys.clock (h : c.Obeys b) (i : SdramIn) (zsDq : BitVec 16) :
    b.Legal (c.clock i zsDq).main.pins ∧
      (c.clock i zsDq).Obeys (b.next (c.clock i zsDq).main.pins) := by
  have hwf := (fifo_clock h.wf i).1
  have haround := fun hdone => h.around hdone i zsDq
  cases h with
  | starts wf done state pop ack legal stage =>
    have hmain : (c.clock i zsDq).main =
        { c.main with
          fPop := false, oe := false, mAddr := c.init.iAddr, mState := .idle, mNext := .idle
          mCmd := c.init.iCmd } := by
      simp [SdramController.clock, MainFsm.clock, state, done]
    have hpins : (c.clock i zsDq).main.pins = c.startPins := by rw [hmain]; rfl
    rw [hpins]
    refine ⟨legal, ?_⟩
    obtain ⟨hlegal, hstage⟩ := stage.clock c.main.mBank c.main.mDqm
    cases hdone : c.init.iState == .done with
    | false =>
      have hstart : (c.clock i zsDq).startPins =
          ⟨(c.init.clock (c.refreshCounter == 0)).iCmd, c.main.mBank,
            (c.init.clock (c.refreshCounter == 0)).iAddr, c.main.mDqm⟩ := by
        unfold startPins
        rw [hmain]
        rfl
      refine .starts hwf ?_ (hmain ▸ rfl) (hmain ▸ rfl) (hmain ▸ ack) (hstart ▸ hlegal)
        (hstart ▸ hstage)
      simp [SdramController.clock, done, hdone]
    | true =>
      have hready : (b.next c.startPins).AtRest ∧ (b.next c.startPins).mode = some 0x030 ∧
          InitFsm.Unused (b.next c.startPins) := by
        rw [beq_iff_eq] at hdone
        cases stage with
        | counts n hstate => exact absurd (hdone.symm.trans hstate) (by decide)
        | precharges n hstate => exact absurd (hdone.symm.trans hstate) (by decide)
        | waits hstate => exact absurd (hdone.symm.trans hstate) (by decide)
        | refreshes hstate =>
          rw [hdone] at hstate
          exact absurd hstate (by decide)
        | settles hstate => exact absurd (hdone.symm.trans hstate) (by decide)
        | done hstate hcmd rest mode unused => exact ⟨rest, mode, unused⟩
      obtain ⟨hrest, hmode, hunused⟩ := hready
      refine .runs hwf ?_ hmode hunused.up (.idles ⟨hmain ▸ rfl, hmain ▸ rfl, hrest, hunused.rd,
        hunused.wr, fun hack => ?_⟩)
      · simp [SdramController.clock, hdone]
      · rw [hmain] at hack
        exact absurd (ack.symm.trans hack) Bool.noConfusion
  | runs wf done mode up stage =>
    have hmain := main_clock done i zsDq
    obtain ⟨hlegal, hmode, hstage⟩ := stage.clock (i := c.init) (haround done)
    rw [hmain]
    refine ⟨hlegal, .runs hwf ?_ (hmode.trans mode) ?_ (hmain ▸ hstage)⟩
    · simp [SdramController.clock, done]
    · rw [SdramBus.up_next]
      exact Nat.le_succ_of_le up

end SdramController

/-- **Whatever is asked for, and whatever is on the data lines, the chip is only told what it may
be told.** -/
theorem sdram_commands_legal (c : SdramController) (is : List (SdramIn × BitVec 16)) :
    Machine.Along SdramBus.next SdramBus.Legal SdramBus.powerUp
      (Machine.outputs (fun c i => c.clock i.1 i.2)
        (fun c (i : SdramIn × BitVec 16) => [(c.clock i.1 i.2).main.pins]) c.reset is) :=
  Machine.along_outputs (R := SdramController.Obeys) (fun _ _ i h => h.clock i.1 i.2)
    c.obeys_reset is

end DigitalModulation
