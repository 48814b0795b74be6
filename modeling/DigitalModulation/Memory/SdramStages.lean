import Mathlib.Tactic.ByContra
import Mathlib.Tactic.Tauto
import DigitalModulation.Memory.SdramController

/-!
# The main machine of the SDRAM controller

Each state of the machine is a stage: it says which row is open, how long ago the commands were that
the next ones have to wait for, and whether a refresh is under way.

* `MainFsm.Stage`: the stages;
* `MainFsm.Around`: what happens around the machine at an edge;
* `MainFsm.Advances`, `Stage.clock`: an edge leads from a stage to a stage, with a legal command.
-/

namespace DigitalModulation

namespace MainFsm

/-! ### The stages of the main machine -/

section Stages

variable (f : EFifo SdramRequest) (refreshRequest : Bool) (m : MainFsm) (b : SdramBus)

/-- All rows are closed, and it waits for a request. -/
structure Idles : Prop where
  state : m.mState = .idle
  pop : m.fPop = false
  rest : b.AtRest
  rd : 4 ≤ b.rd
  wr : 2 ≤ b.wr
  ack : m.ackRefreshRequest = true → refreshRequest = false

/-- It has taken a request, which is still in the queue. -/
structure Takes : Prop where
  state : m.mState = .act
  pop : m.fPop = true
  rest : b.AtRest
  rd : 4 ≤ b.rd
  wr : 2 ≤ b.wr
  ack : m.ackRefreshRequest = false
  csN : m.activeCsN = false
  head : ∃ queue, f.toList = m.active :: queue

/-- The row of the active request is open. -/
structure HasRow : Prop where
  row : b.row = .opened m.active.bank m.active.row
  rd : m.active.rnw = false → 4 ≤ b.rd
  arf : 10 ≤ b.arf
  lmr : 3 ≤ b.lmr
  ack : m.ackRefreshRequest = false
  csN : m.activeCsN = false

/-- The row has been opened. -/
structure Opens : Prop extends HasRow m b where
  state : m.mState = .wait
  next : m.mNext = if m.active.rnw then .rd else .wr
  pop : m.fPop = false
  pos : 1 ≤ m.mCount.toNat
  le : m.mCount.toNat ≤ 3
  act : 4 ≤ b.act + m.mCount.toNat

/-- It reads or writes. -/
structure Accesses : Prop extends HasRow m b where
  state : m.mState = if m.active.rnw then .rd else .wr
  act : 3 ≤ b.act

/-- It waits for another request for the row. -/
structure Spins : Prop extends HasRow m b where
  state : m.mState = .spin
  pop : m.fPop = false
  act : 3 ≤ b.act
  read : 1 ≤ b.rd
  wr : 1 ≤ b.wr

/-- It stops for a refresh. -/
structure Stops : Prop where
  state : m.mState = .wait
  next : m.mNext = .idle
  pop : m.fPop = false
  refresh : refreshRequest = true
  ack : m.ackRefreshRequest = false
  pos : 1 ≤ m.mCount.toNat
  le : m.mCount.toNat ≤ 2
  rd : 3 ≤ b.rd + m.mCount.toNat
  wr : 3 ≤ b.wr + m.mCount.toNat
  arf : 10 ≤ b.arf
  lmr : 3 ≤ b.lmr

/-- It has stopped. -/
structure Stopped : Prop where
  state : m.mState = .idle
  pop : m.fPop = false
  refresh : refreshRequest = true
  ack : m.ackRefreshRequest = false
  rd : 2 ≤ b.rd
  wr : 2 ≤ b.wr
  arf : 10 ≤ b.arf
  lmr : 3 ≤ b.lmr

/-- It is going to close the row for another one. -/
structure Leaves : Prop where
  state : m.mState = .preWait
  next : m.mNext = .idle
  pop : m.fPop = false
  count : m.mCount = 1
  rd : 2 ≤ b.rd
  wr : 2 ≤ b.wr
  arf : 10 ≤ b.arf
  lmr : 3 ≤ b.lmr
  ack : m.ackRefreshRequest = false
  csN : m.activeCsN = false

/-- It closes all rows, for another row or for a refresh. -/
structure Closes : Prop where
  state : m.mState = .pre
  next : m.mNext = .idle ∨ m.mNext = .ref ∧ refreshRequest = true
  pop : m.fPop = false
  count : m.mCount = 2
  rd : 3 ≤ b.rd
  wr : 2 ≤ b.wr
  arf : 10 ≤ b.arf
  lmr : 3 ≤ b.lmr
  ack : m.ackRefreshRequest = false
  csN : m.activeCsN = false ∨ refreshRequest = true

/-- It has closed them, or has refreshed one. -/
structure Closed : Prop where
  state : m.mState = .wait
  next : m.mNext = .idle ∨ m.mNext = .ref ∧ refreshRequest = true
  pop : m.fPop = false
  row : b.row = .closed
  pos : 1 ≤ m.mCount.toNat
  le : m.mCount.toNat ≤ if m.mNext = .ref then 2 else 9
  pre : 3 ≤ b.pre + m.mCount.toNat
  arf : 10 ≤ b.arf + m.mCount.toNat
  lmr : 3 ≤ b.lmr
  rd : 4 ≤ b.rd
  wr : 2 ≤ b.wr
  ack : m.ackRefreshRequest = true →
    m.mNext = .idle ∧ (m.mCount = 9 ∨ refreshRequest = false)

/-- It refreshes. -/
structure Refreshes : Prop where
  state : m.mState = .ref
  pop : m.fPop = false
  refresh : refreshRequest = true
  rest : b.AtRest
  rd : 4 ≤ b.rd
  wr : 2 ≤ b.wr
  ack : m.ackRefreshRequest = false

/-- What is true of the main machine, of the first request in the queue and of what the commands up
to the present one have left. -/
inductive Stage : Prop
  | idles (h : m.Idles refreshRequest b)
  | takes (h : m.Takes f b)
  | opens (h : m.Opens b)
  | accesses (h : m.Accesses b)
  | spins (h : m.Spins b)
  | stops (h : m.Stops refreshRequest b)
  | stopped (h : m.Stopped refreshRequest b)
  | leaves (h : m.Leaves b)
  | closes (h : m.Closes refreshRequest b)
  | closed (h : m.Closed refreshRequest b)
  | refreshes (h : m.Refreshes refreshRequest b)

end Stages

/-! ### From stage to stage -/

variable {f f' : EFifo SdramRequest} {refreshRequest refreshRequest' : Bool} {m : MainFsm}
  {b : SdramBus} {i : InitFsm}

/-- What happens around the machine at an edge: a request for a refresh stays until it is
acknowledged, and the queue is read when the machine says so. -/
structure Around (f f' : EFifo SdramRequest) (refreshRequest refreshRequest' : Bool) (m : MainFsm)
    (b : SdramBus) : Prop where
  mode : b.mode = some 0x030
  up : 14286 ≤ b.up
  refresh : refreshRequest = true → m.ackRefreshRequest = false → refreshRequest' = true
  ack : m.ackRefreshRequest = true → refreshRequest' = false
  queue : m.fPop = false → f.toList <+: f'.toList

/-- The command of the next edge is legal, and the machine is in a stage again. -/
def Advances (f' : EFifo SdramRequest) (refreshRequest' : Bool) (b : SdramBus) (m' : MainFsm) :
    Prop :=
  b.Legal m'.pins ∧ (b.next m'.pins).mode = b.mode ∧ m'.Stage f' refreshRequest' (b.next m'.pins)

theorem advances_nop {csN : Bool} {m' : MainFsm} (hcmd : m'.mCmd = ⟨csN, .nop⟩)
    (h : m'.Stage f' refreshRequest' b.tick) : Advances f' refreshRequest' b m' := by
  unfold Advances pins
  rw [hcmd, SdramBus.next_nop]
  exact ⟨b.legal_nop _ _ _ _, rfl, h⟩

theorem csN_eq (h : m.activeCsN = false) : m.csN f = false := by
  unfold MainFsm.csN
  split_ifs
  · rfl
  · exact h

theorem Idles.clock (h : m.Idles refreshRequest b)
    (ha : Around f f' refreshRequest refreshRequest' m b) :
    Advances f' refreshRequest' b (m.clock i true refreshRequest f) := by
  obtain ⟨state, pop, rest, rd, wr, ack⟩ := h
  cases refreshRequest with
  | true =>
    have hack : m.ackRefreshRequest = false := by simpa using mt ack
    have hclock : m.clock i true true f =
        { m with
          fPop := false, oe := false, mCmd := ⟨false, .nop⟩, ackRefreshRequest := false
          mState := .pre, mNext := .ref, mCount := 2, activeCsN := true } := by
      simp [MainFsm.clock, state]
    rw [hclock]
    exact advances_nop rfl (.closes ⟨rfl, .inr ⟨rfl, ha.refresh rfl hack⟩, rfl, rfl,
      Nat.le_succ_of_le (by omega),
      Nat.le_succ_of_le wr, Nat.le_succ_of_le rest.arf, Nat.le_succ_of_le rest.lmr, rfl,
      .inr (ha.refresh rfl hack)⟩)
  | false =>
    cases hempty : f.empty with
    | true =>
      have hclock : m.clock i true false f =
          { m with
            fPop := false, oe := false, mCmd := .inhibit, ackRefreshRequest := false } := by
        simp [MainFsm.clock, state, hempty]
      rw [hclock]
      exact advances_nop rfl (.idles ⟨state, rfl, rest.tick, Nat.le_succ_of_le rd,
        Nat.le_succ_of_le wr, nofun⟩)
    | false =>
      obtain ⟨queue, hqueue⟩ := ha.queue pop
      rw [EFifo.toList_of_not_empty hempty, List.cons_append] at hqueue
      have hclock : m.clock i true false f =
          { m with
            fPop := true, oe := false, mCmd := .inhibit, ackRefreshRequest := false
            mState := .act, activeCsN := false, active := f.rdData } := by
        simp [MainFsm.clock, state, hempty, take]
      rw [hclock]
      exact advances_nop rfl (.takes ⟨rfl, rfl, rest.tick, Nat.le_succ_of_le rd,
        Nat.le_succ_of_le wr, rfl, rfl, _, hqueue.symm⟩)

theorem Takes.clock (h : m.Takes f b) (ha : Around f f' refreshRequest refreshRequest' m b) :
    Advances f' refreshRequest' b (m.clock i true refreshRequest f) := by
  obtain ⟨state, pop, rest, rd, wr, ack, csN, head⟩ := h
  have hclock : m.clock i true refreshRequest f =
      { m with
        fPop := false, oe := false, mState := .wait, mCmd := ⟨false, .act⟩
        mBank := m.active.bank, mAddr := m.active.row, mData := m.active.data
        mDqm := m.active.dqm, mCount := 3, mNext := if m.active.rnw then .rd else .wr } := by
    simp [MainFsm.clock, state, csN_eq csN]
  rw [hclock]
  refine ⟨⟨rest, ha.mode⟩, rfl, .opens ⟨⟨rfl, fun _ => ?_, ?_, ?_, ack, csN⟩, rfl, rfl, rfl,
    ?_, ?_, ?_⟩⟩
  · exact Nat.le_succ_of_le rd
  · exact Nat.le_succ_of_le rest.arf
  · exact Nat.le_succ_of_le rest.lmr
  · exact (by decide : 1 ≤ (3 : BitVec 4).toNat)
  · exact (by decide : (3 : BitVec 4).toNat ≤ 3)
  · exact (by decide : 4 ≤ 1 + (3 : BitVec 4).toNat)

/-- A clock of waiting, with more to come or with none. -/
theorem clock_wait (hstate : m.mState = .wait) (i : InitFsm) (refreshRequest : Bool)
    (f : EFifo SdramRequest) : ∃ csN, m.clock i true refreshRequest f =
      if 1 < m.mCount.toNat then
        { m with fPop := false, oe := false, mCmd := ⟨csN, .nop⟩, mCount := m.mCount - 1 }
      else { m with fPop := false, oe := false, mCmd := ⟨csN, .nop⟩, mState := m.mNext } := by
  simp only [MainFsm.clock, hstate]
  exact ⟨_, rfl⟩

theorem toNat_sub_one {count : BitVec 4} (h : 1 < count.toNat) :
    (count - 1).toNat = count.toNat - 1 := by
  bv_omega

theorem Opens.clock (h : m.Opens b) :
    Advances f' refreshRequest' b (m.clock i true refreshRequest f) := by
  obtain ⟨⟨row, rd, arf, lmr, ack, csN⟩, state, next, pop, pos, le, act⟩ := h
  have hrow : HasRow m b.tick := ⟨row, fun hw => Nat.le_succ_of_le (rd hw), Nat.le_succ_of_le arf,
    Nat.le_succ_of_le lmr, ack, csN⟩
  obtain ⟨c, hclock⟩ := clock_wait state i refreshRequest f
  rw [hclock]
  split_ifs with hcount
  · refine advances_nop rfl (.opens ⟨⟨row, hrow.rd, hrow.arf, hrow.lmr, ack, csN⟩, state, next, rfl,
      ?_, ?_, ?_⟩)
    all_goals
      simp only [toNat_sub_one hcount, SdramBus.tick]
      omega
  · refine advances_nop rfl (.accesses ⟨⟨row, hrow.rd, hrow.arf, hrow.lmr, ack, csN⟩, next, ?_⟩)
    simp only [SdramBus.tick]
    omega

theorem Stops.clock (h : m.Stops refreshRequest b)
    (ha : Around f f' refreshRequest refreshRequest' m b) :
    Advances f' refreshRequest' b (m.clock i true refreshRequest f) := by
  obtain ⟨state, next, pop, refresh, ack, pos, le, rd, wr, arf, lmr⟩ := h
  have hrefresh := ha.refresh refresh ack
  obtain ⟨c, hclock⟩ := clock_wait state i refreshRequest f
  rw [hclock]
  split_ifs with hcount
  · refine advances_nop rfl (.stops ⟨state, next, rfl, hrefresh, ack, ?_, ?_, ?_, ?_,
      Nat.le_succ_of_le arf, Nat.le_succ_of_le lmr⟩)
    all_goals
      simp only [toNat_sub_one hcount, SdramBus.tick]
      omega
  · refine advances_nop rfl (.stopped ⟨next, rfl, hrefresh, ack, ?_, ?_, Nat.le_succ_of_le arf,
      Nat.le_succ_of_le lmr⟩)
    all_goals
      simp only [SdramBus.tick]
      omega

theorem Stopped.clock (h : m.Stopped refreshRequest b)
    (ha : Around f f' refreshRequest refreshRequest' m b) :
    Advances f' refreshRequest' b (m.clock i true refreshRequest f) := by
  obtain ⟨state, pop, rfl, ack, rd, wr, arf, lmr⟩ := h
  have hclock : m.clock i true true f =
      { m with
        fPop := false, oe := false, mCmd := ⟨false, .nop⟩, ackRefreshRequest := false
        mState := .pre, mNext := .ref, mCount := 2, activeCsN := true } := by
    simp [MainFsm.clock, state]
  rw [hclock]
  exact advances_nop rfl (.closes ⟨rfl, .inr ⟨rfl, ha.refresh rfl ack⟩, rfl, rfl,
    Nat.succ_le_succ rd,
    Nat.le_succ_of_le wr, Nat.le_succ_of_le arf, Nat.le_succ_of_le lmr, rfl,
    .inr (ha.refresh rfl ack)⟩)

theorem Leaves.clock (h : m.Leaves b) :
    Advances f' refreshRequest' b (m.clock i true refreshRequest f) := by
  obtain ⟨state, next, pop, count, rd, wr, arf, lmr, ack, csN⟩ := h
  have hclock : m.clock i true refreshRequest f =
      { m with
        fPop := false, oe := false, mCmd := ⟨false, .nop⟩, mState := .pre, mCount := 2 } := by
    simp [MainFsm.clock, state, csN_eq csN, count]
  rw [hclock]
  exact advances_nop rfl (.closes ⟨rfl, .inl next, rfl, rfl, Nat.succ_le_succ rd,
    Nat.le_succ_of_le wr, Nat.le_succ_of_le arf, Nat.le_succ_of_le lmr, ack, .inl csN⟩)

theorem Closes.clock (h : m.Closes refreshRequest b)
    (ha : Around f f' refreshRequest refreshRequest' m b) :
    Advances f' refreshRequest' b (m.clock i true refreshRequest f) := by
  obtain ⟨state, next, pop, count, rd, wr, arf, lmr, ack, csN⟩ := h
  have hcsN : (if refreshRequest then false else m.csN f) = false := by
    rcases csN with hcsN | rfl
    · rw [csN_eq hcsN, ite_self]
    · rfl
  have hclock : m.clock i true refreshRequest f =
      { m with
        fPop := false, oe := false, mState := .wait, mAddr := BitVec.allOnes 13
        mCmd := ⟨false, .pre⟩ } := by
    simp only [MainFsm.clock, state, hcsN]
  have hall : (BitVec.allOnes 13).getLsbD 10 = true := by decide
  rw [hclock]
  refine ⟨⟨hall, ha.up, wr⟩, rfl, .closed ⟨rfl, next.imp_right fun hnext =>
    ⟨hnext.1, ha.refresh hnext.2 ack⟩, rfl, if_pos hall, ?_, ?_, ?_, ?_,
    Nat.le_succ_of_le lmr, Nat.succ_le_succ rd, Nat.le_succ_of_le wr, fun h => ?_⟩⟩
  · exact count ▸ (by decide : 1 ≤ (2 : BitVec 4).toNat)
  · simp only [count]
    split_ifs <;> decide
  · exact count ▸ (by decide : 3 ≤ 1 + (2 : BitVec 4).toNat)
  · exact Nat.le_add_right_of_le (Nat.le_succ_of_le arf)
  · exact absurd (ack.symm.trans h) Bool.noConfusion

theorem Closed.clock (h : m.Closed refreshRequest b)
    (ha : Around f f' refreshRequest refreshRequest' m b) :
    Advances f' refreshRequest' b (m.clock i true refreshRequest f) := by
  obtain ⟨state, next, pop, row, pos, le, pre, arf, lmr, rd, wr, ack⟩ := h
  -- An acknowledge is on its way only behind a refresh.
  have hack (hnext : m.mNext = .ref) : m.ackRefreshRequest = false := by
    by_contra hne
    have hidle := (ack (by simpa using hne)).1
    rw [hnext] at hidle
    exact MainState.noConfusion hidle
  have hnext : m.mNext = .idle ∨ m.mNext = .ref ∧ refreshRequest' = true :=
    next.imp_right fun h => ⟨h.1, ha.refresh h.2 (hack h.1)⟩
  obtain ⟨c, hclock⟩ := clock_wait state i refreshRequest f
  rw [hclock]
  split_ifs with hcount
  · refine advances_nop rfl (.closed ⟨state, hnext, rfl, row, ?_, ?_, ?_, ?_, Nat.le_succ_of_le lmr,
      Nat.le_succ_of_le rd, Nat.le_succ_of_le wr, fun h => ⟨(ack h).1, .inr (ha.ack h)⟩⟩)
    all_goals
      simp only [toNat_sub_one hcount, SdramBus.tick]
      omega
  · have hrest : b.tick.AtRest := by
      refine ⟨row, ?_, ?_, Nat.le_succ_of_le lmr⟩
      all_goals
        simp only [SdramBus.tick]
        omega
    rcases hnext with hnext | ⟨hnext, hrefresh⟩
    · exact advances_nop rfl (.idles ⟨hnext, rfl, hrest, Nat.le_succ_of_le rd,
        Nat.le_succ_of_le wr, ha.ack⟩)
    · exact advances_nop rfl (.refreshes ⟨hnext, rfl, hrefresh, hrest, Nat.le_succ_of_le rd,
        Nat.le_succ_of_le wr, hack hnext⟩)

theorem Refreshes.clock (h : m.Refreshes refreshRequest b) :
    Advances f' refreshRequest' b (m.clock i true refreshRequest f) := by
  obtain ⟨state, pop, -, rest, rd, wr, ack⟩ := h
  have hclock : m.clock i true refreshRequest f =
      { m with
        fPop := false, oe := false, ackRefreshRequest := true, mState := .wait
        mCmd := ⟨false, .arf⟩, mCount := 9, mNext := .idle } := by
    simp only [MainFsm.clock, state]
  rw [hclock]
  refine ⟨rest, rfl, .closed ⟨rfl, .inl rfl, rfl, rest.row, ?_, ?_, ?_, ?_,
    Nat.le_succ_of_le rest.lmr, Nat.le_succ_of_le rd, Nat.le_succ_of_le wr,
    fun _ => ⟨rfl, .inl rfl⟩⟩⟩
  · exact (by decide : 1 ≤ (9 : BitVec 4).toNat)
  · exact (by decide : (9 : BitVec 4).toNat ≤ if MainState.idle = .ref then 2 else 9)
  · exact Nat.le_add_right_of_le (Nat.le_succ_of_le rest.pre)
  · exact (by decide : 10 ≤ 1 + (9 : BitVec 4).toNat)

/-! ### Reading and writing -/

theorem pending_iff : m.pending f = true ↔
    f.empty = false ∧ m.activeCsN = false ∧ m.active.rnw = f.rdData.rnw ∧
      m.active.bank = f.rdData.bank ∧ m.active.row = f.rdData.row := by
  simp only [pending, isMatch, Bool.and_eq_true, Bool.not_eq_true', beq_iff_eq]
  tauto

theorem selected_like :
    (m.selected f).rnw = m.active.rnw ∧ (m.selected f).bank = m.active.bank ∧
      (m.selected f).row = m.active.row := by
  unfold selected fSelect
  split_ifs with h
  · obtain ⟨-, -, hrnw, hbank, hrow⟩ := pending_iff.mp (Bool.and_eq_true_iff.mp h).2
    exact ⟨hrnw.symm, hbank.symm, hrow.symm⟩
  · exact ⟨rfl, rfl, rfl⟩

/-- The code of the command for the next request. -/
def code (m : MainFsm) (f : EFifo SdramRequest) : SdramCode :=
  if !m.pending f && m.fPop then .nop else if m.active.rnw then .rd else .wr

theorem code_beq (code code' : SdramCode) : (code == code') = decide (code = code') := rfl

/-- A clock of reading or writing. -/
theorem clock_access (hstate : m.mState = if m.active.rnw then .rd else .wr) (i : InitFsm)
    (refreshRequest : Bool) (f : EFifo SdramRequest) :
    m.clock i true refreshRequest f =
      { m with
        fPop := false, oe := m.code f == SdramCode.wr, mCmd := ⟨m.csN f, m.code f⟩
        mBank := (m.selected f).bank, mDqm := (m.selected f).dqm
        mData := if m.active.rnw then m.mData else (m.selected f).data
        mAddr := (m.selected f).casAddr }.goOn f refreshRequest (m.pending f) := by
  unfold code
  cases hrnw : m.active.rnw with
  | true =>
    rw [hrnw] at hstate
    cases hdone : !m.pending f && m.fPop with
    | true => simp [MainFsm.clock, hstate, hdone, code_beq]
    | false => simp [MainFsm.clock, hstate, hdone, code_beq]
  | false =>
    rw [hrnw] at hstate
    cases hdone : !m.pending f && m.fPop with
    | true => simp [MainFsm.clock, hstate, hdone, code_beq]
    | false => simp [MainFsm.clock, hstate, hdone]

theorem code_cases : m.code f = .rd ∨ m.code f = .wr ∨ m.code f = .nop := by
  unfold code
  split_ifs <;> simp

theorem code_ne_rd (h : m.active.rnw = false) : m.code f ≠ .rd := by
  unfold code
  simp only [h, Bool.false_eq_true, if_false]
  split_ifs <;> simp

theorem rnw_of_code_wr (h : m.code f = .wr) : m.active.rnw = false := by
  unfold code at h
  split_ifs at h with h₁ h₂
  exact Bool.eq_false_iff.mpr h₂

theorem casAddr_getLsbD (r : SdramRequest) : r.casAddr.getLsbD 10 = false := by
  simp [SdramRequest.casAddr]

theorem Accesses.clock (h : m.Accesses b) (ha : Around f f' refreshRequest refreshRequest' m b) :
    Advances f' refreshRequest' b (m.clock i true refreshRequest f) := by
  obtain ⟨⟨row, rd, arf, lmr, ack, csN⟩, state, act⟩ := h
  obtain ⟨-, hbank, -⟩ := selected_like (m := m) (f := f)
  obtain ⟨rd', wr', hrd', hwr', hread, hnext⟩ := SdramBus.next_data (code_cases (f := f)) b
    (m.selected f).bank (m.selected f).casAddr (m.selected f).dqm
  have hrd : m.active.rnw = false → 4 ≤ rd' := fun hw => by
    rw [hread (code_ne_rd hw)]
    exact Nat.le_succ_of_le (rd hw)
  have hlegal : b.Legal ⟨⟨false, m.code f⟩, (m.selected f).bank, (m.selected f).casAddr,
      (m.selected f).dqm⟩ := by
    have hopen : ∃ r, b.row = .opened (m.selected f).bank r := ⟨_, hbank ▸ row⟩
    rcases code_cases (m := m) (f := f) with hcode | hcode | hcode
    · rw [hcode]
      exact ⟨hopen, act, casAddr_getLsbD _⟩
    · rw [hcode]
      exact ⟨hopen, act, casAddr_getLsbD _, rd (rnw_of_code_wr hcode)⟩
    · rw [hcode]
      exact b.legal_nop _ _ _ _
  have hadvance (m' : MainFsm) (hpins : m'.pins = ⟨⟨false, m.code f⟩, (m.selected f).bank,
      (m.selected f).casAddr, (m.selected f).dqm⟩)
      (hstage : m'.Stage f' refreshRequest' { b.tick with rd := rd', wr := wr' }) :
      Advances f' refreshRequest' b m' := by
    unfold Advances
    rw [hpins, hnext]
    exact ⟨hlegal, rfl, hstage⟩
  have hclock := clock_access state i refreshRequest f
  rw [csN_eq csN] at hclock
  generalize (if m.active.rnw then m.mData else (m.selected f).data) = data at hclock
  rw [hclock]
  unfold goOn
  split_ifs with hpending hrefresh
  · exact hadvance _ rfl (.stops ⟨rfl, rfl, rfl, ha.refresh hrefresh ack, ack,
      (by decide : 1 ≤ (2 : BitVec 4).toNat), (by decide : (2 : BitVec 4).toNat ≤ 2),
      Nat.add_le_add_right hrd' 2, Nat.add_le_add_right hwr' 2, Nat.le_succ_of_le arf,
      Nat.le_succ_of_le lmr⟩)
  · obtain ⟨-, -, hrnw, hbank', hrow'⟩ := pending_iff.mp hpending
    have hrow₁ : b.row = .opened f.rdData.bank f.rdData.row := hbank' ▸ hrow' ▸ row
    exact hadvance _ rfl (.accesses ⟨⟨hrow₁, hrnw ▸ hrd, Nat.le_succ_of_le arf,
      Nat.le_succ_of_le lmr, ack, rfl⟩, hrnw ▸ state, Nat.le_succ_of_le act⟩)
  · exact hadvance _ rfl (.spins ⟨⟨row, hrd, Nat.le_succ_of_le arf, Nat.le_succ_of_le lmr, ack,
      csN⟩, rfl, rfl, Nat.le_succ_of_le act, hrd', hwr'⟩)

theorem Spins.clock (h : m.Spins b) (ha : Around f f' refreshRequest refreshRequest' m b) :
    Advances f' refreshRequest' b (m.clock i true refreshRequest f) := by
  obtain ⟨⟨row, rd, arf, lmr, ack, csN⟩, state, pop, act, read, wr⟩ := h
  have hcsN := csN_eq (f := f) csN
  have hrd : m.active.rnw = false → 4 ≤ b.tick.rd := fun hw => Nat.le_succ_of_le (rd hw)
  cases refreshRequest with
  | true =>
    have hclock : m.clock i true true f =
        { m with
          fPop := false, oe := false, mCmd := ⟨false, .nop⟩, mState := .wait, mNext := .idle
          mCount := 1 } := by
      simp [MainFsm.clock, state, hcsN]
    rw [hclock]
    exact advances_nop rfl (.stops ⟨rfl, rfl, rfl, ha.refresh rfl ack, ack,
      (by decide : 1 ≤ (1 : BitVec 4).toNat), (by decide : (1 : BitVec 4).toNat ≤ 2),
      Nat.add_le_add_right read 2, Nat.add_le_add_right wr 2, Nat.le_succ_of_le arf,
      Nat.le_succ_of_le lmr⟩)
  | false =>
    cases hempty : f.empty with
    | true =>
      have hclock : m.clock i true false f =
          { m with fPop := false, oe := false, mCmd := ⟨false, .nop⟩ } := by
        simp [MainFsm.clock, state, hcsN, hempty]
      rw [hclock]
      exact advances_nop rfl (.spins ⟨⟨row, hrd, Nat.le_succ_of_le arf, Nat.le_succ_of_le lmr, ack,
        csN⟩, state, rfl, Nat.le_succ_of_le act, Nat.le_succ_of_le read, Nat.le_succ_of_le wr⟩)
    | false =>
      cases hmatch : m.isMatch f.rdData with
      | true =>
        have hclock : m.clock i true false f =
            { m with
              fPop := true, oe := false, mCmd := ⟨false, .nop⟩, activeCsN := false
              active := f.rdData, mState := if f.rdData.rnw then .rd else .wr } := by
          simp [MainFsm.clock, state, hcsN, hempty, hmatch, take]
        have hpending : m.pending f = true := by simp [pending, hmatch, hempty]
        obtain ⟨-, -, hrnw, hbank, hrow⟩ := pending_iff.mp hpending
        have hrow₁ : b.row = .opened f.rdData.bank f.rdData.row := hbank ▸ hrow ▸ row
        rw [hclock]
        exact advances_nop rfl (.accesses ⟨⟨hrow₁, hrnw ▸ hrd, Nat.le_succ_of_le arf,
          Nat.le_succ_of_le lmr, ack, rfl⟩, rfl, Nat.le_succ_of_le act⟩)
      | false =>
        have hclock : m.clock i true false f =
            { m with
              fPop := false, oe := false, mCmd := ⟨false, .nop⟩, mState := .preWait
              mNext := .idle, mCount := 1 } := by
          simp [MainFsm.clock, state, hcsN, hempty, hmatch]
        rw [hclock]
        exact advances_nop rfl (.leaves ⟨rfl, rfl, rfl, rfl, Nat.succ_le_succ read,
          Nat.succ_le_succ wr, Nat.le_succ_of_le arf, Nat.le_succ_of_le lmr, ack, csN⟩)

/-- **From stage to stage**, with legal commands. -/
theorem Stage.clock (h : m.Stage f refreshRequest b)
    (ha : Around f f' refreshRequest refreshRequest' m b) :
    Advances f' refreshRequest' b (m.clock i true refreshRequest f) := by
  cases h with
  | idles h => exact h.clock ha
  | takes h => exact h.clock ha
  | opens h => exact h.clock
  | accesses h => exact h.clock ha
  | spins h => exact h.clock ha
  | stops h => exact h.clock ha
  | stopped h => exact h.clock ha
  | leaves h => exact h.clock
  | closes h => exact h.clock ha
  | closed h => exact h.clock ha
  | refreshes h => exact h.clock

end MainFsm

end DigitalModulation
