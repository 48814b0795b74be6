import DigitalModulation.Memory.SdramProtocol
import Mathlib.Tactic.MkIffOfInductiveProp
import Mathlib.Tactic.SplitIfs

/-!
# The SDRAM controller

`DE1_SoC_QSYS_sdram` takes requests into a queue of two, and gives the chip the commands for them. A
state machine of its own starts the chip up, and every 1117 clocks the main one stops for a refresh.

* `EFifo`: the queue;
* `InitFsm`, `MainFsm`: the two state machines;
* `SdramController`: the controller, made of them, the refresh counter and what follows the reads;
* `MainFsm.inHand`, `MainFsm.issued`: which requests the main machine has taken from the queue, and
  which of them it gives to the chip at an edge;
* `conservation`: no request is lost, given twice or given out of turn.
-/

namespace DigitalModulation

/-! ### The queue -/

/-- The registers of `DE1_SoC_QSYS_sdram_input_efifo_module`. -/
structure EFifo (α : Type*) where
  entries : BitVec 2
  entry0 : α
  entry1 : α
  rdAddress : Bool
  wrAddress : Bool

namespace EFifo

variable {α : Type*}

def full (f : EFifo α) : Bool := f.entries == 2

def empty (f : EFifo α) : Bool := f.entries == 0

def rdData (f : EFifo α) : α := if f.rdAddress then f.entry1 else f.entry0

/-- `reset_n`, which leaves the entries as they are. -/
def reset (f : EFifo α) : EFifo α := { f with entries := 0, rdAddress := false, wrAddress := false }

/-- A rising edge. -/
def clock (f : EFifo α) (rd wr : Bool) (wrData : α) : EFifo α :=
  let f' : EFifo α :=
    { f with
      entry0 := if (wr && !f.full) && !f.wrAddress then wrData else f.entry0
      entry1 := if (wr && !f.full) && f.wrAddress then wrData else f.entry1 }
  match rd, wr with
  | false, false => f'
  | false, true =>
    if f.full then f' else { f' with entries := f.entries + 1, wrAddress := !f.wrAddress }
  | true, false =>
    if f.empty then f' else { f' with entries := f.entries - 1, rdAddress := !f.rdAddress }
  | true, true => { f' with wrAddress := !f.wrAddress, rdAddress := !f.rdAddress }

/-- What is in the queue, the first to leave it first. -/
def toList (f : EFifo α) : List α :=
  if f.entries = 0 then []
  else if f.entries = 1 then [f.rdData]
  else [f.rdData, if f.rdAddress then f.entry0 else f.entry1]

/-- The addresses say how many entries there are. -/
@[mk_iff]
structure Wf (f : EFifo α) : Prop where
  entries : f.entries = 0 ∨ f.entries = 1 ∨ f.entries = 2
  addresses : f.wrAddress = xor f.rdAddress (f.entries == 1)

theorem wf_reset (f : EFifo α) : f.reset.Wf := ⟨.inl rfl, rfl⟩

theorem toList_reset (f : EFifo α) : f.reset.toList = [] := rfl

theorem length_toList_le (f : EFifo α) : f.toList.length ≤ 2 := by
  unfold toList
  split_ifs <;> simp

theorem toList_of_empty {f : EFifo α} (h : f.empty = true) : f.toList = [] :=
  if_pos (beq_iff_eq.mp h)

theorem toList_of_not_empty {f : EFifo α} (h : f.empty = false) :
    f.toList = f.rdData :: f.toList.tail := by
  have hne : f.entries ≠ 0 := beq_eq_false_iff_ne.mp h
  unfold toList
  rw [if_neg hne]
  split_ifs <;> rfl

/-- **A queue**: an edge takes the first entry away if it is read, and puts a written one last. -/
theorem Wf.clock {f : EFifo α} (h : f.Wf) {rd wr : Bool} (hrd : rd = true → f.empty = false)
    (hwr : wr = true → f.full = false) (wrData : α) :
    (f.clock rd wr wrData).Wf ∧ (f.clock rd wr wrData).toList =
      (if rd then f.toList.tail else f.toList) ++ if wr then [wrData] else [] := by
  obtain ⟨entries, entry0, entry1, rdAddress, wrAddress⟩ := f
  obtain ⟨hentries, haddresses⟩ := h
  dsimp only at hentries haddresses
  subst haddresses
  rcases hentries with rfl | rfl | rfl <;> cases rd <;> cases wr
  -- What an empty queue has to give and a full one has to take is excluded.
  all_goals first
    | exact absurd (hrd rfl) Bool.noConfusion
    | exact absurd (hwr rfl) Bool.noConfusion
    | cases rdAddress <;> simp [EFifo.clock, full, empty, toList, rdData, wf_iff]

end EFifo

/-! ### Requests -/

/-- What the queue holds: `{az_wr_n, az_addr, az_wr_n ? 2'b0 : az_be_n, az_data}`. -/
structure SdramRequest where
  rnw : Bool
  addr : BitVec 25
  dqm : BitVec 2
  data : BitVec 16

namespace SdramRequest

def bank (r : SdramRequest) : BitVec 2 := r.addr.extractLsb' 24 1 ++ r.addr.extractLsb' 10 1

def row (r : SdramRequest) : BitVec 13 := r.addr.extractLsb' 11 13

/-- The column, on the thirteen lines of `zs_addr`. -/
def casAddr (r : SdramRequest) : BitVec 13 := (r.addr.extractLsb' 0 10).setWidth 13

end SdramRequest

/-! ### Starting up -/

/-- `i_state`: `000`, `001`, `010`, `011`, `101` and `111`. -/
inductive InitState
  | start
  | precharge
  | refresh
  | wait
  | done
  | mode
  deriving DecidableEq

structure InitFsm where
  iState : InitState
  iNext : InitState
  iCmd : SdramCmd
  iAddr : BitVec 13
  iCount : BitVec 4
  iRefs : BitVec 3

namespace InitFsm

/-- `reset_n`, which leaves `i_refs` as it is. -/
def reset (s : InitFsm) : InitFsm := ⟨.start, .start, .inhibit, BitVec.allOnes 13, 0, s.iRefs⟩

/-- A rising edge; `counted` when `refresh_counter` is 0. -/
def clock (s : InitFsm) (counted : Bool) : InitFsm :=
  let s' := { s with iAddr := BitVec.allOnes 13 }
  match s.iState with
  | .start =>
    { s' with
      iCmd := .inhibit, iRefs := 0, iState := if counted then .precharge else .start }
  | .precharge => { s' with iState := .wait, iCmd := ⟨false, .pre⟩, iCount := 2, iNext := .refresh }
  | .refresh =>
    { s' with
      iCmd := ⟨false, .arf⟩, iRefs := s.iRefs + 1, iState := .wait, iCount := 9
      iNext := if s.iRefs == 1 then .mode else .refresh }
  | .wait =>
    if 1 < s.iCount.toNat then { s' with iCmd := ⟨false, .nop⟩, iCount := s.iCount - 1 }
    else { s' with iCmd := ⟨false, .nop⟩, iState := s.iNext }
  | .done => s'
  | .mode =>
    { s' with
      iState := .wait, iCmd := ⟨false, .lmr⟩, iAddr := 0x030, iCount := 4, iNext := .done }

end InitFsm

/-! ### The main machine -/

/-- `m_state`, from `9'b000000001` on. -/
inductive MainState
  | idle
  | act
  | wait
  | rd
  | wr
  | preWait
  | pre
  | ref
  | spin
  deriving DecidableEq

/-- The registers that the main machine writes. -/
structure MainFsm where
  mState : MainState
  mNext : MainState
  mCmd : SdramCmd
  mBank : BitVec 2
  mAddr : BitVec 13
  mData : BitVec 16
  mDqm : BitVec 2
  mCount : BitVec 4
  ackRefreshRequest : Bool
  fPop : Bool
  oe : Bool
  activeCsN : Bool
  active : SdramRequest

namespace MainFsm

/-- `reset_n`, which leaves the active request as it is. -/
def reset (m : MainFsm) : MainFsm where
  mState := .idle
  mNext := .idle
  mCmd := .inhibit
  mBank := 0
  mAddr := 0
  mData := 0
  mDqm := 0
  mCount := 0
  ackRefreshRequest := false
  fPop := false
  oe := false
  activeCsN := m.activeCsN
  active := m.active

/-- `csn_match && rnw_match && bank_match && row_match`, where `f_cs_n` is 0. -/
def isMatch (m : MainFsm) (f : SdramRequest) : Bool :=
  m.activeCsN == false && m.active.rnw == f.rnw && m.active.bank == f.bank && m.active.row == f.row

def pending (m : MainFsm) (f : EFifo SdramRequest) : Bool := m.isMatch f.rdData && !f.empty

def fSelect (m : MainFsm) (f : EFifo SdramRequest) : Bool := m.fPop && m.pending f

/-- `csn_decode`. -/
def csN (m : MainFsm) (f : EFifo SdramRequest) : Bool := if m.fSelect f then false else m.activeCsN

/-- The request under way in a read or a write state. -/
def selected (m : MainFsm) (f : EFifo SdramRequest) : SdramRequest :=
  if m.fSelect f then f.rdData else m.active

/-- The first entry of the queue becomes active, and is to be taken away. -/
def take (m : MainFsm) (f : EFifo SdramRequest) : MainFsm :=
  { m with fPop := true, activeCsN := false, active := f.rdData }

/-- What follows a read or a write: the next one, a refresh, or waiting for requests. -/
def goOn (m : MainFsm) (f : EFifo SdramRequest) (refreshRequest pending : Bool) : MainFsm :=
  if pending then
    if refreshRequest then { m with mState := .wait, mNext := .idle, mCount := 2 }
    else m.take f
  else { m with mState := .spin }

/-- A rising edge. -/
def clock (m : MainFsm) (i : InitFsm) (initDone refreshRequest : Bool) (f : EFifo SdramRequest) :
    MainFsm :=
  let m' := { m with fPop := false, oe := false }
  match m.mState with
  | .idle =>
    if initDone then
      if refreshRequest then
        { m' with
          mCmd := ⟨false, .nop⟩, ackRefreshRequest := false, mState := .pre, mNext := .ref
          mCount := 2, activeCsN := true }
      else if !f.empty then
        { m'.take f with mCmd := .inhibit, ackRefreshRequest := false, mState := .act }
      else { m' with mCmd := .inhibit, ackRefreshRequest := false }
    else { m' with mAddr := i.iAddr, mState := .idle, mNext := .idle, mCmd := i.iCmd }
  | .act =>
    { m' with
      mState := .wait, mCmd := ⟨m.csN f, .act⟩, mBank := m.active.bank, mAddr := m.active.row
      mData := m.active.data, mDqm := m.active.dqm, mCount := 3
      mNext := if m.active.rnw then .rd else .wr }
  | .wait =>
    let m'' := { m' with mCmd := ⟨if m.mNext = MainState.ref then false else m.csN f, .nop⟩ }
    if 1 < m.mCount.toNat then { m'' with mCount := m.mCount - 1 }
    else { m'' with mState := m.mNext }
  | .rd =>
    let m'' :=
      { m' with
        mCmd := ⟨m.csN f, if !m.pending f && m.fPop then .nop else .rd⟩
        mBank := (m.selected f).bank, mDqm := (m.selected f).dqm
        mAddr := (m.selected f).casAddr }
    m''.goOn f refreshRequest (m.pending f)
  | .wr =>
    let m'' :=
      { m' with
        mCmd := ⟨m.csN f, if !m.pending f && m.fPop then .nop else .wr⟩
        oe := !(!m.pending f && m.fPop), mData := (m.selected f).data
        mDqm := (m.selected f).dqm, mBank := (m.selected f).bank
        mAddr := (m.selected f).casAddr }
    m''.goOn f refreshRequest (m.pending f)
  | .preWait =>
    let m'' := { m' with mCmd := ⟨m.csN f, .nop⟩ }
    if 1 < m.mCount.toNat then { m'' with mCount := m.mCount - 1 }
    else { m'' with mState := .pre, mCount := 2 }
  | .pre =>
    { m' with
      mState := .wait, mAddr := BitVec.allOnes 13
      mCmd := ⟨if refreshRequest then false else m.csN f, .pre⟩ }
  | .ref =>
    { m' with
      ackRefreshRequest := true, mState := .wait, mCmd := ⟨false, .arf⟩, mCount := 9
      mNext := .idle }
  | .spin =>
    let m'' := { m' with mCmd := ⟨m.csN f, .nop⟩ }
    if refreshRequest then { m'' with mState := .wait, mNext := .idle, mCount := 1 }
    else if !f.empty then
      if m.isMatch f.rdData then
        { m''.take f with mState := if f.rdData.rnw then .rd else .wr }
      else { m'' with mState := .preWait, mNext := .idle, mCount := 1 }
    else m''

/-- The lines of the chip. -/
def pins (m : MainFsm) : SdramPins := ⟨m.mCmd, m.mBank, m.mAddr, m.mDqm⟩

/-! ### Requests under way -/

/-- The requests that have been taken from the queue and not been given to the chip. -/
def inHand (m : MainFsm) : List SdramRequest :=
  match m.mState with
  | .wait => if m.mNext = .rd ∨ m.mNext = .wr then [m.active] else []
  | .rd | .wr => if m.fPop then [] else [m.active]
  | _ => []

/-- The request that is given to the chip with the next edge. -/
def issued (m : MainFsm) (f : EFifo SdramRequest) : List SdramRequest :=
  match m.mState with
  | .rd | .wr => if !m.pending f && m.fPop then [] else [m.selected f]
  | _ => []

end MainFsm

/-! ### The controller -/

structure SdramController where
  fifo : EFifo SdramRequest
  refreshCounter : BitVec 14
  refreshRequest : Bool
  zaCannotrefresh : Bool
  initDone : Bool
  init : InitFsm
  main : MainFsm
  rdValid : BitVec 3
  zaData : BitVec 16
  zaValid : Bool

/-- What is asked for at an edge; of the lines that end in `n`, low is active. -/
structure SdramIn where
  azAddr : BitVec 25
  azBeN : BitVec 2
  azData : BitVec 16
  azRdN : Bool
  azWrN : Bool

/-- `wr_data` of the queue. -/
def SdramIn.request (i : SdramIn) : SdramRequest :=
  ⟨i.azWrN, i.azAddr, if i.azWrN then 0 else i.azBeN, i.azData⟩

namespace SdramController

/-- `reset_n`. -/
def reset (c : SdramController) : SdramController where
  fifo := c.fifo.reset
  refreshCounter := 14286
  refreshRequest := false
  zaCannotrefresh := false
  initDone := false
  init := c.init.reset
  main := c.main.reset
  rdValid := 0
  zaData := 0
  zaValid := false

/-- `wr` of the queue. -/
def accepts (c : SdramController) (i : SdramIn) : Bool := (!i.azWrN || !i.azRdN) && !c.fifo.full

/-- A rising edge, with what is on the data lines `zs_dq`. -/
def clock (c : SdramController) (i : SdramIn) (zsDq : BitVec 16) : SdramController where
  fifo := c.fifo.clock (c.main.fSelect c.fifo) (c.accepts i) i.request
  refreshCounter := if c.refreshCounter == 0 then 1116 else c.refreshCounter - 1
  refreshRequest :=
    (c.refreshCounter == 0 || c.refreshRequest) && !c.main.ackRefreshRequest && c.initDone
  zaCannotrefresh := c.refreshCounter == 0 && c.refreshRequest
  initDone := c.initDone || c.init.iState == .done
  init := c.init.clock (c.refreshCounter == 0)
  main := c.main.clock c.init c.initDone c.refreshRequest c.fifo
  rdValid := c.rdValid <<< 1 ||| (if c.main.mCmd.code == .rd then 1 else 0)
  zaData := zsDq
  zaValid := c.rdValid.getLsbD 2

end SdramController

end DigitalModulation
