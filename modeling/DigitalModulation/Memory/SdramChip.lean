import Mathlib.Logic.Function.Basic
import Mathlib.Tactic.SplitIfs
import DigitalModulation.Memory.SdramController

/-!
# The SDRAM chip

`DE1_SoC_QSYS_sdram_test_component` is the chip that the controller is made for. It keeps the row
that was opened last, stores and masks bytes, and puts the word of a read on the data lines when the
read has gone through as many registers as the latency says.

* `SdramChip`: the chip;
* `SdramRequest.execute`, `SdramRequest.answer`: what a request does to a memory, and its answer;
* `SdramChip.lane`, `wire`: the data lines, which both sides can drive.
-/

namespace DigitalModulation

/-! ### Words and lines -/

/-- Byte `k` of a word. -/
def laneOf (data : BitVec 16) (k : ℕ) : BitVec 8 := data.extractLsb' (8 * k) 8

/-- A word with its bytes, and those of another one where the mask is high. -/
def masked (dqm : BitVec 2) (old new : BitVec 16) : BitVec 16 :=
  (if dqm.getLsbD 1 then laneOf old 1 else laneOf new 1) ++
    (if dqm.getLsbD 0 then laneOf old 0 else laneOf new 0)

theorem laneOf_append (data : BitVec 16) : laneOf data 1 ++ laneOf data 0 = data :=
  BitVec.extractLsb'_append_extractLsb'

/-- Lines that two sides can drive. What they carry if none does, or both, is not known. -/
def wire (a b : Option (BitVec 8)) (floating : BitVec 8) : BitVec 8 :=
  match a, b with
  | some x, none => x
  | none, some y => y
  | none, none => floating
  | some _, some _ => floating

namespace SdramRequest

/-- What a request does to a memory. -/
def execute (mem : BitVec 25 → BitVec 16) (r : SdramRequest) : BitVec 25 → BitVec 16 :=
  if r.rnw then mem else Function.update mem r.addr (masked r.dqm (mem r.addr) r.data)

/-- What it is answered. -/
def answer (mem : BitVec 25 → BitVec 16) (r : SdramRequest) : List (BitVec 16) :=
  if r.rnw then [mem r.addr] else []

end SdramRequest

/-! ### The chip -/

/-- `rd_valid_pipe[k]`, `rd_addr_pipe_k` and `rd_mask_pipe_k`. -/
structure ReadStage where
  valid : Bool
  addr : BitVec 25
  mask : BitVec 2

structure SdramChip where
  memArray : BitVec 25 → BitVec 16
  latency : BitVec 3
  addrCrb : BitVec 15
  pipe0 : ReadStage
  pipe1 : ReadStage
  pipe2 : ReadStage

/-- `CODE` of the lines, which is another one when `zs_cs_n` is high. -/
def SdramPins.isCode (p : SdramPins) (code : SdramCode) : Bool := !p.cmd.csN && p.cmd.code == code

namespace SdramChip

def testAddr (s : SdramChip) (p : SdramPins) : BitVec 25 := s.addrCrb ++ p.addr.extractLsb' 0 10

/-- The read that `index` selects. -/
def read (s : SdramChip) : ReadStage :=
  if s.latency - 1 == 0 then s.pipe0 else if s.latency - 1 == 1 then s.pipe1 else s.pipe2

def readData (s : SdramChip) (p : SdramPins) : BitVec 16 :=
  s.memArray (if p.isCode .wr then s.testAddr p else s.read.addr)

/-- What the chip drives byte `k` of the data lines with. -/
def drives (s : SdramChip) (p : SdramPins) (k : ℕ) : Option (BitVec 8) :=
  if s.read.valid && !s.read.mask.getLsbD k then some (laneOf (s.readData p) k) else none

/-- A rising edge. -/
def clock (s : SdramChip) (p : SdramPins) (zsDq : BitVec 16) : SdramChip where
  memArray :=
    if p.isCode .wr then
      Function.update s.memArray (s.testAddr p) (masked p.dqm (s.readData p) zsDq)
    else s.memArray
  latency := if p.isCode .lmr then p.addr.extractLsb' 4 3 else s.latency
  addrCrb :=
    if p.isCode .act then p.ba.extractLsb' 1 1 ++ p.addr ++ p.ba.extractLsb' 0 1 else s.addrCrb
  pipe0 := ⟨p.isCode .rd, s.testAddr p, p.dqm⟩
  pipe1 := s.pipe0
  pipe2 := s.pipe1

end SdramChip

/-- The bank, the row and the column of a request are its address. -/
theorem crb_append (r : SdramRequest) :
    (r.bank.extractLsb' 1 1 ++ r.row ++ r.bank.extractLsb' 0 1 : BitVec 15) ++
      r.casAddr.extractLsb' 0 10 = r.addr := by
  have hlt := r.addr.isLt
  have happend {v w : ℕ} (x : BitVec v) (y : BitVec w) :
      (x ++ y).toNat = 2 ^ w * x.toNat + y.toNat := by
    rw [BitVec.toNat_append, Nat.shiftLeft_eq, Nat.mul_comm, Nat.two_pow_add_eq_or_of_lt y.isLt]
  apply BitVec.eq_of_toNat_eq
  simp only [SdramRequest.bank, SdramRequest.row, SdramRequest.casAddr, happend,
    BitVec.extractLsb'_toNat, BitVec.toNat_setWidth, Nat.shiftRight_eq_div_pow]
  omega

end DigitalModulation
