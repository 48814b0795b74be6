import Mathlib.Data.Nat.Notation

/-!
# What an SDRAM chip may be told

The chip has to be started up, its rows opened and closed, and some commands must be so many clocks
apart. The distances are those that `DE1_SoC_QSYS.qsys` gives for the chip, in clocks of 7 ns.

* `SdramPins`: what is on the lines of a chip at an edge;
* `SdramBus`: what the commands so far leave behind;
* `SdramBus.Legal`: what may come next.
-/

namespace DigitalModulation

/-- `{zs_ras_n, zs_cas_n, zs_we_n}`, from `3'h0` to `3'h7`, by the names of `txt_code`. -/
inductive SdramCode
  | lmr
  | arf
  | pre
  | act
  | wr
  | rd
  | bst
  | nop
  deriving DecidableEq

/-- `{zs_cs_n, zs_ras_n, zs_cas_n, zs_we_n}`. -/
structure SdramCmd where
  csN : Bool
  code : SdramCode
  deriving DecidableEq

/-- `4'b1111`. -/
def SdramCmd.inhibit : SdramCmd := ⟨true, .nop⟩

/-- The lines of the chip, but for those of the data. -/
structure SdramPins where
  cmd : SdramCmd
  ba : BitVec 2
  addr : BitVec 13
  dqm : BitVec 2

inductive SdramRow
  | unknown
  | closed
  | opened (bank : BitVec 2) (row : BitVec 13)

/-- The open row, the mode that was loaded, and the clocks since power-up and since the last command
of each kind. -/
structure SdramBus where
  row : SdramRow
  mode : Option (BitVec 13)
  up : ℕ
  act : ℕ
  pre : ℕ
  arf : ℕ
  lmr : ℕ
  rd : ℕ
  wr : ℕ

namespace SdramBus

def powerUp : SdramBus := ⟨.unknown, none, 0, 0, 0, 0, 0, 0, 0⟩

/-- A clock without a command. -/
def tick (b : SdramBus) : SdramBus where
  row := b.row
  mode := b.mode
  up := b.up + 1
  act := b.act + 1
  pre := b.pre + 1
  arf := b.arf + 1
  lmr := b.lmr + 1
  rd := b.rd + 1
  wr := b.wr + 1

/-- A clock; a precharge with line 10 high closes all rows. -/
def next (b : SdramBus) (p : SdramPins) : SdramBus :=
  match p.cmd with
  | ⟨true, _⟩ => b.tick
  | ⟨false, code⟩ =>
    match code with
    | .lmr => { b.tick with mode := some p.addr, lmr := 1 }
    | .arf => { b.tick with arf := 1 }
    | .pre => { b.tick with row := if p.addr.getLsbD 10 then .closed else b.row, pre := 1 }
    | .act => { b.tick with row := .opened p.ba p.addr, act := 1 }
    | .wr => { b.tick with wr := 1 }
    | .rd => { b.tick with rd := 1 }
    | .bst => b.tick
    | .nop => b.tick

/-- All rows are closed, and `TRP`, `TRFC` and `TMRD` have passed. -/
structure AtRest (b : SdramBus) : Prop where
  row : b.row = .closed
  pre : 3 ≤ b.pre
  arf : 10 ≤ b.arf
  lmr : 3 ≤ b.lmr

/-- What may be told next: nothing for the first 100 µs, then a precharge of all banks; a row is
opened when all are closed, and in the mode with a latency of 3; columns are read and written in the
open row, `TRCD` after it was opened, and without closing it; data are written when no data read can
be on the lines, and are in the row after `TWR`. -/
def Legal (b : SdramBus) (p : SdramPins) : Prop :=
  match p.cmd with
  | ⟨true, _⟩ => True
  | ⟨false, code⟩ =>
    match code with
    | .lmr | .arf => b.AtRest
    | .pre => p.addr.getLsbD 10 = true ∧ 14286 ≤ b.up ∧ 2 ≤ b.wr
    | .act => b.AtRest ∧ b.mode = some 0x030
    | .wr => (∃ row, b.row = .opened p.ba row) ∧ 3 ≤ b.act ∧ p.addr.getLsbD 10 = false ∧ 4 ≤ b.rd
    | .rd => (∃ row, b.row = .opened p.ba row) ∧ 3 ≤ b.act ∧ p.addr.getLsbD 10 = false
    | .bst | .nop => True

section

variable (b : SdramBus) (csN : Bool) (ba : BitVec 2) (addr : BitVec 13) (dqm : BitVec 2)

@[simp] theorem next_nop : b.next ⟨⟨csN, .nop⟩, ba, addr, dqm⟩ = b.tick := by
  cases csN with
  | false => rfl
  | true => rfl

theorem legal_nop : b.Legal ⟨⟨csN, .nop⟩, ba, addr, dqm⟩ := by
  cases csN with
  | false => trivial
  | true => trivial

end

/-- What a read, a write or no command leaves as it is. -/
theorem next_data {code : SdramCode} (h : code = .rd ∨ code = .wr ∨ code = .nop) (b : SdramBus)
    (ba : BitVec 2) (addr : BitVec 13) (dqm : BitVec 2) :
    ∃ rd wr, 1 ≤ rd ∧ 1 ≤ wr ∧ (code ≠ .rd → rd = b.rd + 1) ∧
      b.next ⟨⟨false, code⟩, ba, addr, dqm⟩ = { b.tick with rd := rd, wr := wr } := by
  rcases h with rfl | rfl | rfl
  · exact ⟨1, b.wr + 1, Nat.le_refl 1, Nat.le_add_left 1 _, fun hne => absurd rfl hne, rfl⟩
  · exact ⟨b.rd + 1, 1, Nat.le_add_left 1 _, Nat.le_refl 1, fun _ => rfl, rfl⟩
  · exact ⟨b.rd + 1, b.wr + 1, Nat.le_add_left 1 _, Nat.le_add_left 1 _, fun _ => rfl, rfl⟩

theorem up_next (b : SdramBus) (p : SdramPins) : (b.next p).up = b.up + 1 := by
  obtain ⟨⟨csN, code⟩, ba, addr, dqm⟩ := p
  cases csN with
  | true => rfl
  | false => cases code <;> rfl

theorem AtRest.tick {b : SdramBus} (h : b.AtRest) : b.tick.AtRest where
  row := h.row
  pre := Nat.le_succ_of_le h.pre
  arf := Nat.le_succ_of_le h.arf
  lmr := Nat.le_succ_of_le h.lmr

end SdramBus

end DigitalModulation
