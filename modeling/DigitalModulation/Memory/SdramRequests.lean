import DigitalModulation.Memory.SdramStages

/-!
# The requests at the SDRAM controller

* `MainFsm.Stage.conservation`: no request is lost, given twice or given out of turn;
* `MainFsm.Gives`, `Stage.gives`: the lines of the chip say the request that is given.
-/

namespace DigitalModulation

namespace MainFsm

variable {f : EFifo SdramRequest} {refreshRequest : Bool} {m : MainFsm} {b : SdramBus}
  {i : InitFsm}

/-! ### In turn -/

theorem fSelect_of_pop (h : m.fPop = false) : m.fSelect f = false := by
  rw [fSelect, h, Bool.false_and]

theorem Takes.fSelect (h : m.Takes f b) : m.fSelect f = true := by
  obtain ⟨queue, hqueue⟩ := h.head
  have hempty : f.empty = false := by
    by_contra hne
    rw [EFifo.toList_of_empty (by simpa using hne)] at hqueue
    exact List.cons_ne_nil _ _ hqueue.symm
  have hhead : m.active = f.rdData := by
    rw [EFifo.toList_of_not_empty hempty] at hqueue
    exact (List.cons.inj hqueue).1.symm
  simp [MainFsm.fSelect, pending, isMatch, h.pop, hempty, h.csN, hhead]

theorem inHand_goOn (p : Bool) (hstate : m.mState = .rd ∨ m.mState = .wr) :
    (m.goOn f refreshRequest p).inHand = [] := by
  cases p with
  | false => rfl
  | true =>
    cases refreshRequest with
    | true => rfl
    | false => rcases hstate with h | h <;> simp [goOn, take, inHand, h]

/-- **In turn**: with every edge the requests under way lose what is given to the chip, from the
front. -/
theorem Stage.conservation (h : m.Stage f refreshRequest b) (i : InitFsm) :
    m.inHand ++ f.toList = m.issued f ++ ((m.clock i true refreshRequest f).inHand ++
      if m.fSelect f then f.toList.tail else f.toList) := by
  cases h with
  | idles h =>
    rw [fSelect_of_pop h.pop, if_neg Bool.false_ne_true]
    cases refreshRequest <;> cases hempty : f.empty <;>
      simp [inHand, issued, MainFsm.clock, take, h.state, hempty]
  | takes h =>
    obtain ⟨queue, hqueue⟩ := h.head
    rw [h.fSelect, hqueue]
    cases hrnw : m.active.rnw <;> simp [inHand, issued, MainFsm.clock, h.state, hrnw]
  | opens h =>
    rw [fSelect_of_pop h.pop, if_neg Bool.false_ne_true]
    obtain ⟨c, hclock⟩ := clock_wait h.state i refreshRequest f
    rw [hclock]
    cases hrnw : m.active.rnw <;> split_ifs <;>
      simp [inHand, issued, h.state, h.next, hrnw]
  | accesses h =>
    have hstate : m.mState = .rd ∨ m.mState = .wr := by
      rw [h.state]
      split_ifs
      · exact .inl rfl
      · exact .inr rfl
    have hinHand : m.inHand = if m.fPop then [] else [m.active] := by
      rcases hstate with hs | hs <;> simp [inHand, hs]
    have hissued : m.issued f = if !m.pending f && m.fPop then [] else [m.selected f] := by
      rcases hstate with hs | hs <;> simp [issued, hs]
    rw [clock_access h.state, inHand_goOn _ (by exact hstate), hinHand, hissued]
    cases hpop : m.fPop with
    | false => simp [selected, MainFsm.fSelect, hpop]
    | true =>
      cases hpending : m.pending f with
      | false => simp [MainFsm.fSelect, hpop, hpending]
      | true =>
        have hempty := (pending_iff.mp hpending).1
        simpa [selected, MainFsm.fSelect, hpop, hpending] using EFifo.toList_of_not_empty hempty
  | spins h =>
    rw [fSelect_of_pop h.pop, if_neg Bool.false_ne_true]
    cases refreshRequest <;> cases hempty : f.empty <;> cases hmatch : m.isMatch f.rdData <;>
      cases hrnw : f.rdData.rnw <;>
      simp [inHand, issued, MainFsm.clock, take, h.state, hempty, hmatch, hrnw]
  | stops h =>
    rw [fSelect_of_pop h.pop, if_neg Bool.false_ne_true]
    obtain ⟨c, hclock⟩ := clock_wait h.state i refreshRequest f
    rw [hclock]
    split_ifs <;> simp [inHand, issued, h.state, h.next]
  | stopped h =>
    rw [fSelect_of_pop h.pop, if_neg Bool.false_ne_true]
    simp [inHand, issued, MainFsm.clock, h.state, h.refresh]
  | leaves h =>
    rw [fSelect_of_pop h.pop, if_neg Bool.false_ne_true]
    simp [inHand, issued, MainFsm.clock, h.state, h.count]
  | closes h =>
    rw [fSelect_of_pop h.pop, if_neg Bool.false_ne_true]
    rcases h.next with hnext | ⟨hnext, -⟩ <;> simp [inHand, issued, MainFsm.clock, h.state, hnext]
  | closed h =>
    rw [fSelect_of_pop h.pop, if_neg Bool.false_ne_true]
    obtain ⟨c, hclock⟩ := clock_wait h.state i refreshRequest f
    rw [hclock]
    rcases h.next with hnext | ⟨hnext, -⟩ <;> split_ifs <;> simp [inHand, issued, h.state, hnext]
  | refreshes h =>
    rw [fSelect_of_pop h.pop, if_neg Bool.false_ne_true]
    simp [inHand, issued, MainFsm.clock, h.state]

/-! ### On the lines -/

/-- The lines of the chip and those of the data say what is given to the chip. -/
inductive Gives (m : MainFsm) : List SdramRequest → Prop
  | none (rd : m.mCmd.code ≠ .rd) (wr : m.mCmd.code ≠ .wr) (oe : m.oe = false) : Gives m []
  | one (r : SdramRequest) (cmd : m.mCmd = ⟨false, if r.rnw then .rd else .wr⟩)
      (ba : m.mBank = r.bank) (addr : m.mAddr = r.casAddr) (dqm : m.mDqm = r.dqm)
      (oe : m.oe = !r.rnw) (data : r.rnw = false → m.mData = r.data) : Gives m [r]

theorem gives_none (hrd : m.mState ≠ .rd) (hwr : m.mState ≠ .wr) :
    Gives (m.clock i true refreshRequest f) (m.issued f) := by
  have hissued : m.issued f = [] := by
    unfold issued
    cases hstate : m.mState <;> simp_all
  rw [hissued]
  cases hstate : m.mState with
  | rd => exact absurd hstate hrd
  | wr => exact absurd hstate hwr
  | _ =>
    refine .none ?_ ?_ ?_ <;> simp only [MainFsm.clock, hstate] <;> (try split_ifs) <;>
      simp [take, SdramCmd.inhibit]

theorem Gives.goOn {rs : List SdramRequest} (h : m.Gives rs) (p : Bool) :
    (m.goOn f refreshRequest p).Gives rs := by
  unfold MainFsm.goOn take
  cases h with
  | none rd wr oe => split_ifs <;> exact .none rd wr oe
  | one r cmd ba addr dqm oe data => split_ifs <;> exact .one r cmd ba addr dqm oe data

theorem Accesses.gives (h : m.Accesses b) :
    Gives (m.clock i true refreshRequest f) (m.issued f) := by
  have hissued : m.issued f = if !m.pending f && m.fPop then [] else [m.selected f] := by
    have hstate := h.state
    unfold issued
    split_ifs at hstate <;> rw [hstate]
  have hrnw := (selected_like (m := m) (f := f)).1
  rw [clock_access h.state, csN_eq h.csN, hissued]
  refine Gives.goOn ?_ _
  cases hdone : !m.pending f && m.fPop with
  | true =>
    have hcode : m.code f = .nop := by simp [code, hdone]
    exact .none (by simp [hcode]) (by simp [hcode]) (by simp [hcode, code_beq])
  | false =>
    have hcode : m.code f = if m.active.rnw then .rd else .wr := by simp [code, hdone]
    refine .one _ ?_ rfl rfl rfl ?_ fun hw => ?_
    · rw [hrnw, hcode]
    · rw [hrnw, hcode]
      cases m.active.rnw <;> rfl
    · rw [hrnw] at hw
      simp [hw]

/-- **What is given to the chip is on its lines.** -/
theorem Stage.gives (h : m.Stage f refreshRequest b) :
    Gives (m.clock i true refreshRequest f) (m.issued f) := by
  cases h with
  | accesses h => exact h.gives
  | opens h => exact gives_none (by simp [h.state]) (by simp [h.state])
  | idles h => exact gives_none (by simp [h.state]) (by simp [h.state])
  | takes h => exact gives_none (by simp [h.state]) (by simp [h.state])
  | spins h => exact gives_none (by simp [h.state]) (by simp [h.state])
  | stops h => exact gives_none (by simp [h.state]) (by simp [h.state])
  | stopped h => exact gives_none (by simp [h.state]) (by simp [h.state])
  | leaves h => exact gives_none (by simp [h.state]) (by simp [h.state])
  | closes h => exact gives_none (by simp [h.state]) (by simp [h.state])
  | closed h => exact gives_none (by simp [h.state]) (by simp [h.state])
  | refreshes h => exact gives_none (by simp [h.state]) (by simp [h.state])

/-- The row of what is given is open. -/
theorem Stage.row_of_mem_issued (h : m.Stage f refreshRequest b) {r : SdramRequest}
    (hr : r ∈ m.issued f) : b.row = .opened r.bank r.row := by
  cases h with
  | accesses h =>
    obtain ⟨-, hbank, hrow⟩ := selected_like (m := m) (f := f)
    have hmem : r = m.selected f := by
      have hstate := h.state
      unfold issued at hr
      split_ifs at hstate
      all_goals
        rw [hstate] at hr
        dsimp only at hr
        split_ifs at hr
        · exact absurd hr List.not_mem_nil
        · exact List.mem_singleton.mp hr
    rw [hmem, hbank, hrow]
    exact h.row
  | opens h => simp [issued, h.state] at hr
  | idles h => simp [issued, h.state] at hr
  | takes h => simp [issued, h.state] at hr
  | spins h => simp [issued, h.state] at hr
  | stops h => simp [issued, h.state] at hr
  | stopped h => simp [issued, h.state] at hr
  | leaves h => simp [issued, h.state] at hr
  | closes h => simp [issued, h.state] at hr
  | closed h => simp [issued, h.state] at hr
  | refreshes h => simp [issued, h.state] at hr

end MainFsm

end DigitalModulation
