import DigitalModulation.Memory.SdramRefresh
import DigitalModulation.Memory.SdramRequests

/-!
# Requests come to the SDRAM chip

A request waits while the controller starts up, ends a read or a write of another row, or refreshes.
None of it takes long.

* `MainFsm.untilGiven`: how many clocks it can be until a request is given, without a refresh;
* `SdramController.untilServed`, `untilServed_clock`: and with one;
* `sdram_requests_served`: every request comes to the chip.
-/

namespace DigitalModulation

namespace MainFsm

variable {f f' : EFifo SdramRequest} {refreshRequest refreshRequest' : Bool} {m : MainFsm}
  {b : SdramBus} {i : InitFsm}

/-- The requests that are accepted and not given to the chip. -/
def waiting (m : MainFsm) (f : EFifo SdramRequest) : List SdramRequest := m.inHand ++ f.toList

/-- The clocks until a request that waits is given to the chip, if no refresh is asked for. -/
def untilGiven (m : MainFsm) (f : EFifo SdramRequest) : ℕ :=
  match m.mState with
  | .rd | .wr => if !m.pending f && m.fPop then 12 else 1
  | .act => 5
  | .idle => 6
  | .pre => 9
  | .preWait => 10
  | .spin => 11
  | .ref => 16
  | .wait => m.mCount.toNat + if m.mNext = .idle then 6 else 1

theorem untilGiven_le (m : MainFsm) (f : EFifo SdramRequest) : m.untilGiven f ≤ 21 := by
  have hlt := m.mCount.isLt
  unfold untilGiven
  split <;> (try split_ifs) <;> omega

theorem untilGiven_pos (m : MainFsm) (f : EFifo SdramRequest) : 1 ≤ m.untilGiven f := by
  unfold untilGiven
  split <;> (try split_ifs) <;> omega

theorem not_empty_of_waiting (hinHand : m.inHand = []) (h : m.waiting f ≠ []) :
    f.empty = false := by
  by_contra hne
  refine h ?_
  rw [waiting, hinHand, EFifo.toList_of_empty (by simpa using hne)]
  rfl

/-- A queue that only gets more keeps its first entry. -/
theorem rdData_of_prefix (hempty : f.empty = false) (h : f.toList <+: f'.toList) :
    f'.empty = false ∧ f'.rdData = f.rdData := by
  obtain ⟨rest, hrest⟩ := h
  rw [EFifo.toList_of_not_empty hempty] at hrest
  have hempty' : f'.empty = false := by
    by_contra hne
    rw [EFifo.toList_of_empty (f := f') (by simpa using hne)] at hrest
    exact List.cons_ne_nil _ _ hrest
  rw [EFifo.toList_of_not_empty hempty'] at hrest
  exact ⟨hempty', (List.cons.inj hrest).1.symm⟩

/-- A clock of waiting takes one from the clocks until something is given. -/
theorem untilGiven_wait (hstate : m.mState = .wait) (hpos : 1 ≤ m.mCount.toNat)
    (hnext : m.mNext = .idle ∨ m.mNext = .rd ∨ m.mNext = .wr) (refreshRequest : Bool) :
    (m.clock i true refreshRequest f).untilGiven f' + 1 ≤ m.untilGiven f := by
  obtain ⟨c, hclock⟩ := clock_wait hstate i refreshRequest f
  rw [hclock]
  split_ifs with hcount
  · simp only [untilGiven, hstate, toNat_sub_one hcount]
    omega
  · rcases hnext with hnext | hnext | hnext <;>
      simp [untilGiven, hstate, hnext] <;> omega

theorem Spins.untilGiven_clock (h : m.Spins b) (hempty : f.empty = false)
    (hqueue : f.toList <+: f'.toList) :
    (m.clock i true false f).untilGiven f' + 1 ≤ m.untilGiven f := by
  have hcost : m.untilGiven f = 11 := by simp [untilGiven, h.state]
  rw [hcost]
  cases hmatch : m.isMatch f.rdData with
  | false => simp [untilGiven, MainFsm.clock, h.state, hempty, hmatch]
  | true =>
    obtain ⟨hempty', hdata⟩ := rdData_of_prefix hempty hqueue
    have hpending : (m.clock i true false f).pending f' = true := by
      rw [pending_iff, hdata]
      simp [MainFsm.clock, take, h.state, hempty, hmatch, hempty']
    have hstate : (m.clock i true false f).mState = if f.rdData.rnw then .rd else .wr := by
      simp [MainFsm.clock, take, h.state, hempty, hmatch]
    unfold untilGiven
    cases hrnw : f.rdData.rnw <;> simp [hstate, hrnw, hpending]

/-- A clock of the main machine takes one from the clocks until it gives something, if it gives
nothing now and no refresh is asked for. -/
theorem Stage.untilGiven_clock (h : m.Stage f refreshRequest b)
    (ha : Around f f' refreshRequest refreshRequest' m b)
    (hquiet : refreshRequest = true → m.ackRefreshRequest = true)
    (hwaits : m.waiting f ≠ []) (hgiven : m.issued f = []) :
    (m.clock i true refreshRequest f).untilGiven f' + 1 ≤ m.untilGiven f := by
  cases h with
  | idles h =>
    have hempty := not_empty_of_waiting (by simp [inHand, h.state]) hwaits
    have hno : refreshRequest = false := by
      by_contra hne
      have hyes : refreshRequest = true := by simpa using hne
      exact hne (h.ack (hquiet hyes))
    simp [untilGiven, MainFsm.clock, take, h.state, hempty, hno]
  | takes h => cases hrnw : m.active.rnw <;> simp [untilGiven, MainFsm.clock, h.state, hrnw]
  | opens h =>
    refine untilGiven_wait h.state h.pos ?_ _
    rw [h.next]
    cases m.active.rnw <;> simp
  | accesses h =>
    have hended : (!m.pending f && m.fPop) = true := by
      have hstate := h.state
      by_contra hne
      unfold issued at hgiven
      split_ifs at hstate <;> simp [hstate, hne] at hgiven
    have hcost : m.untilGiven f = 12 := by
      have hstate := h.state
      unfold untilGiven
      split_ifs at hstate <;> simp only [hstate, hended, if_true]
    have hpending : m.pending f = false := by simpa using (Bool.and_eq_true_iff.mp hended).1
    rw [clock_access h.state, hcost, hpending]
    exact le_rfl
  | spins h =>
    have hempty := not_empty_of_waiting (by simp [inHand, h.state]) hwaits
    have hno : refreshRequest = false := by
      by_contra hne
      have hack := hquiet (by simpa using hne)
      exact absurd (h.ack.symm.trans hack) Bool.noConfusion
    subst hno
    exact h.untilGiven_clock hempty (ha.queue h.pop)
  | stops h => exact absurd (h.ack.symm.trans (hquiet h.refresh)) Bool.noConfusion
  | stopped h => exact absurd (h.ack.symm.trans (hquiet h.refresh)) Bool.noConfusion
  | leaves h => simp [untilGiven, MainFsm.clock, h.state, h.count]
  | closes h =>
    rcases h.next with hnext | ⟨-, hyes⟩
    · simp [untilGiven, MainFsm.clock, h.state, h.count, hnext]
    · exact absurd (h.ack.symm.trans (hquiet hyes)) Bool.noConfusion
  | closed h =>
    refine untilGiven_wait h.state h.pos (.inl ?_) _
    rcases h.next with hnext | ⟨hnext, hyes⟩
    · exact hnext
    · exact (h.ack (hquiet hyes)).1
  | refreshes h => exact absurd (h.ack.symm.trans (hquiet h.refresh)) Bool.noConfusion

end MainFsm

namespace SdramController

variable {c : SdramController} {b : SdramBus}

/-- The requests that are accepted and not given to the chip. -/
def waiting (c : SdramController) : List SdramRequest := c.main.waiting c.fifo

/-- The clocks until a request that waits is given to the chip, if no other refresh is asked for. -/
def untilServed (c : SdramController) : ℕ :=
  if c.refreshRequest && !c.main.ackRefreshRequest then c.main.untilAck + 15
  else c.main.untilGiven c.fifo

/-- What waits and is not given waits on. -/
theorem Obeys.waiting_clock (h : c.Obeys b) (hdone : c.initDone = true)
    (hgiven : c.main.issued c.fifo = []) (hwaits : c.waiting ≠ []) (i : SdramIn)
    (zsDq : BitVec 16) : (c.clock i zsDq).waiting ≠ [] := by
  have hturn := (h.stage hdone).conservation c.init
  have hqueue : (c.clock i zsDq).fifo.toList = _ := (fifo_clock h.wf i).2
  rw [hgiven, List.nil_append] at hturn
  intro hnone
  refine hwaits ?_
  unfold waiting MainFsm.waiting at hnone ⊢
  rw [main_clock hdone, hqueue, ← List.append_assoc, ← hturn] at hnone
  exact (List.append_eq_nil_iff.mp hnone).1

/-- **What waits comes nearer to the chip**: a clock at which nothing is given takes one from the
clocks until something is. -/
theorem Obeys.untilServed_clock (h : c.Obeys b) (hdone : c.initDone = true)
    (hcount : c.refreshCounter.toNat ≠ 0) (hgiven : c.main.issued c.fifo = [])
    (hwaits : c.waiting ≠ []) (i : SdramIn) (zsDq : BitVec 16) :
    (c.clock i zsDq).untilServed + 1 ≤ c.untilServed := by
  have hmain := main_clock hdone i zsDq
  have hasked : (c.clock i zsDq).refreshRequest =
      (c.refreshRequest && !c.main.ackRefreshRequest) := by
    show ((c.refreshCounter == 0 || c.refreshRequest) && _ && c.initDone) = _
    rw [refreshCounter_beq_zero hcount, hdone, Bool.false_or, Bool.and_true]
  unfold untilServed
  rw [hasked]
  cases hreq : c.refreshRequest && !c.main.ackRefreshRequest with
  | false =>
    rw [Bool.false_and, if_neg Bool.false_ne_true, if_neg Bool.false_ne_true, hmain]
    refine (h.stage hdone).untilGiven_clock (h.around hdone i zsDq) (fun hyes => ?_) hwaits hgiven
    simpa [hyes] using hreq
  | true =>
    obtain ⟨hyes, hack⟩ : c.refreshRequest = true ∧ c.main.ackRefreshRequest = false := by
      simpa using hreq
    have hstage := h.stage hdone
    rw [hyes] at hstage hmain
    rw [if_pos rfl, Bool.true_and]
    by_cases hstate : c.main.mState = .ref
    · rw [hmain]
      simp [MainFsm.clock, MainFsm.untilGiven, MainFsm.untilAck, hstate]
    · have hack' : (c.clock i zsDq).main.ackRefreshRequest = false := by
        rw [hmain]
        exact MainFsm.ack_clock_of_not hstate hack
      have hnear := hstage.untilAck_clock (i := c.init) hstate
      rw [hack', if_pos (by decide), hmain]
      omega

/-- What is given to the chip is a read or a write. -/
theorem Obeys.code_of_issued (h : c.Obeys b) (hdone : c.initDone = true)
    (hgiven : c.main.issued c.fifo ≠ []) (i : SdramIn) (zsDq : BitVec 16) :
    (c.clock i zsDq).main.mCmd = ⟨false, .rd⟩ ∨ (c.clock i zsDq).main.mCmd = ⟨false, .wr⟩ := by
  have hgives := (h.stage hdone).gives (i := c.init)
  rw [main_clock hdone]
  generalize c.main.issued c.fifo = rs at hgives hgiven
  cases hgives with
  | none => exact absurd rfl hgiven
  | one r cmd =>
    rw [cmd]
    cases r.rnw
    · exact .inr rfl
    · exact .inl rfl

theorem untilServed_pos (c : SdramController) : 1 ≤ c.untilServed := by
  have hgiven := c.main.untilGiven_pos c.fifo
  unfold untilServed
  split_ifs <;> omega

theorem Obeys.untilServed_le (h : c.Obeys b) (hdone : c.initDone = true) : c.untilServed ≤ 29 := by
  have hack := (h.stage hdone).untilAck_le
  have hgiven := c.main.untilGiven_le c.fifo
  unfold untilServed
  split_ifs <;> omega

end SdramController

/-! ### Runs -/

section Runs

variable (c : SdramController) (is : ℕ → SdramIn × BitVec 16)

/-- The machine that starts the chip up, after its precharge. -/
def InitFsm.precharged : InitFsm :=
  ⟨.wait, .refresh, ⟨false, .pre⟩, BitVec.allOnes 13, 2, 0⟩

theorem init_states (t : ℕ) : (c.states is (t + 1)).init =
    (c.states is t).init.clock ((c.states is t).refreshCounter == 0) := rfl

/-- It waits while the counter counts down. -/
theorem start_states {t : ℕ} (h : t ≤ 14286) :
    (c.states is t).init.iState = .start ∧ (0 < t → (c.states is t).init.iRefs = 0) := by
  induction t with
  | zero => exact ⟨rfl, fun h => absurd h (Nat.lt_irrefl 0)⟩
  | succ t ih =>
    obtain ⟨hstate, -⟩ := ih (by omega)
    have hcount : (c.states is t).refreshCounter.toNat = 14286 - t := by
      have hall := refreshCounter_states c is (t := 0) (n := t)
        (by show t ≤ (14286 : BitVec 14).toNat; exact Nat.le_of_succ_le h)
      rwa [Nat.zero_add] at hall
    rw [init_states, SdramController.refreshCounter_beq_zero (by omega)]
    simp [InitFsm.clock, hstate]

theorem refreshCounter_states_of_zero {t : ℕ} (h : (c.states is t).refreshCounter = 0) :
    (c.states is (t + 1)).refreshCounter = 1116 := by
  show (if (c.states is t).refreshCounter == 0 then (1116 : BitVec 14) else _) = 1116
  rw [h]
  rfl

/-- The counter comes to 0 after 14286 clocks, and the machine goes on at the next one. -/
theorem precharged_states : (c.states is 14287).refreshCounter = 1116 ∧
    (c.states is 14288).init = .precharged := by
  -- For a variable number of clocks, since no state is to be computed.
  have hrun (t : ℕ) (ht : t = 14286) : (c.states is (t + 1)).refreshCounter = 1116 ∧
      (c.states is (t + 2)).init = .precharged := by
    obtain ⟨hstate, -⟩ := start_states c is (Nat.le_of_eq ht)
    have hcount : (c.states is t).refreshCounter = 0 := by
      have hall := refreshCounter_states c is (t := 0) (n := t) (Nat.le_of_eq ht)
      have hfull : (c.states is 0).refreshCounter.toNat = 14286 := rfl
      rw [Nat.zero_add, hfull] at hall
      exact BitVec.eq_of_toNat_eq (hall.trans (Nat.sub_eq_zero_of_le (Nat.le_of_eq ht.symm)))
    have hcount' := refreshCounter_states_of_zero c is hcount
    refine ⟨hcount', ?_⟩
    rw [init_states, init_states, hcount, hcount']
    simp [InitFsm.clock, hstate, InitFsm.precharged]
  exact hrun 14286 rfl

/-- The machine needs 27 clocks from the precharge on, whatever is asked for, and the counter has
1116 of them before it comes to 0 again. -/
theorem init_states_of_precharged {n : ℕ} (hn : n ≤ 27) :
    (c.states is (14288 + n)).init = (fun i => i.clock false)^[n] .precharged := by
  obtain ⟨hcount, hinit⟩ := precharged_states c is
  induction n with
  | zero => exact hinit
  | succ n ih =>
    have hfull : (1116 : BitVec 14).toNat = 1116 := rfl
    have hleft := refreshCounter_states c is (t := 14287) (n := n + 1) (by
      rw [hcount, hfull]
      omega)
    rw [hcount, hfull, show 14287 + (n + 1) = 14288 + n by omega] at hleft
    have hzero : ((c.states is (14288 + n)).refreshCounter == 0) = false :=
      SdramController.refreshCounter_beq_zero (by omega)
    rw [Function.iterate_succ_apply', ← ih (by omega), ← Nat.add_assoc, init_states, hzero]

theorem initDone_succ {t : ℕ} (h : (c.states is t).init.iState = .done) :
    (c.states is (t + 1)).initDone = true := by
  show ((c.states is t).initDone || (c.states is t).init.iState == .done) = true
  rw [h]
  exact Bool.or_true _

/-- **Started up** after 14316 clocks. -/
theorem initDone_of_le {u : ℕ} (h : 14316 ≤ u) : (c.states is u).initDone = true := by
  have hstate : (c.states is (14288 + 27)).init.iState = .done := by
    rw [init_states_of_precharged c is le_rfl]
    decide
  obtain ⟨n, rfl⟩ := Nat.exists_eq_add_of_le h
  exact initDone_states c is (initDone_succ c is hstate) n

/-- What waits is given when no other refresh can come before. -/
theorem exists_given {t n : ℕ} (hdone : (c.states is t).initDone = true)
    (hwaits : (c.states is t).waiting ≠ []) (hn : (c.states is t).untilServed ≤ n)
    (hcount : n ≤ (c.states is t).refreshCounter.toNat) :
    ∃ k, t ≤ k ∧ k < t + n ∧ (c.states is k).main.issued (c.states is k).fifo ≠ [] := by
  induction n generalizing t with
  | zero =>
    have hpos := (c.states is t).untilServed_pos
    omega
  | succ n ih =>
    by_cases hgiven : (c.states is t).main.issued (c.states is t).fifo = []
    · obtain ⟨b, hobeys⟩ := (due_states c is t).obeys
      have hnear := hobeys.untilServed_clock hdone (by omega) hgiven hwaits (is t).1 (is t).2
      have hwaits' := hobeys.waiting_clock hdone hgiven hwaits (is t).1 (is t).2
      have hcount' := (c.states is t).toNat_refreshCounter (is t).1 (is t).2
      rw [if_neg (by omega)] at hcount'
      rw [← states_succ] at hnear hwaits' hcount'
      obtain ⟨k, hle, hlt, hk⟩ := ih (initDone_states c is hdone 1) hwaits' (by omega) (by omega)
      exact ⟨k, by omega, by omega, hk⟩
    · exact ⟨t, le_rfl, by omega, hgiven⟩

/-- What is not given in some clocks waits on. -/
theorem waiting_states {t : ℕ} (hdone : (c.states is t).initDone = true)
    (hwaits : (c.states is t).waiting ≠ []) (n : ℕ) :
    (∃ k, t ≤ k ∧ k < t + n ∧ (c.states is k).main.issued (c.states is k).fifo ≠ []) ∨
      (c.states is (t + n)).waiting ≠ [] := by
  induction n with
  | zero => exact .inr hwaits
  | succ n ih =>
    rcases ih with ⟨k, hle, hlt, hk⟩ | hwaits'
    · exact .inl ⟨k, hle, by omega, hk⟩
    · by_cases hgiven : (c.states is (t + n)).main.issued (c.states is (t + n)).fifo = []
      · obtain ⟨b, hobeys⟩ := (due_states c is (t + n)).obeys
        exact .inr (hobeys.waiting_clock (initDone_states c is hdone n) hgiven hwaits' _ _)
      · exact .inl ⟨t + n, by omega, by omega, hgiven⟩

/-- Something is given in some clocks, with a refresh before it or without. -/
theorem exists_issued {u : ℕ} (hdone : (c.states is u).initDone = true)
    (hwaits : (c.states is u).waiting ≠ []) :
    ∃ k, u ≤ k ∧ k < u + 58 ∧ (c.states is k).main.issued (c.states is k).fifo ≠ [] := by
  have hmost {v : ℕ} (hv : (c.states is v).initDone = true) : (c.states is v).untilServed ≤ 29 :=
    (due_states c is v).obeys.elim fun _ hobeys => hobeys.untilServed_le hv
  rcases Nat.lt_or_ge (c.states is u).refreshCounter.toNat 29 with hcount | hcount
  · -- A refresh is asked for first, and then none for 1116 clocks.
    generalize hr : (c.states is u).refreshCounter.toNat = r at hcount
    have hzero : (c.states is (u + r)).refreshCounter = 0 := by
      have hleft := refreshCounter_states c is (t := u) (n := r) (Nat.le_of_eq hr.symm)
      rw [hr, Nat.sub_self] at hleft
      exact BitVec.eq_of_toNat_eq hleft
    have hfull := refreshCounter_states_of_zero c is hzero
    rcases waiting_states c is hdone hwaits (r + 1) with ⟨k, hle, hlt, hk⟩ | hwaits'
    · exact ⟨k, hle, by omega, hk⟩
    · have hdone' := initDone_states c is hdone (r + 1)
      obtain ⟨k, hle, hlt, hk⟩ := exists_given c is (n := 29) hdone' hwaits' (hmost hdone') (by
        rw [← Nat.add_assoc, hfull]
        exact (by decide : 29 ≤ (1116 : BitVec 14).toNat))
      exact ⟨k, by omega, by omega, hk⟩
  · obtain ⟨k, hle, hlt, hk⟩ := exists_given c is hdone hwaits (hmost hdone) hcount
    exact ⟨k, hle, by omega, hk⟩

/-- **Every request comes to the chip**: the controller is started up after 14316 clocks, and then,
while accepted requests wait, it reads or writes within 58 clocks, whatever else is asked for. -/
theorem sdram_requests_served (t : ℕ) :
    (c.states is (14316 + t)).initDone = true ∧
      ((c.states is (14316 + t)).waiting ≠ [] →
        ∃ k, 14316 + t < k ∧ k ≤ 14316 + t + 58 ∧
          ((c.states is k).main.mCmd = ⟨false, .rd⟩ ∨
            (c.states is k).main.mCmd = ⟨false, .wr⟩)) := by
  have hdone := initDone_of_le c is (Nat.le_add_right 14316 t)
  refine ⟨hdone, fun hwaits => ?_⟩
  generalize 14316 + t = u at hdone hwaits ⊢
  obtain ⟨k, hle, hlt, hk⟩ := exists_issued c is hdone hwaits
  obtain ⟨n, rfl⟩ := Nat.exists_eq_add_of_le hle
  obtain ⟨b, hobeys⟩ := (due_states c is (u + n)).obeys
  exact ⟨u + n + 1, by omega, by omega,
    hobeys.code_of_issued (initDone_states c is hdone n) hk (is (u + n)).1 (is (u + n)).2⟩

end Runs

end DigitalModulation
