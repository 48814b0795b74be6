import DigitalModulation.Memory.SdramBus

/-!
# The refreshes of the SDRAM

Every 1117 clocks the refresh counter asks for a refresh. The main machine first ends what it is
doing, so that the refresh comes some clocks later.

* `MainFsm.untilAck`: how many clocks it can be until the refresh;
* `SdramController.Due`: it comes long before the next one is asked for;
* `sdram_refreshes`: none is missed.
-/

namespace DigitalModulation

namespace MainFsm

variable {f : EFifo SdramRequest} {refreshRequest : Bool} {m : MainFsm} {b : SdramBus}
  {i : InitFsm}

/-- The clocks until a refresh is acknowledged, if it is asked for. -/
def untilAck (m : MainFsm) : ℕ :=
  match m.mState with
  | .ref => 1
  | .idle => 5
  | .spin => 7
  | .rd | .wr => 8
  | .preWait => 9
  | .act => 12
  | .pre => if m.mNext = .ref then 4 else 8
  | .wait =>
    m.mCount.toNat + if m.mNext = .ref then 1 else if m.mNext = .idle then 5 else 8

theorem Stage.untilAck_le (h : m.Stage f refreshRequest b) : m.untilAck ≤ 14 := by
  cases h with
  | idles h => simp [untilAck, h.state]
  | takes h => simp [untilAck, h.state]
  | opens h =>
    have hle := h.le
    cases hrnw : m.active.rnw <;> simp [untilAck, h.state, h.next, hrnw] <;> omega
  | accesses h => cases hrnw : m.active.rnw <;> simp [untilAck, h.state, hrnw]
  | spins h => simp [untilAck, h.state]
  | stops h =>
    have hle := h.le
    simp [untilAck, h.state, h.next]
    omega
  | stopped h => simp [untilAck, h.state]
  | leaves h => simp [untilAck, h.state]
  | closes h => rcases h.next with hnext | ⟨hnext, -⟩ <;> simp [untilAck, h.state, hnext]
  | closed h =>
    have hle := h.le
    rcases h.next with hnext | ⟨hnext, -⟩
    · simp [hnext] at hle
      simp [untilAck, h.state, hnext]
      omega
    · simp [hnext] at hle
      simp [untilAck, h.state, hnext]
      omega
  | refreshes h => simp [untilAck, h.state]

theorem untilAck_pos (m : MainFsm) : 1 ≤ m.untilAck := by
  unfold untilAck
  split <;> (try split_ifs) <;> omega

theorem untilAck_goOn (p : Bool) : (m.goOn f true p).untilAck ≤ 7 := by
  cases p with
  | true => exact le_rfl
  | false => exact le_rfl

/-- A clock of waiting takes one from the clocks until the refresh. -/
theorem untilAck_wait (hstate : m.mState = .wait) (hpos : 1 ≤ m.mCount.toNat)
    (hnext : m.mNext = .idle ∨ m.mNext = .ref ∨ m.mNext = .rd ∨ m.mNext = .wr)
    (refreshRequest : Bool) :
    (m.clock i true refreshRequest f).untilAck + 1 ≤ m.untilAck := by
  obtain ⟨c, hclock⟩ := clock_wait hstate i refreshRequest f
  rw [hclock]
  split_ifs with hcount
  · simp only [untilAck, hstate, toNat_sub_one hcount]
    omega
  · rcases hnext with hnext | hnext | hnext | hnext <;>
      simp [untilAck, hstate, hnext] <;> omega

/-- **The refresh comes nearer**: a clock takes one from the clocks until it is acknowledged. -/
theorem Stage.untilAck_clock (h : m.Stage f true b) (hne : m.mState ≠ .ref) :
    (m.clock i true true f).untilAck + 1 ≤ m.untilAck := by
  cases h with
  | idles h => simp [untilAck, MainFsm.clock, h.state]
  | takes h => cases hrnw : m.active.rnw <;> simp [untilAck, MainFsm.clock, h.state, hrnw]
  | opens h =>
    refine untilAck_wait h.state h.pos ?_ _
    rw [h.next]
    cases m.active.rnw <;> simp
  | accesses h =>
    have hcost : m.untilAck = 8 := by
      have hstate := h.state
      unfold untilAck
      split_ifs at hstate <;> rw [hstate]
    rw [clock_access h.state, hcost]
    exact Nat.succ_le_succ (untilAck_goOn _)
  | spins h => simp [untilAck, MainFsm.clock, h.state]
  | stops h => exact untilAck_wait h.state h.pos (.inl h.next) _
  | stopped h => simp [untilAck, MainFsm.clock, h.state]
  | leaves h => simp [untilAck, MainFsm.clock, h.state, h.count, h.next]
  | closes h =>
    rcases h.next with hnext | ⟨hnext, -⟩ <;>
      simp [untilAck, MainFsm.clock, h.state, h.count, hnext]
  | closed h => exact untilAck_wait h.state h.pos (h.next.imp_right fun h => .inl h.1) _
  | refreshes h => exact absurd h.state hne

/-- But for the refresh, an acknowledge stays at most, and not when the machine is idle. -/
theorem ack_of_clock (hne : m.mState ≠ .ref)
    (hack : (m.clock i true refreshRequest f).ackRefreshRequest = true) :
    m.mState ≠ .idle ∧ m.ackRefreshRequest = true := by
  cases hstate : m.mState with
  | ref => exact absurd hstate hne
  | idle =>
    simp only [MainFsm.clock, hstate] at hack
    split_ifs at hack
  | _ =>
    refine ⟨by decide, ?_⟩
    simp only [MainFsm.clock, hstate, goOn, take] at hack
    (try split_ifs at hack) <;> exact hack

theorem ack_clock_of_not (hne : m.mState ≠ .ref) (hack : m.ackRefreshRequest = false) :
    (m.clock i true refreshRequest f).ackRefreshRequest = false := by
  by_contra hset
  have hold := (ack_of_clock hne (by simpa using hset)).2
  exact absurd (hack.symm.trans hold) Bool.noConfusion

/-- The machine comes to its refresh in one stage only. -/
theorem Stage.refreshes_of_state (h : m.Stage f refreshRequest b) (hstate : m.mState = .ref) :
    m.Refreshes refreshRequest b := by
  cases h with
  | refreshes h => exact h
  | accesses h =>
    have hs := h.state
    rw [hstate] at hs
    split_ifs at hs
  | idles h => exact absurd (hstate.symm.trans h.state) (by decide)
  | takes h => exact absurd (hstate.symm.trans h.state) (by decide)
  | opens h => exact absurd (hstate.symm.trans h.state) (by decide)
  | spins h => exact absurd (hstate.symm.trans h.state) (by decide)
  | stops h => exact absurd (hstate.symm.trans h.state) (by decide)
  | stopped h => exact absurd (hstate.symm.trans h.state) (by decide)
  | leaves h => exact absurd (hstate.symm.trans h.state) (by decide)
  | closes h => exact absurd (hstate.symm.trans h.state) (by decide)
  | closed h => exact absurd (hstate.symm.trans h.state) (by decide)

/-- An acknowledge is only there behind a refresh. -/
theorem Stage.closed_of_ack (h : m.Stage f refreshRequest b) (hidle : m.mState ≠ .idle)
    (hack : m.ackRefreshRequest = true) : m.Closed refreshRequest b := by
  cases h with
  | closed h => exact h
  | idles h => exact absurd h.state hidle
  | takes h => exact absurd (h.ack.symm.trans hack) Bool.noConfusion
  | opens h => exact absurd (h.ack.symm.trans hack) Bool.noConfusion
  | accesses h => exact absurd (h.ack.symm.trans hack) Bool.noConfusion
  | spins h => exact absurd (h.ack.symm.trans hack) Bool.noConfusion
  | stops h => exact absurd (h.ack.symm.trans hack) Bool.noConfusion
  | stopped h => exact absurd (h.ack.symm.trans hack) Bool.noConfusion
  | leaves h => exact absurd (h.ack.symm.trans hack) Bool.noConfusion
  | closes h => exact absurd (h.ack.symm.trans hack) Bool.noConfusion
  | refreshes h => exact absurd (h.ack.symm.trans hack) Bool.noConfusion

/-- An acknowledge comes with the refresh, and while it stays the machine goes on. -/
theorem Stage.ack_clock (h : m.Stage f refreshRequest b)
    (hack : (m.clock i true refreshRequest f).ackRefreshRequest = true) :
    refreshRequest = true ∧ m.ackRefreshRequest = false ∧ m.untilAck = 1 ∧
        (m.clock i true refreshRequest f).untilAck = 14 ∨
      m.ackRefreshRequest = true ∧
        (m.clock i true refreshRequest f).untilAck + 1 ≤ m.untilAck := by
  by_cases hstate : m.mState = .ref
  · have hat := h.refreshes_of_state hstate
    exact .inl ⟨hat.refresh, hat.ack, by simp [untilAck, hstate],
      by simp [untilAck, MainFsm.clock, hstate]⟩
  · obtain ⟨hidle, hold⟩ := ack_of_clock hstate hack
    have hclosed := h.closed_of_ack hidle hold
    exact .inr ⟨hold, untilAck_wait hclosed.state hclosed.pos
      (hclosed.next.imp_right fun h => .inl h.1) _⟩

end MainFsm

namespace SdramController

variable {c : SdramController}

/-- A refresh that is asked for comes long before the next one is asked for. -/
structure Due (c : SdramController) : Prop where
  obeys : ∃ b, c.Obeys b
  quiet : c.zaCannotrefresh = false
  start : c.initDone = false → c.refreshRequest = false ∧
    (c.init.iState = .start ∨ c.refreshCounter.toNat ≤ 1116)
  counter : c.initDone = true → c.refreshCounter.toNat ≤ 1116
  request : c.refreshRequest = true → c.main.ackRefreshRequest = false →
    c.main.untilAck + 1102 ≤ c.refreshCounter.toNat
  ack : c.main.ackRefreshRequest = true → c.main.untilAck + 1080 ≤ c.refreshCounter.toNat

theorem due_reset (c : SdramController) : c.reset.Due where
  obeys := ⟨_, c.obeys_reset⟩
  quiet := rfl
  start := fun _ => ⟨rfl, .inl rfl⟩
  counter := fun h => absurd h Bool.false_ne_true
  request := fun h => absurd h Bool.false_ne_true
  ack := fun h => absurd h Bool.false_ne_true

theorem refreshCounter_beq_zero (h : c.refreshCounter.toNat ≠ 0) :
    (c.refreshCounter == 0) = false := by
  rw [beq_eq_false_iff_ne]
  intro hzero
  rw [hzero] at h
  exact h rfl

theorem toNat_refreshCounter (c : SdramController) (i : SdramIn) (zsDq : BitVec 16) :
    (c.clock i zsDq).refreshCounter.toNat =
      if c.refreshCounter.toNat = 0 then 1116 else c.refreshCounter.toNat - 1 := by
  show (if c.refreshCounter == 0 then (1116 : BitVec 14) else c.refreshCounter - 1).toNat = _
  by_cases hzero : c.refreshCounter = 0
  · rw [hzero]
    rfl
  · rw [if_neg (by simpa using hzero), if_neg (by bv_omega)]
    bv_omega

/-- While the chip is started up, no refresh is asked for. -/
theorem Due.clock_start (h : c.Due) (hdone : c.initDone = false) (hstate : c.main.mState = .idle)
    (hnot : c.main.ackRefreshRequest = false) (i : SdramIn) (zsDq : BitVec 16) :
    (c.clock i zsDq).Due := by
  obtain ⟨⟨b, hobeys⟩, -, hstart, hcounter, hrequest, hack⟩ := h
  obtain ⟨hasked, hcount⟩ := hstart hdone
  have hn := toNat_refreshCounter c i zsDq
  have hrequest' : (c.clock i zsDq).refreshRequest = false := by simp [clock, hdone]
  have hack' : (c.clock i zsDq).main.ackRefreshRequest = false := by
    simp [SdramController.clock, MainFsm.clock, hdone, hstate, hnot]
  refine ⟨⟨_, (hobeys.clock i zsDq).2⟩, ?_, fun _ => ⟨hrequest', ?_⟩, fun hdone' => ?_,
    fun h => absurd (hrequest'.symm.trans h) Bool.noConfusion,
    fun h => absurd (hack'.symm.trans h) Bool.noConfusion⟩
  · show (c.refreshCounter == 0 && c.refreshRequest) = false
    rw [hasked, Bool.and_false]
  · rcases hcount with hcount | hcount
    · by_cases hzero : c.refreshCounter = 0
      · refine .inr ?_
        rw [hn, hzero]
        exact le_rfl
      · refine .inl ?_
        simpa [SdramController.clock, InitFsm.clock, hcount] using hzero
    · refine .inr ?_
      rw [hn]
      split_ifs <;> omega
  · have hstate : c.init.iState = .done := by simpa [clock, hdone] using hdone'
    have hle : c.refreshCounter.toNat ≤ 1116 := by
      rcases hcount with hcount | hcount
      · exact absurd (hstate.symm.trans hcount) (by decide)
      · exact hcount
    rw [hn]
    split_ifs <;> omega

/-- **Every clock keeps the refresh in time.** -/
theorem Due.clock (h : c.Due) (i : SdramIn) (zsDq : BitVec 16) : (c.clock i zsDq).Due := by
  obtain ⟨b, hobeys⟩ := h.obeys
  have hobeys' := (hobeys.clock i zsDq).2
  cases hobeys with
  | starts wf done state pop ack legal stage => exact h.clock_start done state ack i zsDq
  | runs wf done mode up stage =>
    have hn := toNat_refreshCounter c i zsDq
    have hle := h.counter done
    have hpos := c.main.untilAck_pos
    have hmain := main_clock done i zsDq
    have hdone' : (c.clock i zsDq).initDone = true := by simp [SdramController.clock, done]
    have hasked : (c.clock i zsDq).refreshRequest =
        ((c.refreshCounter == 0 || c.refreshRequest) && !c.main.ackRefreshRequest) := by
      simp [SdramController.clock, done]
    -- When the counter is 0, the last refresh has been acknowledged, and that is over.
    have hzero (hc : c.refreshCounter.toNat = 0) :
        c.refreshRequest = false ∧ c.main.ackRefreshRequest = false := by
      have hnot : c.main.ackRefreshRequest = false := by
        by_contra hne
        have hfar := h.ack (by simpa using hne)
        omega
      refine ⟨?_, hnot⟩
      by_contra hne
      have hfar := h.request (by simpa using hne) hnot
      omega
    have hgone := fun hack' => stage.ack_clock (i := c.init) (hmain ▸ hack')
    refine ⟨⟨_, hobeys'⟩, ?_, fun hnot => absurd (hdone'.symm.trans hnot) Bool.noConfusion,
      fun _ => ?_, fun hreq hnot => ?_, fun hack => ?_⟩
    · show (c.refreshCounter == 0 && c.refreshRequest) = false
      by_contra hne
      obtain ⟨hc, hreq⟩ : c.refreshCounter = 0 ∧ c.refreshRequest = true := by simpa using hne
      have hnone := (hzero (by rw [hc]; rfl)).1
      exact absurd (hnone.symm.trans hreq) Bool.noConfusion
    · rw [hn]
      split_ifs <;> omega
    · rw [hasked] at hreq
      by_cases hc : c.refreshCounter.toNat = 0
      · have hmost := (hobeys'.stage hdone').untilAck_le
        rw [hn, if_pos hc]
        omega
      · have hold : c.refreshRequest = true := by
          rw [refreshCounter_beq_zero hc, Bool.false_or] at hreq
          exact (Bool.and_eq_true_iff.mp hreq).1
        have hnone : c.main.ackRefreshRequest = false := by
          simpa using (Bool.and_eq_true_iff.mp hreq).2
        have hfar := h.request hold hnone
        rw [hold] at stage hmain
        have hnear := stage.untilAck_clock (i := c.init) fun hstate => by
          rw [hmain] at hnot
          simp [MainFsm.clock, hstate] at hnot
        rw [hn, if_neg hc, hmain]
        omega
    · have hfar := hgone hack
      rw [← hmain] at hfar
      rcases hfar with ⟨hreq, hnone, hone, hmost⟩ | ⟨hold, hnear⟩
      · have hfar := h.request hreq hnone
        rw [hn, if_neg (by omega)]
        omega
      · have hfar := h.ack hold
        rw [hn, if_neg (by omega)]
        omega

end SdramController

/-! ### Runs -/

section Runs

variable (c : SdramController) (is : ℕ → SdramIn × BitVec 16)

/-- The controller after `t` edges from its reset. -/
def SdramController.states (c : SdramController) (is : ℕ → SdramIn × BitVec 16) :
    ℕ → SdramController :=
  Machine.run (fun c i => c.clock i.1 i.2) c.reset is

theorem states_succ (t : ℕ) :
    c.states is (t + 1) = (c.states is t).clock (is t).1 (is t).2 := rfl

theorem due_states (t : ℕ) : (c.states is t).Due := by
  induction t with
  | zero => exact c.due_reset
  | succ t ih => exact ih.clock _ _

theorem initDone_states {t : ℕ} (h : (c.states is t).initDone = true) (n : ℕ) :
    (c.states is (t + n)).initDone = true := by
  induction n with
  | zero => exact h
  | succ n ih =>
    show ((c.states is (t + n)).initDone || _) = true
    rw [ih, Bool.true_or]

theorem refreshCounter_states {t n : ℕ} (h : n ≤ (c.states is t).refreshCounter.toNat) :
    (c.states is (t + n)).refreshCounter.toNat = (c.states is t).refreshCounter.toNat - n := by
  induction n with
  | zero => rfl
  | succ n ih =>
    have hn := (c.states is (t + n)).toNat_refreshCounter (is (t + n)).1 (is (t + n)).2
    have hold := ih (by omega)
    rw [← Nat.add_assoc, states_succ, hn, if_neg (by omega), hold]
    omega

/-- A refresh that is asked for comes when the main machine has come to it. -/
theorem exists_refresh {t n : ℕ} (hdone : (c.states is t).initDone = true)
    (hreq : (c.states is t).refreshRequest = true)
    (hack : (c.states is t).main.ackRefreshRequest = false)
    (hn : (c.states is t).main.untilAck ≤ n) :
    ∃ k, t < k ∧ k ≤ t + n ∧ (c.states is k).main.mCmd = ⟨false, .arf⟩ := by
  induction n generalizing t with
  | zero =>
    have hpos := (c.states is t).main.untilAck_pos
    omega
  | succ n ih =>
    have hmain : (c.states is (t + 1)).main = (c.states is t).main.clock (c.states is t).init true
        true (c.states is t).fifo := by
      rw [states_succ, SdramController.main_clock hdone, hreq]
    by_cases hstate : (c.states is t).main.mState = .ref
    · refine ⟨t + 1, by omega, by omega, ?_⟩
      rw [hmain]
      simp [MainFsm.clock, hstate]
    · obtain ⟨b, hobeys⟩ := (due_states c is t).obeys
      have hnear : (c.states is (t + 1)).main.untilAck + 1 ≤ (c.states is t).main.untilAck := by
        have hstage := hobeys.stage hdone
        rw [hreq] at hstage
        rw [hmain]
        exact hstage.untilAck_clock hstate
      have hack' : (c.states is (t + 1)).main.ackRefreshRequest = false := by
        rw [hmain]
        exact MainFsm.ack_clock_of_not hstate hack
      have hreq' : (c.states is (t + 1)).refreshRequest = true := by
        show ((_ || (c.states is t).refreshRequest) && !(c.states is t).main.ackRefreshRequest &&
          (c.states is t).initDone) = true
        rw [hreq, hack, hdone, Bool.or_true]
        rfl
      obtain ⟨k, hlt, hle, hcmd⟩ := ih (initDone_states c is hdone 1) hreq' hack' (by omega)
      exact ⟨k, by omega, by omega, hcmd⟩

/-- **No refresh is missed**: whatever is asked for, the controller never says that it could not
refresh, and when the chip has been started up a refresh comes in every 1131 clocks. -/
theorem sdram_refreshes (t : ℕ) :
    (c.states is t).zaCannotrefresh = false ∧
      ((c.states is t).initDone = true →
        ∃ k, t < k ∧ k ≤ t + 1131 ∧ (c.states is k).main.mCmd = ⟨false, .arf⟩) := by
  refine ⟨(due_states c is t).quiet, fun hdone => ?_⟩
  have hle := (due_states c is t).counter hdone
  have hzero := refreshCounter_states c is (n := (c.states is t).refreshCounter.toNat) le_rfl
  generalize hu : t + (c.states is t).refreshCounter.toNat = u at hzero
  rw [Nat.sub_self] at hzero
  have hdone' : (c.states is u).initDone = true := hu ▸ initDone_states c is hdone _
  have hdue := due_states c is u
  have hcount : (c.states is u).refreshCounter = 0 := BitVec.eq_of_toNat_eq hzero
  -- The counter is 0 in clock `u`, and a refresh is asked for in the next one.
  have hnone : (c.states is u).main.ackRefreshRequest = false := by
    by_contra hne
    have hfar := hdue.ack (by simpa using hne)
    omega
  have hreq : (c.states is (u + 1)).refreshRequest = true := by
    simp [states_succ, SdramController.clock, hcount, hnone, hdone']
  have hdue' := due_states c is (u + 1)
  have hdone₁ := initDone_states c is hdone' 1
  have hcount' : (c.states is (u + 1)).refreshCounter.toNat = 1116 := by
    rw [states_succ, SdramController.toNat_refreshCounter, if_pos hzero]
  have hnone' : (c.states is (u + 1)).main.ackRefreshRequest = false := by
    by_contra hne
    obtain ⟨b, hobeys⟩ := hdue.obeys
    rw [states_succ, SdramController.main_clock hdone', Bool.not_eq_false] at hne
    rcases (hobeys.stage hdone').ack_clock hne with ⟨hold, hnot, -, -⟩ | ⟨hold, -⟩
    · have hfar := hdue.request hold hnot
      omega
    · exact absurd (hnone.symm.trans hold) Bool.noConfusion
  have hmost := hdue'.request hreq hnone'
  obtain ⟨k, hlt, hle', hcmd⟩ := exists_refresh c is hdone₁ hreq hnone'
    (n := 14) (by omega)
  exact ⟨k, by omega, by omega, hcmd⟩

end Runs

end DigitalModulation
