import DigitalModulation.Audio.Task1
import DigitalModulation.Desktop.Transport

/-!
# The clicks and the player

`task1` comes between any two statements of a branch of `task2`, and at least once between two
clicks.

* `Tasks`: both tasks, the branch that is running given by its statements left;
* `Writes`: how far the branch that is running has got with the three variables;
* `Tasks.Rewound`, `Tasks.Continuing`: what holds from a stop, or from a block, to the next block;
* `transport_protocol`: where the blocks begin.
-/

namespace DigitalModulation

/-- What `task1` reads. -/
def Desktop.songVars (d : Desktop) : SongVars :=
  ⟨d.playSong, d.pauseSong, d.stopSong, d.whichSong⟩

/-- Both tasks. `rested` says that `task1` has had a turn since a branch was running; `clicks` are
the transport buttons clicked so far. -/
structure Tasks where
  desktop : Desktop
  task1 : Task1
  pending : List Stmt
  rested : Bool
  clicks : List TransportButton

/-- A turn of `task1`, the next statement of `task2`, or a click. -/
inductive TaskEvent
  | task1
  | task2
  | click (xMouse yMouse : ℤ)

namespace Tasks

def step (sizeSong : BitVec 32) (s : Tasks) : TaskEvent → Tasks
  | .task1 =>
    { s with
      task1 := s.task1.body sizeSong s.desktop.songVars
      rested := s.pending.isEmpty }
  | .task2 =>
    match s.pending with
    | [] => s
    | st :: pending => { s with desktop := s.desktop.exec st, pending }
  | .click xMouse yMouse =>
    if s.pending.isEmpty && s.rested then
      { s with
        pending := clickStmts xMouse yMouse
        rested := false
        clicks := s.clicks ++ (TransportButton.clicked xMouse yMouse).toList }
    else s

/-- After `main` has started them. -/
def start : Tasks := ⟨Desktop.boot, Task1.init, [], true, []⟩

end Tasks

/-! ### The variables and the statements left -/

/-- The stop button and the buttons that change the track. -/
def TransportButton.Rewinds (b : TransportButton) : Prop := b = .stop ∨ b = .next ∨ b = .previous

instance : DecidablePred TransportButton.Rewinds := fun b =>
  inferInstanceAs (Decidable (b = .stop ∨ b = .next ∨ b = .previous))

theorem TransportButton.rewinds_iff (b : TransportButton) : b.Rewinds ↔ b.flag = some .stop := by
  cases b <;> simp [Rewinds, flag]

def Stmt.writesSongFlag : Stmt → Bool
  | .playSong _ | .pauseSong _ | .stopSong _ => true
  | _ => false

/-- The value of a variable if `f` is the one that is 1. -/
def SongFlag.value (f : Option SongFlag) (g : SongFlag) : BitVec 8 := if f = some g then 1 else 0

/-- The writes of a branch that sets `f`, in their order. -/
def SongFlag.writes (f : Option SongFlag) : List Stmt :=
  [.playSong (value f .play), .pauseSong (value f .pause), .stopSong (value f .stop)]

theorem writesSongFlag_stmts (b : TransportButton) :
    b.stmts.filter Stmt.writesSongFlag = b.flag.elim [] fun f => SongFlag.writes (some f) := by
  cases b <;> rfl

theorem writesSongFlag_modulationClick (x y : ℤ) :
    (modulationClick x y).filter Stmt.writesSongFlag = [] := by
  unfold modulationClick
  split_ifs <;> rfl

theorem writesSongFlag_signalClick (x y : ℤ) :
    (signalClick x y).filter Stmt.writesSongFlag = [] := by
  unfold signalClick
  split_ifs <;> rfl

theorem writesSongFlag_colourClick (x y : ℤ) :
    (colourClick x y).filter Stmt.writesSongFlag = [] := by
  unfold colourClick
  split_ifs <;> rfl

theorem writesSongFlag_clickStmts (x y : ℤ) :
    (clickStmts x y).filter Stmt.writesSongFlag =
      ((TransportButton.clicked x y).bind TransportButton.flag).elim []
        fun f => SongFlag.writes (some f) := by
  unfold clickStmts
  rw [List.filter_append, List.filter_append, writesSongFlag_modulationClick,
    writesSongFlag_signalClick, transportClick_eq]
  cases TransportButton.clicked x y with
  | none => exact writesSongFlag_colourClick x y
  | some b => exact writesSongFlag_stmts b

/-- Of the writes of a branch that sets `new` the first `k` are done; before, `old` was set. -/
structure Writes (s : Tasks) (old new : Option SongFlag) (k : ℕ) : Prop where
  pending : s.pending.filter Stmt.writesSongFlag = (SongFlag.writes new).drop k
  play : s.desktop.playSong = SongFlag.value (if 1 ≤ k then new else old) .play
  pause : s.desktop.pauseSong = SongFlag.value (if 2 ≤ k then new else old) .pause
  stop : s.desktop.stopSong = SongFlag.value (if 3 ≤ k then new else old) .stop
  last : ∀ b ∈ s.clicks.getLast?, b.flag = new ∨ b.flag = none ∧ 3 ≤ k
  running : k < 3 → ∃ b ∈ s.clicks.getLast?, b.flag = new

namespace Tasks

variable {sizeSong : BitVec 32} {s : Tasks}

/-- The state is between two statements of some branch. -/
def Settling (s : Tasks) : Prop := ∃ old new k, Writes s old new k

theorem settling_start : start.Settling := by
  refine ⟨none, none, 3, ?_, ?_, ?_, ?_, ?_, ?_⟩
  · rfl
  · decide +kernel
  · decide +kernel
  · decide +kernel
  · simp [start]
  · omega

theorem exec_songFlag {st : Stmt} (h : st.writesSongFlag = false) (d : Desktop) :
    (d.exec st).playSong = d.playSong ∧ (d.exec st).pauseSong = d.pauseSong ∧
      (d.exec st).stopSong = d.stopSong := by
  cases st with
  | playSong v => cases h
  | pauseSong v => cases h
  | stopSong v => cases h
  | nextSong => simp only [Desktop.exec]; split <;> exact ⟨rfl, rfl, rfl⟩
  | previousSong => simp only [Desktop.exec]; split <;> exact ⟨rfl, rfl, rfl⟩
  | _ => exact ⟨rfl, rfl, rfl⟩

end Tasks

namespace Writes

variable {s : Tasks} {old new : Option SongFlag} {k : ℕ}

/-- A write that is left is one of the three. -/
theorem lt_three (h : Writes s old new k) {st : Stmt} {rest : List Stmt}
    (hleft : s.pending.filter Stmt.writesSongFlag = st :: rest) : k < 3 := by
  by_contra hge
  have hnil := h.pending
  rw [hleft, List.drop_eq_nil_of_le (by simpa [SongFlag.writes] using hge)] at hnil
  cases hnil

theorem three_le (h : Writes s old new k) (hs : s.pending = []) : 3 ≤ k := by
  have hdrop := h.pending
  rw [hs, List.filter_nil, eq_comm, List.drop_eq_nil_iff] at hdrop
  simpa [SongFlag.writes] using hdrop

/-- The branch of the last button is the one that is running. -/
theorem flag_last (h : Writes s old new k) (hk : k < 3) :
    ∀ b ∈ s.clicks.getLast?, b.flag = new := by
  intro b hb
  rcases h.last b hb with hflag | ⟨-, hge⟩
  · exact hflag
  · omega

end Writes

namespace Tasks

variable {sizeSong : BitVec 32} {s : Tasks}

theorem Settling.task2 (h : s.Settling) : (s.step sizeSong .task2).Settling := by
  obtain ⟨old, new, k, h⟩ := h
  simp only [step]
  cases hpending : s.pending with
  | nil => exact ⟨old, new, k, h⟩
  | cons st rest =>
    have hleft := h.pending
    rw [hpending, List.filter_cons] at hleft
    by_cases hst : st.writesSongFlag = true
    · -- The write is the next of the three.
      rw [if_pos hst] at hleft
      have hk : k < 3 := h.lt_three (by rw [hpending, List.filter_cons, if_pos hst])
      have hlast := h.flag_last hk
      have hrunning := h.running hk
      obtain rfl | rfl | rfl : k = 0 ∨ k = 1 ∨ k = 2 := by omega
      all_goals obtain ⟨rfl, hrest⟩ := List.cons.inj hleft
      · exact ⟨old, new, 1, hrest, rfl, h.pause, h.stop, fun b hb => .inl (hlast b hb),
          fun _ => hrunning⟩
      · exact ⟨old, new, 2, hrest, h.play, rfl, h.stop, fun b hb => .inl (hlast b hb),
          fun _ => hrunning⟩
      · exact ⟨old, new, 3, hrest, h.play, h.pause, rfl, fun b hb => .inl (hlast b hb),
          fun _ => hrunning⟩
    · rw [if_neg hst] at hleft
      obtain ⟨hplay, hpause, hstop⟩ := exec_songFlag (by simpa using hst) s.desktop
      exact ⟨old, new, k, hleft, hplay.trans h.play, hpause.trans h.pause, hstop.trans h.stop,
        h.last, h.running⟩

theorem Settling.click (h : s.Settling) (x y : ℤ) : (s.step sizeSong (.click x y)).Settling := by
  obtain ⟨old, new, k, h⟩ := h
  simp only [step]
  split_ifs with hidle
  · rw [Bool.and_eq_true, List.isEmpty_iff] at hidle
    have hk := h.three_le hidle.1
    have hplay := h.play
    have hpause := h.pause
    have hstop := h.stop
    rw [if_pos (by omega)] at hplay hpause hstop
    have hpending := writesSongFlag_clickStmts x y
    have hlast (b : TransportButton) (hb : TransportButton.clicked x y = some b) :
        b ∈ (s.clicks ++ (TransportButton.clicked x y).toList).getLast? := by
      simp [hb]
    cases hflag : (TransportButton.clicked x y).bind TransportButton.flag with
    | none =>
      -- The branch writes none of the variables, so `new` stays set.
      rw [hflag] at hpending
      refine ⟨new, new, 3, hpending, ?_, ?_, ?_, ?_, by omega⟩
      · simpa using hplay
      · simpa using hpause
      · simpa using hstop
      · intro b hb
        cases hclicked : TransportButton.clicked x y with
        | none =>
          rw [hclicked, Option.toList_none, List.append_nil] at hb
          exact (h.last b hb).imp id fun hnone => ⟨hnone.1, le_refl 3⟩
        | some b' =>
          obtain rfl := Option.mem_unique (hlast b' hclicked) hb
          rw [hclicked, Option.bind_some] at hflag
          exact .inr ⟨hflag, le_refl 3⟩
    | some f =>
      -- All three writes of the new branch are still to come.
      obtain ⟨b, hclicked, hb⟩ := Option.bind_eq_some_iff.mp hflag
      rw [hflag] at hpending
      refine ⟨new, some f, 0, hpending, hplay, hpause, hstop, ?_,
        fun _ => ⟨b, hlast b hclicked, hb⟩⟩
      intro b' hb'
      obtain rfl := Option.mem_unique (hlast b hclicked) hb'
      exact .inl hb
  · exact ⟨old, new, k, h⟩

theorem Settling.step (h : s.Settling) (e : TaskEvent) : (s.step sizeSong e).Settling := by
  cases e with
  | task1 =>
    obtain ⟨old, new, k, h⟩ := h
    exact ⟨old, new, k, h.pending, h.play, h.pause, h.stop, h.last, h.running⟩
  | task2 => exact h.task2
  | click x y => exact h.click x y

/-! ### Blocks -/

theorem blocks_task1 (sizeSong : BitVec 32) (s : Tasks) :
    (s.step sizeSong .task1).task1.blocks = s.task1.blocks ++
      if s.desktop.playSong = 1 then
        (track s.desktop.whichSong).toList.map fun name =>
          ⟨name, (s.task1.addressCounter % sizeSong).toNat⟩
      else [] :=
  Task1.blocks_body

/-- No event takes back a block or a click. -/
theorem prefix_step (sizeSong : BitVec 32) (s : Tasks) (e : TaskEvent) :
    s.task1.blocks <+: (s.step sizeSong e).task1.blocks ∧
      s.clicks <+: (s.step sizeSong e).clicks := by
  cases e with
  | task1 =>
    rw [blocks_task1]
    exact ⟨List.prefix_append _ _, List.prefix_rfl⟩
  | task2 =>
    simp only [step]
    split
    all_goals exact ⟨List.prefix_rfl, List.prefix_rfl⟩
  | click x y =>
    simp only [step]
    split_ifs
    · exact ⟨List.prefix_rfl, List.prefix_append _ _⟩
    · exact ⟨List.prefix_rfl, List.prefix_rfl⟩

theorem prefix_foldl (sizeSong : BitVec 32) (s : Tasks) (es : List TaskEvent) :
    s.task1.blocks <+: (es.foldl (step sizeSong) s).task1.blocks ∧
      s.clicks <+: (es.foldl (step sizeSong) s).clicks := by
  induction es generalizing s with
  | nil => exact ⟨List.prefix_rfl, List.prefix_rfl⟩
  | cons e es ih =>
    obtain ⟨hblocks, hclicks⟩ := prefix_step sizeSong s e
    obtain ⟨hblocks', hclicks'⟩ := ih (s.step sizeSong e)
    exact ⟨hblocks.trans hblocks', hclicks.trans hclicks'⟩

/-- Events that send no block send none on the way. -/
theorem blocks_step_of_foldl {e : TaskEvent} {es : List TaskEvent}
    (h : ((e :: es).foldl (step sizeSong) s).task1.blocks = s.task1.blocks) :
    (s.step sizeSong e).task1.blocks = s.task1.blocks ∧
      (es.foldl (step sizeSong) (s.step sizeSong e)).task1.blocks =
        (s.step sizeSong e).task1.blocks := by
  have hstep := (prefix_step sizeSong s e).1
  have hrest := (prefix_foldl sizeSong (s.step sizeSong e) es).1
  rw [List.foldl_cons] at h
  rw [h] at hrest
  -- Blocks are only added, so there are as many in between.
  have hsame : (s.step sizeSong e).task1.blocks = s.task1.blocks :=
    (hstep.eq_of_length_le hrest.length_le).symm
  exact ⟨hsame, h.trans hsame.symm⟩

/-- A turn of `task1` that sends a block. -/
theorem play_of_block {b : Block}
    (h : (s.step sizeSong .task1).task1.blocks = s.task1.blocks ++ [b]) :
    s.desktop.playSong = 1 ∧ track s.desktop.whichSong = some b.song ∧
      b.offset = (s.task1.addressCounter % sizeSong).toNat := by
  rw [blocks_task1, List.append_cancel_left_eq] at h
  by_cases hplay : s.desktop.playSong = 1
  · rw [if_pos hplay] at h
    cases htrack : track s.desktop.whichSong with
    | none =>
      rw [htrack] at h
      cases h
    | some name =>
      rw [htrack] at h
      obtain rfl : _ = b := (List.cons.inj h).1
      exact ⟨hplay, rfl, rfl⟩
  · rw [if_neg hplay] at h
    cases h

/-- One that sends none leaves the position, or rewinds it. -/
theorem counter_of_no_block (hwhich : s.desktop.whichSong < 3)
    (h : (s.step sizeSong .task1).task1.blocks = s.task1.blocks) :
    s.desktop.playSong ≠ 1 ∧
      (s.step sizeSong .task1).task1.addressCounter =
        if s.desktop.pauseSong ≠ 1 ∧ s.desktop.stopSong = 1 then 0
        else s.task1.addressCounter := by
  have hplay : s.desktop.playSong ≠ 1 := by
    intro hplay
    obtain ⟨name, hname⟩ := exists_track hwhich
    rw [blocks_task1, if_pos hplay, hname, List.append_right_eq_self] at h
    cases h
  exact ⟨hplay, Task1.addressCounter_body hplay⟩

/-! ### All states -/

/-- What holds after any events. -/
structure Inv (s : Tasks) : Prop where
  settling : s.Settling
  idle : s.rested = true → s.pending = []
  rewound : s.rested = true → (∃ b ∈ s.clicks.getLast?, b.Rewinds) → s.task1.addressCounter = 0
  which : s.desktop.whichSong < 3

theorem exec_whichSong {d : Desktop} (h : d.whichSong < 3) (st : Stmt) :
    (d.exec st).whichSong < 3 := by
  cases st with
  | nextSong =>
    simp only [Desktop.exec]
    split_ifs with hlt
    · show d.whichSong + 1 < 3
      bv_omega
    · exact h
  | previousSong =>
    simp only [Desktop.exec]
    split_ifs with hlt
    · show d.whichSong - 1 < 3
      bv_omega
    · exact h
  | _ => exact h

theorem inv_start : start.Inv where
  settling := settling_start
  idle := fun _ => rfl
  rewound := fun _ _ => rfl
  which := by decide +kernel

/-- After the branch of a stop or a track button `stop_song` alone is set. -/
theorem Settling.flags (h : s.Settling) (hs : s.pending = [])
    (hlast : ∃ b ∈ s.clicks.getLast?, b.Rewinds) :
    s.desktop.playSong = 0 ∧ s.desktop.pauseSong = 0 ∧ s.desktop.stopSong = 1 := by
  obtain ⟨old, new, k, h⟩ := h
  have hk := h.three_le hs
  obtain ⟨b, hb, hrewinds⟩ := hlast
  rw [TransportButton.rewinds_iff] at hrewinds
  have hnew : new = some .stop := by
    rcases h.last b hb with hflag | ⟨hnone, -⟩
    · exact hflag.symm.trans hrewinds
    · rw [hrewinds] at hnone
      cases hnone
  have hplay := h.play
  have hpause := h.pause
  have hstop := h.stop
  rw [if_pos (by omega), hnew] at hplay hpause hstop
  exact ⟨hplay, hpause, hstop⟩

/-- A turn of `task1` with `stop_song` alone set. -/
theorem counter_of_stop (hplay : s.desktop.playSong = 0) (hpause : s.desktop.pauseSong = 0)
    (hstop : s.desktop.stopSong = 1) :
    (s.step sizeSong .task1).task1.addressCounter = 0 := by
  simp [step, Task1.body, Desktop.songVars, hplay, hpause, hstop]

theorem Inv.step (h : s.Inv) (e : TaskEvent) : (s.step sizeSong e).Inv := by
  refine ⟨h.settling.step e, ?_, ?_, ?_⟩
  · cases e with
    | task1 => exact fun hrested => List.isEmpty_iff.mp hrested
    | task2 =>
      simp only [Tasks.step]
      split
      · exact h.idle
      next st rest hpending =>
        intro hrested
        rw [h.idle hrested] at hpending
        cases hpending
    | click x y =>
      simp only [Tasks.step]
      split_ifs
      · intro hrested
        cases hrested
      · exact h.idle
  · cases e with
    | task1 =>
      intro hrested hlast
      obtain ⟨hplay, hpause, hstop⟩ := h.settling.flags (List.isEmpty_iff.mp hrested) hlast
      exact counter_of_stop hplay hpause hstop
    | task2 =>
      simp only [Tasks.step]
      split
      · exact h.rewound
      · exact h.rewound
    | click x y =>
      simp only [Tasks.step]
      split_ifs
      · intro hrested
        cases hrested
      · exact h.rewound
  · cases e with
    | task1 => exact h.which
    | task2 =>
      simp only [Tasks.step]
      split
      · exact h.which
      next st rest hpending => exact exec_whichSong h.which st
    | click x y =>
      simp only [Tasks.step]
      split_ifs
      · exact h.which
      · exact h.which

theorem Inv.foldl (h : s.Inv) (es : List TaskEvent) : (es.foldl (Tasks.step sizeSong) s).Inv := by
  induction es generalizing s with
  | nil => exact h
  | cons e es ih => exact ih (h.step e)

/-! ### From a stop to the next block -/

/-- The position is 0, or the next event that matters is a turn of `task1` that makes it 0. -/
def Rewound (s : Tasks) : Prop :=
  s.task1.addressCounter = 0 ∨
    s.pending = [] ∧ s.rested = false ∧ s.desktop.playSong = 0 ∧ s.desktop.pauseSong = 0 ∧
      s.desktop.stopSong = 1

theorem Inv.rewound_of_idle (h : s.Inv) (hs : s.pending = [])
    (hlast : ∃ b ∈ s.clicks.getLast?, b.Rewinds) : s.Rewound := by
  by_cases hrested : s.rested = true
  · exact .inl (h.rewound hrested hlast)
  · exact .inr ⟨hs, by simpa using hrested, h.settling.flags hs hlast⟩

theorem Rewound.step (h : s.Rewound) (hs : s.Inv) {e : TaskEvent}
    (hblocks : (s.step sizeSong e).task1.blocks = s.task1.blocks) :
    (s.step sizeSong e).Rewound := by
  rcases h with hcounter | ⟨hpending, hrested, hplay, hpause, hstop⟩
  · left
    cases e with
    | task1 =>
      obtain ⟨-, hnext⟩ := counter_of_no_block hs.which hblocks
      rw [hnext, hcounter, ite_self]
    | task2 =>
      simp only [Tasks.step]
      split
      · exact hcounter
      · exact hcounter
    | click x y =>
      simp only [Tasks.step]
      split_ifs
      · exact hcounter
      · exact hcounter
  · -- `task2` has nothing left to do, and the next click waits for a turn of `task1`.
    cases e with
    | task1 => exact .inl (counter_of_stop hplay hpause hstop)
    | task2 =>
      have hsame : s.step sizeSong .task2 = s := by simp only [Tasks.step, hpending]
      rw [hsame]
      exact .inr ⟨hpending, hrested, hplay, hpause, hstop⟩
    | click x y =>
      have hsame : s.step sizeSong (.click x y) = s := by simp [Tasks.step, hrested]
      rw [hsame]
      exact .inr ⟨hpending, hrested, hplay, hpause, hstop⟩

theorem Rewound.foldl (h : s.Rewound) (hs : s.Inv) {es : List TaskEvent}
    (hblocks : (es.foldl (Tasks.step sizeSong) s).task1.blocks = s.task1.blocks) :
    (es.foldl (Tasks.step sizeSong) s).Rewound := by
  induction es generalizing s with
  | nil => exact h
  | cons e es ih =>
    obtain ⟨hstep, hrest⟩ := blocks_step_of_foldl hblocks
    exact ih (h.step hs hstep) (hs.step e) hrest

/-! ### From a block to the next -/

/-- The position is still `c`, and `stop_song` is not set or about to be cleared by the branch of
the play button. -/
def Continuing (c : BitVec 32) (s : Tasks) : Prop :=
  s.task1.addressCounter = c ∧
    (s.desktop.stopSong ≠ 1 ∨
      s.desktop.playSong = 1 ∧
        (s.pending.filter Stmt.writesSongFlag = [.pauseSong 0, .stopSong 0] ∨
          s.pending.filter Stmt.writesSongFlag = [.stopSong 0]))

theorem value_eq_one_iff (f : Option SongFlag) (g : SongFlag) :
    SongFlag.value f g = 1 ↔ f = some g := by
  unfold SongFlag.value
  by_cases h : f = some g
  · simp [h]
  · simp [h]

/-- When a block is sent `stop_song` is not set, or the branch of the play button is running. -/
theorem Settling.continuing (h : s.Settling) (hplay : s.desktop.playSong = 1) :
    s.Continuing s.task1.addressCounter := by
  obtain ⟨old, new, k, h⟩ := h
  have hvar := h.play
  have hpending := h.pending
  have hstop := h.stop
  rw [hplay, eq_comm, value_eq_one_iff] at hvar
  refine ⟨rfl, ?_⟩
  -- `play_song` is the first variable written, `stop_song` the last.
  obtain rfl | rfl | rfl | hk : k = 0 ∨ k = 1 ∨ k = 2 ∨ 3 ≤ k := by omega
  · left
    obtain rfl : old = some .play := hvar
    rw [hstop]
    show SongFlag.value (some .play) .stop ≠ 1
    decide
  · right
    obtain rfl : new = some .play := hvar
    exact ⟨hplay, .inl hpending⟩
  · right
    obtain rfl : new = some .play := hvar
    exact ⟨hplay, .inr hpending⟩
  · left
    rw [if_pos (by omega)] at hvar hstop
    rw [hstop, hvar]
    decide

/-- Only the branch of a stop or a track button sets `stop_song`. -/
theorem Settling.rewinds_of_stop (h : s.Settling) {rest : List Stmt}
    (hleft : s.pending.filter Stmt.writesSongFlag = .stopSong 1 :: rest) :
    ∃ b ∈ s.clicks.getLast?, b.Rewinds := by
  obtain ⟨old, new, k, h⟩ := h
  have hk := h.lt_three hleft
  obtain ⟨b, hb, hflag⟩ := h.running hk
  have hpending := h.pending
  rw [hleft] at hpending
  refine ⟨b, hb, b.rewinds_iff.mpr (hflag.trans ?_)⟩
  obtain rfl | rfl | rfl : k = 0 ∨ k = 1 ∨ k = 2 := by omega
  · cases (List.cons.inj hpending).1
  · cases (List.cons.inj hpending).1
  · have hvalue := Stmt.stopSong.inj (List.cons.inj hpending).1
    exact (value_eq_one_iff new .stop).mp hvalue.symm

theorem exec_stopSong {st : Stmt} (h : st ≠ .stopSong 1) {d : Desktop} (hd : d.stopSong ≠ 1) :
    (d.exec st).stopSong ≠ 1 := by
  cases hst : st.writesSongFlag with
  | false => rwa [(exec_songFlag hst d).2.2]
  | true =>
    cases st with
    | playSong v => exact hd
    | pauseSong v => exact hd
    | stopSong v => exact fun hv => h (congrArg _ hv)
    | _ => cases hst

variable {c : BitVec 32}

theorem Continuing.task2 (h : s.Continuing c) (hs : s.Settling)
    (hlast : ∀ b ∈ s.clicks.getLast?, ¬ b.Rewinds) : (s.step sizeSong .task2).Continuing c := by
  simp only [step]
  cases hpending : s.pending with
  | nil => exact h
  | cons st rest =>
    obtain ⟨hcounter, hstop | ⟨hplay, hleft⟩⟩ := h
    · refine ⟨hcounter, .inl (exec_stopSong ?_ hstop)⟩
      rintro rfl
      have hleft : s.pending.filter Stmt.writesSongFlag =
          .stopSong 1 :: rest.filter Stmt.writesSongFlag := by
        rw [hpending]
        rfl
      obtain ⟨b, hb, hrewinds⟩ := hs.rewinds_of_stop hleft
      exact hlast b hb hrewinds
    · rw [hpending, List.filter_cons] at hleft
      by_cases hst : st.writesSongFlag = true
      · rw [if_pos hst] at hleft
        rcases hleft with hleft | hleft
        · obtain ⟨rfl, hrest⟩ := List.cons.inj hleft
          exact ⟨hcounter, .inr ⟨hplay, .inr hrest⟩⟩
        · obtain ⟨rfl, hrest⟩ := List.cons.inj hleft
          refine ⟨hcounter, .inl ?_⟩
          show (0 : BitVec 8) ≠ 1
          decide
      · rw [if_neg hst] at hleft
        obtain ⟨hplay', -, -⟩ := exec_songFlag (by simpa using hst) s.desktop
        exact ⟨hcounter, .inr ⟨hplay'.trans hplay, hleft⟩⟩

theorem Continuing.step (h : s.Continuing c) (hs : s.Inv)
    (hlast : ∀ b ∈ s.clicks.getLast?, ¬ b.Rewinds) {e : TaskEvent}
    (hblocks : (s.step sizeSong e).task1.blocks = s.task1.blocks) :
    (s.step sizeSong e).Continuing c := by
  cases e with
  | task1 =>
    obtain ⟨hplay, hnext⟩ := counter_of_no_block hs.which hblocks
    obtain ⟨hcounter, hstop | ⟨hplay', -⟩⟩ := h
    · rw [if_neg fun h => hstop h.2] at hnext
      exact ⟨hnext.trans hcounter, .inl hstop⟩
    · exact absurd hplay' hplay
  | task2 => exact h.task2 hs.settling hlast
  | click x y =>
    simp only [Tasks.step]
    split_ifs with hidle
    · rw [Bool.and_eq_true, List.isEmpty_iff] at hidle
      obtain ⟨hcounter, hstop | ⟨-, hleft⟩⟩ := h
      · exact ⟨hcounter, .inl hstop⟩
      · rw [hidle.1] at hleft
        rcases hleft with hleft | hleft <;> cases hleft
    · exact h

theorem Continuing.foldl (h : s.Continuing c) (hs : s.Inv)
    (hlast : ∀ b ∈ s.clicks.getLast?, ¬ b.Rewinds) {es : List TaskEvent}
    (hblocks : (es.foldl (Tasks.step sizeSong) s).task1.blocks = s.task1.blocks)
    {clicks : List TransportButton}
    (hclicks : (es.foldl (Tasks.step sizeSong) s).clicks = s.clicks ++ clicks)
    (hmid : ∀ b ∈ clicks, ¬ b.Rewinds) : (es.foldl (Tasks.step sizeSong) s).Continuing c := by
  induction es generalizing s clicks with
  | nil => exact h
  | cons e es ih =>
    obtain ⟨hstep, hrest⟩ := blocks_step_of_foldl hblocks
    obtain ⟨first, hfirst⟩ := (prefix_step sizeSong s e).2
    obtain ⟨others, hothers⟩ := (prefix_foldl sizeSong (s.step sizeSong e) es).2
    rw [List.foldl_cons, ← hothers, ← hfirst, List.append_assoc, List.append_cancel_left_eq]
      at hclicks
    subst hclicks
    refine ih (h.step hs hlast hstep) (hs.step e) ?_ hrest hothers.symm
      fun b hb => hmid b (List.mem_append_right first hb)
    intro b hb
    rw [← hfirst, List.getLast?_append] at hb
    cases hone : first.getLast? with
    | none =>
      rw [hone] at hb
      exact hlast b hb
    | some b' =>
      rw [hone] at hb
      obtain rfl : b' = b := Option.some_inj.mp hb
      exact hmid b' (List.mem_append_left others (List.mem_of_getLast? hone))

end Tasks

/-- **Where the blocks begin.** After any events: the first block after the branch of a stop or a
track button is from the beginning of the track that is named then; as long as none of these buttons
is clicked, nor its branch running, the position a block leaves is kept to the next block; a turn of
`task1` with `play_song` at 0 sends nothing; and `which_song` is 0, 1 or 2. -/
theorem transport_protocol (sizeSong : BitVec 32) (es : List TaskEvent) :
    let s := es.foldl (Tasks.step sizeSong) Tasks.start
    (∀ es' : List TaskEvent, ∀ b : Block,
      let s' := es'.foldl (Tasks.step sizeSong) s
      s.pending = [] → (∃ b ∈ s.clicks.getLast?, b.Rewinds) →
      s'.task1.blocks = s.task1.blocks →
      (s'.step sizeSong .task1).task1.blocks = s'.task1.blocks ++ [b] →
      b.offset = 0 ∧ track s'.desktop.whichSong = some b.song) ∧
    (∀ es' : List TaskEvent, ∀ b : Block, ∀ clicks : List TransportButton,
      let s₁ := s.step sizeSong .task1
      let s₂ := es'.foldl (Tasks.step sizeSong) s₁
      s₁.task1.blocks = s.task1.blocks ++ [b] → s₂.task1.blocks = s₁.task1.blocks →
      (∀ b ∈ s₁.clicks.getLast?, ¬ b.Rewinds) →
      s₂.clicks = s₁.clicks ++ clicks → (∀ b ∈ clicks, ¬ b.Rewinds) →
      s₂.task1.addressCounter = s₁.task1.addressCounter ∧
      ∀ b' : Block, (s₂.step sizeSong .task1).task1.blocks = s₂.task1.blocks ++ [b'] →
        b'.offset = (s₁.task1.addressCounter % sizeSong).toNat) ∧
    (s.desktop.playSong = 0 → (s.step sizeSong .task1).task1.blocks = s.task1.blocks) ∧
    s.desktop.whichSong < 3 := by
  intro s
  have hs : s.Inv := Tasks.inv_start.foldl es
  refine ⟨?_, ?_, ?_, hs.which⟩
  · intro es' b s' hidle hlast hblocks hblock
    obtain ⟨hplay, htrack, hoffset⟩ := Tasks.play_of_block hblock
    rcases (hs.rewound_of_idle hidle hlast).foldl hs hblocks with hzero | ⟨-, -, hplay', -⟩
    · rw [hzero] at hoffset
      exact ⟨hoffset.trans (by simp), htrack⟩
    · rw [hplay'] at hplay
      cases hplay
  · intro es' b clicks s₁ s₂ hblock hblocks hlast hclicks hmid
    obtain ⟨hplay, -, -⟩ := Tasks.play_of_block hblock
    have hs₁ : s₁.Inv := hs.step .task1
    obtain ⟨hcounter, -⟩ := (hs₁.settling.continuing hplay).foldl hs₁ hlast hblocks hclicks hmid
    refine ⟨hcounter, fun b' hb' => ?_⟩
    rw [← hcounter]
    exact (Tasks.play_of_block hb').2.2
  · intro hplay
    rw [Tasks.blocks_task1, hplay]
    exact List.append_nil _

/-- The events of a click on a transport button that sets a variable, to the end of its branch. -/
def clickEvents (x y : ℤ) : List TaskEvent := .click x y :: List.replicate 10 .task2

/-- Play, a block, pause, play: the song goes on. -/
theorem pause_play_goes_on :
    let s₁ := ((clickEvents 300 50).foldl (Tasks.step 5000) Tasks.start).step 5000 .task1
    let s₂ := (clickEvents 530 50 ++ TaskEvent.task1 :: clickEvents 300 50).foldl
      (Tasks.step 5000) s₁
    s₂.task1.addressCounter = s₁.task1.addressCounter :=
  ((transport_protocol 5000 (clickEvents 300 50)).2.1
    (clickEvents 530 50 ++ TaskEvent.task1 :: clickEvents 300 50) ⟨.song, 0⟩ [.pause, .play]
    (by decide +kernel) (by decide +kernel) (by decide +kernel) (by decide +kernel) (by decide)).1

/-- Play, a block, stop, pause, play: neither stop nor a track button between pause and play, and
the song starts again. -/
theorem pause_play_starts_again :
    ¬ ∀ (sizeSong : BitVec 32) (es es' : List TaskEvent) (b b' : Block)
        (clicks between : List TransportButton),
      let s := es.foldl (Tasks.step sizeSong) Tasks.start
      let s₁ := s.step sizeSong .task1
      let s₂ := es'.foldl (Tasks.step sizeSong) s₁
      s₁.task1.blocks = s.task1.blocks ++ [b] → s₂.task1.blocks = s₁.task1.blocks →
      s₂.clicks = s₁.clicks ++ clicks ++ .pause :: between ++ [.play] →
      (∀ b ∈ between, ¬ b.Rewinds) →
      (s₂.step sizeSong .task1).task1.blocks = s₂.task1.blocks ++ [b'] →
      b'.offset = (s₁.task1.addressCounter % sizeSong).toNat := by
  intro h
  have hoffset := h 5000 (clickEvents 300 50)
    (clickEvents 410 50 ++ [.task1] ++ clickEvents 530 50 ++ [.task1] ++ clickEvents 300 50)
    ⟨.song, 0⟩ ⟨.song, 0⟩ [.stop] [] (by decide +kernel) (by decide +kernel) (by decide +kernel)
    (by simp) (by decide +kernel)
  revert hoffset
  decide +kernel

end DigitalModulation
