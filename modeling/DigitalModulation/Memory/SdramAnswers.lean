import DigitalModulation.Memory.Sdram
import DigitalModulation.Memory.SdramProgress

/-!
# The words of the SDRAM come back

A request waits until it is given to the chip, and the word of a read then goes through the
registers of the chip and of the controller, one in a clock.

* `Sdram.upTo_accepted`, `Sdram.upTo_answered`: what has been given and given back so far;
* `Sdram.accepted_given`: what is accepted is given some clocks later;
* `Sdram.given_answered`: what is given is answered five clocks later;
* `sdram_words_come`: both.
-/

namespace DigitalModulation

namespace Sdram

/-- The number of reads on the lines. -/
def reads (s : Sdram) : ℕ := if s.pins.cmd.code = .rd then 1 else 0

theorem length_ite_singleton {α : Type*} (v : Bool) (x : α) :
    (if v then [x] else []).length = v.toNat := by
  cases v <;> rfl

/-- The words in the registers of the controller and of the chip. -/
theorem length_inFlight (s : Sdram) : s.inFlight.length =
    s.controller.zaValid.toNat + ((s.controller.rdValid.getLsbD 2).toNat +
      ((s.controller.rdValid.getLsbD 1).toNat + ((s.controller.rdValid.getLsbD 0).toNat +
        s.reads))) := by
  have hreads (word : BitVec 16) :
      (if s.pins.cmd.code = .rd then [word] else []).length = s.reads := by
    unfold reads
    split_ifs <;> rfl
  simp only [inFlight, List.length_append, length_ite_singleton, hreads]

/-- What is read moves one register on. -/
theorem registers_clock (s : Sdram) (e : SdramEdge) :
    (s.clock e).controller.zaValid.toNat = (s.controller.rdValid.getLsbD 2).toNat ∧
      ((s.clock e).controller.rdValid.getLsbD 2).toNat = (s.controller.rdValid.getLsbD 1).toNat ∧
        ((s.clock e).controller.rdValid.getLsbD 1).toNat =
          (s.controller.rdValid.getLsbD 0).toNat ∧
          ((s.clock e).controller.rdValid.getLsbD 0).toNat = s.reads := by
  obtain ⟨hv0, hv1, hv2⟩ := rdValid_shift s.controller.rdValid (s.pins.cmd.code == .rd)
  have hv0' : (s.clock e).controller.rdValid.getLsbD 0 = (s.pins.cmd.code == .rd) := hv0
  refine ⟨rfl, congrArg _ hv2, congrArg _ hv1, ?_⟩
  rw [hv0', reads]
  by_cases hcode : s.pins.cmd.code = .rd <;> simp [hcode]

/-- The reads that are given are on the lines with the next edge. -/
theorem length_answers {s : Sdram} {rs : List SdramRequest} (h : s.controller.main.Gives rs)
    (mem : BitVec 25 → BitVec 16) :
    (Machine.outputs SdramRequest.execute SdramRequest.answer mem rs).length = s.reads := by
  unfold reads
  cases h with
  | none hrd hwr hoe =>
    have hrd' : s.pins.cmd.code ≠ .rd := hrd
    rw [if_neg hrd']
    rfl
  | one r hcmd =>
    have hcode : s.pins.cmd.code = if r.rnw then .rd else .wr := congrArg _ hcmd
    rw [hcode]
    cases hrnw : r.rnw <;> simp [Machine.outputs, SdramRequest.answer, hrnw]

end Sdram

section Runs

variable (c : SdramController) (chip : SdramChip) (es : ℕ → SdramEdge)

namespace Sdram

/-- Controller and chip after `t` edges from the reset. -/
def states (c : SdramController) (chip : SdramChip) (es : ℕ → SdramEdge) : ℕ → Sdram :=
  Machine.run Sdram.clock ⟨c.reset, chip⟩ es

/-- What is put out in the first `t` clocks. -/
def upTo {ε : Type*} (out : Sdram → SdramEdge → List ε) (c : SdramController) (chip : SdramChip)
    (es : ℕ → SdramEdge) (t : ℕ) : List ε :=
  Machine.outputs Sdram.clock out ⟨c.reset, chip⟩ ((List.range t).map es)

theorem upTo_succ {ε : Type*} (out : Sdram → SdramEdge → List ε) (t : ℕ) :
    upTo out c chip es (t + 1) = upTo out c chip es t ++ out (states c chip es t) (es t) :=
  Machine.outputs_range_succ _ _ _ _

theorem upTo_grows {ε : Type*} (out : Sdram → SdramEdge → List ε) (t n : ℕ) :
    upTo out c chip es t <+: upTo out c chip es (t + n) := by
  induction n with
  | zero => exact List.prefix_rfl
  | succ n ih =>
    rw [← Nat.add_assoc, upTo_succ]
    exact ih.trans (List.prefix_append _ _)

/-- The controller runs as it does with a chip of any other kind. -/
theorem controller_states (t : ℕ) : (states c chip es t).controller =
    c.states (fun t => ((es t).ask, (states c chip es t).zsDq (es t).floating)) t := by
  induction t with
  | zero => rfl
  | succ t ih =>
    rw [states_succ, ← ih]
    rfl

theorem exists_inv (t : ℕ) : ∃ b, (states c chip es t).Inv b := by
  induction t with
  | zero => exact ⟨_, inv_reset c chip⟩
  | succ t ih =>
    obtain ⟨b, hinv⟩ := ih
    exact ⟨_, hinv.clock (es t)⟩

/-- What has been accepted has been given to the chip, but for what waits. -/
theorem upTo_accepted (t : ℕ) : upTo accepted c chip es t =
    upTo (fun s _ => s.given) c chip es t ++ (states c chip es t).todo := by
  induction t with
  | zero => rfl
  | succ t ih =>
    obtain ⟨b, hinv⟩ := exists_inv c chip es t
    obtain ⟨-, -, hturn⟩ := hinv.issue (es t)
    rw [upTo_succ, upTo_succ, ih, List.append_assoc, hturn, List.append_assoc]
    rfl

/-- What has been given has been answered, but for what is in flight. -/
theorem upTo_answered (t : ℕ) : upTo answered c chip es t ++ (states c chip es t).inFlight =
    Machine.outputs SdramRequest.execute SdramRequest.answer chip.memArray
      (upTo (fun s _ => s.given) c chip es t) ∧
    (states c chip es t).contents =
      (upTo (fun s _ => s.given) c chip es t).foldl SdramRequest.execute chip.memArray := by
  induction t with
  | zero =>
    refine ⟨?_, rfl⟩
    simp [upTo, Sdram.states, Machine.run, Machine.outputs, inFlight, pins, SdramController.reset,
      MainFsm.reset, MainFsm.pins, SdramCmd.inhibit]
  | succ t ih =>
    obtain ⟨hwords, hmem⟩ := ih
    obtain ⟨b, hinv⟩ := exists_inv c chip es t
    obtain ⟨hgives, hrow, -⟩ := hinv.issue (es t)
    have hlegal := (hinv.obeys.clock (es t).ask ((states c chip es t).zsDq (es t).floating)).1
    have hcontents := hinv.contents_clock (es t) hgives hrow
    have hflight := hinv.inFlight_clock (es t) hgives hlegal hrow
    have hnext : states c chip es (t + 1) = (states c chip es t).clock (es t) := rfl
    rw [upTo_succ, upTo_succ, hnext, List.append_assoc, hflight, ← List.append_assoc, hwords,
      Machine.outputs_append, hcontents, hmem, List.foldl_append]
    exact ⟨rfl, rfl⟩

/-- The answers to what has been given: an edge adds the reads that are on the lines after it. -/
theorem length_given_succ (t : ℕ) :
    (Machine.outputs SdramRequest.execute SdramRequest.answer chip.memArray
      (upTo (fun s _ => s.given) c chip es (t + 1))).length =
    (Machine.outputs SdramRequest.execute SdramRequest.answer chip.memArray
      (upTo (fun s _ => s.given) c chip es t)).length + (states c chip es (t + 1)).reads := by
  obtain ⟨b, hinv⟩ := exists_inv c chip es t
  obtain ⟨hgives, -, -⟩ := hinv.issue (es t)
  rw [upTo_succ, Machine.outputs_append, List.length_append]
  congr 1
  exact length_answers hgives _

/-- Something is given in some clocks, if something waits. -/
theorem length_given_lt {t : ℕ} (hdone : (states c chip es t).controller.initDone = true)
    (hwaits : (states c chip es t).todo ≠ []) :
    (upTo (fun s _ => s.given) c chip es t).length <
      (upTo (fun s _ => s.given) c chip es (t + 58)).length := by
  obtain ⟨k, hle, hlt, hk⟩ := exists_issued c
    (fun t => ((es t).ask, (states c chip es t).zsDq (es t).floating)) (u := t)
    (by rwa [← controller_states]) (by rwa [← controller_states])
  rw [← controller_states] at hk
  obtain ⟨m, rfl⟩ := Nat.exists_eq_add_of_le hle
  obtain ⟨n, hn⟩ := Nat.exists_eq_add_of_le (show t + m + 1 ≤ t + 58 by omega)
  have hbefore := (upTo_grows c chip es (fun s _ => s.given) t m).length_le
  have hafter := (upTo_grows c chip es (fun s _ => s.given) (t + m + 1) n).length_le
  have hone := congrArg List.length (upTo_succ c chip es (fun s _ => s.given) (t + m))
  have hpos := List.length_pos_iff.mpr hk
  rw [List.length_append] at hone
  rw [hn]
  have hgiven : (states c chip es (t + m)).given.length =
    ((states c chip es (t + m)).controller.main.issued
      (states c chip es (t + m)).controller.fifo).length := rfl
  omega

/-- As many requests as are accepted and not given yet take 58 clocks each at most. -/
theorem length_accepted_le {t u : ℕ} (htu : t ≤ u) (n : ℕ)
    (hdone : ∀ v, u ≤ v → (states c chip es v).controller.initDone = true)
    (hn : (upTo accepted c chip es t).length ≤
      (upTo (fun s _ => s.given) c chip es u).length + n) :
    (upTo accepted c chip es t).length ≤
      (upTo (fun s _ => s.given) c chip es (u + n * 58)).length := by
  induction n generalizing u with
  | zero =>
    rw [Nat.zero_mul]
    exact hn
  | succ n ih =>
    by_cases hwaits : (states c chip es u).todo = []
    · obtain ⟨k, rfl⟩ := Nat.exists_eq_add_of_le htu
      have hall := upTo_accepted c chip es (t + k)
      rw [hwaits, List.append_nil] at hall
      have hthen := (upTo_grows c chip es accepted t k).length_le
      have hmore := (upTo_grows c chip es (fun s _ => s.given) (t + k) ((n + 1) * 58)).length_le
      rw [hall] at hthen
      exact hthen.trans hmore
    · have hlt := length_given_lt c chip es (hdone u le_rfl) hwaits
      have hrest := ih (u := u + 58) (by omega) (fun v hv => hdone v (by omega)) (by omega)
      rw [Nat.succ_mul, Nat.add_comm (n * 58), ← Nat.add_assoc]
      exact hrest

/-- **What is accepted is given**, at most three requests later. -/
theorem accepted_given {t : ℕ}
    (hdone : ∀ v, t ≤ v → (states c chip es v).controller.initDone = true) :
    upTo accepted c chip es t <+: upTo (fun s _ => s.given) c chip es (t + 174) := by
  have hall := upTo_accepted c chip es t
  have hthree := (states c chip es t).length_todo_le
  have hlen := length_accepted_le c chip es le_rfl 3 hdone (by
    rw [hall, List.length_append]
    omega)
  refine List.prefix_of_prefix_length_le (upTo_grows c chip es accepted t 174) ?_ hlen
  rw [upTo_accepted]
  exact List.prefix_append _ _

/-- **What is given is answered** five clocks later. -/
theorem given_answered (t : ℕ) :
    Machine.outputs SdramRequest.execute SdramRequest.answer chip.memArray
      (upTo (fun s _ => s.given) c chip es t) <+: upTo answered c chip es (t + 5) := by
  have hgiven := upTo_grows c chip es (fun s _ => s.given) t 5
  have hall := (upTo_answered c chip es (t + 5)).1
  have hback : upTo answered c chip es (t + 5) <+: Machine.outputs SdramRequest.execute
      SdramRequest.answer chip.memArray (upTo (fun s _ => s.given) c chip es (t + 5)) := by
    rw [← hall]
    exact List.prefix_append _ _
  refine List.prefix_of_prefix_length_le ?_ hback ?_
  · obtain ⟨rest, hrest⟩ := hgiven
    rw [← hrest, Machine.outputs_append]
    exact List.prefix_append _ _
  · have hlen := congrArg List.length hall
    rw [List.length_append, length_inFlight] at hlen
    have h0 := length_given_succ c chip es t
    have h1 := length_given_succ c chip es (t + 1)
    have h2 := length_given_succ c chip es (t + 2)
    have h3 := length_given_succ c chip es (t + 3)
    have h4 := length_given_succ c chip es (t + 4)
    have hon (n : ℕ) := registers_clock (states c chip es n) (es n)
    obtain ⟨-, -, -, h10⟩ := hon (t + 1)
    obtain ⟨-, -, h21, h20⟩ := hon (t + 2)
    obtain ⟨-, h32, h31, h30⟩ := hon (t + 3)
    obtain ⟨h43, h42, h41, h40⟩ := hon (t + 4)
    have hnext (n : ℕ) : (states c chip es n).clock (es n) = states c chip es (n + 1) := rfl
    rw [hnext] at h10 h21 h20 h32 h31 h30 h43 h42 h41 h40
    simp only [Nat.add_assoc, Nat.reduceAdd] at h1 h2 h3 h4
    simp only [Nat.add_assoc, Nat.reduceAdd] at h10 h21 h20 h32 h31 h30 h43 h42 h41 h40
    omega

end Sdram

/-- **The words come back**: when the chip has been started up, every word that is asked for has
been given back 179 clocks later, whatever else is asked for. -/
theorem sdram_words_come (t : ℕ) :
    Machine.outputs SdramRequest.execute SdramRequest.answer chip.memArray
        (Machine.outputs Sdram.clock Sdram.accepted ⟨c.reset, chip⟩
          ((List.range (14316 + t)).map es)) <+:
      Machine.outputs Sdram.clock Sdram.answered ⟨c.reset, chip⟩
        ((List.range (14316 + t + 179)).map es) := by
  have hdone (v : ℕ) (hv : 14316 + t ≤ v) :
      (Sdram.states c chip es v).controller.initDone = true := by
    rw [Sdram.controller_states]
    exact initDone_of_le c _ (by omega)
  have hgiven := Sdram.accepted_given c chip es hdone
  have hback := Sdram.given_answered c chip es (14316 + t + 174)
  obtain ⟨rest, hrest⟩ := hgiven
  rw [← hrest, Machine.outputs_append] at hback
  exact (List.prefix_append _ _).trans hback

end Runs

end DigitalModulation
