import DigitalModulation.Lib.Samples
import DigitalModulation.Keyboard.MousePos
import DigitalModulation.Desktop.Task2

/-!
# `mouse_pos` in the loop of `task2`: what a key press starts

`task2` calls `mouse_pos` once a turn and runs the handlers of the pointer's place on the down
event. The event of a release is an edge; the down event is a level, since `mouse_pos` also reports
it for `space_key == 1`.

* `pollEvents`, `Poll.turn`: the events of a row of calls, and a turn of the loop;
* `pollEvents_eq`: every event in terms of the level read before and now;
* `one_click_iff`: there is one click for each press iff no press lasts for two calls.
-/

namespace DigitalModulation

open Samples

/-- The words that a call of `mouse_pos` reads. -/
structure Poll where
  pos : BitVec 32
  readKeyboard : BitVec 32
  deriving DecidableEq

namespace Poll

/-- The level of the key. -/
def level (p : Poll) : Bool := p.readKeyboard.getLsbD 4

/-- The handlers that `task2` runs on a down event at this position. -/
def click (p : Poll) (d : Desktop) : Desktop :=
  let r := mousePos ⟨0, 0⟩ p.pos p.readKeyboard
  (clickStmts r.x.toInt r.y.toInt).foldl Desktop.exec d

/-- A turn of the loop of `task2`. -/
def turn (p : Poll) (s : MouseStatics × Desktop) : MouseStatics × Desktop :=
  let r := mousePos s.1 p.pos p.readKeyboard
  (r.statics, s.2.task2 ⟨r.event, r.x.toInt, r.y.toInt⟩)

end Poll

/-- The events of a row of calls. -/
def pollEvents (m : MouseStatics) : List Poll → List (BitVec 8)
  | [] => []
  | p :: ps =>
    let r := mousePos m p.pos p.readKeyboard
    r.event :: pollEvents r.statics ps

/-- The levels before and at each call, from a key that is up. -/
def levelPairs (a : Bool) (ps : List Poll) : List (Bool × Bool) :=
  (a :: ps.map Poll.level).zip (ps.map Poll.level)

/-- The event of a press, of a release, and of no change. -/
def edgeEvent : Bool × Bool → BitVec 8
  | (false, true) => 1
  | (true, false) => 2
  | _ => 0

/-- The calls that see a press. -/
def presses (a : Bool) : List Poll → List Poll
  | [] => []
  | p :: ps => if !a && p.level then p :: presses p.level ps else presses p.level ps

/-- One click for each press: the events are those of the changes of the level, as many of them, and
`task2` runs its handlers once for each press. -/
def OneClick (ps : List Poll) : Prop :=
  (pollEvents ⟨0, 0⟩ ps).count 1 = changes false true (false :: ps.map Poll.level) ∧
  (pollEvents ⟨0, 0⟩ ps).count 2 = changes true false (false :: ps.map Poll.level) ∧
  pollEvents ⟨0, 0⟩ ps = (levelPairs false ps).map edgeEvent ∧
  ∀ d, (ps.foldl (fun s p => p.turn s) (⟨0, 0⟩, d)).2 =
    (presses false ps).foldl (fun d p => p.click d) d

/-! ### One call -/

/-- The event that `mouse_pos` reports. -/
def mouseEvent : Bool × Bool → BitVec 8
  | (_, true) => 1
  | (true, false) => 2
  | (false, false) => 0

/-- The static variable `space` holds the level of the last call. -/
def MouseStatics.Holds (m : MouseStatics) (a : Bool) : Prop := m.space = if a then 1 else 0

theorem mousePos_step {m : MouseStatics} {a : Bool} (h : m.Holds a) (p : Poll) :
    (mousePos m p.pos p.readKeyboard).event = mouseEvent (a, p.level) ∧
      (mousePos m p.pos p.readKeyboard).statics.Holds p.level := by
  have hkey : (p.readKeyboard >>> 4) &&& 1 = if p.level then 1 else 0 := spaceKey_eq _
  unfold MouseStatics.Holds at h ⊢
  cases a <;> cases hlevel : p.level <;> simp only [mousePos, hkey, h, hlevel] <;> decide

/-- A turn runs the handlers iff the key is down, not only when it goes down. -/
theorem turn_snd (m : MouseStatics) (d : Desktop) (p : Poll) :
    (p.turn (m, d)).2 = if p.level then p.click d else d := by
  unfold Poll.turn Desktop.task2
  simp only [mousePos_down_iff]
  rfl

/-! ### A row of calls -/

theorem pollEvents_eq {m : MouseStatics} {a : Bool} (h : m.Holds a) (ps : List Poll) :
    pollEvents m ps = (levelPairs a ps).map mouseEvent := by
  induction ps generalizing m a with
  | nil => rfl
  | cons p ps ih =>
    obtain ⟨hevent, hstatics⟩ := mousePos_step h p
    rw [pollEvents, hevent, ih hstatics]
    rfl

/-- The handlers run at every call that sees the key down. -/
theorem turns_snd (ps : List Poll) (s : MouseStatics × Desktop) :
    (ps.foldl (fun s p => p.turn s) s).2 =
      (ps.filter Poll.level).foldl (fun d p => p.click d) s.2 := by
  induction ps generalizing s with
  | nil => rfl
  | cons p ps ih =>
    rw [List.foldl_cons, ih, turn_snd, List.filter_cons]
    split_ifs <;> rfl

/-- As long as no press lasts, the calls that see a press are those that see the key down. -/
theorem presses_eq_filter {a : Bool} {ps : List Poll}
    (h : (a :: ps.map Poll.level).IsChain fun a b => ¬ (a = true ∧ b = true)) :
    presses a ps = ps.filter Poll.level := by
  induction ps generalizing a with
  | nil => rfl
  | cons p ps ih =>
    obtain ⟨hstep, hrest⟩ := List.isChain_cons_cons.mp h
    rw [presses, ih hrest, List.filter_cons]
    cases a <;> cases hlevel : p.level <;> simp_all

/-- The events are those of the changes iff no press lasts. -/
theorem pollEvents_eq_edges_iff (ps : List Poll) :
    pollEvents ⟨0, 0⟩ ps = (levelPairs false ps).map edgeEvent ↔
      (false :: ps.map Poll.level).IsChain fun a b => ¬ (a = true ∧ b = true) := by
  have hpair : ∀ q, mouseEvent q = edgeEvent q ↔ q ≠ (true, true) := by
    rintro ⟨_ | _, _ | _⟩ <;> decide
  have hstart : MouseStatics.Holds ⟨0, 0⟩ false := rfl
  rw [pollEvents_eq hstart, List.map_inj_left, ← changes_eq_zero_iff, changes, List.count_eq_zero]
  simp only [hpair]
  exact ⟨fun h hmem => h _ hmem rfl, fun h q hq hqt => h (hqt ▸ hq)⟩

theorem count_map_edgeEvent (qs : List (Bool × Bool)) :
    (qs.map edgeEvent).count 1 = qs.count (false, true) ∧
      (qs.map edgeEvent).count 2 = qs.count (true, false) := by
  induction qs with
  | nil => exact ⟨rfl, rfl⟩
  | cons q qs ih =>
    have hq : (edgeEvent q == 1) = (q == (false, true)) ∧
        (edgeEvent q == 2) = (q == (true, false)) := by
      obtain ⟨_ | _, _ | _⟩ := q <;> decide
    rw [List.map_cons, List.count_cons, List.count_cons, List.count_cons, List.count_cons, ih.1,
      ih.2, hq.1, hq.2]
    exact ⟨rfl, rfl⟩

/-- **There is one click for each press iff no press lasts for two calls.** -/
theorem one_click_iff (ps : List Poll) :
    OneClick ps ↔ (ps.map Poll.level).IsChain fun a b => ¬ (a = true ∧ b = true) := by
  have hchain : (ps.map Poll.level).IsChain (fun a b => ¬ (a = true ∧ b = true)) ↔
      (false :: ps.map Poll.level).IsChain fun a b => ¬ (a = true ∧ b = true) := by
    cases ps <;> simp
  rw [hchain, ← pollEvents_eq_edges_iff]
  constructor
  · exact fun h => h.2.2.1
  · intro hevents
    have hcount := count_map_edgeEvent (levelPairs false ps)
    rw [← hevents] at hcount
    refine ⟨hcount.1, hcount.2, hevents, fun d => ?_⟩
    rw [turns_snd, presses_eq_filter ((pollEvents_eq_edges_iff ps).mp hevents)]

/-- A press that lasts for two calls is two down events. -/
theorem one_click_fails : ¬ ∀ ps, OneClick ps := by
  intro hall
  have h := (hall [⟨0, 0x10⟩, ⟨0, 0x10⟩]).1
  revert h
  decide

end DigitalModulation
