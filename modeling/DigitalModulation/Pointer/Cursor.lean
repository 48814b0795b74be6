import Mathlib.Data.Int.CardIntervalMod
import DigitalModulation.Lib.Machine
import DigitalModulation.Pointer.Sprites

/-!
# `Cursor.v`: the pointer

The pointer moves while a direction is held: once at the first clock and then whenever the counter
`debounce`, which counts the clocks of the hold, has wrapped.

* `Cursor.move`, `Cursor.clk`: the movement and a whole rising edge of `iCLK`;
* `CursorIn.held`, `Direction.shift`: the direction that counts, and what it does to the position;
* `cursor_repeat_rate`: when the position changes and to what, in every waveform;
* `cursor_onScreen_iff`: the position leaves the screen, since nothing bounds it;
* `cursor_shows_iff`: the window and the sprite are those of different scan positions.
-/

namespace DigitalModulation

open Machine

/-- What a rising edge of `iCLK` samples. -/
structure CursorIn where
  iLeft : Bool
  iUp : Bool
  iDown : Bool
  iRight : Bool
  iVgaX : BitVec 11
  iVgaY : BitVec 11
  iRst : Bool
  slow : Bool
  iChangeC : Bool
  deriving DecidableEq

/-- The registers of `Cursor`. -/
structure Cursor where
  curX : BitVec 10
  curY : BitVec 10
  arrow : Bool
  debounce : BitVec 21
  posOfCursor : BitVec 20
  rgbC1Sync : BitVec 12
  rgbC2Sync : BitVec 12
  oRgb : BitVec 12
  deriving DecidableEq

namespace Cursor

/-- `speed_x`. -/
def speedX (slow : Bool) : BitVec 4 := if slow then 1 else 0xF

/-- `speed_y`. -/
def speedY (slow : Bool) : BitVec 4 := if slow then 1 else 0xC

/-- The movement: the four branches, in the order of their tests, and the release. -/
def move (s : Cursor) (i : CursorIn) : Cursor :=
  let dx := (speedX i.slow).setWidth 10
  let dy := (speedY i.slow).setWidth 10
  if i.iLeft then
    { s with curX := if s.debounce = 0 then s.curX - dx else s.curX, debounce := s.debounce + 1 }
  else if i.iRight then
    { s with curX := if s.debounce = 0 then s.curX + dx else s.curX, debounce := s.debounce + 1 }
  else if i.iUp then
    { s with curY := if s.debounce = 0 then s.curY - dy else s.curY, debounce := s.debounce + 1 }
  else if i.iDown then
    { s with curY := if s.debounce = 0 then s.curY + dy else s.curY, debounce := s.debounce + 1 }
  else { s with debounce := 0 }

/-- The scan position is inside the window of the pointer. The bounds are computed in 32 bits. -/
def inWindow (s : Cursor) (vgaX vgaY : BitVec 11) : Bool :=
  decide (s.curX.toNat < vgaX.toNat ∧ vgaX.toNat < s.curX.toNat + 28) &&
    decide (s.curY.toNat < vgaY.toNat ∧ vgaY.toNat < s.curY.toNat + 36)

/-- The coordinates `{y, x}` of a scan position in the sprite, ten bits each. -/
def spriteYX (s : Cursor) (vgaX vgaY : BitVec 11) : BitVec 20 :=
  (vgaY.setWidth 10 - s.curY) ++ (vgaX.setWidth 10 - s.curX)

/-- A rising edge of `iCLK`. The colour pipeline has no reset. -/
def clk (s : Cursor) (i : CursorIn) : Cursor :=
  let moved :=
    if i.iRst then { s with curX := 400, curY := 300, arrow := false, debounce := 0 }
    else { s.move i with arrow := s.inWindow i.iVgaX i.iVgaY }
  { moved with
    posOfCursor := s.spriteYX i.iVgaX i.iVgaY
    rgbC1Sync := ffxiiLbCursor s.posOfCursor
    rgbC2Sync := ffxiiLbCursor2 s.posOfCursor
    oRgb := if i.iChangeC then s.rgbC2Sync else s.rgbC1Sync }

/-- `arrow_on`. -/
def arrowOn (s : Cursor) : Bool := s.arrow && decide (s.oRgb ≠ 0xF00)

/-- `pointer_x` and `pointer_y`. -/
def position (s : Cursor) : BitVec 10 × BitVec 10 := (s.curX, s.curY)

end Cursor

/-- The directions, by falling priority. -/
inductive Direction
  | left
  | right
  | up
  | down
  deriving DecidableEq

/-- The direction that counts: the first that is held. -/
def CursorIn.held (i : CursorIn) : Option Direction :=
  if i.iLeft then some .left
  else if i.iRight then some .right
  else if i.iUp then some .up
  else if i.iDown then some .down
  else none

/-- A position moved by one update, modulo 1024. -/
def Direction.shift (d : Direction) (slow : Bool) (p : BitVec 10 × BitVec 10) :
    BitVec 10 × BitVec 10 :=
  match d with
  | .left => (p.1 - if slow then 1 else 15, p.2)
  | .right => (p.1 + if slow then 1 else 15, p.2)
  | .up => (p.1, p.2 - if slow then 1 else 12)
  | .down => (p.1, p.2 + if slow then 1 else 12)

theorem Direction.shift_ne (d : Direction) (slow : Bool) (p : BitVec 10 × BitVec 10) :
    d.shift slow p ≠ p := by
  obtain ⟨x, y⟩ := p
  cases d <;> cases slow <;> simp [shift]

namespace Cursor

/-! ### One clock -/

variable {s : Cursor} {i : CursorIn}

theorem position_clk (hrst : i.iRst = false) : (s.clk i).position = (s.move i).position := by
  simp [clk, position, hrst]

theorem debounce_clk (hrst : i.iRst = false) : (s.clk i).debounce = (s.move i).debounce := by
  simp [clk, hrst]

/-- The shift in terms of the speeds. -/
theorem shift_eq (d : Direction) (slow : Bool) (p : BitVec 10 × BitVec 10) :
    d.shift slow p = match d with
      | .left => (p.1 - (speedX slow).setWidth 10, p.2)
      | .right => (p.1 + (speedX slow).setWidth 10, p.2)
      | .up => (p.1, p.2 - (speedY slow).setWidth 10)
      | .down => (p.1, p.2 + (speedY slow).setWidth 10) := by
  cases d <;> cases slow <;> rfl

theorem clk_held (hrst : i.iRst = false) {d : Direction} (h : i.held = some d) :
    (s.clk i).position = (if s.debounce = 0 then d.shift i.slow s.position else s.position) ∧
      (s.clk i).debounce = s.debounce + 1 := by
  rw [position_clk hrst, debounce_clk hrst, shift_eq]
  unfold CursorIn.held at h
  unfold move position
  by_cases h0 : s.debounce = 0
  · split_ifs at h ⊢ <;> obtain rfl := Option.some_inj.mp h <;> exact ⟨rfl, rfl⟩
  · split_ifs at h ⊢ <;> exact ⟨rfl, rfl⟩

theorem clk_idle (hrst : i.iRst = false) (h : i.held = none) :
    (s.clk i).position = s.position ∧ (s.clk i).debounce = 0 := by
  rw [position_clk hrst, debounce_clk hrst]
  unfold CursorIn.held at h
  split_ifs at h
  simp_all [move, position]

theorem position_run_idle (s : Cursor) {is : ℕ → CursorIn} (hrst : ∀ t, (is t).iRst = false)
    (h : ∀ t, (is t).held = none) (t : ℕ) : (run clk s is t).position = s.position := by
  induction t with
  | zero => rfl
  | succ t ih => exact (clk_idle (hrst t) (h t)).1.trans ih

/-! ### The repeat rate -/

variable {is : ℕ → CursorIn} {a N : ℕ}

/-- The counter holds how long a direction has been held, modulo `2 ^ 21`. -/
theorem debounce_run (s : Cursor) (hrst : ∀ t, (is t).iRst = false) (ha : (is a).held = none)
    (hheld : ∀ k < N, (is (a + 1 + k)).held ≠ none) {k : ℕ} (hk : k ≤ N) :
    (run clk s is (a + 1 + k)).debounce.toNat = k % 2 ^ 21 := by
  induction k with
  | zero =>
    have hidle : (run clk s is (a + 1)).debounce = 0 := (clk_idle (hrst a) ha).2
    rw [Nat.add_zero, hidle]
    rfl
  | succ k ih =>
    obtain ⟨d, hd⟩ := Option.ne_none_iff_exists'.mp (hheld k hk)
    have hstep := (clk_held (s := run clk s is (a + 1 + k)) (hrst _) hd).2
    rw [← Nat.add_assoc, run, hstep, BitVec.toNat_add, ih (by omega)]
    simp [Nat.add_mod]

theorem position_run (s : Cursor) (hrst : ∀ t, (is t).iRst = false) (ha : (is a).held = none)
    (hheld : ∀ k < N, (is (a + 1 + k)).held ≠ none) {k : ℕ} (hk : k < N) {d : Direction}
    (hd : (is (a + 1 + k)).held = some d) :
    (run clk s is (a + 1 + k + 1)).position =
      if 2 ^ 21 ∣ k then d.shift (is (a + 1 + k)).slow (run clk s is (a + 1 + k)).position
      else (run clk s is (a + 1 + k)).position := by
  have hdeb := debounce_run s hrst ha hheld hk.le
  have hzero : (run clk s is (a + 1 + k)).debounce = 0 ↔ 2 ^ 21 ∣ k := by
    rw [← BitVec.toNat_inj, hdeb, Nat.dvd_iff_mod_eq_zero]
    rfl
  rw [run, (clk_held (hrst _) hd).1]
  simp only [hzero]

end Cursor

/-- **The repeat rate of the pointer.** With `iRST` low, in every waveform: a tick with no direction
held leaves the position; and if `N` ticks behind such a tick hold one, the ticks 0, `2 ^ 21`,
`2 * 2 ^ 21`, … of them move it by the step of the direction that counts, the others leave it, and
it changes `N / 2 ^ 21` times, rounded up. -/
theorem cursor_repeat_rate (s : Cursor) (is : ℕ → CursorIn) (hrst : ∀ t, (is t).iRst = false) :
    let pos := fun t => (run Cursor.clk s is t).position
    (∀ t, (is t).held = none → pos (t + 1) = pos t) ∧
    ∀ a N, (is a).held = none → (∀ k < N, (is (a + 1 + k)).held ≠ none) →
      (∀ k < N, ∀ d, (is (a + 1 + k)).held = some d → pos (a + 1 + k + 1) =
        if 2 ^ 21 ∣ k then d.shift (is (a + 1 + k)).slow (pos (a + 1 + k)) else pos (a + 1 + k)) ∧
      Nat.count (fun k => pos (a + 1 + k + 1) ≠ pos (a + 1 + k)) N = (N + 2 ^ 21 - 1) / 2 ^ 21 := by
  intro pos
  refine ⟨fun t ht => (Cursor.clk_idle (hrst t) ht).1, fun a N ha hheld => ?_⟩
  refine ⟨fun k hk d hd => ?_, ?_⟩
  · exact Cursor.position_run s hrst ha hheld hk hd
  · have hchange : ∀ k < N, pos (a + 1 + k + 1) ≠ pos (a + 1 + k) ↔ k ≡ 0 [MOD 2 ^ 21] := by
      intro k hk
      obtain ⟨d, hd⟩ := Option.ne_none_iff_exists'.mp (hheld k hk)
      have hpos : pos (a + 1 + k + 1) = _ := Cursor.position_run s hrst ha hheld hk hd
      rw [hpos, Nat.modEq_zero_iff_dvd]
      split_ifs with hdvd
      · exact iff_of_true (d.shift_ne _ _) hdvd
      · exact iff_of_false (fun h => h rfl) hdvd
    have hcount : Nat.count (fun k => pos (a + 1 + k + 1) ≠ pos (a + 1 + k)) N =
        Nat.count (· ≡ 0 [MOD 2 ^ 21]) N :=
      le_antisymm (Nat.count_mono_left fun k hk => (hchange k hk).mp)
        (Nat.count_mono_left fun k hk => (hchange k hk).mpr)
    rw [hcount, Nat.count_modEq_card N (by decide) 0]
    split_ifs <;> omega

/-- Both directions of `x` are held for `2 ^ 22` ticks, of which two move the pointer. -/
theorem cursor_repeat_rate_first_tick :
    let idle : CursorIn := ⟨false, false, false, false, 0, 0, false, false, false⟩
    let both : CursorIn := ⟨true, false, false, true, 0, 0, false, false, false⟩
    let pos := fun t => (run Cursor.clk ⟨500, 7, false, 9, 0, 0, 0, 0⟩
      (fun t => if t = 0 then idle else both) t).position
    pos 1 = (500, 7) ∧ (∀ k < 2 ^ 21, pos (k + 2) = (485, 7)) ∧ pos (2 ^ 21 + 2) = (470, 7) ∧
      Nat.count (fun k => pos (k + 2) ≠ pos (k + 1)) (2 ^ 22) = 2 := by
  intro idle both pos
  obtain ⟨hidle, hhold⟩ := cursor_repeat_rate ⟨500, 7, false, 9, 0, 0, 0, 0⟩
    (fun t => if t = 0 then idle else both) fun t => by split_ifs <;> rfl
  have hlater (k : ℕ) : (if 0 + 1 + k = 0 then idle else both) = both := if_neg (by omega)
  obtain ⟨hmoves, hcount⟩ := hhold 0 (2 ^ 22) rfl fun k _ => by rw [hlater]; decide
  have hshift (k : ℕ) : 0 + 1 + k = k + 1 := by omega
  have hmove (k : ℕ) (hk : k < 2 ^ 22) : pos (k + 2) =
      if 2 ^ 21 ∣ k then Direction.left.shift false (pos (k + 1)) else pos (k + 1) := by
    have hmove := hmoves k hk .left (by rw [hlater]; rfl)
    rwa [hlater, hshift] at hmove
  have hfirst : pos 1 = (500, 7) := hidle 0 rfl
  have hstill (k : ℕ) (hk : k < 2 ^ 21) : pos (k + 2) = (485, 7) := by
    induction k with
    | zero =>
      rw [hmove 0 (by omega), if_pos (dvd_zero _), hfirst]
      rfl
    | succ k ih =>
      rw [hmove (k + 1) (by omega), if_neg (Nat.not_dvd_of_pos_of_lt k.succ_pos hk)]
      exact ih (by omega)
  have hsecond (k : ℕ) (hk : k = 2 ^ 21) : pos (k + 2) = (470, 7) := by
    have hbefore : pos (k - 1 + 2) = (485, 7) := hstill (k - 1) (by omega)
    rw [show k - 1 + 2 = k + 1 by omega] at hbefore
    rw [hmove k (by omega), if_pos (dvd_of_eq hk.symm), hbefore]
    rfl
  simp only [hshift] at hcount
  exact ⟨hfirst, hstill, hsecond _ rfl, hcount⟩

/-! ### The edges of the screen -/

namespace Cursor

/-- The position is a pixel of the display of 800 by 600. -/
def OnScreen (s : Cursor) : Prop := s.curX.toNat ≤ 799 ∧ s.curY.toNat ≤ 599

instance (s : Cursor) : Decidable s.OnScreen := inferInstanceAs (Decidable (_ ∧ _))

/-- The update of this tick, if there is one, does not cross the edge it moves to. -/
def ClearOfEdge (s : Cursor) (i : CursorIn) : Prop :=
  i.iRst = false → s.debounce = 0 →
    (i.held = some .left → (speedX i.slow).toNat ≤ s.curX.toNat) ∧
    (i.held = some .right → s.curX.toNat + (speedX i.slow).toNat ≤ 799) ∧
    (i.held = some .up → (speedY i.slow).toNat ≤ s.curY.toNat) ∧
    (i.held = some .down → s.curY.toNat + (speedY i.slow).toNat ≤ 599)

instance (s : Cursor) (i : CursorIn) : Decidable (s.ClearOfEdge i) :=
  inferInstanceAs (Decidable (_ → _ → _))

theorem onScreen_of_position_eq {s t : Cursor} (h : t.position = s.position) :
    t.OnScreen ↔ s.OnScreen := by
  obtain ⟨hx, hy⟩ := Prod.mk.inj h
  rw [OnScreen, hx, hy, OnScreen]

/-- An update leads off the screen iff it crosses the edge it moves to. -/
theorem onScreen_of_position_eq_shift {s t : Cursor} {d : Direction} {slow : Bool}
    (h : t.position = d.shift slow s.position) (hs : s.OnScreen) :
    t.OnScreen ↔ match d with
      | .left => (speedX slow).toNat ≤ s.curX.toNat
      | .right => s.curX.toNat + (speedX slow).toNat ≤ 799
      | .up => (speedY slow).toNat ≤ s.curY.toNat
      | .down => s.curY.toNat + (speedY slow).toNat ≤ 599 := by
  obtain ⟨hx, hy⟩ := hs
  rw [shift_eq] at h
  cases d <;> obtain ⟨htx, hty⟩ := Prod.mk.inj h <;> rw [OnScreen, htx, hty] <;>
    dsimp only [position] <;> bv_omega

theorem onScreen_clk_iff {s : Cursor} (i : CursorIn) (h : s.OnScreen) :
    (s.clk i).OnScreen ↔ s.ClearOfEdge i := by
  unfold ClearOfEdge
  cases hrst : i.iRst with
  | true => simp [clk, OnScreen, hrst]
  | false =>
    cases hd : i.held with
    | none => simp [onScreen_of_position_eq (clk_idle hrst hd).1, h]
    | some d =>
      have hpos := (clk_held (s := s) hrst hd).1
      by_cases h0 : s.debounce = 0
      · rw [if_pos h0] at hpos
        rw [onScreen_of_position_eq_shift hpos h]
        cases d <;> simp [h0]
      · rw [if_neg h0] at hpos
        rw [onScreen_of_position_eq hpos]
        exact iff_of_true h fun _ hzero => absurd hzero h0

end Cursor

/-- **The pointer can leave the screen.** Its position is bounded by nothing but its ten bits: after
a reset it stays on the screen throughout a run iff no update of the run crosses the edge it moves
to. -/
theorem cursor_onScreen_iff (s : Cursor) (r : CursorIn) (hr : r.iRst = true) (is : List CursorIn) :
    (∀ js, js <+: is → (js.foldl Cursor.clk (s.clk r)).OnScreen) ↔
      Along Cursor.clk Cursor.ClearOfEdge (s.clk r) is :=
  along_iff (fun _ i h => Cursor.onScreen_clk_iff i h)
    (by simp [Cursor.clk, Cursor.OnScreen, hr]) is

/-- One tap of the left arrow key, from a reset. -/
theorem cursor_onScreen_iff_left_tap :
    let idle : CursorIn := ⟨false, false, false, false, 0, 0, false, false, false⟩
    ([{ idle with iLeft := true }, idle].foldl Cursor.clk
      (Cursor.clk ⟨0, 0, false, 0, 0, 0, 0, 0⟩ { idle with iRst := true })).OnScreen :=
  (cursor_onScreen_iff ⟨0, 0, false, 0, 0, 0, 0, 0⟩
    ⟨false, false, false, false, 0, 0, true, false, false⟩ rfl
    [⟨true, false, false, false, 0, 0, false, false, false⟩,
      ⟨false, false, false, false, 0, 0, false, false, false⟩]).mpr (by decide) _
    (List.prefix_refl _)

/-- From a reset, 27 taps of the left arrow key take the pointer off the screen. -/
theorem cursor_leaves_screen : ¬ ∀ (s : Cursor) (r : CursorIn) (is : List CursorIn),
    r.iRst = true → (is.foldl Cursor.clk (s.clk r)).OnScreen := by
  intro hall
  have h := hall ⟨0, 0, false, 0, 0, 0, 0, 0⟩
    ⟨false, false, false, false, 0, 0, true, false, false⟩
    (List.replicate 27 [⟨true, false, false, false, 0, 0, false, false, false⟩,
      ⟨false, false, false, false, 0, 0, false, false, false⟩]).flatten rfl
  revert h
  decide

/-! ### The window and the sprite -/

/-- The texel of the sprite that `ichangeC` selects. -/
def spriteTexel (iChangeC : Bool) (yx : BitVec 20) : BitVec 12 :=
  if iChangeC then ffxiiLbCursor2 yx else ffxiiLbCursor yx

/-- A line scanned from left to right, with no key held. -/
def scanLine (x y : BitVec 11) (t : ℕ) : CursorIn :=
  ⟨false, false, false, false, x + BitVec.ofNat 11 t, y, false, false, false⟩

namespace Cursor

theorem arrow_clk {s : Cursor} {i : CursorIn} (hrst : i.iRst = false) :
    (s.clk i).arrow = s.inWindow i.iVgaX i.iVgaY := by
  simp [clk, hrst]

/-- The colour behind three registers is that of the scan position two clocks back. -/
theorem oRgb_clk (s : Cursor) (i j k : CursorIn) :
    (((s.clk i).clk j).clk k).oRgb = spriteTexel k.iChangeC (s.spriteYX i.iVgaX i.iVgaY) := rfl

theorem inWindow_of_position_eq {s t : Cursor} (h : t.position = s.position)
    (vgaX vgaY : BitVec 11) : t.inWindow vgaX vgaY = s.inWindow vgaX vgaY := by
  obtain ⟨hx, hy⟩ := Prod.mk.inj h
  rw [inWindow, hx, hy, inWindow]

theorem spriteYX_of_position_eq {s t : Cursor} (h : t.position = s.position)
    (vgaX vgaY : BitVec 11) : t.spriteYX vgaX vgaY = s.spriteYX vgaX vgaY := by
  obtain ⟨hx, hy⟩ := Prod.mk.inj h
  rw [spriteYX, hx, hy, spriteYX]

/-- The pointer shows the scan position in the window: where it is on, it has the texel of that
position, and inside the window it is on iff that texel is not the transparent one. -/
def Shows (now : Cursor) (window : Bool) (texel : BitVec 12) : Prop :=
  (now.arrowOn = true → now.oRgb = texel) ∧
    (window = true → (now.arrowOn = true ↔ texel ≠ 0xF00))

instance (now : Cursor) (window : Bool) (texel : BitVec 12) : Decidable (now.Shows window texel) :=
  inferInstanceAs (Decidable (_ ∧ _))

theorem shows_iff {now : Cursor} {window : Bool} {texel : BitVec 12} (h : now.arrow = window) :
    now.Shows window texel ↔ (window = true → now.oRgb = texel) := by
  unfold Shows arrowOn
  cases window with
  | false => simp [h]
  | true =>
    simp only [h, Bool.true_and, decide_eq_true_eq, true_implies]
    constructor
    · rintro ⟨hcolour, hcover⟩
      by_cases ht : now.oRgb = 0xF00
      · exact ht.trans (not_ne_iff.mp (mt hcover.mpr (not_ne_iff.mpr ht))).symm
      · exact hcolour ht
    · intro hcolour
      exact ⟨fun _ => hcolour, by rw [hcolour]⟩

end Cursor

/-- **The window is two clocks ahead of the sprite.** With a pointer that stays, at every clock from
the third on that has `iRST` low, the pointer shows a scan position iff that position is outside the
window or has the texel of the one two clocks before it. -/
theorem cursor_shows_iff (s : Cursor) (is : ℕ → CursorIn)
    (hstay : ∀ t, (run Cursor.clk s is t).position = s.position) (t : ℕ)
    (hrst : (is (t + 2)).iRst = false) :
    let window := fun k => s.inWindow (is k).iVgaX (is k).iVgaY
    let texel := fun k =>
      spriteTexel (is (t + 2)).iChangeC (s.spriteYX (is k).iVgaX (is k).iVgaY)
    (run Cursor.clk s is (t + 3)).Shows (window (t + 2)) (texel (t + 2)) ↔
      (window (t + 2) = true → texel t = texel (t + 2)) := by
  intro window texel
  have harrow : (run Cursor.clk s is (t + 3)).arrow = window (t + 2) := by
    rw [run, Cursor.arrow_clk hrst, Cursor.inWindow_of_position_eq (hstay _)]
  have hcolour : (run Cursor.clk s is (t + 3)).oRgb = texel t := by
    rw [run, run, run, Cursor.oRgb_clk, Cursor.spriteYX_of_position_eq (hstay _)]
  rw [Cursor.shows_iff harrow, hcolour]

/-- The fourth position of the window in a line scanned from left to right. -/
theorem cursor_shows_iff_inside :
    let s : Cursor := ⟨400, 300, false, 0, 0, 0, 0, 0⟩
    (run Cursor.clk s (scanLine 402 303) 3).Shows (s.inWindow 404 303)
      (spriteTexel false (s.spriteYX 404 303)) :=
  (cursor_shows_iff ⟨400, 300, false, 0, 0, 0, 0, 0⟩ (scanLine 402 303)
    (Cursor.position_run_idle _ (fun _ => rfl) fun _ => rfl) 0 rfl).mpr (by decide)

/-- The first position of the window in a line scanned from left to right has the black that the
sprite gives outside its columns. -/
theorem cursor_shows_other_texel : ¬ ∀ (s : Cursor) (is : ℕ → CursorIn) (c : Bool),
    (∀ t, (is t).iRst = false) → (∀ t, (is t).iChangeC = c) →
    (∀ t, (run Cursor.clk s is t).position = s.position) →
    ∀ t, (run Cursor.clk s is (t + 3)).Shows (s.inWindow (is (t + 2)).iVgaX (is (t + 2)).iVgaY)
      (spriteTexel c (s.spriteYX (is (t + 2)).iVgaX (is (t + 2)).iVgaY)) := by
  intro hall
  have h := hall ⟨400, 300, false, 0, 0, 0, 0, 0⟩ (scanLine 399 301) false (fun _ => rfl)
    (fun _ => rfl) (Cursor.position_run_idle _ (fun _ => rfl) fun _ => rfl) 0
  revert h
  decide

end DigitalModulation
