import DigitalModulation.Desktop.Selection

/-!
# The transport buttons and the transport state

The play, stop and pause buttons are images in two versions; the variables they stand for are
`play_song`, `stop_song` and `pause_song`. Every branch redraws the images and most of them set the
variables.

* `TransportButton`: the seven buttons, with the statements of their branches;
* `SongFlag`: the three variables, with their images;
* `Transport`: which variable is set and which image is drawn down, and what a button does to them;
* `Desktop.Represents`: the screen and the variables in one state of `Transport`;
* `transport_shown_iff`: the click sequences after which the images show the variables.
-/

namespace DigitalModulation

/-! ### The buttons -/

inductive TransportButton
  | play | stop | pause | slower | faster | next | previous
  deriving DecidableEq

namespace TransportButton

/-- The button a click hits, in the order of the tests. -/
def clicked (xMouse yMouse : ℤ) : Option TransportButton :=
  if Image.playUp.hit 296 45 xMouse yMouse then some play
  else if Image.stopDown.hit 404 45 xMouse yMouse then some stop
  else if Image.pauseDown.hit 523 45 xMouse yMouse then some pause
  else if Image.backUp.hit 355 177 xMouse yMouse then some slower
  else if Image.fordDown.hit 500 177 xMouse yMouse then some faster
  else if Image.forwardArrow.hit 570 173 xMouse yMouse then some next
  else if Image.backwardArrow.hit 285 173 xMouse yMouse then some previous
  else none

/-- The button of a turn of the loop. -/
def pressed (e : MouseEvent) : Option TransportButton :=
  if e.event = 1 then clicked e.xMouse e.yMouse else none

/-- The statements of its branch. -/
def stmts : TransportButton → List Stmt
  | play => drawTransport .playDown .stopUp .pauseUp .backUp 173 ++
      [.playSong 1, .pauseSong 0, .stopSong 0]
  | stop => drawTransport .playUp .stopDown .pauseUp .backUp 173 ++
      [.playSong 0, .pauseSong 0, .stopSong 1]
  | pause => drawTransport .playUp .stopUp .pauseDown .backUp 173 ++
      [.playSong 0, .pauseSong 1, .stopSong 0]
  | slower => drawTransport .playUp .stopUp .pauseUp .backDown 180 ++ [.slower]
  | faster => drawTransport .playUp .stopUp .pauseUp .backUp 173 ++ [.faster]
  | next => drawTransport .playUp .stopUp .pauseUp .backUp 173 ++
      [.playSong 0, .pauseSong 0, .stopSong 1, .nextSong]
  | previous => drawTransport .playUp .stopUp .pauseUp .backUp 173 ++
      [.playSong 0, .pauseSong 0, .stopSong 1, .previousSong]

end TransportButton

/-- The third chain is the branch of the button hit, or the colours. -/
theorem transportClick_eq (x y : ℤ) :
    transportClick x y =
      (TransportButton.clicked x y).elim (colourClick x y) TransportButton.stmts := by
  unfold transportClick TransportButton.clicked
  split_ifs <;> rfl

/-! ### The variables and their images -/

inductive SongFlag
  | play | stop | pause
  deriving DecidableEq

namespace SongFlag

instance : Fintype SongFlag where
  elems := {play, stop, pause}
  complete := by rintro ⟨⟩ <;> decide

def var : SongFlag → Desktop → BitVec 8
  | play => Desktop.playSong
  | stop => Desktop.stopSong
  | pause => Desktop.pauseSong

def up : SongFlag → Image
  | play => .playUp
  | stop => .stopUp
  | pause => .pauseUp

def down : SongFlag → Image
  | play => .playDown
  | stop => .stopDown
  | pause => .pauseDown

def x : SongFlag → ℤ
  | play => 296
  | stop => 404
  | pause => 523

def y : SongFlag → ℤ := fun _ => 45

/-- What a statement writes to the variable. -/
def write : SongFlag → Stmt → Option (BitVec 8)
  | play, .playSong v => some v
  | stop, .stopSong v => some v
  | pause, .pauseSong v => some v
  | _, _ => none

theorem var_exec (f : SongFlag) (d : Desktop) (st : Stmt) :
    some (f.var (d.exec st)) = (f.write st).or (some (f.var d)) := by
  cases f <;> cases st <;> simp only [Desktop.exec] <;> try split
  all_goals rfl

end SongFlag

/-- The image a call draws at a place. -/
def Draw.imageAt (x y : ℤ) : Draw → Option Image
  | .image im x' y' _ => if x' = x ∧ y' = y then some im else none
  | _ => none

def Stmt.imageAt (x y : ℤ) : Stmt → Option Image
  | .draw call => call.imageAt x y
  | _ => none

/-- The image last drawn at a place. -/
def Desktop.imageAt (x y : ℤ) (d : Desktop) : Option Image :=
  (d.screen.filterMap (Draw.imageAt x y)).getLast?

theorem Desktop.imageAt_exec (x y : ℤ) (d : Desktop) (st : Stmt) :
    (d.exec st).imageAt x y = (st.imageAt x y).or (d.imageAt x y) := by
  cases st with
  | draw call =>
    simp only [exec, imageAt, Stmt.imageAt, List.filterMap_append, List.getLast?_append]
    congr 1
    cases h : call.imageAt x y <;> simp [h]
  | nextSong => simp only [exec]; split <;> rfl
  | previousSong => simp only [exec]; split <;> rfl
  | _ => rfl

/-! ### The transport state -/

/-- The variable that is 1 and the image that is drawn down. -/
structure Transport where
  flag : Option SongFlag
  shown : Option SongFlag
  deriving DecidableEq

namespace TransportButton

/-- The variable a button sets. -/
def flag : TransportButton → Option SongFlag
  | play => some .play
  | stop | next | previous => some .stop
  | pause => some .pause
  | slower | faster => none

/-- The image a button draws down. -/
def shown : TransportButton → Option SongFlag
  | play => some .play
  | stop => some .stop
  | pause => some .pause
  | slower | faster | next | previous => none

end TransportButton

def Transport.press (t : Transport) (b : TransportButton) : Transport :=
  ⟨b.flag.or t.flag, b.shown⟩

/-- The screen and the variables are in the state `t`. -/
def Desktop.Represents (d : Desktop) (t : Transport) : Prop :=
  ∀ f : SongFlag, f.var d = (if t.flag = some f then 1 else 0) ∧
    d.imageAt f.x f.y = some (if t.shown = some f then f.down else f.up)

/-- The statements do to the screen and the variables what the button does. -/
def Presses (stmts : List Stmt) (b : Option TransportButton) : Prop :=
  ∀ f : SongFlag,
    Group.last f.write stmts = (b.bind TransportButton.flag).map (fun g => if g = f then 1 else 0) ∧
    Group.last (Stmt.imageAt f.x f.y) stmts =
      b.map fun b => if b.shown = some f then f.down else f.up

instance (stmts : List Stmt) (b : Option TransportButton) : Decidable (Presses stmts b) :=
  inferInstanceAs (Decidable (∀ _, _ ∧ _))

theorem Presses.append {as bs : List Stmt} {b : Option TransportButton} (ha : Presses as none)
    (hb : Presses bs b) : Presses (as ++ bs) b := by
  intro f
  constructor
  · rw [Group.last_append, (ha f).1, (hb f).1]
    exact Option.or_none
  · rw [Group.last_append, (ha f).2, (hb f).2]
    exact Option.or_none

theorem Desktop.Represents.foldl {d : Desktop} {t : Transport} (hd : d.Represents t)
    {stmts : List Stmt} {b : Option TransportButton} (h : Presses stmts b) :
    (stmts.foldl Desktop.exec d).Represents (b.elim t t.press) := by
  intro f
  have hvar := Machine.foldl_last_write (fun d => some (f.var d)) f.var_exec d stmts
  have himage := Machine.foldl_last_write (fun d => d.imageAt f.x f.y)
    (Desktop.imageAt_exec f.x f.y) d stmts
  rw [show (stmts.filterMap f.write).getLast? = _ from (h f).1, (hd f).1] at hvar
  rw [show (stmts.filterMap (Stmt.imageAt f.x f.y)).getLast? = _ from (h f).2, (hd f).2] at himage
  cases b with
  | none => exact ⟨Option.some_inj.mp hvar, himage⟩
  | some b =>
    refine ⟨Option.some_inj.mp (hvar.trans ?_), himage⟩
    cases hflag : b.flag <;> simp [Transport.press, hflag]

theorem presses_modulationClick (x y : ℤ) : Presses (modulationClick x y) none := by
  unfold modulationClick
  split_ifs <;> decide +kernel

theorem presses_signalClick (x y : ℤ) : Presses (signalClick x y) none := by
  unfold signalClick
  split_ifs <;> decide +kernel

theorem presses_colourClick (x y : ℤ) : Presses (colourClick x y) none := by
  unfold colourClick
  split_ifs <;> decide +kernel

theorem TransportButton.presses_stmts (b : TransportButton) : Presses b.stmts (some b) := by
  cases b <;> decide +kernel

theorem presses_clickStmts (x y : ℤ) :
    Presses (clickStmts x y) (TransportButton.clicked x y) := by
  refine ((presses_modulationClick x y).append (presses_signalClick x y)).append ?_
  rw [transportClick_eq]
  cases TransportButton.clicked x y with
  | none => exact presses_colourClick x y
  | some b => exact b.presses_stmts

/-! ### Whole runs -/

theorem represents_boot : Desktop.boot.Represents ⟨none, none⟩ := by
  intro f
  cases f <;> decide +kernel

theorem Desktop.Represents.task2 {d : Desktop} {t : Transport} (h : d.Represents t)
    (e : MouseEvent) :
    (d.task2 e).Represents ((TransportButton.pressed e).elim t t.press) := by
  unfold Desktop.task2 TransportButton.pressed
  split_ifs
  · exact h.foldl (presses_clickStmts e.xMouse e.yMouse)
  · exact h

/-- The desktop after any turns of the loop is in the state the buttons lead to. -/
theorem represents_foldl (es : List MouseEvent) :
    (es.foldl Desktop.task2 Desktop.boot).Represents
      ((es.filterMap TransportButton.pressed).foldl Transport.press ⟨none, none⟩) :=
  Machine.foldl_sim (R := Desktop.Represents) (fun _ _ e h => h.task2 e) represents_boot es

/-- At most one variable is 1, and the images are down exactly for the variable that is. -/
def Desktop.ShowsTransport (d : Desktop) : Prop :=
  (∀ f g : SongFlag, f.var d = 1 → g.var d = 1 → f = g) ∧
    ∀ f : SongFlag, d.imageAt f.x f.y = some (if f.var d = 1 then f.down else f.up)

theorem SongFlag.down_ne_up (f : SongFlag) : f.down ≠ f.up := by
  cases f <;> decide

theorem Desktop.Represents.var_eq_one_iff {d : Desktop} {t : Transport} (h : d.Represents t)
    (f : SongFlag) : f.var d = 1 ↔ t.flag = some f := by
  rw [(h f).1]
  by_cases hf : t.flag = some f
  · simp [hf]
  · simp [hf]

theorem Desktop.Represents.showsTransport_iff {d : Desktop} {t : Transport}
    (h : d.Represents t) : d.ShowsTransport ↔ t.flag = t.shown := by
  constructor
  · intro hd
    -- Both versions of an image differ, so the screen tells which variable is set.
    have hiff (f : SongFlag) : t.shown = some f ↔ t.flag = some f := by
      have himage := (h f).2.symm.trans (hd.2 f)
      rw [Option.some_inj] at himage
      by_cases hf : t.flag = some f
      · by_cases hs : t.shown = some f
        · exact iff_of_true hs hf
        · rw [if_neg hs, if_pos ((h.var_eq_one_iff f).mpr hf)] at himage
          exact absurd himage.symm f.down_ne_up
      · by_cases hs : t.shown = some f
        · rw [if_pos hs, if_neg (mt (h.var_eq_one_iff f).mp hf)] at himage
          exact absurd himage f.down_ne_up
        · exact iff_of_false hs hf
    exact Option.ext fun f => (hiff f).symm
  · intro heq
    constructor
    · intro f g hf hg
      rw [h.var_eq_one_iff] at hf hg
      exact Option.some_inj.mp (hf.symm.trans hg)
    · intro f
      rw [(h f).2, ← heq]
      by_cases hf : t.flag = some f
      · rw [if_pos hf, if_pos ((h.var_eq_one_iff f).mpr hf)]
      · rw [if_neg hf, if_neg (mt (h.var_eq_one_iff f).mp hf)]

theorem Transport.flag_foldl (t : Transport) (bs : List TransportButton) :
    (bs.foldl press t).flag = (bs.filterMap TransportButton.flag).getLast?.or t.flag :=
  Machine.foldl_last_write Transport.flag (fun _ _ => rfl) t bs

theorem Transport.flag_foldl_eq_none_iff (bs : List TransportButton) :
    (bs.foldl press ⟨none, none⟩).flag = none ↔ ∀ b ∈ bs, b = .slower ∨ b = .faster := by
  rw [flag_foldl, Option.or_none, List.getLast?_eq_none_iff, List.filterMap_eq_nil_iff]
  refine forall₂_congr fun b _ => ?_
  cases b <;> simp [TransportButton.flag]

/-- The state in which the image drawn down is that of the variable set. -/
theorem Transport.flag_eq_shown_iff (bs : List TransportButton) :
    (bs.foldl press ⟨none, none⟩).flag = (bs.foldl press ⟨none, none⟩).shown ↔
      (∀ b ∈ bs, b = .slower ∨ b = .faster) ∨
        ∃ b ∈ bs.getLast?, b = .play ∨ b = .stop ∨ b = .pause := by
  rcases bs.eq_nil_or_concat' with rfl | ⟨bs, b, rfl⟩
  · simp
  · have hnone := flag_foldl_eq_none_iff bs
    simp only [List.foldl_append, List.foldl_cons, List.foldl_nil, press, List.mem_append,
      List.mem_singleton, List.getLast?_append, List.getLast?_singleton, Option.some_or,
      Option.mem_some_iff, exists_eq_left']
    -- After slower and faster nothing is down, and the variables are those of the buttons before.
    cases b
    case slower => simp [TransportButton.flag, TransportButton.shown, hnone, or_imp, forall_and]
    case faster => simp [TransportButton.flag, TransportButton.shown, hnone, or_imp, forall_and]
    all_goals simp [TransportButton.flag, TransportButton.shown, or_imp, forall_and]

/-- **When the images show the variables.** After `main` and any turns of the loop of `task2`: as
long as no button but slower and faster was pressed, and when play, stop or pause was the last. -/
theorem transport_shown_iff (es : List MouseEvent) :
    (es.foldl Desktop.task2 Desktop.boot).ShowsTransport ↔
      (∀ b ∈ es.filterMap TransportButton.pressed, b = .slower ∨ b = .faster) ∨
        ∃ b ∈ (es.filterMap TransportButton.pressed).getLast?,
          b = .play ∨ b = .stop ∨ b = .pause :=
  (represents_foldl es).showsTransport_iff.trans (Transport.flag_eq_shown_iff _)

/-- Play, then slower: the song is played and the play image is up. -/
theorem transport_not_shown :
    ¬ ∀ es : List MouseEvent, (es.foldl Desktop.task2 Desktop.boot).ShowsTransport := by
  intro h
  have himage := (h [⟨1, 300, 50⟩, ⟨1, 360, 180⟩]).2 .play
  revert himage
  decide +kernel

end DigitalModulation
