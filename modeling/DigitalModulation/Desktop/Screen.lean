import DigitalModulation.Desktop.Task2
import DigitalModulation.Graphics.Frame
import DigitalModulation.Graphics.Images
import DigitalModulation.Graphics.Text

/-!
# What is drawn

The calls of `init_background` and of the branches of `task2`, down to the pixels and the bytes they
store.

* `Assets`: the fonts, the images and the memory that the calls use;
* `Draw.stores`, `Draw.pixels`: the bytes a call stores, and the pixels it sets;
* `Draw.stores_eq`: the bytes are those of the pixels;
* `screen_foldl`: the calls of a whole run;
* `drawn_in_frame_iff`: which of them stay inside the frame.
-/

namespace DigitalModulation

/-- What the calls use besides their arguments: the alpha maps of the font, the data of the images,
and what memory holds before it is written. -/
structure Assets where
  charAlphaMap : ℕ → ℕ → BitVec 8
  pixelData : Image → ℕ → BitVec 8
  printMemory : PrintMemory
  fastBuffer : ℕ → BitVec 8
  malloc : ℕ → BitVec 8

def Assets.zero : Assets where
  charAlphaMap _ _ := 0
  pixelData _ _ := 0
  printMemory := ⟨fun _ _ => ⟨0, 0, 0⟩, fun _ _ => 0⟩
  fastBuffer _ := 0
  malloc _ := 0

def Assets.font (A : Assets) : Font := tahomabold20 A.charAlphaMap

def Assets.gimpImage (A : Assets) (im : Image) : GimpImage :=
  ⟨im.width.toNat, im.height.toNat, 3, A.pixelData im⟩

/-! ### The stores of a call -/

/-- `vid_clean_screen`. -/
def vidCleanScreen (display : VipFrameReader) (color : BitVec 32) : List Store :=
  vidPaintBlock 0 0 display.width display.height color display

/-- `vid_draw_box` with `DO_FILL`. -/
def vidDrawBox (hStart vStart hEnd vEnd : ℤ) (color : BitVec 32) (display : VipFrameReader) :
    List Store :=
  vidPaintBlock hStart vStart hEnd vEnd color display

/-- The colour a button is filled with. -/
def Button.background (b : Button) (eventType : Bool) : BitVec 32 :=
  if eventType then ~~~b.color else b.color

/-- A button whose text starts at a column and a row. -/
def drawButtonAt (A : Assets) (display : VipFrameReader) (xText yText : ℤ) (b : Button)
    (eventType : Bool) : List Store :=
  vidDrawBox b.x b.y (b.x + b.w) (b.y + b.h) black24 display ++
    vidDrawBox b.x b.y (b.x + b.w) (b.y + b.h) (b.background eventType) display ++
    (vidPrintStringAlpha A.printMemory A.font display xText yText white24 (b.background eventType)
      b.text).flatMap (vidSetPixel display)

/-- `draw_button`. -/
def drawButton (A : Assets) (display : VipFrameReader) (b : Button) (eventType : Bool) :
    List Store :=
  drawButtonAt A display (b.x + b.w.tdiv 4) (b.y + b.h.tdiv 8) b eventType

/-- `draw_nice_button`. -/
def drawNiceButton (A : Assets) (display : VipFrameReader) (b : Button) (eventType : Bool) :
    List Store :=
  drawButtonAt A display b.x (b.y + b.h.tdiv 20) b eventType

/-- The bytes a call stores. -/
def Draw.stores (A : Assets) (display : VipFrameReader) : Draw → List Store
  | .clean color => vidCleanScreen display color
  | .image im x y transparent =>
    dispImageFromGimp display (A.gimpImage im) A.malloc x y transparent
  | .line hStart vStart hEnd vEnd width color =>
    (vidDrawLine hStart vStart hEnd vEnd width color).stores A.fastBuffer display
  | .button b eventType => drawButton A display b eventType
  | .niceButton b eventType => drawNiceButton A display b eventType

/-! ### The pixels of a call -/

/-- The colour of a pixel of an image. -/
def Assets.imageColor (A : Assets) (im : Image) : ℕ → BitVec 32 := gimpColor (A.pixelData im)

/-- The text of a button on `SW_Frame`. -/
def Button.label (A : Assets) (xText yText : ℤ) (b : Button) (eventType : Bool) : List Pixel :=
  vidPrintStringAlpha A.printMemory A.font (swFrame 0) xText yText white24 (b.background eventType)
    b.text

def Button.pixelsAt (A : Assets) (xText yText : ℤ) (b : Button) (eventType : Bool) : List Pixel :=
  block b.x b.y (b.x + b.w) (b.y + b.h) black24 ++
    block b.x b.y (b.x + b.w) (b.y + b.h) (b.background eventType) ++
    b.label A xText yText eventType

/-- The pixels a call sets, in order. -/
def Draw.pixels (A : Assets) : Draw → List Pixel
  | .clean color => block 0 0 800 600 color
  | .image im x y transparent =>
    imagePixels x y im.width.toNat im.height.toNat (A.imageColor im) transparent
  | .line hStart vStart hEnd vEnd width color =>
    (vidDrawLine hStart vStart hEnd vEnd width color).pixels
  | .button b eventType => b.pixelsAt A (b.x + b.w.tdiv 4) (b.y + b.h.tdiv 8) eventType
  | .niceButton b eventType => b.pixelsAt A b.x (b.y + b.h.tdiv 20) eventType

theorem drawButtonAt_eq (A : Assets) (frame xText yText : ℤ) (b : Button) (eventType : Bool) :
    drawButtonAt A (swFrame frame) xText yText b eventType =
      (b.pixelsAt A xText yText eventType).flatMap (vidSetPixel (swFrame frame)) := by
  have hdepth : (swFrame frame).colorDepth = (swFrame 0).colorDepth := rfl
  simp only [drawButtonAt, Button.pixelsAt, Button.label, vidDrawBox, vidPaintBlock_eq,
    vidPrintStringAlpha_congr _ _ hdepth, List.flatMap_append]

/-- **The bytes a call stores are those of its pixels**, one pixel after another. -/
theorem Draw.stores_eq (A : Assets) (frame : ℤ) (d : Draw) :
    d.stores A (swFrame frame) = (d.pixels A).flatMap (vidSetPixel (swFrame frame)) := by
  cases d with
  | clean color => exact vidPaintBlock_eq frame 0 0 800 600 color
  | image im x y transparent =>
    have hsize : im.width.toNat < 2 ^ 15 ∧ im.height.toNat < 2 ^ 15 := by cases im <;> decide
    exact dispImageFromGimp_eq frame rfl hsize.1 hsize.2 A.malloc x y transparent
  | line hStart vStart hEnd vEnd width color =>
    exact LineCall.stores_eq frame A.fastBuffer _
  | button b eventType => exact drawButtonAt_eq A frame _ _ b eventType
  | niceButton b eventType => exact drawButtonAt_eq A frame _ _ b eventType

/-! ### The calls of a run -/

/-- The call a statement makes. -/
def Stmt.call : Stmt → Option Draw
  | .draw call => some call
  | _ => none

/-- The calls of a turn of the loop. -/
def MouseEvent.calls (e : MouseEvent) : List Draw :=
  if e.event = 1 then (clickStmts e.xMouse e.yMouse).filterMap Stmt.call else []

theorem Desktop.screen_exec (d : Desktop) (st : Stmt) :
    (d.exec st).screen = d.screen ++ st.call.toList := by
  cases st with
  | draw call => rfl
  | nextSong => simp only [exec]; split <;> exact (List.append_nil _).symm
  | previousSong => simp only [exec]; split <;> exact (List.append_nil _).symm
  | _ => exact (List.append_nil _).symm

theorem Desktop.screen_foldl_exec (d : Desktop) (stmts : List Stmt) :
    (stmts.foldl exec d).screen = d.screen ++ stmts.filterMap Stmt.call := by
  induction stmts generalizing d with
  | nil => exact (List.append_nil _).symm
  | cons st stmts ih =>
    rw [List.foldl_cons, ih, screen_exec, List.append_assoc, List.filterMap_cons]
    cases st.call <;> rfl

theorem screen_boot : Desktop.boot.screen = initBackground := by
  unfold Desktop.boot
  rw [Desktop.screen_foldl_exec]
  rfl

theorem Desktop.screen_task2 (d : Desktop) (e : MouseEvent) :
    (d.task2 e).screen = d.screen ++ e.calls := by
  unfold task2 MouseEvent.calls
  split_ifs
  · exact screen_foldl_exec d _
  · exact (List.append_nil _).symm

/-- **The calls of a run**: the background, and those of each turn. -/
theorem screen_foldl (es : List MouseEvent) :
    (es.foldl Desktop.task2 Desktop.boot).screen =
      initBackground ++ es.flatMap MouseEvent.calls := by
  induction es using List.reverseRecOn with
  | nil => exact screen_boot.trans (List.append_nil _).symm
  | append_singleton es e ih =>
    rw [List.foldl_append, List.foldl_cons, List.foldl_nil, Desktop.screen_task2, ih,
      List.flatMap_append, List.flatMap_singleton, List.append_assoc]

/-- The colours, and the modulations with the signals. -/
def niceButtons : List Button :=
  [.fearless, .speakNow, .red, .nineteen89, .reputation, .lover, .folklore, .evermore]

def buttons : List Button := [.ask, .fsk, .bpsk, .lfsr, .qpsk, .sine, .cos, .saw, .square]

/-- The images of the transport with their places. -/
def transportImages : List Draw :=
  [.image .playUp 296 45 black24, .image .playDown 296 45 black24,
    .image .stopUp 404 45 black24, .image .stopDown 404 45 black24,
    .image .pauseUp 523 45 black24, .image .pauseDown 523 45 black24,
    .image .backUp 355 177 black24, .image .backDown 355 177 black24,
    .image .fordUp 500 177 black24,
    .image .forwardArrow 570 173 black24, .image .forwardArrow 570 180 black24,
    .image .backwardArrow 285 173 black24]

/-- The calls that draw the buttons. -/
def buttonCalls : List Draw :=
  (niceButtons.flatMap fun b => [.niceButton b false, .niceButton b true]) ++
    buttons.flatMap fun b => [.button b false, .button b true]

/-- The calls that a click can make. -/
def clickCalls : List Draw := transportImages ++ buttonCalls

theorem modulationClick_calls (x y : ℤ) :
    ∀ d ∈ (modulationClick x y).filterMap Stmt.call, d ∈ buttonCalls := by
  unfold modulationClick
  split_ifs <;> decide +kernel

theorem signalClick_calls (x y : ℤ) :
    ∀ d ∈ (signalClick x y).filterMap Stmt.call, d ∈ buttonCalls := by
  unfold signalClick
  split_ifs <;> decide +kernel

theorem colourClick_calls (x y : ℤ) :
    ∀ d ∈ (colourClick x y).filterMap Stmt.call, d ∈ buttonCalls := by
  unfold colourClick
  split_ifs <;> decide +kernel

theorem transportClick_calls (x y : ℤ) :
    ∀ d ∈ (transportClick x y).filterMap Stmt.call, d ∈ clickCalls := by
  unfold transportClick
  split_ifs
  case neg => exact fun d hd => List.mem_append_right _ (colourClick_calls x y d hd)
  all_goals decide +kernel

theorem clickStmts_calls (x y : ℤ) :
    ∀ d ∈ (clickStmts x y).filterMap Stmt.call, d ∈ clickCalls := by
  intro d hd
  rw [clickStmts, List.filterMap_append, List.filterMap_append, List.mem_append,
    List.mem_append] at hd
  rcases hd with (hd | hd) | hd
  · exact List.mem_append_right _ (modulationClick_calls x y d hd)
  · exact List.mem_append_right _ (signalClick_calls x y d hd)
  · exact transportClick_calls x y d hd

/-- What holds of the background and of the calls of the clicks holds of all calls of a run. -/
theorem forall_screen {P : Draw → Prop} (hinit : ∀ d ∈ initBackground, P d)
    (hclick : ∀ d ∈ clickCalls, P d) (es : List MouseEvent) :
    ∀ d ∈ (es.foldl Desktop.task2 Desktop.boot).screen, P d := by
  intro d hd
  rw [screen_foldl, List.mem_append, List.mem_flatMap] at hd
  rcases hd with hd | ⟨e, -, hd⟩
  · exact hinit d hd
  · unfold MouseEvent.calls at hd
    split_ifs at hd
    · exact hclick d (clickStmts_calls _ _ d hd)
    · exact absurd hd List.not_mem_nil

/-! ### Where a call draws -/

/-- The length of a text in the font of the buttons. -/
def textLength (text : String) : ℕ := vidStringPixelLengthAlpha (tahomabold20 fun _ _ => 0) text

def Button.box (b : Button) : Box := ⟨b.x, b.y, b.x + b.w, b.y + b.h⟩

/-- The box of the text of a button that starts at a column and a row. -/
def Button.textBox (xText yText : ℤ) (b : Button) : Box :=
  ⟨xText, yText, xText + textLength b.text, yText + 26⟩

/-- The text of a button is on one line, and neither of its colours asks for what is behind it. -/
def Button.Printable (b : Button) : Prop :=
  (0 ≤ b.w ∧ 0 ≤ b.h) ∧ (∀ eventType, b.background eventType ≠ clearBackground) ∧
    OneLine b.text.toList

/-- A horizontal line from left to right or a vertical one downwards, and other calls of the same
kind. -/
def Draw.Plain : Draw → Prop
  | .clean _ | .image .. => True
  | .line hStart vStart hEnd vEnd _ _ =>
    (vStart = vEnd ∧ (0 ≤ hStart ∧ hStart ≤ hEnd ∧ hEnd < 32768) ∧ 0 ≤ vStart ∧ vStart < 65536) ∨
      (vStart ≠ vEnd ∧ hStart = hEnd ∧ (0 ≤ hStart ∧ hStart < 65536) ∧
        0 ≤ vStart ∧ vStart < vEnd ∧ vEnd < 65535)
  | .button b _ | .niceButton b _ => b.Printable

/-- A horizontal line ends before its last column, a vertical one in its last row. -/
def lineBox (hStart vStart hEnd vEnd : ℤ) : Box :=
  if vStart = vEnd then ⟨hStart, vStart, hEnd, vStart + 1⟩
  else ⟨hStart, vStart, hStart + 1, vEnd + 1⟩

/-- The boxes in which a call draws. -/
def Draw.boxes : Draw → List Box
  | .clean _ => [⟨0, 0, 800, 600⟩]
  | .image im x y _ => [⟨x, y, x + im.width, y + im.height⟩]
  | .line hStart vStart hEnd vEnd _ _ => [lineBox hStart vStart hEnd vEnd]
  | .button b _ => [b.box, b.textBox (b.x + b.w.tdiv 4) (b.y + b.h.tdiv 8)]
  | .niceButton b _ => [b.box, b.textBox b.x (b.y + b.h.tdiv 20)]

instance (b : Button) : Decidable b.Printable := inferInstanceAs (Decidable (_ ∧ _ ∧ _))

instance : (d : Draw) → Decidable d.Plain
  | .clean _ | .image .. => isTrue trivial
  | .line .. => inferInstanceAs (Decidable (_ ∨ _))
  | .button b _ | .niceButton b _ => inferInstanceAs (Decidable b.Printable)

theorem Button.footprint_pixelsAt (A : Assets) (xText yText : ℤ) {b : Button} (h : b.Printable)
    (eventType : Bool) :
    footprint (b.pixelsAt A xText yText eventType) =
      b.box.area ∪ (b.textBox xText yText).area := by
  obtain ⟨hsize, hbackground, hline⟩ := h
  have htext : footprint (b.label A xText yText eventType) = (b.textBox xText yText).area :=
    footprint_vidPrintStringAlpha (tahomabold20_hasHeight A.charAlphaMap) xText yText _
      (hbackground eventType) hline
  rw [pixelsAt, footprint_append, footprint_append, footprint_block (by omega) (by omega),
    footprint_block (by omega) (by omega), Set.union_self, htext]
  rfl

theorem Draw.footprint_line (A : Assets) {hStart vStart hEnd vEnd width : ℤ} {color : BitVec 32}
    (h : (Draw.line hStart vStart hEnd vEnd width color).Plain) :
    footprint ((Draw.line hStart vStart hEnd vEnd width color).pixels A) =
      (lineBox hStart vStart hEnd vEnd).area := by
  unfold lineBox
  rcases h with ⟨rfl, hh, hv⟩ | ⟨hne, rfl, hh, hv⟩
  · rw [if_pos rfl]
    exact footprint_vidDrawLine_horiz (by omega) (by omega) (by omega) (by omega) width color
  · rw [if_neg hne]
    exact footprint_vidDrawLine_vert (by omega) (by omega) (by omega) (by omega) width color

/-- A call that draws no image fills its boxes. -/
theorem Draw.mem_footprint_iff (A : Assets) {d : Draw} (h : d.Plain)
    (himage : ∀ im x y transparent, d ≠ .image im x y transparent) {q : ℤ × ℤ} :
    q ∈ footprint (d.pixels A) ↔ ∃ r ∈ d.boxes, q ∈ r.area := by
  cases d with
  | clean color =>
    rw [pixels, footprint_block (by decide) (by decide)]
    simp [boxes]
  | image im x y transparent => exact absurd rfl (himage im x y transparent)
  | line hStart vStart hEnd vEnd width color =>
    rw [footprint_line A h]
    simp [boxes]
  | button b eventType =>
    rw [pixels, Button.footprint_pixelsAt A _ _ h]
    simp [boxes]
  | niceButton b eventType =>
    rw [pixels, Button.footprint_pixelsAt A _ _ h]
    simp [boxes]

/-- A call draws in its boxes. -/
theorem Draw.exists_box {A : Assets} {d : Draw} (h : d.Plain) {p : Pixel} (hp : p ∈ d.pixels A) :
    ∃ r ∈ d.boxes, p.1 ∈ r.area := by
  by_cases himage : ∃ im x y transparent, d = .image im x y transparent
  · obtain ⟨im, x, y, transparent, rfl⟩ := himage
    obtain ⟨i, hi, j, hj, -, rfl⟩ := mem_imagePixels.mp hp
    refine ⟨_, List.mem_singleton_self _, Box.mem_area.mpr ?_⟩
    simp only
    omega
  · have hne (im x y transparent) : d ≠ .image im x y transparent :=
      fun hd => himage ⟨im, x, y, transparent, hd⟩
    exact (mem_footprint_iff A h hne).mp ⟨p, hp, rfl⟩

/-! ### Calls that stay in the frame -/

/-- The call sets only pixels that the frame has, and stores only inside the frame. -/
def Draw.StaysInFrame (A : Assets) (frame : ℤ) (d : Draw) : Prop :=
  (∀ p ∈ d.pixels A, OnScreen p.1) ∧ ∀ w ∈ d.stores A (swFrame frame), InFrame frame w.1

/-- A vertical line that is given as if its last row, 600, did not belong to it. -/
def Draw.EndsBelow : Draw → Prop
  | .line hStart vStart hEnd vEnd _ _ =>
    hStart = hEnd ∧ (0 ≤ hStart ∧ hStart < 800) ∧ 0 ≤ vStart ∧ vStart < vEnd ∧ vEnd = 600
  | _ => False

def screenBox : Box := ⟨0, 0, 800, 600⟩

/-- The arguments of a call that stays on the screen. -/
def Draw.Fits (d : Draw) : Prop := d.Plain ∧ ∀ r ∈ d.boxes, r.Within screenBox

instance (d : Draw) : Decidable d.Fits := inferInstanceAs (Decidable (_ ∧ _))

instance : (d : Draw) → Decidable d.EndsBelow
  | .line .. => inferInstanceAs (Decidable (_ ∧ _ ∧ _ ∧ _ ∧ _))
  | .clean _ | .image .. | .button .. | .niceButton .. => isFalse not_false

theorem Draw.onScreen_of_fits {A : Assets} {d : Draw} (h : d.Fits) :
    ∀ p ∈ d.pixels A, OnScreen p.1 := by
  intro p hp
  obtain ⟨r, hr, hmem⟩ := exists_box h.1 hp
  exact (h.2 r hr).mem hmem

/-- A call whose pixels are on the screen stores inside the frame. -/
theorem Draw.staysInFrame_iff (A : Assets) (frame : ℤ) (d : Draw) :
    d.StaysInFrame A frame ↔ ∀ p ∈ d.pixels A, OnScreen p.1 := by
  constructor
  · rintro ⟨hpixels, -⟩
    exact hpixels
  · intro hpixels
    refine ⟨hpixels, fun w hw => ?_⟩
    rw [stores_eq, List.mem_flatMap] at hw
    obtain ⟨p, hp, hw⟩ := hw
    exact (stores_in_frame_iff frame (hpixels p hp).1).mpr (hpixels p hp) w hw

theorem Draw.not_staysInFrame_of_endsBelow {A : Assets} {frame : ℤ} {d : Draw} (h : d.EndsBelow) :
    ¬ d.StaysInFrame A frame := by
  cases d with
  | line hStart vStart hEnd vEnd width color =>
    obtain ⟨rfl, hh, hv, hlt, rfl⟩ := h
    rw [staysInFrame_iff]
    intro hpixels
    -- The pixel of the line in row 600.
    have hp : ((hStart, 600), color) ∈ (Draw.line hStart vStart hStart 600 width color).pixels A :=
      (mem_vidDrawLine_vert (by omega) hv hlt (by omega)).mpr ⟨rfl, hlt.le, le_rfl, rfl⟩
    exact lt_irrefl 600 (hpixels _ hp).2.2
  | _ => exact h.elim

/-- Every call of a run stays on the screen or is one of the two lines. -/
theorem screen_fits (es : List MouseEvent) :
    ∀ d ∈ (es.foldl Desktop.task2 Desktop.boot).screen, d.Fits ∨ d.EndsBelow :=
  forall_screen (by decide +kernel) (by decide +kernel) es

theorem screen_inColumns (A : Assets) (es : List MouseEvent) :
    ∀ d ∈ (es.foldl Desktop.task2 Desktop.boot).screen, ∀ p ∈ d.pixels A, InColumns p.1 := by
  intro d hd p hp
  rcases screen_fits es d hd with hfits | hbelow
  · exact (Draw.onScreen_of_fits hfits p hp).1
  · cases d with
    | line hStart vStart hEnd vEnd width color =>
      obtain ⟨rfl, hh, hv, hlt, rfl⟩ := hbelow
      have hpixel := (mem_vidDrawLine_vert (by omega) hv hlt (by omega)).mp hp
      unfold InColumns
      omega
    | _ => exact hbelow.elim

/-- The memory of the frame after everything on the screen has been drawn. -/
def Desktop.memory (A : Assets) (frame : ℤ) (mem : ℤ → BitVec 8) (D : Desktop) : ℤ → BitVec 8 :=
  Canvas.paint mem (D.screen.flatMap (Draw.stores A (swFrame frame)))

/-- The picture of a run is painted pixel by pixel. -/
theorem readPixel_memory (A : Assets) (frame : ℤ) (mem : ℤ → BitVec 8) (es : List MouseEvent)
    {q : ℤ × ℤ} (hq : InColumns q) :
    readPixel frame ((es.foldl Desktop.task2 Desktop.boot).memory A frame mem) q =
      Canvas.paint (readPixel frame mem)
        ((es.foldl Desktop.task2 Desktop.boot).screen.flatMap (Draw.pixels A)) q := by
  have hstores : (fun d : Draw => d.stores A (swFrame frame)) =
      fun d => (d.pixels A).flatMap (vidSetPixel (swFrame frame)) :=
    funext fun d => d.stores_eq A frame
  unfold Desktop.memory
  rw [show Draw.stores A (swFrame frame) = _ from hstores, ← List.flatMap_assoc]
  refine readPixel_paint frame mem (fun p hp => ?_) hq
  obtain ⟨d, hd, hp⟩ := List.mem_flatMap.mp hp
  exact screen_inColumns A es d hd p hp

/-- The line at column 647 is a call of every run. -/
theorem separator_mem_screen (es : List MouseEvent) :
    Draw.line 647 0 647 600 4 white24 ∈ (es.foldl Desktop.task2 Desktop.boot).screen := by
  rw [screen_foldl]
  exact List.mem_append_left _ (by simp [initBackground, initLines])

/-- **Which calls stay inside the frame.** In every run a call stores the bytes of its pixels, and
it stays inside the frame unless it draws a vertical line to row 600. Every run draws such a
line. -/
theorem drawn_in_frame_iff (A : Assets) (frame : ℤ) (es : List MouseEvent) :
    (∀ d ∈ (es.foldl Desktop.task2 Desktop.boot).screen,
      d.stores A (swFrame frame) = (d.pixels A).flatMap (vidSetPixel (swFrame frame)) ∧
        (d.StaysInFrame A frame ↔ ¬ d.EndsBelow)) ∧
      ¬ ∀ d ∈ (es.foldl Desktop.task2 Desktop.boot).screen, d.StaysInFrame A frame := by
  constructor
  · intro d hd
    refine ⟨d.stores_eq A frame, fun h hbelow => Draw.not_staysInFrame_of_endsBelow hbelow h, ?_⟩
    intro hbelow
    rw [Draw.staysInFrame_iff]
    exact Draw.onScreen_of_fits ((screen_fits es d hd).resolve_right hbelow)
  · intro h
    exact Draw.not_staysInFrame_of_endsBelow (by decide) (h _ (separator_mem_screen es))

/-- The background alone has a pixel in row 600. -/
theorem drawn_outside_frame :
    ¬ ∀ (A : Assets) (frame : ℤ) (es : List MouseEvent),
      ∀ d ∈ (es.foldl Desktop.task2 Desktop.boot).screen, d.StaysInFrame A frame := by
  intro h
  exact Draw.not_staysInFrame_of_endsBelow (by decide) (h .zero 0 [] _ (separator_mem_screen []))

end DigitalModulation
