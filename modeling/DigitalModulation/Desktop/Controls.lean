import Mathlib.Data.Int.Notation

/-!
# `hello_ucosii.c`: the buttons, the images and the background

* `Button`, `Image`: what can be clicked, with its place on the screen or its size;
* `Draw`: the drawing calls of the program;
* `initBackground`: the calls of `init_background`.
-/

namespace DigitalModulation

/-- The arguments that place, colour and name a button. -/
structure Button where
  x : ℤ
  y : ℤ
  w : ℤ
  h : ℤ
  color : BitVec 32
  text : String
  deriving DecidableEq

/-! ### The buttons -/

namespace Button

def fearless : Button := ⟨667, 5, 120, 28, 0xefc180, "FEARLESS"⟩
def speakNow : Button := ⟨667, 35, 120, 28, 0xc7a8cb, "SPEAK NOW"⟩
def red : Button := ⟨667, 65, 120, 28, 0x7a2e39, "RED"⟩
def nineteen89 : Button := ⟨667, 95, 120, 28, 0xb5e5f8, "1989"⟩
def reputation : Button := ⟨667, 125, 120, 28, 0x746f70, "REPUTATION"⟩
def lover : Button := ⟨667, 155, 120, 28, 0xf7b0cc, "LOVER"⟩
def folklore : Button := ⟨667, 185, 120, 28, 0xcdc9c1, "FOLKLORE"⟩
def evermore : Button := ⟨667, 215, 120, 28, 0xc5ac90, "EVERMORE"⟩

def ask : Button := ⟨667, 252, 120, 28, 0x0066CC, "ASK"⟩
def fsk : Button := ⟨667, 282, 120, 28, 0x0066CC, "FSK"⟩
def bpsk : Button := ⟨667, 312, 120, 28, 0x0066CC, "BPSK"⟩
def lfsr : Button := ⟨667, 342, 120, 28, 0x0066CC, "LFSR"⟩
def qpsk : Button := ⟨667, 372, 120, 28, 0x0066CC, "QPSK"⟩

def sine : Button := ⟨667, 426, 120, 35, 0xCC6600, "SINE"⟩
def cos : Button := ⟨667, 470, 120, 35, 0xCC6600, "COS"⟩
def saw : Button := ⟨667, 512, 120, 35, 0xCC6600, "SAW"⟩
def square : Button := ⟨667, 554, 120, 35, 0xCC6600, "SQUARE"⟩

end Button

/-- The images under `imagenes`. -/
inductive Image
  | playUp | playDown | stopUp | stopDown | pauseUp | pauseDown | backUp | backDown | fordUp
  | fordDown | forwardArrow | backwardArrow
  deriving DecidableEq

namespace Image

def width : Image → ℤ
  | playUp | playDown => 94
  | stopUp | stopDown => 98
  | pauseUp | pauseDown => 108
  | backUp | backDown | fordUp | fordDown => 61
  | forwardArrow | backwardArrow => 60

def height : Image → ℤ
  | playUp | playDown => 109
  | stopUp | stopDown => 111
  | pauseUp | pauseDown => 112
  | backUp | backDown | fordUp | fordDown => 57
  | forwardArrow | backwardArrow => 60

end Image

/-- The click test: both edges belong to the rectangle. -/
def hit (x y w h xMouse yMouse : ℤ) : Bool :=
  x ≤ xMouse && xMouse ≤ x + w && y ≤ yMouse && yMouse ≤ y + h

def Button.hit (b : Button) (xMouse yMouse : ℤ) : Bool :=
  DigitalModulation.hit b.x b.y b.w b.h xMouse yMouse

def Image.hit (im : Image) (x y xMouse yMouse : ℤ) : Bool :=
  DigitalModulation.hit x y im.width im.height xMouse yMouse

/-! ### Drawing -/

def black24 : BitVec 32 := 0x000000
def white24 : BitVec 32 := 0xFFFFFF

/-- `vid_clean_screen`, `DispIMAGE_from_gimp`, `vid_draw_line`, `draw_button` and
`draw_nice_button`, all on `SW_Frame`. A button is highlighted if its `event_type` is not zero. -/
inductive Draw
  | clean (color : BitVec 32)
  | image (im : Image) (x y : ℤ) (transparent : BitVec 32)
  | line (hStart vStart hEnd vEnd width : ℤ) (color : BitVec 32)
  | button (b : Button) (eventType : Bool)
  | niceButton (b : Button) (eventType : Bool)
  deriving DecidableEq

/-- The lines of `init_background`. -/
def initLines : List Draw :=
  [.line 652 234 800 234 4 white24,
    .line 0 407 800 407 4 white24,
    .line 0 598 800 598 4 white24,
    .line 647 0 647 600 4 white24,
    .line 795 0 795 600 4 white24,
    .line 261 0 261 262 4 white24,
    .line 261 262 647 262 4 white24,
    .line 261 0 800 0 4 white24]

/-- `init_background`. -/
def initBackground : List Draw :=
  [.clean black24,
    .image .playUp 296 45 black24,
    .image .stopUp 404 45 black24,
    .image .pauseUp 523 45 black24,
    .image .backUp 355 177 black24,
    .image .fordUp 500 177 black24,
    .image .forwardArrow 570 173 black24,
    .image .backwardArrow 285 173 black24] ++
  initLines ++
  [.niceButton .fearless true,
    .niceButton .speakNow false,
    .niceButton .red false,
    .niceButton .nineteen89 false,
    .niceButton .reputation false,
    .niceButton .lover false,
    .niceButton .folklore false,
    .niceButton .evermore false,
    .button .ask true,
    .button .fsk false,
    .button .bpsk false,
    .button .lfsr false,
    .button .qpsk false,
    .button .sine false,
    .button .cos false,
    .button .saw false,
    .button .square true]

end DigitalModulation
