import DigitalModulation.Desktop.Controls

/-!
# `hello_ucosii.c`: `task2`, the clicks

A click runs through three chains of tests: modulations, signals, and the transport with the
colours. Each branch redraws its group and writes its registers or variables.

* `Desktop`, `Stmt`, `Desktop.exec`: the screen, the registers and variables, and what a statement
  does to them;
* `Desktop.boot`: what `main` does before it starts the tasks;
* `modulationClick`, `signalClick`, `transportClick`: the three chains;
* `Desktop.task2`: one turn of the loop.
-/

namespace DigitalModulation

/-- What has been drawn on `SW_Frame`, in order, the output registers the program writes, and its
global variables. -/
structure Desktop where
  screen : List Draw
  modulationSelector : BitVec 4
  signalSelector : BitVec 8
  graphColour : BitVec 24
  audioSel : BitVec 1
  audioDataFregen : BitVec 32
  playSong : BitVec 8
  pauseSong : BitVec 8
  stopSong : BitVec 8
  whichSong : BitVec 8
  freqReader : ℤ

/-- The statements of `main` and of the branches of `task2`. -/
inductive Stmt
  | draw (d : Draw)
  | selectModulation (modulator : BitVec 8)
  | selectSignal (signal : BitVec 8)
  | graphColour (data : BitVec 32)
  | audioSelector (audioSel : BitVec 8)
  | playSong (v : BitVec 8)
  | pauseSong (v : BitVec 8)
  | stopSong (v : BitVec 8)
  | nextSong
  | previousSong
  | slower
  | faster

def freqReaderIncrement : ℤ := 100
def freqReaderNominal : ℤ := 44000
def freqReaderMax : ℤ := 2 * freqReaderNominal

namespace Desktop

/-- `set_audio_frequency_audio_controller(freq_reader)`. -/
def setAudioFrequency (d : Desktop) : Desktop :=
  { d with audioDataFregen := BitVec.ofInt 32 ((50000000 : ℤ).tdiv (2 * d.freqReader) - 1) }

/-- One statement. -/
def exec (d : Desktop) : Stmt → Desktop
  | .draw call => { d with screen := d.screen ++ [call] }
  | .selectModulation modulator => { d with modulationSelector := modulator.setWidth 4 }
  | .selectSignal signal => { d with signalSelector := signal }
  | .graphColour data => { d with graphColour := data.setWidth 24 }
  | .audioSelector audioSel => { d with audioSel := audioSel.setWidth 1 }
  | .playSong v => { d with playSong := v }
  | .pauseSong v => { d with pauseSong := v }
  | .stopSong v => { d with stopSong := v }
  | .nextSong => if d.whichSong < 2 then { d with whichSong := d.whichSong + 1 } else d
  | .previousSong => if 0 < d.whichSong then { d with whichSong := d.whichSong - 1 } else d
  | .slower =>
    let freqReader := d.freqReader - freqReaderIncrement
    setAudioFrequency
      { d with freqReader :=
          if freqReader < freqReaderIncrement then freqReaderIncrement else freqReader }
  | .faster =>
    let freqReader := d.freqReader + freqReaderIncrement
    setAudioFrequency
      { d with freqReader := if freqReaderMax < freqReader then freqReaderMax else freqReader }

/-- The registers after reset and the variables as initialised. -/
def powerUp : Desktop := ⟨[], 0, 0, 0, 0, 0, 0, 0, 0, 0, freqReaderNominal⟩

end Desktop

/-- What `main` draws and writes before it starts the tasks. -/
def bootStmts : List Stmt :=
  initBackground.map .draw ++
    [.graphColour 0xefc180, .audioSelector 1, .selectModulation 0, .selectSignal 3]

def Desktop.boot : Desktop := bootStmts.foldl Desktop.exec Desktop.powerUp

/-! ### The groups, drawn with the event type of each button -/

def drawModulations (eAsk eFsk eBpsk eLfsr eQpsk : Bool) : List Stmt :=
  [.draw (.button .ask eAsk), .draw (.button .fsk eFsk), .draw (.button .bpsk eBpsk),
    .draw (.button .lfsr eLfsr), .draw (.button .qpsk eQpsk)]

def drawSignals (eSine eCos eSaw eSquare : Bool) : List Stmt :=
  [.draw (.button .sine eSine), .draw (.button .cos eCos), .draw (.button .saw eSaw),
    .draw (.button .square eSquare)]

def drawColours (eFearless eSpeakNow eRed e1989 eReputation eLover eFolklore eEvermore : Bool) :
    List Stmt :=
  [.draw (.niceButton .fearless eFearless), .draw (.niceButton .speakNow eSpeakNow),
    .draw (.niceButton .red eRed), .draw (.niceButton .nineteen89 e1989),
    .draw (.niceButton .reputation eReputation), .draw (.niceButton .lover eLover),
    .draw (.niceButton .folklore eFolklore), .draw (.niceButton .evermore eEvermore)]

/-- The seven images of the transport; only the image of four of them and the height of the forward
arrow differ between the branches. -/
def drawTransport (play stop pause back : Image) (yForward : ℤ) : List Stmt :=
  [.draw (.image play 296 45 black24), .draw (.image stop 404 45 black24),
    .draw (.image pause 523 45 black24), .draw (.image back 355 177 black24),
    .draw (.image .fordUp 500 177 black24), .draw (.image .forwardArrow 570 yForward black24),
    .draw (.image .backwardArrow 285 173 black24)]

/-! ### The three chains -/

/-- "Logic for the modulation buttons". -/
def modulationClick (xMouse yMouse : ℤ) : List Stmt :=
  if Button.ask.hit xMouse yMouse then
    drawModulations true false false false false ++ [.selectModulation 0]
  else if Button.fsk.hit xMouse yMouse then
    drawModulations false true false false false ++ [.selectModulation 1]
  else if Button.bpsk.hit xMouse yMouse then
    drawModulations false false true false false ++ [.selectModulation 2]
  else if Button.lfsr.hit xMouse yMouse then
    drawModulations false false false true false ++ [.selectModulation 3]
  else if Button.qpsk.hit xMouse yMouse then
    drawModulations false false false false true ++ [.selectModulation 4]
  else []

/-- "Logic for the signal selector buttons". -/
def signalClick (xMouse yMouse : ℤ) : List Stmt :=
  if Button.sine.hit xMouse yMouse then
    drawSignals true false false false ++ [.selectSignal 0]
  else if Button.cos.hit xMouse yMouse then
    drawSignals false true false false ++ [.selectSignal 1]
  else if Button.saw.hit xMouse yMouse then
    drawSignals false false true false ++ [.selectSignal 2]
  else if Button.square.hit xMouse yMouse then
    drawSignals false false false true ++ [.selectSignal 3]
  else []

/-- The end of the third chain: "changes the color of the graph". -/
def colourClick (xMouse yMouse : ℤ) : List Stmt :=
  if Button.fearless.hit xMouse yMouse then
    drawColours true false false false false false false false ++ [.graphColour 0xefc180]
  else if Button.speakNow.hit xMouse yMouse then
    drawColours false true false false false false false false ++ [.graphColour 0xc7a8cb]
  else if Button.red.hit xMouse yMouse then
    drawColours false false true false false false false false ++ [.graphColour 0x7a2e39]
  else if Button.nineteen89.hit xMouse yMouse then
    drawColours false false false true false false false false ++ [.graphColour 0xb5e5f8]
  else if Button.reputation.hit xMouse yMouse then
    drawColours false false false false true false false false ++ [.graphColour 0x746f70]
  else if Button.lover.hit xMouse yMouse then
    drawColours false false false false false true false false ++ [.graphColour 0xf7b0cc]
  else if Button.folklore.hit xMouse yMouse then
    drawColours false false false false false false true false ++ [.graphColour 0xcdc9c1]
  else if Button.evermore.hit xMouse yMouse then
    drawColours false false false false false false false true ++ [.graphColour 0xc5ac90]
  else []

/-- The third chain, from the play button to the colours. -/
def transportClick (xMouse yMouse : ℤ) : List Stmt :=
  if Image.playUp.hit 296 45 xMouse yMouse then
    drawTransport .playDown .stopUp .pauseUp .backUp 173 ++
      [.playSong 1, .pauseSong 0, .stopSong 0]
  else if Image.stopDown.hit 404 45 xMouse yMouse then
    drawTransport .playUp .stopDown .pauseUp .backUp 173 ++
      [.playSong 0, .pauseSong 0, .stopSong 1]
  else if Image.pauseDown.hit 523 45 xMouse yMouse then
    drawTransport .playUp .stopUp .pauseDown .backUp 173 ++
      [.playSong 0, .pauseSong 1, .stopSong 0]
  else if Image.backUp.hit 355 177 xMouse yMouse then
    drawTransport .playUp .stopUp .pauseUp .backDown 180 ++ [.slower]
  else if Image.fordDown.hit 500 177 xMouse yMouse then
    drawTransport .playUp .stopUp .pauseUp .backUp 173 ++ [.faster]
  else if Image.forwardArrow.hit 570 173 xMouse yMouse then
    drawTransport .playUp .stopUp .pauseUp .backUp 173 ++
      [.playSong 0, .pauseSong 0, .stopSong 1, .nextSong]
  else if Image.backwardArrow.hit 285 173 xMouse yMouse then
    drawTransport .playUp .stopUp .pauseUp .backUp 173 ++
      [.playSong 0, .pauseSong 0, .stopSong 1, .previousSong]
  else colourClick xMouse yMouse

/-- The statements of a click. -/
def clickStmts (xMouse yMouse : ℤ) : List Stmt :=
  modulationClick xMouse yMouse ++ signalClick xMouse yMouse ++ transportClick xMouse yMouse

/-- What `mouse_pos` returns and writes. -/
structure MouseEvent where
  event : BitVec 8
  xMouse : ℤ
  yMouse : ℤ

/-- One turn of the loop: 1 is the down event. -/
def Desktop.task2 (d : Desktop) (e : MouseEvent) : Desktop :=
  if e.event = 1 then (clickStmts e.xMouse e.yMouse).foldl Desktop.exec d else d

end DigitalModulation
