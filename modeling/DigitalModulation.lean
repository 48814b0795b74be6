import DigitalModulation.Lib.Machine
import DigitalModulation.Lib.Rom
import DigitalModulation.Lib.Crossing
import DigitalModulation.Lib.PrefixCode
import DigitalModulation.Lib.RingBuffer
import DigitalModulation.Lib.Canvas
import DigitalModulation.Lib.Layout
import DigitalModulation.Lib.InPlace
import DigitalModulation.Lib.Bresenham
import DigitalModulation.Lib.Mixture
import DigitalModulation.Lib.Samples
import DigitalModulation.Lib.Midpoint
import DigitalModulation.Lib.Scan
import DigitalModulation.Lib.ShiftRegister
import DigitalModulation.Carrier.SincosLut
import DigitalModulation.Carrier.WaveformGen
import DigitalModulation.Carrier.Modulators
import DigitalModulation.Symbol.ClkDivider
import DigitalModulation.Symbol.Synchronizer
import DigitalModulation.Symbol.Interrupt
import DigitalModulation.Symbol.Alignment
import DigitalModulation.Symbol.Sequence
import DigitalModulation.Symbol.Transmitter
import DigitalModulation.Keyboard.ScanCodeReader
import DigitalModulation.Keyboard.ScanEvents
import DigitalModulation.Keyboard.ScanCodeToEvent
import DigitalModulation.Keyboard.Controller
import DigitalModulation.Keyboard.MousePos
import DigitalModulation.Keyboard.Holding
import DigitalModulation.Keyboard.Wires
import DigitalModulation.Desktop.Controls
import DigitalModulation.Desktop.Task2
import DigitalModulation.Desktop.Selection
import DigitalModulation.Desktop.Transport
import DigitalModulation.Desktop.Speed
import DigitalModulation.Desktop.Clicks
import DigitalModulation.Audio.Fifo
import DigitalModulation.Audio.Task1
import DigitalModulation.Audio.Tasks
import DigitalModulation.Plot.PlotGraph
import DigitalModulation.Plot.Traces
import DigitalModulation.Plot.Pendiente
import DigitalModulation.Plot.ScanPosition
import DigitalModulation.Pointer.Sprites
import DigitalModulation.Pointer.Cursor
import DigitalModulation.Graphics.HorizLine
import DigitalModulation.Graphics.Box
import DigitalModulation.Graphics.Pixels
import DigitalModulation.Graphics.SlopedLine
import DigitalModulation.Graphics.Frame
import DigitalModulation.Graphics.Text
import DigitalModulation.Graphics.Images
import DigitalModulation.Graphics.DoubleBuffer
import DigitalModulation.Graphics.PacketReader
import DigitalModulation.Graphics.FrameReader
import DigitalModulation.Graphics.FrameDisplay
import DigitalModulation.Graphics.GimpBmp
import DigitalModulation.Graphics.PixelBytes
import DigitalModulation.Graphics.Blit
import DigitalModulation.Graphics.Present
import DigitalModulation.Graphics.Antialias
import DigitalModulation.Graphics.FastLine
import DigitalModulation.Graphics.PaintBlock
import DigitalModulation.Graphics.Shapes
import DigitalModulation.Graphics.Circle
import DigitalModulation.Graphics.RoundBox
import DigitalModulation.Graphics.Triangle
import DigitalModulation.Graphics.MoveBlock
import DigitalModulation.Graphics.Scroll
import DigitalModulation.Desktop.Screen
import DigitalModulation.Desktop.Footprints
import DigitalModulation.Desktop.Residue
import DigitalModulation.Plot.VideoMux
import DigitalModulation.Plot.Monitor
import DigitalModulation.Memory.SdramProtocol
import DigitalModulation.Memory.SdramController
import DigitalModulation.Memory.SdramStages
import DigitalModulation.Memory.SdramBus
import DigitalModulation.Memory.SdramRequests
import DigitalModulation.Memory.SdramChip
import DigitalModulation.Memory.Sdram
import DigitalModulation.Memory.SdramRefresh
import DigitalModulation.Memory.SdramProgress
import DigitalModulation.Memory.SdramAnswers
