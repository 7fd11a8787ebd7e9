import Chip8.Keypad.Terminal
import Chip8.Machine.Host
import Chip8.Machine.WellFormed
import Chip8.Main
import Chip8.Play
import Chip8.Proofs.Microcode
import Chip8.Proofs.Transition
import Chip8.Proofs.OpcodeTable
import Chip8.Proofs.WellFormed
import Chip8.Proofs.Faults
import Chip8.Proofs.KeyWait
import Chip8.Proofs.Effects
import Chip8.Proofs.History
import Chip8.Proofs.SessionRun
import Chip8.Proofs.Binary64
import Chip8.Proofs.Clock
import Chip8.Proofs.SessionWaits
import Chip8.Proofs.Calls
import Chip8.Machine.Intervention
import Chip8.Proofs.Alike
import Chip8.Proofs.Erasure
import Chip8.Proofs.Executions
import Chip8.Proofs.Unobserved
import Chip8.Proofs.Footprint
import Chip8.Proofs.TimerTicks
import Chip8.Proofs.Noninterference
import Chip8.Proofs.Dialects
import Chip8.Proofs.Bookkeeping
import Chip8.Proofs.SessionHistory
import Chip8.Session.Actions
import Chip8.Proofs.Restart
import Chip8.Proofs.Overflow
import Chip8.Proofs.Figures
import Chip8.Proofs.Series
import Chip8.Proofs.Headless
import Chip8.Proofs.Markup
import Chip8.Proofs.RegisterPanel
import Chip8.Proofs.StatisticsPanel
import Chip8.Play.Script
import Chip8.Proofs.Dashboard
import Chip8.Proofs.PlayTrace
import Chip8.Proofs.Sprites
import Chip8.Proofs.Drawing
import Chip8.Proofs.Arithmetic
import Chip8.Proofs.PanelLines
import Chip8.Proofs.Transfers
import Chip8.Proofs.DecimalDisplay
import Chip8.Proofs.Overlays
import Chip8.Proofs.HeldKeys
import Chip8.Proofs.TerminalKeys
import Chip8.Proofs.ExactClock
import Chip8.Proofs.Rounding
import Chip8.Proofs.RoundedClock
import Chip8.Memory.Access
import Chip8.Proofs.Accesses
import Chip8.Proofs.StatisticsTable
import Chip8.Proofs.RegisterText
import Chip8.Display.Change
import Chip8.CallStack.Access
import Chip8.Proofs.ScreenImage
import Chip8.Proofs.BoundedStack
