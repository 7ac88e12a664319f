import HexConsole.Amount
import HexConsole.Bits
import HexConsole.Canvas
import HexConsole.Cells
import HexConsole.CommandLine.Refusal
import HexConsole.CommandLine.Settings
import HexConsole.CommandLine.Switch
import HexConsole.CommandLine.Word
import HexConsole.Console
import HexConsole.Datum
import HexConsole.Display
import HexConsole.Fault
import HexConsole.Fault.Description
import HexConsole.Frame
import HexConsole.Host
import HexConsole.Keypad
import HexConsole.Log
import HexConsole.Machine
import HexConsole.Machine.Execution
import HexConsole.Machine.Instruction
import HexConsole.Machine.Report
import HexConsole.Machine.Step
import HexConsole.Main
import HexConsole.Picture
import HexConsole.Program
import HexConsole.Proofs.Accounting
import HexConsole.Proofs.Alike
import HexConsole.Proofs.Block
import HexConsole.Proofs.Calls
import HexConsole.Proofs.Canvas
import HexConsole.Proofs.Consistent
import HexConsole.Proofs.Cycle
import HexConsole.Proofs.Decoding
import HexConsole.Proofs.Drawing
import HexConsole.Proofs.Draws
import HexConsole.Proofs.Effect
import HexConsole.Proofs.Encoding
import HexConsole.Proofs.Fetching
import HexConsole.Proofs.Fields
import HexConsole.Proofs.Flags
import HexConsole.Proofs.Footprint
import HexConsole.Proofs.Halting
import HexConsole.Proofs.Headless
import HexConsole.Proofs.Hushing
import HexConsole.Proofs.Integers
import HexConsole.Proofs.Keyboard
import HexConsole.Proofs.Latch
import HexConsole.Proofs.Lines
import HexConsole.Proofs.Loading
import HexConsole.Proofs.Loose
import HexConsole.Proofs.Messages
import HexConsole.Proofs.Mirror
import HexConsole.Proofs.Nominal
import HexConsole.Proofs.Numerals
import HexConsole.Proofs.Observing
import HexConsole.Proofs.Octet
import HexConsole.Proofs.Overlay
import HexConsole.Proofs.Painting
import HexConsole.Proofs.Parity
import HexConsole.Proofs.Phrases
import HexConsole.Proofs.Pressing
import HexConsole.Proofs.Quiet
import HexConsole.Proofs.Reachable
import HexConsole.Proofs.Reading
import HexConsole.Proofs.Redraw
import HexConsole.Proofs.Repainting
import HexConsole.Proofs.Reporting
import HexConsole.Proofs.Resetting
import HexConsole.Proofs.Runs
import HexConsole.Proofs.Safety
import HexConsole.Proofs.Saving
import HexConsole.Proofs.Spans
import HexConsole.Proofs.Sprite
import HexConsole.Proofs.Stencil
import HexConsole.Proofs.StraightLine
import HexConsole.Proofs.Timers
import HexConsole.Proofs.Toggling
import HexConsole.Proofs.Touches
import HexConsole.Proofs.Trace
import HexConsole.Proofs.Turns
import HexConsole.Proofs.Upkeep
import HexConsole.Proofs.Waiting
import HexConsole.Proofs.Words
import HexConsole.Proofs.Writing
import HexConsole.Random.Source
import HexConsole.Random.Twister
import HexConsole.Storage
import HexConsole.Text.Blank
import HexConsole.Text.Decimal
import HexConsole.Text.DecimalDigit
import HexConsole.Text.Hexadecimal
import HexConsole.Text.Integer
import HexConsole.Text.Printable
import HexConsole.Text.Quoted
import HexConsole.Window
