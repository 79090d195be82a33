import Chip8.CommandLine.Arguments
import Chip8.CommandLine.Directory
import Chip8.CommandLine.Screenshot
import Chip8.CommandLine.Session
import Chip8.CommandLine.Trace
import Chip8.Config
import Chip8.Display.Basic
import Chip8.Display.Image
import Chip8.Display.Placement
import Chip8.Display.Png
import Chip8.Emulator
import Chip8.Fault
import Chip8.Fingerprint
import Chip8.Font
import Chip8.Instruction.Basic
import Chip8.Instruction.Code
import Chip8.Instruction.Text
import Chip8.Keypad.Basic
import Chip8.Keypad.Keymap
import Chip8.Keypad.Update
import Chip8.Log
import Chip8.Machine.Basic
import Chip8.Machine.CallStack
import Chip8.Machine.Exec
import Chip8.Machine.Registers
import Chip8.Machine.Snapshot
import Chip8.Machine.Step
import Chip8.Main
import Chip8.Memory
import Chip8.Number.Basic
import Chip8.Number.Numeral
import Chip8.Number.Rounding
import Chip8.Number.Text
import Chip8.Outcome
import Chip8.Proofs.CommandLine.Keys
import Chip8.Proofs.CommandLine.Screenshot
import Chip8.Proofs.CommandLine.Trace
import Chip8.Proofs.Config
import Chip8.Proofs.Display.Counting
import Chip8.Proofs.Display.History
import Chip8.Proofs.Display.Image
import Chip8.Proofs.Display.Overlay
import Chip8.Proofs.Display.Sprite
import Chip8.Proofs.Display.Toggles
import Chip8.Proofs.Emulator.Clock
import Chip8.Proofs.Emulator.Loading
import Chip8.Proofs.Emulator.Restart
import Chip8.Proofs.Emulator.Run
import Chip8.Proofs.Emulator.Stretch
import Chip8.Proofs.Fault
import Chip8.Proofs.Fingerprint
import Chip8.Proofs.Instruction.Code
import Chip8.Proofs.Instruction.Text
import Chip8.Proofs.Keypad.Events
import Chip8.Proofs.Keypad.Update
import Chip8.Proofs.Machine.Arithmetic
import Chip8.Proofs.Machine.Calls
import Chip8.Proofs.Machine.Drawing
import Chip8.Proofs.Machine.Execution
import Chip8.Proofs.Machine.Faults
import Chip8.Proofs.Machine.Forecast
import Chip8.Proofs.Machine.Live
import Chip8.Proofs.Machine.RoundTrip
import Chip8.Proofs.Machine.Rows
import Chip8.Proofs.Machine.Run
import Chip8.Proofs.Machine.Start
import Chip8.Proofs.Machine.Step
import Chip8.Proofs.Machine.Table
import Chip8.Proofs.Machine.Timers
import Chip8.Proofs.Machine.TraceLine
import Chip8.Proofs.Machine.Tracing
import Chip8.Proofs.Machine.View
import Chip8.Proofs.Machine.Waiting
import Chip8.Proofs.Memory
import Chip8.Proofs.Memory.History
import Chip8.Proofs.Number.Numeral
import Chip8.Proofs.Number.Setting
import Chip8.Proofs.Outcome
import Chip8.Proofs.Random
import Chip8.Proofs.Rom.Chunked
import Chip8.Proofs.Rom.Reader
import Chip8.Proofs.Scheduler.Accounting
import Chip8.Proofs.Scheduler.Frame
import Chip8.Proofs.Scheduler.Logging
import Chip8.Proofs.Scheduler.Modes
import Chip8.Proofs.Scheduler.Observation
import Chip8.Proofs.Scheduler.Run
import Chip8.Proofs.Storage
import Chip8.Random
import Chip8.Rom.Chunked
import Chip8.Rom.Limit
import Chip8.Rom.Reader
import Chip8.Scheduler
import Chip8.Storage
import Chip8.Text.Basic
import Chip8.Text.Blank
