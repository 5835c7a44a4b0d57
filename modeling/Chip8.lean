import Chip8.Instruction.Mnemonic
import Chip8.Keypad.Scripted
import Chip8.Keypad.Terminal
import Chip8.Machine.Session
import Chip8.Main
import Chip8.Options.Usage
import Chip8.Pacing
import Chip8.Proofs.Cells
import Chip8.Proofs.Checked.Execution
import Chip8.Proofs.Display.Collision
import Chip8.Proofs.Display.Parity
import Chip8.Proofs.Instruction.Encoding
import Chip8.Proofs.Instruction.Mnemonics
import Chip8.Proofs.Keypad.Events
import Chip8.Proofs.Keypad.History
import Chip8.Proofs.Machine.Account
import Chip8.Proofs.Machine.Aliasing
import Chip8.Proofs.Machine.Calls
import Chip8.Proofs.Machine.ControlFlow
import Chip8.Proofs.Machine.Devices
import Chip8.Proofs.Machine.Footprint
import Chip8.Proofs.Machine.Interleaving
import Chip8.Proofs.Machine.Loading
import Chip8.Proofs.Machine.MemoryHistory
import Chip8.Proofs.Machine.Outcome
import Chip8.Proofs.Machine.Soundness
import Chip8.Proofs.Machine.Sprites
import Chip8.Proofs.Machine.Timers
import Chip8.Proofs.Machine.Transfers
import Chip8.Proofs.Memory.Blocks
import Chip8.Proofs.Options.Reading
import Chip8.Proofs.Options.RoundTrip
import Chip8.Proofs.Pacing.Duties
import Chip8.Proofs.Pacing.Period
import Chip8.Proofs.Pacing.Schedule
import Chip8.Proofs.Processor.Carries
import Chip8.Proofs.Processor.Shifts
import Chip8.Proofs.Screen.Freshness
import Chip8.Proofs.Screen.Painting
import Chip8.Proofs.Text.TraceLine
import Chip8.Screen.Terminal
import Chip8.Sound
