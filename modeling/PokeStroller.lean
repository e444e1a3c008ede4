import PokeStroller.Lib.Bits
import PokeStroller.Lib.Bytes
import PokeStroller.Lib.Chain
import PokeStroller.Lib.Divider
import PokeStroller.Lib.Exec
import PokeStroller.Lib.Fifo
import PokeStroller.Lib.Generations
import PokeStroller.Lib.HostInt
import PokeStroller.Lib.Limbs
import PokeStroller.Lib.Mailbox
import PokeStroller.Lib.Outcome
import PokeStroller.Lib.Reload
import PokeStroller.Lib.RingBuffer
import PokeStroller.Lib.Rotate
import PokeStroller.Lib.Runs
import PokeStroller.Lib.Slot
import PokeStroller.Lib.Stutter
import PokeStroller.Lib.Trace
import PokeStroller.Lib.Until
import PokeStroller.Lib.Wrapping
import PokeStroller.Lib.Writes
import PokeStroller.Walker.Accel
import PokeStroller.Walker.Asleep
import PokeStroller.Walker.BitOps
import PokeStroller.Walker.Borrow
import PokeStroller.Walker.Branches
import PokeStroller.Walker.Bus
import PokeStroller.Walker.Calls
import PokeStroller.Walker.Compare
import PokeStroller.Walker.Devices
import PokeStroller.Walker.Dispatch
import PokeStroller.Walker.Divide
import PokeStroller.Walker.Execute
import PokeStroller.Walker.Flags
import PokeStroller.Walker.Frames
import PokeStroller.Walker.Handshake
import PokeStroller.Walker.Host
import PokeStroller.Walker.HostMemory
import PokeStroller.Walker.Idle
import PokeStroller.Walker.Instr
import PokeStroller.Walker.Interrupts
import PokeStroller.Walker.Isolation
import PokeStroller.Walker.Keys
import PokeStroller.Walker.Load
import PokeStroller.Walker.Masked
import PokeStroller.Walker.Memory
import PokeStroller.Walker.Mmio
import PokeStroller.Walker.Multiply
import PokeStroller.Walker.Page
import PokeStroller.Walker.Phase
import PokeStroller.Walker.Progress
import PokeStroller.Walker.Push
import PokeStroller.Walker.Queue
import PokeStroller.Walker.Rate
import PokeStroller.Walker.Rebase
import PokeStroller.Walker.Registers
import PokeStroller.Walker.Reload
import PokeStroller.Walker.RoundTrip
import PokeStroller.Walker.Run
import PokeStroller.Walker.Screen
import PokeStroller.Walker.Sequential
import PokeStroller.Walker.Session
import PokeStroller.Walker.Shifts
import PokeStroller.Walker.Ssu
import PokeStroller.Walker.State
import PokeStroller.Walker.Stores
import PokeStroller.Walker.Stripes
import PokeStroller.Walker.Sums
import PokeStroller.Walker.Timers
import PokeStroller.Walker.Transmit
import PokeStroller.Walker.Transparency
import PokeStroller.Walker.Unsupported
import PokeStroller.Link.Closing
import PokeStroller.Link.Model
import PokeStroller.Link.Sessions
import PokeStroller.Link.Stream
import PokeStroller.Adapter.Audio
import PokeStroller.Adapter.Bursts
import PokeStroller.Adapter.Model
import PokeStroller.Adapter.Slices
import PokeStroller.Adapter.Snapshot
import PokeStroller.Audio.Fates
import PokeStroller.Audio.Model
import PokeStroller.Store.Histories
import PokeStroller.Store.Model
import PokeStroller.Store.Recovery
import PokeStroller.Store.Saves
import PokeStroller.Frontend.Buttons
import PokeStroller.Frontend.Messages
import PokeStroller.Frontend.WalkerApp
import PokeStroller.Soc.Accesses
import PokeStroller.Soc.Agreeing
import PokeStroller.Soc.Alu
import PokeStroller.Soc.Bus
import PokeStroller.Soc.BusMoves
import PokeStroller.Soc.Clocks
import PokeStroller.Soc.Comparing
import PokeStroller.Soc.Costs
import PokeStroller.Soc.Cycle
import PokeStroller.Soc.Delivery
import PokeStroller.Soc.Display
import PokeStroller.Soc.Eeprom
import PokeStroller.Soc.Emulator
import PokeStroller.Soc.Frames
import PokeStroller.Soc.Handlers
import PokeStroller.Soc.Host
import PokeStroller.Soc.Infrared
import PokeStroller.Soc.Instructions
import PokeStroller.Soc.Mail
import PokeStroller.Soc.Moves
import PokeStroller.Soc.Operands
import PokeStroller.Soc.Passing
import PokeStroller.Soc.Peripherals
import PokeStroller.Soc.PumpIR
import PokeStroller.Soc.Safety
import PokeStroller.Soc.State
import PokeStroller.Soc.Tables
import PokeStroller.Soc.Timer
import PokeStroller.Soc.Waking
