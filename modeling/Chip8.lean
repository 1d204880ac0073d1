import Chip8.Benchmark.Program
import Chip8.CommandLine.Help
import Chip8.CommandLine.Invocation
import Chip8.CommandLine.Program
import Chip8.Debugger.Terminal
import Chip8.Machine.Changes
import Chip8.Main
import Chip8.Panel.HostStatistics
import Chip8.Proofs.Assembly
import Chip8.Proofs.Calls
import Chip8.Proofs.Channels
import Chip8.Proofs.Checked
import Chip8.Proofs.Drivers
import Chip8.Proofs.Halting
import Chip8.Proofs.KeyWait
import Chip8.Proofs.Reload
import Chip8.Proofs.RunReport
import Chip8.Proofs.Resume
import Chip8.Proofs.TimedStops
import Chip8.Proofs.Footprint
import Chip8.Proofs.Nesting
import Chip8.Proofs.Numerals
import Chip8.Proofs.TimerLaw
import Chip8.Proofs.Listing
import Chip8.Proofs.Rendering
import Chip8.Proofs.Accounting
import Chip8.Proofs.Reset
import Chip8.Proofs.Sprites
import Chip8.Proofs.Fetch
import Chip8.Proofs.Commands
import Chip8.Proofs.Answers
import Chip8.Proofs.Schedule
import Chip8.Proofs.Arithmetic
import Chip8.Proofs.Conservation
import Chip8.Proofs.Transfers
import Chip8.Proofs.Redraw
import Chip8.Proofs.BulkLoads
import Chip8.Proofs.Dumps
import Chip8.Proofs.Toggles
import Chip8.Proofs.KeyNames
import Chip8.Proofs.Highlights
import Chip8.Proofs.StatisticsPanel
