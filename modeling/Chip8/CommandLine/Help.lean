/-!
# Help pages

The texts that a request for help prints.
-/

namespace Chip8.CommandLine

/-- The pages of help. -/
inductive HelpPage
  | program
  | run
  | debug
  | disasm
deriving DecidableEq, Repr

/-- The lines of a help page. -/
def HelpPage.lines : HelpPage → List String
  | program => [
    "usage: chip8-vm [-h] [--log-level \x7bDEBUG,INFO,WARNING,ERROR\x7d]",
    "                \x7brun,debug,disasm\x7d ...",
    "",
    "CHIP-8 Emulator",
    "",
    "positional arguments:",
    "  \x7brun,debug,disasm\x7d",
    "    run                 Run a ROM headless and print the display",
    "    debug               Run with TUI debugger",
    "    disasm              Disassemble a ROM",
    "",
    "options:",
    "  -h, --help            show this help message and exit",
    "  --log-level \x7bDEBUG,INFO,WARNING,ERROR\x7d",
    "                        Logging verbosity (default: WARNING)"]
  | run => [
    "usage: chip8-vm run [-h] [--frames FRAMES] [--steps-per-frame STEPS_PER_FRAME]",
    "                    [--seed SEED] [--keys [KEY ...]]",
    "                    rom",
    "",
    "positional arguments:",
    "  rom                   Path to ROM file",
    "",
    "options:",
    "  -h, --help            show this help message and exit",
    "  --frames FRAMES       Number of 60 Hz frames to run (default: 60)",
    "  --steps-per-frame STEPS_PER_FRAME",
    "                        Instructions per frame (default: 10)",
    "  --seed SEED           Seed for RND",
    "  --keys [KEY ...]      Hex keys held down for the whole run"]
  | debug => [
    "usage: chip8-vm debug [-h] [--seed SEED] rom",
    "",
    "positional arguments:",
    "  rom          Path to ROM file to debug",
    "",
    "options:",
    "  -h, --help   show this help message and exit",
    "  --seed SEED  Seed for RND"]
  | disasm => [
    "usage: chip8-vm disasm [-h] rom",
    "",
    "positional arguments:",
    "  rom         Path to ROM file",
    "",
    "options:",
    "  -h, --help  show this help message and exit"]

end Chip8.CommandLine
