import Chip8.CommandLine.Program
import Chip8.Debugger.Terminal

/-!
# The program on a terminal

Reads the ROM that a command line names, lets `CommandLine.transcript` say what to print, and
prints it. The debugger answers line by line.
-/

namespace Chip8.CommandLine

-- Powers are those of natural numbers here, and not those of a monoid.
attribute [local instance (1100)] instPowNat

/-- The content of the file at a path. -/
def readFile (path : String) : IO (Except Rom.FileError (List UInt8)) := do
  let shown := Rom.Path.plain path
  try
    let bytes ← IO.FS.readBinFile shown
    return .ok bytes.toList
  catch
    | .noFileOrDirectory .. => return .error (.notFound shown)
    | .inappropriateType none .. => return .error (.isDirectory shown)
    | .inappropriateType (some _) .. => return .error (.notDirectory shown)
    | .invalidArgument _ 36 _ => return .error (.nameTooLong shown)
    | .permissionDenied _ _ reason => return .error (.other shown reason)
    | problem => return .error (.other shown (toString problem))

/-- What surrounds a command that reads the ROM at a path, if it reads one. -/
def terminalSurroundings (rom : Option String) : IO Surroundings := do
  let content ← match rom with
    | some path => readFile path
    | none => pure (.error (.notFound ""))
  let entropy ← IO.rand 0 (2 ^ (62 : Nat))
  return {
    files := fun _ => content
    random := fun seed => .ofSeed (seed.getD entropy)
    horizon := 600 }

/-- Prints a transcript and gives its exit code. -/
def printTranscript (t : Transcript) : IO UInt32 := do
  for line in t.output do IO.println line
  for line in t.errors do IO.eprintln line
  match t.ending with
  | .exit code => return UInt32.ofNat code
  | .unhandled failure =>
    IO.eprintln failure.message
    return 1

/-- Prints what a part of a conversation told the console. -/
def printConversation (level : Level) (c : Debugger.Conversation) : IO Unit := do
  for line in Note.lines level c.notes do IO.eprintln line
  IO.print (Debugger.Terminal.conversationText c)
  (← IO.getStdout).flush

/-- Asks for lines and carries them out until the conversation ends. -/
partial def converse (level : Level) (horizon : Nat) (s : Debugger.Session Twister) :
    IO Unit := do
  let asked : Debugger.Conversation := {}
  printConversation level (asked.tell (.prompt Debugger.Conversation.promptText))
  let line ← (← IO.getStdin).getLine
  let given := if line.isEmpty then none else some line
  match ({} : Debugger.Conversation).afterPrompt horizon s given with
  | (some s, c) =>
    printConversation level c
    converse level horizon s
  | (none, c) => printConversation level c

/-- Debugs a ROM on the terminal. -/
def debugOnTerminal (w : Surroundings) (level : Level) (rom : String) (seed : Option Int) :
    IO UInt32 := do
  match Rom.load w.files rom (.fresh (w.random seed)) with
  | .error problem => printTranscript (.ofRomError problem)
  | .ok (m, _, notes) =>
    let s := Debugger.Conversation.opening m
    printConversation level (({ notes } : Debugger.Conversation).drawSession s)
    converse level w.horizon s
    return 0

end Chip8.CommandLine

open Chip8.CommandLine in
/-- Runs the program. -/
def main (words : List String) : IO UInt32 := do
  match Invocation.ofWords words with
  | .ok (.perform (some level) (some command)) =>
    let w ← terminalSurroundings (some command.rom)
    match command with
    | .debug rom .absent => debugOnTerminal w level rom none
    | .debug rom (.value seed) => debugOnTerminal w level rom (some seed)
    | command => printTranscript (perform w level command)
  | _ => printTranscript (transcript (← terminalSurroundings none) words)
