import Chip8.Debugger.Console

/-!
# Debugger terminal

How a terminal shows what a console is told: panels one below the other, each under a heading,
with escape sequences for what stands out.
-/

namespace Chip8.Debugger.Terminal

/-- The sequence that selects a rendition. -/
def rendition (code : String) : String :=
  "\x1b[" ++ code ++ "m"

/-- A text in a rendition of its own. -/
def inRendition (code text : String) : String :=
  rendition code ++ text ++ rendition "0"

/-- The sequence that clears the screen. -/
def clearScreen : String :=
  "\x1b[2J\x1b[H"

/-- The rendition of a listed line. -/
def styleCode : LineStyle → String
  | .current => "1;32"
  | .breakpoint => "1;31"

/-- A listed line as it stands out. -/
def listedText (line : ListedLine) : String :=
  match line.style with
  | some style => inRendition (styleCode style) line.text
  | none => line.text

/-- The register panel with its marks turned into renditions. -/
def unmarked (text : String) : String :=
  (text.replace Registers.changedOpening (rendition "1;33")).replace
    Registers.changedClosing (rendition "0")

/-- A panel under its heading. -/
def panelText (p : Panel) : String :=
  "── " ++ p.title ++ " ──\n" ++ p.text ++ "\n"

/-- All panels. -/
def page (d : Dashboard) : String :=
  let listing := "\n".intercalate (d.listing.map listedText)
  String.join ([
    d.screen,
    { d.registers with text := unmarked d.registers.text },
    { d.listingPanel with text := listing },
    d.memory, d.statistics, d.status].map panelText)

/-- What a terminal writes. -/
def eventText : ConsoleEvent → String
  | .clear => clearScreen
  | .draw (.ok d) => page d
  | .draw (.error e) => e.message ++ "\n"
  | .prompt text => text
  | .print text => text ++ "\n"

/-- What a terminal writes for a part of a conversation. -/
def conversationText (c : Conversation) : String :=
  String.join (c.events.toList.map eventText)

end Chip8.Debugger.Terminal
