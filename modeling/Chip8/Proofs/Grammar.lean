import Chip8.Debugger.Command
import Mathlib.Data.List.Nodup
import Mathlib.Data.List.Pairwise

/-!
# What command lines say

A command line says a command by its words: a verb, in any case, and the arguments that the command
takes. What a line says is described by its words alone, without the order in which they are looked
at, and so is what is wrong with a line that says nothing. The reader of command lines finds a
command exactly where a line says it.

## Key results

- `Command.ofVerb_of_mem`, `Command.ofVerb_of_not_mem`: a verb has one reader
- `Command.Says`, `Command.ofLine_eq_ok_iff`: the command that is read is the one that is said
- `Command.Faulty`, `Command.Faulty.refused`: faulty lines are refused
-/

namespace Chip8.Debugger

/-! ## Verbs -/

/-- The line begins with one of the verbs, in any case, and goes on with the arguments. -/
def Asks (line : String) (verbs arguments : List String) : Prop :=
  ∃ verb, Text.words line = verb :: arguments ∧ Text.lower verb ∈ verbs

namespace Command

/-- The verbs of a command, and how its arguments are read. -/
abbrev Reader := List String × (List String → Except Refusal Command)

/-- The commands in the order in which they are looked up. -/
def readers : List Reader := [
  (["s", "step"], fun _ => .ok step), (["c", "continue"], fun _ => .ok resume),
  (["r", "run"], ofRunWords), (["t", "tick"], ofTickWords), (["k", "key"], ofKeyWords),
  (["b", "breakpoint"], ofBreakpointWords), (["g", "goto"], ofViewWords),
  (["h", "help"], fun _ => .ok help), (["q", "quit"], fun _ => .ok quit)]

/-- All verbs. -/
def verbs : List String :=
  readers.flatMap (·.1)

/-- No verb belongs to two commands. -/
private theorem nodup_verbs : verbs.Nodup := by
  decide +kernel

/-- A verb is looked up among those of each command in turn. -/
private theorem ofVerb_eq_find? (verb : String) (arguments : List String) :
    ofVerb verb arguments =
      match readers.find? fun reader => verb ∈ reader.1 with
      | some reader => reader.2 arguments
      | none => .error (.unknownVerb verb) := by
  simp only [ofVerb, readers, List.find?_cons, List.find?_nil, List.mem_cons, List.not_mem_nil,
    or_false]
  -- The conditions of the chain are those of the search, reader by reader.
  split_ifs <;> simp only [*, decide_true, decide_false]

/-- Every verb has one reader. -/
theorem ofVerb_of_mem {verb : String} {reader : Reader} (hreader : reader ∈ readers)
    (hverb : verb ∈ reader.1) (arguments : List String) :
    ofVerb verb arguments = reader.2 arguments := by
  rw [ofVerb_eq_find?]
  cases hfind : readers.find? fun reader => verb ∈ reader.1 with
  | none => exact absurd (decide_eq_true hverb) (List.find?_eq_none.1 hfind reader hreader)
  | some found =>
    have hfound : verb ∈ found.1 := by
      simpa only [decide_eq_true_eq] using List.find?_some hfind
    -- `List.Pairwise.forall` wants the relation symmetric; disjointness of verbs is.
    have hsymm : Std.Symm (Function.onFun List.Disjoint (Prod.fst : Reader → List String)) :=
      ⟨fun _ _ h => List.disjoint_symm h⟩
    have hsame : reader = found := by
      -- Two readers with a verb in common would have no duplicate-free list of verbs.
      by_contra hne
      exact (List.nodup_flatMap.1 nodup_verbs).2.forall hreader
        (List.mem_of_find?_eq_some hfind) hne hverb hfound
    rw [hsame]

/-- A word that is no verb is refused with the word. -/
theorem ofVerb_of_not_mem {verb : String} (hverb : verb ∉ verbs) (arguments : List String) :
    ofVerb verb arguments = .error (.unknownVerb verb) := by
  rw [ofVerb_eq_find?]
  cases hfind : readers.find? fun reader => verb ∈ reader.1 with
  | none => rfl
  | some found =>
    have hfound : verb ∈ found.1 := by
      simpa only [decide_eq_true_eq] using List.find?_some hfind
    exact absurd (List.mem_flatMap.2 ⟨found, List.mem_of_find?_eq_some hfind, hfound⟩) hverb

/-- The words behind a speed set the limit. -/
inductive LimitWords : List String → Option Int → Prop
  | none : LimitWords [] none
  | some {text : String} {limit : Int} (rest : List String)
    (numeral : Text.integer? .ten text = some limit) (positive : 1 ≤ limit) :
    LimitWords (text :: rest) (some limit)

/-- The line says the command. -/
inductive Says (line : String) : Command → Prop
  | step {arguments : List String} (words : Asks line ["s", "step"] arguments) : Says line step
  | resume {arguments : List String} (words : Asks line ["c", "continue"] arguments) :
    Says line resume
  | run {speed : String} {rest : List String} {hz : Int} {limit : Option Int}
    (words : Asks line ["r", "run"] (speed :: rest)) (numeral : Text.integer? .ten speed = some hz)
    (positive : 1 ≤ hz) (limited : LimitWords rest limit) : Says line (run hz limit)
  | tickOnce (words : Asks line ["t", "tick"] []) : Says line (tick 1)
  | tick {text : String} {rest : List String} {count : Int}
    (words : Asks line ["t", "tick"] (text :: rest))
    (numeral : Text.integer? .ten text = some count) : Says line (tick count)
  | key {text : String} {rest : List String} {k : Nibble}
    (words : Asks line ["k", "key"] (text :: rest))
    (numeral : Text.integer? .sixteen text = some (k.val : Int)) : Says line (key k)
  | breakpoint {text : String} {rest : List String} {n : Int}
    (words : Asks line ["b", "breakpoint"] (text :: rest))
    (numeral : Text.integer? .sixteen text = some n) : Says line (breakpoint (Address.ofInt n))
  | viewIndex {text : String} {rest : List String} (words : Asks line ["g", "goto"] (text :: rest))
    (index : Text.lower text = "i") : Says line (view none)
  | view {text : String} {rest : List String} {n : Int}
    (words : Asks line ["g", "goto"] (text :: rest)) (notIndex : Text.lower text ≠ "i")
    (numeral : Text.integer? .sixteen text = some n) :
    Says line (view (some (Address.ofInt n)))
  | help {arguments : List String} (words : Asks line ["h", "help"] arguments) : Says line help
  | empty (words : Text.words line = []) : Says line help
  | quit {arguments : List String} (words : Asks line ["q", "quit"] arguments) : Says line quit

/-- The line is no command: its verb is unknown, or an argument is missing or wrong. -/
inductive Faulty (line : String) : Prop
  | unknown {verb : String} {arguments : List String} (words : Text.words line = verb :: arguments)
    (verb : Text.lower verb ∉ verbs)
  | missing (words : Asks line ["r", "run", "k", "key", "b", "breakpoint", "g", "goto"] [])
  | speed {text : String} {rest : List String} (words : Asks line ["r", "run"] (text :: rest))
    (wrong : ∀ hz, Text.integer? .ten text = some hz → hz < 1)
  | limit {speed text : String} {rest : List String}
    (words : Asks line ["r", "run"] (speed :: text :: rest))
    (wrong : ∀ limit, Text.integer? .ten text = some limit → limit < 1)
  | count {text : String} {rest : List String} (words : Asks line ["t", "tick"] (text :: rest))
    (wrong : Text.integer? .ten text = none)
  | key {text : String} {rest : List String} (words : Asks line ["k", "key"] (text :: rest))
    (wrong : ∀ k, Text.integer? .sixteen text = some k → k < 0 ∨ 15 < k)
  | breakpoint {text : String} {rest : List String}
    (words : Asks line ["b", "breakpoint"] (text :: rest))
    (wrong : Text.integer? .sixteen text = none)
  | view {text : String} {rest : List String} (words : Asks line ["g", "goto"] (text :: rest))
    (notIndex : Text.lower text ≠ "i") (wrong : Text.integer? .sixteen text = none)

end Command

variable {line : String} {arguments : List String} {command : Command}

namespace Asks

open Command

/-- A line that asks for a command is read as the reader of that command reads its arguments. -/
theorem ofLine {reader : Reader} (h : Asks line reader.1 arguments) (hreader : reader ∈ readers) :
    Command.ofLine line = reader.2 arguments := by
  obtain ⟨verb, hwords, hverb⟩ := h
  rw [Command.ofLine, hwords]
  exact ofVerb_of_mem hreader hverb arguments

/-- A step takes no arguments; those that stand there are not looked at. -/
theorem step (h : Asks line ["s", "step"] arguments) : Command.ofLine line = .ok .step :=
  h.ofLine (List.mem_of_getElem? (i := 0) rfl)

/-- Going on takes no arguments either. -/
theorem resume (h : Asks line ["c", "continue"] arguments) : Command.ofLine line = .ok .resume :=
  h.ofLine (List.mem_of_getElem? (i := 1) rfl)

/-- A run reads a speed and a limit. -/
theorem run (h : Asks line ["r", "run"] arguments) : Command.ofLine line = ofRunWords arguments :=
  h.ofLine (List.mem_of_getElem? (i := 2) rfl)

/-- A tick reads a count. -/
theorem tick (h : Asks line ["t", "tick"] arguments) :
    Command.ofLine line = ofTickWords arguments :=
  h.ofLine (List.mem_of_getElem? (i := 3) rfl)

/-- A key reads a hexadecimal numeral. -/
theorem key (h : Asks line ["k", "key"] arguments) : Command.ofLine line = ofKeyWords arguments :=
  h.ofLine (List.mem_of_getElem? (i := 4) rfl)

/-- A breakpoint reads an address. -/
theorem breakpoint (h : Asks line ["b", "breakpoint"] arguments) :
    Command.ofLine line = ofBreakpointWords arguments :=
  h.ofLine (List.mem_of_getElem? (i := 5) rfl)

/-- A view reads an address or the index register. -/
theorem view (h : Asks line ["g", "goto"] arguments) :
    Command.ofLine line = ofViewWords arguments :=
  h.ofLine (List.mem_of_getElem? (i := 6) rfl)

/-- Help takes no arguments. -/
theorem help (h : Asks line ["h", "help"] arguments) : Command.ofLine line = .ok .help :=
  h.ofLine (List.mem_of_getElem? (i := 7) rfl)

/-- Leaving takes no arguments. -/
theorem quit (h : Asks line ["q", "quit"] arguments) : Command.ofLine line = .ok .quit :=
  h.ofLine (List.mem_of_getElem? (i := 8) rfl)

end Asks

namespace Command

/-! ## Reading is what it says -/

/-- A limit that is written right is read. -/
theorem LimitWords.runLimit {words : List String} {limit : Option Int}
    (h : LimitWords words limit) (hz : Int) : runLimit hz words = .ok (run hz limit) := by
  cases h with
  | none => rfl
  | some rest numeral positive =>
    rw [Command.runLimit, numeral]
    exact if_neg (by omega)

/-- What a line says is what is read. -/
theorem Says.ofLine (h : Says line command) : Command.ofLine line = .ok command := by
  -- One case for each way to say something; the reader is opened at the words of that case.
  cases h with
  | step words => exact words.step
  | resume words => exact words.resume
  | run words numeral positive limited =>
    rw [words.run, ofRunWords, numeral]
    dsimp only
    rw [if_neg (by omega)]
    exact limited.runLimit _
  | tickOnce words => exact words.tick
  | tick words numeral => rw [words.tick, ofTickWords, numeral]
  | key words numeral => rw [words.key, ofKeyWords, keyOfNumeral?_eq_some_iff.2 numeral]
  | breakpoint words numeral =>
    rw [words.breakpoint, ofBreakpointWords, address?, numeral]
    rfl
  | viewIndex words index => rw [words.view, ofViewWords, if_pos index]
  | view words notIndex numeral =>
    rw [words.view, ofViewWords, if_neg notIndex, address?, numeral]
    rfl
  | help words => exact words.help
  | empty words => rw [Command.ofLine, words]
  | quit words => exact words.quit

/-- A limit that is read was written right. -/
private theorem limitWords_of_runLimit {hz : Int} {words : List String}
    (h : runLimit hz words = .ok command) :
    ∃ limit, LimitWords words limit ∧ command = run hz limit := by
  cases words with
  | nil =>
    cases h
    exact ⟨none, .none, rfl⟩
  | cons text rest =>
    rw [runLimit] at h
    cases numeral : Text.integer? .ten text with
    | none =>
      rw [numeral] at h
      cases h
    | some limit =>
      rw [numeral] at h
      dsimp only at h
      split at h
      · cases h
      · cases h
        exact ⟨some limit, .some rest numeral (by omega), rfl⟩

/-- A run that is read was said. -/
private theorem said_of_ofRunWords (words : Asks line ["r", "run"] arguments)
    (h : ofRunWords arguments = .ok command) : Says line command := by
  cases arguments with
  | nil => cases h
  | cons speed rest =>
    rw [ofRunWords] at h
    cases numeral : Text.integer? .ten speed with
    | none =>
      rw [numeral] at h
      cases h
    | some hz =>
      rw [numeral] at h
      dsimp only at h
      -- What the test for a low speed lets through is positive.
      split at h
      · cases h
      · obtain ⟨limit, hlimit, rfl⟩ := limitWords_of_runLimit h
        exact .run words numeral (by omega) hlimit

/-- A tick that is read was said, with or without its count. -/
private theorem said_of_ofTickWords (words : Asks line ["t", "tick"] arguments)
    (h : ofTickWords arguments = .ok command) : Says line command := by
  cases arguments with
  | nil =>
    cases h
    exact .tickOnce words
  | cons text rest =>
    rw [ofTickWords] at h
    cases numeral : Text.integer? .ten text with
    | none =>
      rw [numeral] at h
      cases h
    | some count =>
      rw [numeral] at h
      cases h
      exact .tick words numeral

/-- A key that is read was said. -/
private theorem said_of_ofKeyWords (words : Asks line ["k", "key"] arguments)
    (h : ofKeyWords arguments = .ok command) : Says line command := by
  cases arguments with
  | nil => cases h
  | cons text rest =>
    rw [ofKeyWords] at h
    cases hkey : keyOfNumeral? text with
    | none =>
      rw [hkey] at h
      cases h
    | some key =>
      rw [hkey] at h
      cases h
      exact .key words (keyOfNumeral?_eq_some_iff.1 hkey)

/-- A breakpoint that is read was said. -/
private theorem said_of_ofBreakpointWords (words : Asks line ["b", "breakpoint"] arguments)
    (h : ofBreakpointWords arguments = .ok command) : Says line command := by
  cases arguments with
  | nil => cases h
  | cons text rest =>
    rw [ofBreakpointWords, address?] at h
    cases numeral : Text.integer? .sixteen text with
    | none =>
      rw [numeral] at h
      cases h
    | some n =>
      rw [numeral] at h
      cases h
      exact .breakpoint words numeral

/-- A view that is read was said. -/
private theorem said_of_ofViewWords (words : Asks line ["g", "goto"] arguments)
    (h : ofViewWords arguments = .ok command) : Says line command := by
  cases arguments with
  | nil => cases h
  | cons text rest =>
    rw [ofViewWords, address?] at h
    -- The index register is looked for before the text is taken for a number.
    by_cases index : Text.lower text = "i"
    · rw [if_pos index] at h
      cases h
      exact .viewIndex words index
    · rw [if_neg index] at h
      cases numeral : Text.integer? .sixteen text with
      | none =>
        rw [numeral] at h
        cases h
      | some n =>
        rw [numeral] at h
        cases h
        exact .view words index numeral

/-- Runs have a speed and a limit. -/
theorem Says.positive {hz : Int} {limit : Option Int} (h : Says line (.run hz limit)) :
    1 ≤ hz ∧ ∀ n ∈ limit, 1 ≤ n := by
  cases h with
  | run words numeral positive limited =>
    refine ⟨positive, fun n hn => ?_⟩
    cases limited with
    | none => cases hn
    | some rest numeral positive =>
      cases hn
      exact positive

/-- What is read is what the line says. -/
theorem said_of_ofLine (h : ofLine line = .ok command) : Says line command := by
  -- A line without words asks for help; any other has a verb, known or unknown.
  cases hwords : Text.words line with
  | nil =>
    rw [ofLine, hwords] at h
    cases h
    exact .empty hwords
  | cons verb arguments =>
    by_cases hverb : Text.lower verb ∈ verbs
    · obtain ⟨reader, hreader, hmem⟩ := List.mem_flatMap.1 hverb
      have hasks : Asks line reader.1 arguments := ⟨verb, hwords, hmem⟩
      rw [hasks.ofLine hreader] at h
      simp only [readers, List.mem_cons, List.not_mem_nil, or_false] at hreader
      -- One of the nine readers read the arguments: each has its lemma, or takes none.
      obtain rfl | rfl | rfl | rfl | rfl | rfl | rfl | rfl | rfl := hreader
      · cases h
        exact .step hasks
      · cases h
        exact .resume hasks
      · exact said_of_ofRunWords hasks h
      · exact said_of_ofTickWords hasks h
      · exact said_of_ofKeyWords hasks h
      · exact said_of_ofBreakpointWords hasks h
      · exact said_of_ofViewWords hasks h
      · cases h
        exact .help hasks
      · cases h
        exact .quit hasks
    · rw [ofLine, hwords] at h
      dsimp only at h
      rw [ofVerb_of_not_mem hverb] at h
      cases h

/-- Reading a line finds the command that the line says, and only that one. -/
theorem ofLine_eq_ok_iff : ofLine line = .ok command ↔ Says line command :=
  ⟨said_of_ofLine, Says.ofLine⟩

/-- A faulty line is refused. -/
theorem Faulty.refused (h : Faulty line) : ∃ refusal, ofLine line = .error refusal := by
  -- One case for each fault; what was right before it is read first.
  cases h with
  | unknown words verb =>
    rw [ofLine, words]
    exact ⟨_, ofVerb_of_not_mem verb _⟩
  | missing words =>
    obtain ⟨verb, hwords, hverb⟩ := words
    -- The verb belongs to one of the four commands that need an argument.
    have hasks {verbs : List String} (h : Text.lower verb ∈ verbs) : Asks line verbs [] :=
      ⟨verb, hwords, h⟩
    have hgroups : Text.lower verb ∈ ["r", "run"] ∨ Text.lower verb ∈ ["k", "key"] ∨
        Text.lower verb ∈ ["b", "breakpoint"] ∨ Text.lower verb ∈ ["g", "goto"] := by
      simpa only [List.mem_cons, List.not_mem_nil, or_false, or_assoc] using hverb
    obtain h | h | h | h := hgroups
    · exact ⟨_, (hasks h).run⟩
    · exact ⟨_, (hasks h).key⟩
    · exact ⟨_, (hasks h).breakpoint⟩
    · exact ⟨_, (hasks h).view⟩
  | @speed text rest words wrong =>
    rw [words.run, ofRunWords]
    cases numeral : Text.integer? .ten text with
    | none => exact ⟨_, rfl⟩
    | some hz => exact ⟨.lowSpeed, if_pos (wrong hz numeral)⟩
  | @limit speed text rest words wrong =>
    rw [words.run, ofRunWords]
    cases Text.integer? .ten speed with
    | none => exact ⟨_, rfl⟩
    | some hz =>
      dsimp only
      split
      · exact ⟨_, rfl⟩
      · rw [runLimit]
        cases numeral : Text.integer? .ten text with
        | none => exact ⟨_, rfl⟩
        | some limit => exact ⟨.lowLimit, if_pos (wrong limit numeral)⟩
  | count words wrong =>
    rw [words.tick, ofTickWords, wrong]
    exact ⟨_, rfl⟩
  | @key text rest words wrong =>
    rw [words.key, ofKeyWords]
    cases hkey : keyOfNumeral? text with
    | none => exact ⟨_, rfl⟩
    | some key =>
      -- A key between 0 and F is not among the wrong ones.
      have := wrong key.val (keyOfNumeral?_eq_some_iff.1 hkey)
      omega
  | breakpoint words wrong =>
    rw [words.breakpoint, ofBreakpointWords, address?, wrong]
    exact ⟨_, rfl⟩
  | view words notIndex wrong =>
    rw [words.view, ofViewWords, if_neg notIndex, address?, wrong]
    exact ⟨_, rfl⟩

end Command

end Chip8.Debugger
