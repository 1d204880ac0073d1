import Chip8.CommandLine.Value
import Chip8.Text.Digit

/-!
# Grammar of a command line

A grammar has options, which are found by their names, and at most one positional argument.
Reading goes in two passes. The first decides for each word whether it is an option, a value or
the separator `--`, after which all words are values. The second goes from left to right: an
option takes the values that follow it as far as it wants them, and the positional argument takes
the first values that no option took. Words that nothing takes are left over.

An option may be written by any beginning of a long name that fits no other option, and may carry
its value after an equals sign. Short flags may be run together in one word.

A separator among the words of an argument is no value of it. It is dropped where the values are
read, so that an option with a separator attached has no value at all.
-/

namespace Chip8.CommandLine

/-- How many values an argument takes. -/
inductive Arity
  | none
  | one
  | optional
  -- As many as follow.
  | many
  -- One and everything behind it, options too.
  | rest
deriving DecidableEq, Repr

/-- An argument of a grammar. -/
structure Parameter where
  -- The names of an option; a positional argument has none.
  names : List String := []
  -- The name under which its values are found.
  label : String
  arity : Arity
  kind : Kind := .text
deriving DecidableEq, Repr

/-- How messages call an argument. -/
def Parameter.title (p : Parameter) : String :=
  if p.names.isEmpty then p.label else String.intercalate "/" p.names

/-- What a command line may hold. -/
structure Grammar where
  program : String
  options : List Parameter
  positional : Parameter
  mayOmit : Bool := false
deriving Repr

/-- Why a command line was refused. -/
inductive UsageError
  -- An option that may mean several.
  | ambiguous (option : String) (names : List String)
  | argument (title : String) (problem : Problem)
  | missing (title : String)
  -- Words that nothing takes.
  | unrecognized (words : List String)
deriving DecidableEq, Repr

/-- The wording of a refusal. -/
def UsageError.message : UsageError → String
  | ambiguous option names =>
    "ambiguous option: " ++ option ++ " could match " ++ String.intercalate ", " names
  | argument title problem => "argument " ++ title ++ ": " ++ problem.message
  | missing title => "the following arguments are required: " ++ title
  | unrecognized words => "unrecognized arguments: " ++ String.intercalate " " words

/-- The request for help. -/
def helpParameter : Parameter :=
  { names := ["-h", "--help"], label := "help", arity := .none }

/-- An option as it was written. -/
structure Written where
  parameter : Parameter
  -- The name that was meant.
  name : String
  -- The text that was attached to the name.
  attached : Option String := Option.none
deriving DecidableEq, Repr

/-- The word behind which all words are values. -/
def separator : String := "--"

/-- What a word is. -/
inductive Token
  -- The separator.
  | dashes
  | value (text : String)
  | option (text : String) (written : Written)
  -- Something like an option that the grammar does not know.
  | unknown (text : String)
deriving DecidableEq, Repr

namespace Token

/-- The word itself. -/
def text : Token → String
  | dashes => separator
  | value text => text
  | option text _ => text
  | unknown text => text

/-- Whether a word is an option, known or not. -/
def isOption : Token → Bool
  | option .. => true
  | unknown _ => true
  | _ => false

/-- Whether a word is a value. -/
def isValue : Token → Bool
  | value _ => true
  | _ => false

end Token

/-- Whether a word looks like a negative number. -/
def looksNegative (text : String) : Bool :=
  let isDigit (c : Char) := (Text.decimalValue? c).isSome
  match text.toList with
  | '-' :: number =>
    let number := if number.getLast? = some '\n' then number.dropLast else number
    let whole := number.takeWhile isDigit
    match number.dropWhile isDigit with
    | [] => !whole.isEmpty
    | '.' :: fraction => !fraction.isEmpty && fraction.all isDigit
    | _ => false
  | _ => false

/-- Whether a text begins with another. -/
def beginsWith (text beginning : String) : Bool :=
  beginning.toList.isPrefixOf text.toList

/-- A word cut at its first equals sign. -/
def cutAtEquals (text : String) : Option (String × String) :=
  let name := text.toList.takeWhile (· ≠ '=')
  match text.toList.dropWhile (· ≠ '=') with
  | '=' :: value => some (String.ofList name, String.ofList value)
  | _ => none

namespace Grammar

/-- All option names with their options, the request for help first. -/
def names (g : Grammar) : List (String × Parameter) :=
  (helpParameter :: g.options).flatMap fun p => p.names.map fun name => (name, p)

/-- The option of a name. -/
def find? (g : Grammar) (name : String) : Option Parameter :=
  (g.names.find? fun entry => entry.1 = name).map (·.2)

/-- The options that a word may mean if it is no name itself. -/
def candidates (g : Grammar) (text : String) : List Written :=
  if beginsWith text "--" then
    let (beginning, attached) := match cutAtEquals text with
      | some (beginning, value) => (beginning, some value)
      | none => (text, none)
    (g.names.filter fun entry => beginsWith entry.1 beginning).map fun (name, parameter) =>
      { parameter, name, attached }
  else
    let short := String.ofList (text.toList.take 2)
    let value := String.ofList (text.toList.drop 2)
    g.names.filterMap fun (name, parameter) =>
      if name = short then some { parameter, name, attached := some value }
      else if beginsWith name text then some { parameter, name }
      else none

/-- What a word is that is neither a value at first sight nor the name of an option. -/
def classifyOther (g : Grammar) (text : String) : Except UsageError Token :=
  match g.candidates text with
  | [written] => .ok (.option text written)
  | [] =>
    if looksNegative text || text.toList.contains ' ' then .ok (.value text)
    else .ok (.unknown text)
  | several => .error (.ambiguous text (several.map (·.name)))

/-- What a word is. -/
def classify (g : Grammar) (text : String) : Except UsageError Token :=
  if !beginsWith text "-" then .ok (.value text)
  else
    match g.find? text with
    | some parameter => .ok (.option text { parameter, name := text })
    | none =>
      if text.length = 1 then .ok (.value text)
      else
        match cutAtEquals text with
        | some (name, value) =>
          match g.find? name with
          | some parameter => .ok (.option text { parameter, name, attached := some value })
          | none => g.classifyOther text
        | none => g.classifyOther text

/-- The first pass. -/
def scan (g : Grammar) : List String → Except UsageError (List Token)
  | [] => .ok []
  | word :: rest =>
    if word = separator then .ok (.dashes :: rest.map .value)
    else do
      let token ← g.classify word
      let tokens ← g.scan rest
      return token :: tokens

/-- What has been read so far. -/
structure Reading where
  -- The arguments in the order in which they were read, with their values.
  found : List (String × List Value) := []
  -- The words behind a positional argument that takes all of them.
  behind : List String := []
  -- The words that nothing took.
  extras : List String := []
  positional : Bool := false
  -- Whether help was asked for; then nothing behind the request counts.
  help : Bool := false
deriving Repr

/-- Reads the values of an argument. The first separator among its words is none of them, unless
the argument takes everything. -/
def readValues (p : Parameter) (texts : List String) : Except UsageError (List Value) :=
  let texts := if p.arity = .rest then texts else texts.erase separator
  (texts.mapM p.kind.read).mapError (.argument p.title)

/-- Adds an argument. -/
def take (r : Reading) (p : Parameter) (texts : List String) : Except UsageError Reading := do
  if p = helpParameter then return { r with help := true }
  let values ← readValues p texts
  return { r with found := r.found ++ [(p.label, values)] }

/-- Adds options without values; behind a request for help nothing counts. -/
def takeFlags (r : Reading) : List Parameter → Except UsageError Reading
  | [] => .ok r
  | p :: rest => do
    let r ← take r p []
    if r.help then return r else takeFlags r rest

/-- Takes apart short flags that are run together, into the flags and the last option. `behind`
stands behind the flag `p` of name `name`; its first letter has to name a further option, which
takes the rest as its value or is itself a flag with the rest behind it. -/
def splitFlags (g : Grammar) (p : Parameter) (name : String) (behind : List Char) :
    Except UsageError (List Parameter × Written) :=
  let ignored := .error (.argument p.title (.extraValue (String.ofList behind)))
  match behind with
  | [] => ignored
  | letter :: rest =>
    if beginsWith name "--" then ignored
    else
      let short := String.ofList ['-', letter]
      match g.find? short, rest with
      | none, _ => ignored
      | some next, [] => .ok ([p], { parameter := next, name := short })
      | some next, rest =>
        if next.arity = .none then do
          let (flags, last) ← g.splitFlags next short rest
          return (p :: flags, last)
        else .ok ([p], { parameter := next, name := short, attached := some (String.ofList rest) })

/-- The flags that a word begins with, and its last option, to which only a value is attached. -/
def split (g : Grammar) (w : Written) : Except UsageError (List Parameter × Written) :=
  match w.attached, w.parameter.arity with
  | some text, .none => g.splitFlags w.parameter w.name text.toList
  | _, _ => .ok ([], w)

/-- The words that an option takes of those behind it. A separator ends them, even though only
values stand behind it. -/
def valuesOf (p : Parameter) (behind : List Token) : Except UsageError (List String) :=
  let values := behind.takeWhile Token.isValue
  match p.arity, values with
  | .none, _ => .ok []
  | .one, [] => .error (.argument p.title .missingValue)
  | .one, value :: _ => .ok [value.text]
  | .optional, values => .ok (values.take 1 |>.map Token.text)
  | _, values => .ok (values.map Token.text)

/-- Reads the options of a word, with the words behind it; gives back the words that they leave.
Whatever is wrong with the form of the options is found before any of them counts. -/
def takeOption (g : Grammar) (r : Reading) (w : Written) (behind : List Token) :
    Except UsageError (Reading × List Token) := do
  let (flags, last) ← g.split w
  let (texts, left) ← match last.attached with
    | some text => pure ([text], behind)
    | none => do
      let texts ← valuesOf last.parameter behind
      pure (texts, behind.drop texts.length)
  let r ← takeFlags r flags
  if r.help then return (r, left)
  return (← take r last.parameter texts, left)

/-- The words of the positional argument at the head of some words, and the words that it leaves:
it takes a separator on either side along. -/
def splitPositional (arity : Arity) (tokens : List Token) :
    Option (List String × List Token) :=
  let (before, tokens) := match tokens with
    | .dashes :: tokens => ([separator], tokens)
    | tokens => ([], tokens)
  match arity, tokens with
  | .rest, .value text :: behind => some (before ++ text :: behind.map Token.text, [])
  | .rest, _ => none
  | _, .value text :: .dashes :: behind => some (before ++ [text, separator], behind)
  | _, .value text :: behind => some (before ++ [text], behind)
  | .optional, tokens => if before.isEmpty then none else some ([], tokens)
  | _, _ => none

/-- Reads the positional argument if it comes next. -/
def takePositional (g : Grammar) (r : Reading) (tokens : List Token) :
    Except UsageError (Option (Reading × List Token)) := do
  if r.positional then return none
  match splitPositional g.positional.arity tokens with
  | none => return none
  | some (texts, left) =>
    let r := { r with positional := true }
    match g.positional.arity, texts with
    | .rest, text :: behind =>
      let r ← take r g.positional [text]
      return some ({ r with behind }, left)
    | _, [] => return some (r, left)
    | _, texts => return some (← take r g.positional texts, left)

/-- The second pass. Every round takes at least one word, so that there are at most as many rounds
as words. -/
def readTokens (g : Grammar) : (rounds : Nat) → Reading → List Token → Except UsageError Reading
  | 0, r, _ => .ok r
  | rounds + 1, r, tokens =>
    match tokens with
    | [] => .ok r
    | .unknown text :: behind =>
      g.readTokens rounds { r with extras := r.extras ++ [text] } behind
    | .option _ written :: behind => do
      let (r, left) ← g.takeOption r written behind
      if r.help then return r else g.readTokens rounds r left
    | tokens => do
      match ← g.takePositional r tokens with
      | some (r, left) => g.readTokens rounds r left
      | none =>
        -- Without a positional argument to go to, the words up to the next option are left over.
        let words := tokens.takeWhile fun token => !token.isOption
        g.readTokens rounds { r with extras := r.extras ++ words.map Token.text }
          (tokens.drop words.length)

/-- Reads a command line. Words that nothing takes are not an error yet. -/
def read (g : Grammar) (words : List String) : Except UsageError Reading := do
  let tokens ← g.scan words
  let r ← g.readTokens (tokens.length + 1) {} tokens
  if r.help || r.positional || g.mayOmit then return r
  else .error (.missing g.positional.title)

end Grammar

namespace Grammar.Reading

/-- The values of an argument where it was read last. -/
def last? (r : Reading) (label : String) : Option (List Value) :=
  (r.found.reverse.find? fun entry => entry.1 = label).map (·.2)

/-- What was said about an argument of one value, by a way to tell the value. -/
def setting {α : Type} (r : Reading) (label : String) (tell : Value → Option α) : Setting α :=
  match r.last? label with
  | none => .absent
  | some values => ((values.findSome? tell).map .value).getD .blank

/-- The text of an argument. -/
def text (r : Reading) (label : String) : Setting String :=
  r.setting label fun
    | .text text => some text
    | _ => none

/-- The number of an argument. -/
def whole (r : Reading) (label : String) : Setting Int :=
  r.setting label fun
    | .whole n => some n
    | _ => none

/-- The keys of an argument. -/
def keys (r : Reading) (label : String) : List Nibble :=
  ((r.last? label).getD []).filterMap fun
    | .key k => some k
    | _ => none

/-- Whether an argument was read. -/
def has (r : Reading) (label : String) : Bool :=
  (r.last? label).isSome

end Grammar.Reading

end Chip8.CommandLine
