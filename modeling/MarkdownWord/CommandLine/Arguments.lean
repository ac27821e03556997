import MarkdownWord.Number.Decimal
import MarkdownWord.Service
import MarkdownWord.Text.Quoted

/-! # Command-line arguments

The words after the name of the program: one input file, and options that may be shortened, joined
with their values, and given more than once. After two dashes there are no more options. -/

namespace MarkdownWord.CommandLine
open Number Text

def program : String := "md2docx"

/-- The options. -/
inductive Switch where
  | help | output | fontSize
  deriving DecidableEq, Repr, Inhabited

namespace Switch

/-- The spellings of the options, in the order in which they are listed. -/
def spellings : List (String × Switch) :=
  [("-h", help), ("--help", help), ("-o", output), ("--output", output),
    ("--font-size", fontSize)]

def label (s : Switch) : String :=
  "/".intercalate ((spellings.filter (·.2 == s)).map (·.1))

def ofSpelling? (s : List Char) : Option Switch :=
  (spellings.find? (·.1.toList == s)).map (·.2)

end Switch

/-- What is wrong with the arguments. -/
inductive ArgumentError where
  /-- A shortened option can mean several. -/
  | ambiguous (word : String) (spellings : List String)
  | missingValue (switch : Switch)
  /-- An option without a value has one. -/
  | extraValue (switch : Switch) (value : String)
  | notASize (value : String)
  | sizeOutOfRange
  | missingInput
  | unrecognized (words : List String)
  /-- Two dashes as the value of an option; they are taken for a separator, which leaves none. -/
  | dashesAsValue
  deriving DecidableEq, Repr

def sizeRangeText : String :=
  "font size must be between " ++ toString Service.minFontSize ++ " and " ++
    toString Service.maxFontSize

def ArgumentError.message : ArgumentError → String
  | .ambiguous word spellings =>
    "ambiguous option: " ++ word ++ " could match " ++ ", ".intercalate spellings
  | .missingValue s => "argument " ++ s.label ++ ": expected one argument"
  | .extraValue s value =>
    "argument " ++ s.label ++ ": ignored explicit argument " ++ quoted value
  | .notASize value =>
    "argument " ++ Switch.fontSize.label ++ ": invalid font_size_arg value: " ++ quoted value
  | .sizeOutOfRange => "argument " ++ Switch.fontSize.label ++ ": " ++ sizeRangeText
  | .missingInput => "the following arguments are required: input"
  | .unrecognized words => "unrecognized arguments: " ++ " ".intercalate words
  | .dashesAsValue => "not enough values to unpack (expected 1, got 0)"

/-! ## Words -/

/-- A word of the arguments. -/
inductive Argument where
  | plain (s : String)
  /-- An option, whether it is a short one, and the value joined to it. -/
  | switch (s : Switch) (short : Bool) (value : Option (List Char))
  | unknown (s : String)
  /-- The first two dashes by themselves. -/
  | separator
  deriving DecidableEq, Repr

/-- A negative number: digits of any script after a dash, or with a point before the last of
them. A line end after it does not count. -/
def isNegativeNumber (s : List Char) : Bool :=
  let isDigit (c : Char) : Bool := (digitValue? c).isSome
  let s := if s.getLast? = some '\n' then s.dropLast else s
  match s with
  | '-' :: rest =>
    let fraction := rest.dropWhile isDigit
    match fraction with
    | [] => !rest.isEmpty
    | '.' :: digits => !digits.isEmpty && digits.all isDigit
    | _ => false
  | _ => false

def splitValue (s : List Char) : List Char × Option (List Char) :=
  match s.span (· != '=') with
  | (name, '=' :: value) => (name, some value)
  | (name, _) => (name, none)

/-- The options that a word that is not spelled out can mean, with the values joined to it. -/
def candidates (s : List Char) : List (String × Switch × Bool × Option (List Char)) :=
  match s with
  | '-' :: '-' :: _ =>
    let (name, value) := splitValue s
    (Switch.spellings.filter fun o => name.isPrefixOf o.1.toList).map fun (o, w) =>
      (o, w, false, value)
  | _ =>
    (Switch.spellings.filter fun o => o.1.toList == s.take 2).map fun (o, w) =>
      (o, w, true, some (s.drop 2))

def classify (word : String) : Except ArgumentError Argument :=
  let s := word.toList
  match s with
  | '-' :: second :: _ =>
    let short := second != '-'
    match Switch.ofSpelling? s with
    | some w => pure (.switch w short none)
    | none =>
      let (name, value) := splitValue s
      match if value.isSome then Switch.ofSpelling? name else none with
      | some w => pure (.switch w short value)
      | none =>
        match candidates s with
        | [(_, w, short, value)] => pure (.switch w short value)
        | [] =>
          if isNegativeNumber s || s.contains ' ' then pure (.plain word)
          else pure (.unknown word)
        | many => throw (.ambiguous word (many.map (·.1)))
  | _ => pure (.plain word)

/-- What the words are. All words after the separator are plain. -/
def classifyAll : List String → Except ArgumentError (List Argument)
  | [] => pure []
  | "--" :: rest => pure (.separator :: rest.map Argument.plain)
  | word :: rest => do
    let w ← classify word
    return w :: (← classifyAll rest)

/-! ## Reading -/

/-- What the arguments ask for. -/
structure Options where
  input : String
  output : Option String := none
  fontSize : Option Binary64 := none
  deriving DecidableEq, Repr, Inhabited

/-- A request: for help, or for a conversion. -/
inductive Command where
  | help
  | convert (options : Options)
  deriving DecidableEq, Repr

/-- Why a text is no size that can be asked for. -/
inductive SizeError where
  | notANumber
  | outOfRange
  deriving DecidableEq, Repr

def readSize (s : String) : Except SizeError Binary64 :=
  match readBinary64? s with
  | none => throw .notANumber
  | some x =>
    if x.isBetween Service.minFontSize Service.maxFontSize then pure x else throw .outOfRange

/-- What has been read of the arguments. -/
structure Progress where
  input : Option String := none
  output : Option String := none
  fontSize : Option Binary64 := none
  /-- Words that have no place. -/
  extra : List String := []

def Progress.setValue (p : Progress) (w : Switch) (value : String) :
    Except ArgumentError Progress :=
  if value = "--" then throw .dashesAsValue
  else match w with
  | .help => pure p
  | .output => pure { p with output := some value }
  | .fontSize => match readSize value with
    | .ok x => pure { p with fontSize := some x }
    | .error .notANumber => throw (.notASize value)
    | .error .outOfRange => throw .sizeOutOfRange

/-- Whether short options joined to the one for help can be read. `rest` are the words after
them. -/
def checkJoined (rest : List Argument) : List Char → Except ArgumentError Unit
  | [] => pure ()
  | c :: more =>
    match Switch.ofSpelling? ['-', c] with
    | some .help => checkJoined rest more
    | some w =>
      match more, rest with
      | [], .plain _ :: _ => pure ()
      | [], _ => throw (.missingValue w)
      | _, _ => pure ()
    | none => throw (.extraValue .help (String.ofList (c :: more)))

/-- Ends reading: there has to be an input, and no word without a place. -/
def Progress.finish (p : Progress) : Except ArgumentError Command :=
  match p.input with
  | none => throw .missingInput
  | some input =>
    if p.extra.isEmpty then pure (.convert { input, output := p.output, fontSize := p.fontSize })
    else throw (.unrecognized p.extra)

/-- Reads words from left to right. The first plain word is the input; separators next to it are
dropped. -/
def readWords (p : Progress) : List Argument → Except ArgumentError Command
  | [] => p.finish
  | .plain s :: .separator :: rest =>
    match p.input with
    | none => readWords { p with input := some s } rest
    | some _ => readWords { p with extra := p.extra ++ [s, "--"] } rest
  | .plain s :: rest =>
    match p.input with
    | none => readWords { p with input := some s } rest
    | some _ => readWords { p with extra := p.extra ++ [s] } rest
  | .separator :: .plain s :: rest =>
    match p.input with
    | none => readWords { p with input := some s } rest
    | some _ => readWords { p with extra := p.extra ++ ["--", s] } rest
  | .separator :: rest => readWords { p with extra := p.extra ++ ["--"] } rest
  | .unknown s :: rest => readWords { p with extra := p.extra ++ [s] } rest
  | .switch .help _ none :: _ => pure .help
  | .switch .help short (some value) :: rest =>
    if short && !value.isEmpty then do
      checkJoined rest value
      return .help
    else throw (.extraValue .help (String.ofList value))
  | .switch w _ (some value) :: rest => do
    readWords (← p.setValue w (String.ofList value)) rest
  | .switch w _ none :: .plain s :: rest => do readWords (← p.setValue w s) rest
  | .switch w _ none :: _ => throw (.missingValue w)

def read (words : List String) : Except ArgumentError Command := do
  readWords {} (← classifyAll words)

/-! ## Help -/

def usage : String :=
  "usage: " ++ program ++ " [-h] [-o OUTPUT] [--font-size FONT_SIZE] input\n"

def helpText : String :=
  usage ++ "\nConvert Markdown files to Word (DOCX) documents\n\npositional arguments:\n" ++
  "  input                 Input Markdown file\n\noptions:\n" ++
  "  -h, --help            show this help message and exit\n" ++
  "  -o OUTPUT, --output OUTPUT\n" ++
  "                        Output DOCX file (default: <input>.docx)\n" ++
  "  --font-size FONT_SIZE\n" ++
  "                        Base body font size in points (" ++ toString Service.minFontSize ++
  "-" ++ toString Service.maxFontSize ++ ")\n\nExamples:\n" ++
  "  " ++ program ++ " notes.md\n  " ++ program ++ " notes.md --output report.docx\n  " ++
  program ++ " notes.md --font-size 12\n        \n"

end MarkdownWord.CommandLine
