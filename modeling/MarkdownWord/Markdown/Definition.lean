import MarkdownWord.Markdown.Start
import MarkdownWord.Markdown.Destination

/-! # Link reference definitions

A definition gives a label its destination and title. Links name the label; the first definition
of a label counts, and labels are compared without regard to case and to the length of blanks. -/

namespace MarkdownWord.Markdown
open Text

/-- A label with its destination and title. An empty title is none. -/
structure Definition where
  label : List Char
  destination : List Char
  title : List Char
  deriving DecidableEq, Repr, Inhabited

def labelKey (label : List Char) : List Char := foldCase (squeeze (trimBlank label))

def findDefinition? (definitions : List Definition) (label : List Char) : Option Definition :=
  let key := labelKey label
  definitions.find? (·.label == key)

def lineEnds (s : List Char) : Nat := s.count '\n'

/-- A label up to its closing bracket, and the rest. A bracket inside needs a backslash. -/
def labelBody? : List Char → Option (List Char × List Char)
  | [] => none
  | ']' :: rest => some ([], rest)
  | '[' :: _ => none
  | '\\' :: c :: rest => (labelBody? rest).map fun (t, r) => ('\\' :: c :: t, r)
  | c :: rest => (labelBody? rest).map fun (t, r) => (c :: t, r)

/-- A line at the front of a text, with its line end, and the rest. -/
def takeLine : List Char → List Char × List Char
  | [] => ([], [])
  | c :: rest =>
    if c = '\n' then (['\n'], rest)
    else
      let (line, rest) := takeLine rest
      (c :: line, rest)

def isGap (c : Char) : Bool := isSpace c || c = '\n'

/-- A text whose line has nothing but blanks left. -/
def restIsBlank (s : List Char) : Bool :=
  match s.dropWhile isSpace with
  | [] => true
  | c :: _ => c = '\n'

/-- The raw title at the front of a text that may run over several lines, and the rest. -/
def rawTitle? : List Char → Option (List Char × List Char)
  | [] => none
  | c :: rest =>
    match titleMark? c with
    | some mark => match titleBody mark rest with
      | .closed t r => some (t, r)
      | _ => none
    | none => none

/-- The title of a definition, in the text after its destination, and the number of line ends up to
the end of the title. A title needs a blank or line end before it, unless it runs over several
lines itself. -/
def definitionTitle? (s : List Char) : Option (List Char × Nat) :=
  let gap := s.takeWhile isGap
  match rawTitle? (s.dropWhile isGap) with
  | some (title, rest) =>
    if (gap.isEmpty && lineEnds title = 0) || !restIsBlank rest then none
    else some (unescape title, lineEnds gap + lineEnds title)
  | none => none

/-- A definition whose title is empty and followed by other text. -/
def hasIdleTitle (s : List Char) : Bool :=
  match rawTitle? (s.dropWhile isGap) with
  | some (title, rest) => !(s.takeWhile isGap).isEmpty && title.isEmpty && !restIsBlank rest
  | none => false

/-- The definition at the front of a paragraph's text, and the number of line ends in it. -/
def definition? (s : List Char) : Option (Definition × Nat) := do
  let (label, rest) ← match s with
    | '[' :: rest => labelBody? rest
    | _ => none
  let rest ← match rest with
    | ':' :: rest => some rest
    | _ => none
  let gap := rest.takeWhile isGap
  let (line, later) := takeLine (rest.dropWhile isGap)
  let (raw, after) ← destination? line
  let destination := normalDestination raw
  if !isSafeDestination destination || (labelKey label).isEmpty then none
  let before := lineEnds label + lineEnds gap
  let untitled : Option (Definition × Nat) := some (⟨labelKey label, destination, []⟩, before)
  if after.isEmpty then untitled
  else match definitionTitle? (after ++ later) with
    | some (title, ends) => some (⟨labelKey label, destination, title⟩, before + ends)
    | none => if restIsBlank after && !hasIdleTitle (after ++ later) then untitled else none

end MarkdownWord.Markdown
