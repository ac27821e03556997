import MarkdownWord.Value

/-! # Token streams

A parsed text can also arrive flat: a token opens an element, closes the one opened last, or stands
for an element by itself. `elements?` pairs the tokens up; it fails just when some token closes
nothing or some element stays open. -/

namespace MarkdownWord

/-- What a token says about its element. -/
structure Details where
  kind : String
  tag : String := ""
  attributes : List (String × Value) := []
  content : String := ""
  info : String := ""
  deriving Inhabited

namespace Details

/-- An attribute; the last of several with one name. -/
def attribute? (name : String) (m : Details) : Option Value :=
  (m.attributes.reverse.find? (·.1 == name)).map (·.2)

/-- An attribute as text, a missing one as the empty text. -/
def attributeText (name : String) (m : Details) : String :=
  match m.attribute? name with
  | some v => v.text
  | none => ""

end Details

/-- The text in which the name of a token that opens an element ends. -/
def openSuffix : String := "_open"

/-- The kind of an element from the name of the token that opens it. -/
def elementKind (name : String) : String :=
  if name.endsWith openSuffix then (name.dropEnd openSuffix.length).toString else name

/-- A token of a flat stream. -/
inductive Token where
  | opening (details : Details)
  | closing
  /-- A token for an element by itself; it may hold a stream of its own. -/
  | single (details : Details) (inner : List Token)
  deriving Inhabited

/-- An element of a token stream. -/
inductive Element where
  | mk (details : Details) (children : List Element)
  deriving Inhabited

namespace Element

def details : Element → Details
  | mk m _ => m

def children : Element → List Element
  | mk _ cs => cs

/-- An open element and the elements before it, the last one first. -/
abbrev Pending := Details × List Element

/-- The elements of a stream whose first part is read: `done` are those since the last open token,
the last one first, and `pending` are the elements still open, the innermost one first. -/
def readFrom? : List Token → List Element → List Pending → Option (List Element)
  | [], done, [] => some done.reverse
  | [], _, _ :: _ => none
  | .opening m :: rest, done, pending =>
    readFrom? rest [] (({ m with kind := elementKind m.kind }, done) :: pending)
  | .closing :: rest, done, (m, before) :: pending =>
    readFrom? rest (mk m done.reverse :: before) pending
  | .closing :: _, _, [] => none
  | .single m inner :: rest, done, pending =>
    match readFrom? inner [] [] with
    | some children => readFrom? rest (mk m children :: done) pending
    | none => none

def ofTokens? (tokens : List Token) : Option (List Element) := readFrom? tokens [] []

end Element
end MarkdownWord
