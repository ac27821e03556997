import MarkdownWord.Word.Document
import MarkdownWord.Word.Xml
import MarkdownWord.Word.Measure
import MarkdownWord.Word.Color
import MarkdownWord.Word.StyleSheet
import MarkdownWord.Text.Blank

/-! # The markup of runs

A run as an element: its properties in the order of the schema, only those that are set, and then
the pieces of its text. -/

namespace MarkdownWord.Word
open Text

def legalText (s : String) : Except RenderError String := illegalUnless (isXmlText s) s

/-- An attribute or property that is given and not empty. -/
def given? (s : Option String) : Option String := s.filter (!·.isEmpty)

/-- A piece of the text of a run. -/
inductive TextPiece where
  | plain (text : List Char)
  | tab
  | lineBreak
  deriving DecidableEq, Repr

/-- The pieces of a text between its tabs and line ends; `pending` is the text before it, last
character first. -/
def textPiecesFrom (pending : List Char) : List Char → List TextPiece
  | [] => close pending []
  | c :: rest =>
    if c = '\t' then close pending (.tab :: textPiecesFrom [] rest)
    else if c = '\n' || c = '\r' then close pending (.lineBreak :: textPiecesFrom [] rest)
    else textPiecesFrom (c :: pending) rest
where
  close (pending : List Char) (rest : List TextPiece) : List TextPiece :=
    if pending.isEmpty then rest else .plain pending.reverse :: rest

def textPieces (s : String) : List TextPiece := textPiecesFrom [] s.toList

/-- The element of a piece of text. White space at its ends is marked to be kept. -/
def TextPiece.markup : TextPiece → Except RenderError Xml
  | .tab => pure (.leaf "w:tab" [])
  | .lineBreak => pure (.leaf "w:br" [])
  | .plain cs => do
    let s ← legalText (String.ofList cs)
    let kept := if trimBlank cs = cs then [] else [("xml:space", "preserve")]
    return .element "w:t" kept [.text s]

def toggle (tag : String) (on : Bool) : List Xml := if on then [.leaf tag []] else []

def property {α : Type} (x : Option α) (write : α → Except RenderError (List Xml)) :
    Except RenderError (List Xml) :=
  match x with
  | some a => write a
  | none => pure []

/-- The vertical position of a run; superscript goes before subscript. -/
def verticalAlignment (f : Flags) : List Xml :=
  if f.superscript then [.valued "w:vertAlign" "superscript"]
  else if f.subscript then [.valued "w:vertAlign" "subscript"]
  else []

/-- The properties of a run, in the order of the schema. -/
def Format.properties (withLinks : Bool) (f : Format) : Except RenderError (List Xml) := do
  let style ← property (given? f.charStyle) fun name => do
    return (← runStyle? withLinks name).toList.map (Xml.valued "w:rStyle")
  let font ← property (given? f.font) fun name => do
    let name ← legalText name
    return [.leaf "w:rFonts" [("w:ascii", name), ("w:hAnsi", name)]]
  let size ← property (f.size.filter (!·.isZero)) fun n => do
    return [.valued "w:sz" (← sizeText (halfOf n))]
  let color ← property (given? f.color) fun c => do return [.valued "w:color" (← colorText c)]
  return style ++ font ++ toggle "w:b" f.flags.bold ++ toggle "w:i" f.flags.italic ++
    toggle "w:strike" f.flags.strike ++ color ++ size ++
    (if f.underline then [.valued "w:u" "single"] else []) ++ verticalAlignment f.flags

/-- A run has properties as soon as it asks for a style, be it the default one. -/
def Format.hasProperties (f : Format) (properties : List Xml) : Bool :=
  !properties.isEmpty || (given? f.charStyle).isSome

def Run.markup (withLinks : Bool) : Run → Except RenderError Xml
  | .lineBreak => pure (.group "w:r" [.leaf "w:br" []])
  | .text v f => do
    let content ← (textPieces v).mapM TextPiece.markup
    let properties ← f.properties withLinks
    let head := if f.hasProperties properties then [.group "w:rPr" properties] else []
    return .group "w:r" (head ++ content)

end MarkdownWord.Word
