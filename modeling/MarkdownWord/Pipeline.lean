import MarkdownWord.Configuration
import MarkdownWord.Node.OfMarkdown
import MarkdownWord.Word.Blocks
import MarkdownWord.Word.Package

/-! # From Markdown to a document file

A text is read into a tree, the tree is made into a document, and the document is written. All that
can go wrong is that there is no text, that a tree cannot be made, or that the document cannot be
written; the cause behind it is not passed on. -/

namespace MarkdownWord
open Word

/-- Why a conversion fails. -/
inductive ConversionError where
  | noText
  | unreadable
  | unwritable
  deriving DecidableEq, Repr, Inhabited

def ConversionError.message : ConversionError → String
  | .noText => "Markdown content is required"
  | .unreadable => "Failed to parse markdown"
  | .unwritable => "Failed to convert markdown to docx"

/-- The text of a value. One with surrogates is read with other characters in their places, which no
document can hold either. -/
def requireText : Value → Except ConversionError String
  | .string s => if s.isEmpty then throw .noText else pure s
  | .broken t => pure t.standIn
  | _ => throw .noText

/-- The two stages of a conversion that can fail. -/
structure Pipeline where
  read : String → Option Node := fun s => some (.ofMarkdown s)
  write : Document → Option Package := fun d => d.pack.toOption

namespace Pipeline

def unreading : Pipeline := { read := fun _ => none }

def unwriting : Pipeline := { write := fun _ => none }

/-- The document of a text. A size that is not given is that of the configuration. -/
def document (p : Pipeline) (c : Configuration) (markdown : Value) (fontSize : Option Number) :
    Except ConversionError Document := do
  let text ← requireText markdown
  match p.read text with
  | some root =>
    return .ofNodes root.children (fontSize.or c.fontSize) (.ofName c.listOverflow)
  | none => throw .unreadable

def convert (p : Pipeline) (c : Configuration) (markdown : Value) (fontSize : Option Number) :
    Except ConversionError Package := do
  let d ← p.document c markdown fontSize
  match p.write d with
  | some package => return package
  | none => throw .unwritable

end Pipeline
end MarkdownWord
