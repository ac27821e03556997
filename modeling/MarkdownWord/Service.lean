import MarkdownWord.Download
import MarkdownWord.Pipeline

/-! # The conversion service

Requests for a conversion and the responses to them. What is wrong with the text of a request is
told; what went wrong inside is not. The length of a text and the header of a document are taken
from UTF-8 forms, outside of what is guarded against errors. -/

namespace MarkdownWord.Service
open Word Text

/-- A response: the names of fields that are not valid, a status with a message, or a document file
with the header that offers it. -/
inductive Response where
  | invalid (fields : List String)
  | refused (status : Nat) (message : String)
  | converted (package : Package) (disposition : String)
  /-- No response of the service: a text without UTF-8 form was to be encoded, and nothing catches
  the error. -/
  | unhandled
  deriving Inhabited

def mediaType : String := "application/vnd.openxmlformats-officedocument.wordprocessingml.document"

/-- The least size of running text that can be asked for, in points. -/
def minFontSize : Nat := 8

/-- The greatest size of running text that can be asked for, in points. -/
def maxFontSize : Nat := 20

/-- A request whose fields are valid. -/
structure Request where
  markdown : Value := .null
  fileName : Option AnyText := none
  fontSize : Option Number := none

def fileName? : Value → Option (Option AnyText)
  | .null => some none
  | .string s => some (some (.whole s))
  | .broken t => some (some (.broken t))
  | _ => none

def fontSize? (v : Value) : Option (Option Number) :=
  v.optionalNumber?.filter fun n => n.all (Number.isBetween minFontSize maxFontSize)

/-- Reads the body of a request, or gives the names of its fields that are not valid. -/
def Request.read (body : Value) : Except (List String) Request :=
  let field (name : String) : Value := (body.field? name).getD .null
  match fileName? (field "filename"), fontSize? (field "font_size") with
  | some fileName, some fontSize => pure { markdown := field "markdown", fileName, fontSize }
  | name, size =>
    throw ((if name.isNone then ["filename"] else []) ++
      if size.isNone then ["font_size"] else [])

/-- Whether a value is too long a text. One with surrogates in it cannot be measured. -/
def isTooLarge? (c : Configuration) : Value → Option Bool
  | .string s => some (c.maxKilobytes * 1024 < (s.utf8ByteSize : Int))
  | .broken _ => none
  | _ => some false

def convert (p : Pipeline) (c : Configuration) (r : Request) : Response :=
  match isTooLarge? c r.markdown with
  | none => .unhandled
  | some true => .refused 413 ("Markdown exceeds " ++ toString c.maxKilobytes ++ " KB")
  | some false =>
    match p.convert c r.markdown r.fontSize with
    | .ok package =>
      match Download.header? r.fileName with
      | some header => .converted package header
      | none => .unhandled
    | .error .noText => .refused 400 ConversionError.noText.message
    | .error _ => .refused 500 ConversionError.unwritable.message

def convertText (p : Pipeline) (c : Configuration) (body : Value) : Response :=
  match Request.read body with
  | .ok r => convert p c r
  | .error fields => .invalid fields

/-- The answer to an upload. The name of an uploaded file is decoded from octets, so that it has no
surrogates. -/
def convertFile (p : Pipeline) (c : Configuration) (fileName : Option String)
    (contents : ByteArray) (fontSize : Option Number) : Response :=
  if !Download.isMarkdownFile fileName then
    .refused 400 ("Invalid file type. Allowed: " ++ ", ".intercalate Download.markdownSuffixes)
  else match String.fromUTF8? contents with
    | none => .refused 400 "File must be UTF-8 encoded"
    | some s =>
      convert p c { markdown := .string s, fileName := fileName.map .whole, fontSize }

/-- The answer to the question whether the service is there. -/
def health : String := "ok"

end MarkdownWord.Service
