import MarkdownWord.Path
import MarkdownWord.Text.Blank
import MarkdownWord.Text.CaseFold
import MarkdownWord.Text.CodePoint
import MarkdownWord.Text.Percent

/-! # Names for downloads

The name under which a converted file is offered, and the header that carries it. -/

namespace MarkdownWord.Download
open Text

def markdownSuffixes : List String := [".md", ".markdown"]

def documentSuffix : String := ".docx"

/-- The name of a download that no file name is known for. -/
def defaultName : String := "converted.docx"

def foldedSuffix (suffix : List Char) : String := String.ofList (suffix.map lowerAscii)

def isMarkdownSuffix (suffix : List Char) : Bool := markdownSuffixes.contains (foldedSuffix suffix)

/-- The name of the document for a file of some name. The suffix of a Markdown file is replaced;
another name gets the suffix of documents unless it has that already. -/
def nameOf (name : List Char) : List Char :=
  let (stem, suffix) := Path.splitName name
  if isMarkdownSuffix suffix then stem ++ documentSuffix.toList
  else if stem.isEmpty then defaultName.toList
  else if foldedSuffix suffix = documentSuffix then name
  else name ++ documentSuffix.toList

/-- The name of the document for an uploaded file; directories do not count. -/
def name (fileName : Option String) : String :=
  match fileName with
  | none => defaultName
  | some s => if s.isEmpty then defaultName else String.ofList (nameOf (Path.read s.toList).name)

/-- The suffix of an uploaded file is one of Markdown files. -/
def isMarkdownFile (fileName : Option String) : Bool :=
  isMarkdownSuffix (Path.read (fileName.getD "").toList).suffix

/-! ## The header -/

/-- A character that can stand between the quotes of a header. -/
def isPlain (c : Char) : Bool := ' ' ≤ c && c ≤ '~' && c != '"' && c != '\\'

def isUnreserved (c : Char) : Bool :=
  c.isAlphanum || c = '_' || c = '.' || c = '-' || c = '~' || c = '/'

/-- The name for clients that know plain characters only. What is left of a name is not used if it
is blank or starts with a dot. -/
def fallbackName (name : List Char) : List Char :=
  let plain := name.filter isPlain
  if (trimBlank plain).isEmpty || plain.head? = some '.' then defaultName.toList else plain

/-- The header that offers a file of some name. A name that is not plain is given twice. -/
def disposition (name : String) : String :=
  let chars := name.toList
  if chars.all isPlain then "attachment; filename=\"" ++ name ++ "\""
  else "attachment; filename=\"" ++ String.ofList (fallbackName chars) ++
    "\"; filename*=UTF-8''" ++ String.ofList (percentEncode isUnreserved chars)

/-- The last component of a path with surrogates in it. -/
def lastComponent (t : BrokenText) : List CodePoint :=
  let components := splitAt (.char '/') t.codePoints
  (components.filter fun s => !s.isEmpty && s != [.char '.']).getLast?.getD []

/-- The header that offers the document for a file. A name that keeps a surrogate has no UTF-8 form
to be encoded; a surrogate among the directories does not matter. -/
def header? : Option AnyText → Option String
  | none => some (disposition (name none))
  | some (.whole s) => some (disposition (name (some s)))
  | some (.broken t) =>
    if (lastComponent t).any CodePoint.isSurrogate then none
    else some (disposition (name (some t.standIn)))

end MarkdownWord.Download
