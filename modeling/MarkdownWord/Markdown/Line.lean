import MarkdownWord.Text.LineEnd
import MarkdownWord.Text.Blank

/-! # Lines

A line as a container of blocks sees it: what stands left of its content, the content, and the
column at which the content begins. Tabs reach to the next column divisible by four. -/

namespace MarkdownWord.Markdown
open Text

def isSpace (c : Char) : Bool := c = ' ' || c = '\t'

/-- The column after a character that starts at column `col`. A tab reaches to the next stop,
counted with `base` columns more. -/
def columnAfter (base col : Nat) (c : Char) : Nat :=
  if c = '\t' then col + (4 - (col + base) % 4) else col + 1

def columnAfterAll (base col : Nat) (s : List Char) : Nat := s.foldl (columnAfter base) col

/-- A line of a container. -/
structure Line where
  /-- What stands left of the content: blanks, and the marker of a list item that starts here. -/
  margin : List Char
  /-- The content, which starts with no blank. -/
  body : List Char
  /-- The column of the content, counted from the container's left edge. It is -1 for a line that
  only continues a quoted paragraph without being quoted itself. -/
  indent : Int
  /-- The columns left of the margin, as far as tab stops go. -/
  base : Nat
  ended : Bool
  deriving Repr, Inhabited

namespace Line

def isEmpty (l : Line) : Bool := l.body.isEmpty

def ofText (ended : Bool) (s : List Char) : Line where
  margin := s.takeWhile isSpace
  body := s.dropWhile isSpace
  indent := columnAfterAll 0 0 (s.takeWhile isSpace)
  base := 0
  ended

/-- The text of a line from column `width` on. A tab that crosses the column leaves blanks. -/
def cut (width : Nat) (l : Line) : List Char := go 0 l.margin
where
  go (col : Nat) : List Char → List Char
    | [] => List.replicate (col - width) ' ' ++ l.body
    | c :: margin =>
      if width ≤ col then List.replicate (col - width) ' ' ++ (c :: margin) ++ l.body
      else go (columnAfter l.base col c) margin

/-- The text of some lines from column `width` on, with the line ends between them. -/
def join (width : Nat) : List Line → List Char
  | [] => []
  | [l] => l.cut width
  | l :: rest => l.cut width ++ '\n' :: join width rest

/-- The text of some lines from column `width` on, each with its line end. -/
def joinEnded (width : Nat) (ls : List Line) : List Char :=
  ls.flatMap fun l => l.cut width ++ if l.ended then ['\n'] else []

/-- A line without the quote marker that its content starts with. One blank after the marker
belongs to it. -/
def unquote? (l : Line) : Option Line :=
  match l.body with
  | '>' :: rest =>
    let col := l.indent.toNat + 1
    let inner (used shift : Nat) (rest : List Char) : Line :=
      let blanks := rest.takeWhile isSpace
      let edge := col + used
      { margin := blanks
        body := rest.dropWhile isSpace
        indent := (columnAfterAll (l.base + shift) edge blanks : Int) - edge
        base := col + if used + shift = 0 then 0 else 1
        ended := l.ended }
    match rest with
    | ' ' :: rest => some (inner 1 0 rest)
    | '\t' :: rest' =>
      if (l.base + col) % 4 = 3 then some (inner 1 0 rest') else some (inner 0 1 rest)
    | _ => some (inner 0 0 rest)
  | _ => none

end Line

/-- The lines of a document. Blanks at its very end make no line. -/
def documentLines (s : List Char) : List Line :=
  go (splitAt '\n' s)
where
  go : List (List Char) → List Line
    | [] => []
    | [last] => if last.all isSpace then [] else [.ofText false last]
    | l :: rest => .ofText true l :: go rest

/-- The line ends of a document made LF, and NUL made the replacement character. -/
def normalize (s : List Char) : List Char :=
  (unifyLineEnds s).map fun c => if c = '\x00' then '\uFFFD' else c

end MarkdownWord.Markdown
