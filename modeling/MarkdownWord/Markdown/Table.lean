import MarkdownWord.Text.Blank
import MarkdownWord.Text.LineEnd
import MarkdownWord.Markdown.Line

/-! # Table rows

The cells of a row, and the row of hyphens that makes the line above it a table's header. -/

namespace MarkdownWord.Markdown
open Text

/-- The side to which a text is set. -/
inductive TextAlignment where
  | left | center | right
  deriving DecidableEq, Repr, Inhabited

def isDelimiterChar (c : Char) : Bool := c = '|' || c = '-' || c = ':'

/-- The alignment that a field of the delimiter row states, if it is well formed: hyphens with an
optional colon on either side. -/
def fieldAlignment? (field : List Char) : Option (Option TextAlignment) :=
  let left : Bool := field.head? = some ':'
  let inner := if left then field.drop 1 else field
  let right : Bool := inner.getLast? = some ':'
  let hyphens := if right then inner.dropLast else inner
  if hyphens.isEmpty || !hyphens.all (· == '-') then none
  else if right then some (some (if left then .center else .right))
  else some (if left then some .left else none)

/-- The alignments of the fields of a delimiter row. A field may be empty at either end only. -/
def fieldAlignments? : (first : Bool) → List (List Char) → Option (List (Option TextAlignment))
  | _, [] => some []
  | first, field :: rest =>
    let field := trimBlank field
    if field.isEmpty then
      if first || rest.isEmpty then fieldAlignments? false rest else none
    else do
      let a ← fieldAlignment? field
      let as ← fieldAlignments? false rest
      return a :: as

/-- The alignments that a delimiter row states, one for each column. -/
def alignments? (row : List Char) : Option (List (Option TextAlignment)) :=
  match row with
  | a :: b :: rest =>
    if !isDelimiterChar a || !(b :: rest).all (fun c => isDelimiterChar c || isSpace c) then none
    else if a = '-' && isSpace b then none
    else fieldAlignments? true (splitAt '|' row)
  | _ => none

/-- The fields of a row between its pipes. A pipe after a backslash belongs to the field, without
the backslash. `field` is the current one, last character first. -/
def rowFields (field : List Char) : List Char → List (List Char)
  | [] => [field.reverse]
  | c :: rest =>
    if c = '|' then
      match field with
      | '\\' :: field => rowFields ('|' :: field) rest
      | _ => field.reverse :: rowFields [] rest
    else rowFields (c :: field) rest

/-- A list without its first item if that is empty, and without its last likewise. -/
def dropEmptyEnds (fields : List (List Char)) : List (List Char) :=
  let fields := match fields with
    | [] :: rest => rest
    | _ => fields
  if fields.getLast? = some [] then fields.dropLast else fields

/-- The cells of a row, each without blanks around it. -/
def rowCells (row : List Char) : List (List Char) :=
  (dropEmptyEnds (rowFields [] (trimBlank row))).map trimBlank

/-- The columns of a table whose header is the first line and whose delimiter row the second. -/
def tableColumns? (header delimiters : List Char) :
    Option (List (Option TextAlignment) × List (List Char)) :=
  match alignments? delimiters with
  | some align =>
    let cells := rowCells header
    if header.contains '|' && !cells.isEmpty && cells.length = align.length then
      some (align, cells)
    else none
  | none => none

/-- The cells that a table may be padded with in all. -/
def maxPaddedCells : Nat := 0x10000

/-- A row of exactly `n` cells: cut, or padded with empty ones. -/
def fitRow (n : Nat) (cells : List (List Char)) : List (List Char) :=
  cells.take n ++ List.replicate (n - cells.length) []

theorem length_fitRow (n : Nat) (cells : List (List Char)) : (fitRow n cells).length = n := by
  simp [fitRow]; omega

end MarkdownWord.Markdown
