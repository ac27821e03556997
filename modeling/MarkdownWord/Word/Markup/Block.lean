import MarkdownWord.Word.Markup.Paragraph

/-! # The markup of blocks

Paragraphs and tables as elements of the body. A table is a full grid: a row that is too short is
filled up with empty cells. -/

namespace MarkdownWord.Word

/-! ## Tables -/

/-- The width of the text of a page, in fine units. -/
def pageUnits : Nat := 5486400

/-- The width of each of some columns, in twentieths of a point. -/
def columnWidth (columns : Nat) : String := toString (twipsOfUnits (pageUnits / columns))

/-- A cell with its properties. A cell without paragraphs holds an empty one. -/
def cellMarkup (width : String) (shade : List Xml) (paragraphs : List Xml) : Xml :=
  .group "w:tc" (.group "w:tcPr"
    (.leaf "w:tcW" [("w:type", "dxa"), ("w:w", width)] :: shade) ::
      if paragraphs.isEmpty then [.group "w:p" []] else paragraphs)

def Cell.markup (s : Surroundings) (width : String) (c : Cell) : Render Xml := do
  let paragraphs ← c.paragraphs.mapM (Paragraph.markup s none)
  let shade ← (property (given? c.shading) fun fill => do return [← fillMarkup fill] :
    Except RenderError (List Xml))
  return cellMarkup width shade paragraphs

/-- The element of a row, filled up with empty cells. -/
def Row.markup (s : Surroundings) (columns : Nat) (r : Row) : Render Xml := do
  let width := columnWidth columns
  let cells ← r.cells.mapM (Cell.markup s width)
  return .group "w:tr" (cells ++ List.replicate (columns - cells.length) (cellMarkup width [] []))

def tableProperties (widthPercent : Int) : Xml :=
  .group "w:tblPr" [
    .valued "w:tblStyle" "TableGrid",
    .leaf "w:tblW" [("w:type", "pct"), ("w:w", toString (widthPercent * 50))],
    .leaf "w:tblLook" [("w:firstColumn", "1"), ("w:firstRow", "1"), ("w:lastColumn", "0"),
      ("w:lastRow", "0"), ("w:noHBand", "0"), ("w:noVBand", "1"), ("w:val", "04A0")]]

/-- The element of a table; a table without rows or columns has none. -/
def Table.markup (s : Surroundings) (t : Table) : Render (List Xml) := do
  let columns := t.columnCount
  if columns = 0 then return []
  else
    let rows ← t.rows.mapM (Row.markup s columns)
    let grid := List.replicate columns (Xml.leaf "w:gridCol" [("w:w", columnWidth columns)])
    return [.group "w:tbl" (tableProperties t.widthPercent :: .group "w:tblGrid" grid :: rows)]

/-! ## Blocks -/

/-- The elements of a block: none for an empty table and for a block of a foreign kind. -/
def Block.markup (s : Surroundings) : Block → Render (List Xml)
  | .paragraph p => do
    let style ← (p.style? : Except RenderError (Option String))
    return [← p.markup s style]
  | .table t => t.markup s
  | .foreign _ => return []

/-- What a reader of the log should know. -/
inductive Warning where
  | emptyTable
  | unknownList (reference : String)
  | unknownBlock (kind : String)
  deriving DecidableEq, Repr

def Warning.message : Warning → String
  | .emptyTable => "Skipping empty table"
  | .unknownList reference => "No numbering registered for '" ++ reference ++ "'"
  | .unknownBlock kind => "Unknown block type: " ++ kind

def Paragraph.warnings (numbers : ListNumbers) (p : Paragraph) : List Warning :=
  match p.numbering with
  | some r => if (numbers.find? r.reference).isSome then [] else [.unknownList r.reference]
  | none => []

def Block.warnings (numbers : ListNumbers) : Block → List Warning
  | .paragraph p => p.warnings numbers
  | .table t =>
    if t.columnCount = 0 then [.emptyTable]
    else t.rows.flatMap fun r => r.cells.flatMap fun c =>
      c.paragraphs.flatMap (Paragraph.warnings numbers)
  | .foreign kind => [.unknownBlock kind]

end MarkdownWord.Word
