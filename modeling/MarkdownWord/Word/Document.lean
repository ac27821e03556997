import MarkdownWord.Node
import MarkdownWord.Word.ListScheme

/-! # Word-processor documents

A document as a word processor has it: paragraphs of formatted runs, tables of such paragraphs, and
list membership by reference to a scheme. Spacing, indents and tab stops are in twentieths of a
point, borders in eighths, sizes of runs in halves. -/

namespace MarkdownWord.Word

/-- The ways in which text is set off at some place. -/
structure Flags where
  bold : Bool := false
  italic : Bool := false
  strike : Bool := false
  superscript : Bool := false
  subscript : Bool := false
  deriving DecidableEq, Repr, Inhabited

def Flags.set (f : Flags) : Style → Flags
  | .bold => { f with bold := true }
  | .italic => { f with italic := true }
  | .strike => { f with strike := true }
  | .superscript => { f with superscript := true }
  | .subscript => { f with subscript := true }

/-- How the text of a run looks. What is not given is left to the style of the paragraph. -/
structure Format where
  flags : Flags := {}
  underline : Bool := false
  font : Option String := none
  color : Option String := none
  size : Option Number := none
  charStyle : Option String := none
  deriving DecidableEq, Repr, Inhabited

/-- A stretch of text of one format, or a line break. -/
inductive Run where
  | text (value : String) (format : Format)
  | lineBreak
  deriving DecidableEq, Repr, Inhabited

/-- The text of a run; a line break is a line end. -/
def Run.plainText : Run → String
  | .text v _ => v
  | .lineBreak => "\n"

/-- A part of a paragraph: a run, or a link around some runs. -/
inductive Member where
  | run (run : Run)
  | link (url : String) (runs : List Run)
  deriving DecidableEq, Repr, Inhabited

namespace Member

def runs : Member → List Run
  | .run r => [r]
  | .link _ rs => rs

def plainText (m : Member) : String := String.join (m.runs.map Run.plainText)

def isLink : Member → Bool
  | .link _ _ => true
  | .run _ => false

end Member

/-- An edge of a border. -/
structure Border where
  style : String := "single"
  size : Int := 6
  color : String := "auto"
  space : Int := 0
  deriving DecidableEq, Repr, Inhabited

/-- A tab stop. -/
structure TabStop where
  position : Int
  alignment : Markdown.TextAlignment := .left
  deriving DecidableEq, Repr, Inhabited

/-- Membership in a list: the name of its scheme, and the level. -/
structure ListReference where
  reference : String
  level : Int := 0
  deriving DecidableEq, Repr, Inhabited

/-- A paragraph with its layout. -/
structure Paragraph where
  members : List Member := []
  headingLevel : Option Int := none
  numbering : Option ListReference := none
  indentLeft : Option Int := none
  borderLeft : Option Border := none
  borderBottom : Option Border := none
  shading : Option String := none
  spacingBefore : Option Int := none
  spacingAfter : Option Int := none
  tabStops : List TabStop := []
  deriving DecidableEq, Repr, Inhabited

namespace Paragraph

/-- All runs of a paragraph, those inside links included. -/
def runs (p : Paragraph) : List Run := p.members.flatMap Member.runs

def plainText (p : Paragraph) : String := String.join (p.members.map Member.plainText)

/-- A paragraph with a level above or below zero is a heading. -/
def isHeading (p : Paragraph) : Bool := p.headingLevel.any (· != 0)

end Paragraph

/-- A cell of a table. -/
structure Cell where
  paragraphs : List Paragraph := []
  shading : Option String := none
  deriving DecidableEq, Repr, Inhabited

/-- A row of a table. -/
structure Row where
  cells : List Cell := []
  header : Bool := false
  deriving DecidableEq, Repr, Inhabited

/-- A table; its rows may have different lengths. -/
structure Table where
  rows : List Row := []
  widthPercent : Int := 100
  deriving DecidableEq, Repr, Inhabited

/-- The number of columns: the length of the longest row. -/
def Table.columnCount (t : Table) : Nat :=
  t.rows.foldl (fun n r => max n r.cells.length) 0

/-- A block of a document. A block of a foreign kind is only named. -/
inductive Block where
  | paragraph (paragraph : Paragraph)
  | table (table : Table)
  | foreign (kind : String)
  deriving DecidableEq, Repr, Inhabited

namespace Block

def paragraph? : Block → Option Paragraph
  | .paragraph p => some p
  | _ => none

def table? : Block → Option Table
  | .table t => some t
  | _ => none

end Block

/-- A document with the list schemes that its paragraphs refer to. -/
structure Document where
  schemes : List ListScheme := ListScheme.standard
  blocks : List Block := []
  title : Option String := none
  fontSize : Option Number := none
  deriving Inhabited

/-- How many blocks of some kinds a document has. -/
structure Statistics where
  paragraphs : Nat
  headings : Nat
  listItems : Nat
  tables : Nat
  links : Nat
  deriving DecidableEq, Repr

namespace Document

/-- The paragraphs of a document outside of tables. -/
def paragraphs (d : Document) : List Paragraph := d.blocks.filterMap Block.paragraph?

def tables (d : Document) : List Table := d.blocks.filterMap Block.table?

/-- Counts over the blocks of a document; what stands inside tables is not looked at. -/
def statistics (d : Document) : Statistics where
  paragraphs := d.paragraphs.length
  headings := d.paragraphs.countP Paragraph.isHeading
  listItems := d.paragraphs.countP (·.numbering.isSome)
  tables := d.tables.length
  links := (d.paragraphs.flatMap (·.members)).countP Member.isLink

def summary (d : Document) : String :=
  let s := d.statistics
  s!"DocumentRoot(blocks={d.blocks.length}, headings={s.headings}, list_items={s.listItems}, " ++
    s!"tables={s.tables})"

end Document
end MarkdownWord.Word
