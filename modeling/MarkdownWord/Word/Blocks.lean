import MarkdownWord.Word.Runs
import MarkdownWord.Text.Blank
import MarkdownWord.Text.LineEnd

/-! # The blocks of a tree

Block content as paragraphs and tables. Quotes and lists leave no blocks of their own: a quote marks
the paragraphs inside it, a list the paragraphs of its items. -/

namespace MarkdownWord
open Word

namespace Word

def shade : String := "F4F4F4"

/-- An empty paragraph that keeps two blocks apart. -/
def spacer : Paragraph := { spacingAfter := some 160 }

def headingOf (depth : Int) (members : List Member) : Paragraph :=
  { members, headingLevel := some depth, spacingBefore := some 240, spacingAfter := some 120 }

def paragraphOf (members : List Member) : Paragraph := { members, spacingAfter := some 160 }

def quoteBorder : Border := { size := 6, color := "BBBBBB", space := 10 }

/-- A block inside a quote: a paragraph is indented and gets a border. -/
def Block.quoted : Block → Block
  | .paragraph p => .paragraph { p with indentLeft := some 720, borderLeft := some quoteBorder }
  | b => b

def ruleParagraph : Paragraph where
  members := [.run (.text "\t" {})]
  borderBottom := some { size := 6, color := "CCCCCC", space := 1 }
  tabStops := [{ position := 9026, alignment := .right }]
  spacingBefore := some 240
  spacingAfter := some 240

/-- A line of code. An empty line holds a blank, so that it has its height. -/
def codeLine (line : List Char) : Paragraph where
  members := [.run (.text (if line.isEmpty then " " else String.ofList line)
    { font := some codeFont, size := some (.int 20) })]
  shading := some shade
  spacingAfter := some 0

def codeBlocks (text : String) : List Block :=
  (Text.lines text.toList).map (fun l => .paragraph (codeLine l)) ++ [.paragraph spacer]

def checkbox : Option Bool → Option String
  | some true => some "☑ "
  | some false => some "☐ "
  | none => none

/-- A paragraph of an item of a list, after its mark. -/
def itemParagraph (mark : Option String) (numbering : ListReference) (members : List Member) :
    Paragraph where
  members := match mark with
    | some m => .run (.text m {}) :: members
    | none => members
  numbering := some numbering
  spacingAfter := some 80

def headFlags : Flags := { bold := true }

def cellOf (head : Bool) (n : Node) : Cell where
  paragraphs := [{ members := Node.membersAll (if head then headFlags else {}) n.children }]
  shading := if head then some shade else none

def rowOf (head : Bool) (n : Node) : Row where
  cells := n.children.map (cellOf head)
  header := head

/-- A table with the given rows, the first of which is its head. -/
def tableOf : List Node → Table
  | [] => {}
  | head :: rest => { rows := rowOf true head :: rest.map (rowOf false) }

end Word

mutual
/-- The blocks of a node inside lists nested to some depth. -/
def Node.blocks (o : Overflow) (depth : Int) : Node → List Block
  | .heading d cs => [.paragraph (headingOf d (membersAll {} cs))]
  | .paragraph cs => [.paragraph (paragraphOf (membersAll {} cs))]
  | .quote cs => (blocksAll o 0 cs).map Block.quoted
  | .list ordered _ cs => listBlocks o depth (ListScheme.referenceFor ordered) cs
  | .code v _ => codeBlocks v
  | .table _ cs => [.table (tableOf cs), .paragraph spacer]
  | .rule => [.paragraph ruleParagraph]
  | .root cs | .item _ cs | .row cs | .cell cs | .styled _ cs | .link _ _ cs | .parent _ cs =>
    blocksAll o depth cs
  | .text _ | .inlineCode _ | .lineBreak _ | .image _ _ _ | .literal _ _ | .bare => []

/-- The blocks of some nodes inside lists nested to some depth. -/
def Node.blocksAll (o : Overflow) (depth : Int) : List Node → List Block
  | [] => []
  | n :: rest => n.blocks o depth ++ blocksAll o depth rest

/-- The blocks of a list whose items refer to a scheme. What is not an item stands as it is. -/
def Node.listBlocks (o : Overflow) (depth : Int) (reference : String) : List Node → List Block
  | [] => []
  | .item checked cs :: rest =>
    itemBlocks o depth reference (checkbox checked) cs ++ listBlocks o depth reference rest
  | n :: rest => n.blocks o depth ++ listBlocks o depth reference rest

/-- The blocks of an item. Its paragraphs refer to the scheme, a mark stands before its first child
if that is a paragraph, and a list inside it is nested one deeper. -/
def Node.itemBlocks (o : Overflow) (depth : Int) (reference : String) (mark : Option String) :
    List Node → List Block
  | [] => []
  | .list ordered _ cs :: rest =>
    listBlocks o (depth + 1) (ListScheme.referenceFor ordered) cs ++
      itemBlocks o depth reference none rest
  | .paragraph cs :: rest =>
    .paragraph (itemParagraph mark ⟨reference, o.level depth⟩ (membersAll {} cs)) ::
      itemBlocks o depth reference none rest
  | n :: rest => n.blocks o depth ++ itemBlocks o depth reference none rest
end

/-- The title that some nodes give their document: the text of the first heading of depth one. -/
def Node.title? (nodes : List Node) : Option String :=
  (nodes.findSome? fun n => match n with
    | .heading 1 cs => some (Text.stripped (String.join (Node.piecesAll cs)))
    | _ => none).filter (!·.isEmpty)

def Word.Document.ofNodes (nodes : List Node) (fontSize : Option Number) (o : Overflow) :
    Document where
  blocks := Node.blocksAll o 0 nodes
  title := Node.title? nodes
  fontSize := fontSize

end MarkdownWord
