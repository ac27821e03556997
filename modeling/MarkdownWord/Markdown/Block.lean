import MarkdownWord.Markdown.Definition

/-! # Blocks

The blocks of a document and how they are read from its lines. Containers are read by a reader for
their content that is handed in, so that nesting is a recursion on the depth that is left, and
everything else a recursion on the lines. -/

namespace MarkdownWord.Markdown
open Text

/-- A block. The text of headings, paragraphs and cells is not read further yet. -/
inductive Block where
  /-- Code that is set off by its indentation. -/
  | indented (text : List Char)
  /-- Code between fences, with the text after the opening one. -/
  | fenced (info text : List Char)
  | quote (blocks : List Block)
  | rule
  /-- A list, with the number of its first item if its items are numbered. -/
  | list (start : Option Nat) (items : List (List Block))
  | html (text : List Char)
  | heading (depth : Nat) (text : List Char)
  | paragraph (text : List Char)
  | table (align : List (Option TextAlignment)) (header : List (List Char))
    (rows : List (List (List Char)))
  deriving Inhabited

/-- What is read from the front of some lines: blocks, the definitions between them, and how many
lines they take up. -/
structure Reading where
  blocks : List Block
  definitions : List Definition
  used : Nat
  deriving Inhabited

abbrev Reader := Frame → List Line → Reading

namespace Reading

def blank (n : Nat) : Reading := ⟨[], [], n⟩

def block (b : Block) (n : Nat) : Reading := ⟨[b], [], n⟩

def append (a b : Reading) : Reading :=
  ⟨a.blocks ++ b.blocks, a.definitions ++ b.definitions, a.used + b.used⟩

end Reading

/-! ## Blocks without content of their own -/

/-- The code that starts at a line: up to the last line indented as far, blank lines between. -/
def readIndented? (f : Frame) (l : Line) (rest : List Line) : Option Reading :=
  if l.isCode f then
    let more := codeLines f rest
    some (.block (.indented (Line.join (f.indent + 4) (l :: rest.take more) ++ ['\n'])) (more + 1))
  else none
where
  codeLines (f : Frame) : List Line → Nat
    | [] => 0
    | l :: rest =>
      if l.isEmpty then
        match codeLines f rest with
        | 0 => 0
        | n + 1 => n + 2
      else if l.isCode f then codeLines f rest + 1
      else 0

/-- The lines of a fenced block after its opening fence: how many hold code, and whether a closing
fence follows. An empty line without line end, or a line left of the container, ends it too. -/
def fencedLines (f : Frame) (fence : Fence) : List Line → Nat × Bool
  | [] => (0, false)
  | l :: rest =>
    if (l.isEmpty && !l.ended) || (!l.isEmpty && l.isOutside f) then (0, false)
    else if l.closes f fence then (0, true)
    else
      let (n, closed) := fencedLines f fence rest
      (n + 1, closed)

/-- The fenced code that starts at a line. Its lines lose the indentation of the fence. -/
def readFenced? (f : Frame) (l : Line) (rest : List Line) : Option Reading :=
  (l.fence? f).map fun fence =>
    let (n, closed) := fencedLines f fence rest
    let text := Line.joinEnded l.indent.toNat (rest.take n)
    .block (.fenced fence.info text) (n + 1 + if closed then 1 else 0)

def readRule? (f : Frame) (l : Line) : Option Reading :=
  if l.isRule f then some (.block .rule 1) else none

/-- How many lines after the first belong to a block of HTML. -/
def htmlLines (f : Frame) (kind : Html.BlockKind) : List Line → Nat
  | [] => 0
  | l :: rest =>
    if l.isOutside f then 0
    else if kind.endsAt l.body then if l.isEmpty then 0 else 1
    else htmlLines f kind rest + 1

def readHtml? (f : Frame) (l : Line) (rest : List Line) : Option Reading :=
  (l.htmlKind? f).map fun kind =>
    let n := if kind.endsAt l.body then 0 else htmlLines f kind rest
    .block (.html (Line.joinEnded f.indent (l :: rest.take n))) (n + 1)

def readHeading? (f : Frame) (l : Line) : Option Reading :=
  (l.heading? f).map fun (depth, text) => .block (.heading depth text) 1

/-- The text of a paragraph or underlined heading. -/
def paragraphText (f : Frame) (ls : List Line) : List Char := trimBlank (Line.join f.indent ls)

/-- The heading of one or more lines with an underline. -/
def readUnderlined? (f : Frame) (l : Line) (rest : List Line) : Option Reading :=
  if l.isCode f then none
  else (underlined? f rest).map fun (n, depth) =>
    .block (.heading depth (paragraphText f (l :: rest.take n))) (n + 2)

def readParagraph (f : Frame) (l : Line) (rest : List Line) : Reading :=
  let n := continuing f (Line.endsParagraph f) rest
  .block (.paragraph (paragraphText f (l :: rest.take n))) (n + 1)

def readDefinition? (f : Frame) (l : Line) (rest : List Line) : Option Reading :=
  if l.isCode f || l.body.head? != some '[' then none
  else
    let n := continuing f (Line.endsDefinition f) rest
    let text := (l :: rest.take n).flatMap fun l => l.body ++ if l.ended then ['\n'] else []
    (definition? text).map fun (d, ends) => ⟨[], [d], ends + 1⟩

/-! ## Tables -/

/-- The rows of a table below its delimiter row, each of `n` cells. `padding` is the number of
cells that may still be added to short rows. -/
def tableRows (f : Frame) (n : Nat) (padding : Int) : List Line → List (List (List Char))
  | [] => []
  | l :: rest =>
    if l.isOutside f || l.endsQuote f || (trimBlank l.body).isEmpty || l.isCode f then []
    else
      let cells := rowCells l.body
      let padding := padding - ((n : Int) - cells.length)
      if padding < 0 then [] else fitRow n cells :: tableRows f n padding rest

def readTable? (f : Frame) (l : Line) (rest : List Line) : Option Reading :=
  (l.tableStart? f rest).map fun (align, header) =>
    let rows := tableRows f align.length maxPaddedCells (rest.drop 1)
    .block (.table align header rows) (rows.length + 2)

/-! ## Containers -/

/-- The lines of a quote after its first, without their markers. A line without marker belongs to
the quote only as the continuation of a paragraph. -/
def quoteLines (f : Frame) (afterEmpty : Bool) : List Line → List Line
  | [] => []
  | l :: rest =>
    if l.isEmpty then []
    else
      match if l.isOutside f then none else l.unquote? with
      | some inner => inner :: quoteLines f inner.isEmpty rest
      | none =>
        if afterEmpty || l.endsQuote f then []
        else { l with indent := -1 } :: quoteLines f false rest

def readQuote? (inner : Reader) (f : Frame) (l : Line) (rest : List Line) : Option Reading :=
  if l.isQuote f then
    l.unquote?.map fun first =>
      let content := inner ⟨0, f.listIndent⟩ (first :: quoteLines f first.isEmpty rest)
      ⟨[.quote content.blocks], content.definitions, content.used⟩
  else none

/-- The content of one list item. An item that starts empty and goes on with a blank line is
empty. -/
def readItem (inner : Reader) (f : Frame) (m : ListMarker) (l : Line) (rest : List Line) :
    Reading :=
  let (first, indent) := l.item m
  if first.isEmpty && rest.head?.all Line.isEmpty then .blank (min 2 (rest.length + 1))
  else inner ⟨indent, some f.indent⟩ (first :: rest)

/-- The marker with which a list goes on at a line. -/
def nextMarker? (f : Frame) (m : ListMarker) (l : Line) : Option ListMarker :=
  if l.isOutside f || l.isCode f || l.endsItem f then none
  else l.marker?.filter (·.symbol == m.symbol)

/-- The items of a list, from the line of the first one on. -/
def readItems (inner : Reader) (f : Frame) (m : ListMarker) :
    List Line → List (List Block) × List Definition × Nat
  | [] => ([], [], 0)
  | l :: rest =>
    let item := readItem inner f m l rest
    let rest' := rest.drop (item.used - 1)
    match rest'.head?.bind (nextMarker? f m) with
    | some m' =>
      let (items, definitions, used) := readItems inner f m' rest'
      (item.blocks :: items, item.definitions ++ definitions, max 1 item.used + used)
    | none => ([item.blocks], item.definitions, max 1 item.used)
termination_by ls => ls.length
decreasing_by simp only [List.length_drop, List.length_cons]; omega

def readList? (inner : Reader) (f : Frame) (l : Line) (rest : List Line) : Option Reading :=
  (l.listStart? f false).map fun m =>
    let (items, definitions, used) := readItems inner f m (l :: rest)
    ⟨[.list m.number items], definitions, used⟩

/-! ## Documents -/

/-- What is read at a line that is not empty: the first kind of block that the line can start. -/
def readBlock (inQuote inItem : Reader) (f : Frame) (l : Line) (rest : List Line) : Reading :=
  (readTable? f l rest <|> readIndented? f l rest <|> readFenced? f l rest <|>
    readQuote? inQuote f l rest <|> readRule? f l <|> readList? inItem f l rest <|>
    readDefinition? f l rest <|> readHtml? f l rest <|> readHeading? f l <|>
    readUnderlined? f l rest).getD (readParagraph f l rest)

/-- The blocks of a container, up to the first line that stands left of its content. -/
def readBlocks (inQuote inItem : Reader) (f : Frame) : List Line → Reading
  | [] => .blank 0
  | l :: rest =>
    if l.isEmpty then .append (.blank 1) (readBlocks inQuote inItem f rest)
    else if l.isOutside f then .blank 0
    else
      let first := readBlock inQuote inItem f l rest
      let first := { first with used := max 1 first.used }
      first.append (readBlocks inQuote inItem f (rest.drop (first.used - 1)))
termination_by ls => ls.length
decreasing_by
  · simp
  · simp only [List.length_drop, List.length_cons]; omega

/-- Content that is nested too deep is dropped, with all lines that follow it. -/
def dropDeep (f : Frame) (ls : List Line) : Reading :=
  let blanks := ls.takeWhile Line.isEmpty
  match ls.dropWhile Line.isEmpty with
  | [] => .blank ls.length
  | l :: _ => .blank (if l.isOutside f then blanks.length else ls.length)

/-- The reader for content that may hold `depth` levels more. A quote takes up one level, a list
with its item two. -/
def reader : (depth : Nat) → Reader
  | 0 => dropDeep
  | 1 => readBlocks (reader 0) (reader 0)
  | depth + 2 => readBlocks (reader (depth + 1)) (reader depth)

def maxNesting : Nat := 200

def readDocument (s : List Char) : Reading :=
  reader maxNesting ⟨0, none⟩ (documentLines (normalize s))

end MarkdownWord.Markdown
