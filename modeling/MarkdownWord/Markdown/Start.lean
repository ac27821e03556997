import MarkdownWord.Markdown.Html
import MarkdownWord.Markdown.Table

/-! # How blocks start

The first lines of the blocks, each recognised from the line itself and the container that it
stands in. The same tests decide which lines end a paragraph, a quote or a list item. -/

namespace MarkdownWord.Markdown
open Text

/-- What a line has to know of the containers around it. -/
structure Frame where
  /-- The column from which the container's content is indented. -/
  indent : Nat
  /-- The column of the container around the innermost list. -/
  listIndent : Option Nat
  deriving Repr, Inhabited

/-- A code block that is set off by a fence: the mark, its length and the text after it. -/
structure Fence where
  mark : Char
  length : Nat
  info : List Char

/-- The marker of a list item: its last character, the number before it, and its width. -/
structure ListMarker where
  symbol : Char
  number : Option Nat
  width : Nat
  deriving Repr, Inhabited

namespace Line

def isCode (f : Frame) (l : Line) : Bool := 4 ≤ l.indent - f.indent

/-- A line that stands left of the container's content. -/
def isOutside (f : Frame) (l : Line) : Bool := l.indent < f.indent

/-- The opening fence of a code block: three or more backticks or tildes. No backtick may follow
backticks. -/
def fence? (f : Frame) (l : Line) : Option Fence :=
  match l.body with
  | c :: _ =>
    let run := l.body.takeWhile (· == c)
    let info := l.body.dropWhile (· == c)
    if l.isCode f || !(c = '~' || c = '`') || run.length < 3 then none
    else if c = '`' && info.contains '`' then none
    else some ⟨c, run.length, info⟩
  | [] => none

/-- The closing fence of a code block: the same mark, at least as often, and nothing else. -/
def closes (f : Frame) (fence : Fence) (l : Line) : Bool :=
  !l.isCode f && fence.length ≤ (l.body.takeWhile (· == fence.mark)).length &&
    (l.body.dropWhile (· == fence.mark)).all isSpace

def isQuote (f : Frame) (l : Line) : Bool := !l.isCode f && l.body.head? = some '>'

/-- A horizontal rule: three or more stars, hyphens or underscores, and blanks. -/
def isRule (f : Frame) (l : Line) : Bool :=
  match l.body with
  | c :: _ =>
    !l.isCode f && (c = '*' || c = '-' || c = '_') &&
      l.body.all (fun d => d = c || isSpace d) && 3 ≤ l.body.count c
  | [] => false

/-- The marker of a list item: a bullet, or up to nine digits with a point or a parenthesis, and
then a blank or the end of the line. -/
def marker? (l : Line) : Option ListMarker :=
  let digits := l.body.takeWhile Char.isDigit
  match l.body.dropWhile Char.isDigit with
  | c :: rest =>
    if !rest.head?.all isSpace then none
    else if digits.isEmpty then
      if c = '*' || c = '-' || c = '+' then some ⟨c, none, 1⟩ else none
    else if digits.length ≤ 9 && (c = '.' || c = ')') then
      some ⟨c, some (digits.foldl (fun n d => n * 10 + (d.toNat - 48)) 0), digits.length + 1⟩
    else none
  | [] => none

/-- The marker of a list that starts at a line. When it would interrupt a paragraph of the same
container, the number has to be one and the item must not start empty. -/
def listStart? (f : Frame) (inParagraph : Bool) (l : Line) : Option ListMarker :=
  let tooDeep := match f.listIndent with
    | some n => 4 ≤ l.indent - n && l.isOutside f
    | none => false
  if l.isCode f || tooDeep then none
  else match l.marker? with
    | some m =>
      let interrupting := inParagraph && !l.isOutside f
      if interrupting && m.number.any (· != 1) then none
      else if interrupting && (l.body.drop m.width).all isSpace then none
      else some m
    | none => none

/-- The first line of a list item without its marker, and the column of the item's content. After
the marker comes at least one blank; with more than four the rest is code inside the item. -/
def item (m : ListMarker) (l : Line) : Line × Nat :=
  let col := l.indent.toNat + m.width
  let after := l.body.drop m.width
  let blanks := after.takeWhile isSpace
  let body := after.dropWhile isSpace
  let edge := columnAfterAll l.base col blanks
  let width := if body.isEmpty || col + 4 < edge then 1 else edge - col
  ({ l with margin := l.margin ++ l.body.take m.width ++ blanks, body, indent := edge },
    col + width)

/-- The depth and text of a heading that starts with number signs. -/
def heading? (f : Frame) (l : Line) : Option (Nat × List Char) :=
  let depth := (l.body.takeWhile (· == '#')).length
  let rest := l.body.dropWhile (· == '#')
  if l.isCode f || depth = 0 || 6 < depth || !rest.head?.all isSpace then none
  else
    let text := trimRight isSpace rest
    let cut := trimRight (· == '#') text
    some (depth, trimBlank (if cut.getLast?.any isSpace then cut else text))

/-- The depth of the heading whose text is underlined by a line. -/
def underline? (l : Line) : Option Nat :=
  match l.body with
  | c :: _ =>
    if (c = '=' || c = '-') && (l.body.dropWhile (· == c)).all isSpace then
      some (if c = '=' then 1 else 2)
    else none
  | [] => none

def htmlKind? (f : Frame) (l : Line) : Option Html.BlockKind :=
  if l.isCode f then none else Html.blockKind? l.body

/-- The columns of a table whose header is a line and whose delimiter row is the next one. -/
def tableStart? (f : Frame) (l : Line) (rest : List Line) :
    Option (List (Option TextAlignment) × List (List Char)) :=
  match rest with
  | next :: _ =>
    if next.isOutside f || next.isCode f || l.isCode f then none
    else tableColumns? l.body next.body
  | [] => none

def endsItem (f : Frame) (l : Line) : Bool :=
  (l.fence? f).isSome || l.isQuote f || l.isRule f

/-- A line that ends a quote or a table before it. -/
def endsQuote (f : Frame) (l : Line) : Bool :=
  l.endsItem f || (l.listStart? f false).isSome || (l.htmlKind? f).any (·.interrupts) ||
    (l.heading? f).isSome

/-- A line that ends a paragraph before it, given the lines after it. -/
def endsParagraph (f : Frame) (l : Line) (rest : List Line) : Bool :=
  (l.tableStart? f rest).isSome || l.endsItem f || (l.listStart? f true).isSome ||
    (l.htmlKind? f).any (·.interrupts) || (l.heading? f).isSome

/-- A line that ends a link reference definition before it, given the lines after it. -/
def endsDefinition (f : Frame) (l : Line) (rest : List Line) : Bool :=
  (l.tableStart? f rest).isSome || l.endsQuote f

/-- A line that goes on with the text before it whatever it holds: one that would be code, or one
that only continues a quoted paragraph. -/
def isLazy (f : Frame) (l : Line) : Bool := l.isCode f || l.indent < 0

end Line

/-- How many of the lines go on with a paragraph before them. `ends` tells which lines do not. -/
def continuing (f : Frame) (ends : Line → List Line → Bool) : List Line → Nat
  | [] => 0
  | l :: rest =>
    if l.isEmpty then 0
    else if !l.isLazy f && ends l rest then 0
    else continuing f ends rest + 1

/-- The depth of the heading whose text is underlined by a line of the same container. -/
def Line.underlineIn? (f : Frame) (l : Line) : Option Nat :=
  if l.isCode f || l.isOutside f then none else l.underline?

/-- The heading made of a line, some of the lines after it, and an underline: how many lines lie
between, and the depth. -/
def underlined? (f : Frame) : List Line → Option (Nat × Nat)
  | [] => none
  | l :: rest =>
    if l.isEmpty then none
    else match l.underlineIn? f with
      | some depth => some (0, depth)
      | none =>
        if !l.isLazy f && l.endsParagraph f rest then none
        else (underlined? f rest).map fun (n, depth) => (n + 1, depth)

end MarkdownWord.Markdown
