import MarkdownWord.Node
import MarkdownWord.Token
import MarkdownWord.Text.Affix

/-! # The tree of a token stream -/

namespace MarkdownWord
open Number Text Markdown

/-- Why a token stream has no tree. -/
inductive TokenError where
  /-- A token closes nothing, or an element stays open. -/
  | unbalanced
  /-- The digits in the tag of a heading are no numeral. -/
  | headingTag (tag : String)
  /-- The first number of a list is given by a text that is no numeral. -/
  | listStartText (text : String)
  /-- It is given by a number without a whole part. -/
  | listStartNotFinite (x : Binary64)
  /-- It is given by a value that is neither a number nor a text. -/
  | listStartKind (value : Value)
  deriving Inhabited

/-- A value as a whole number: the whole part of a number, the number that a text denotes, and one
or zero for a truth value. -/
def Value.whole? : Value → Except TokenError Int
  | .number (.int n) => pure n
  | .number (.real x) =>
    match x.truncate? with
    | some n => pure n
    | none => throw (.listStartNotFinite x)
  | .bool b => pure (if b then 1 else 0)
  | .string s =>
    match readInt? s with
    | some n => pure n
    | none => throw (.listStartText s)
  | .broken t => throw (.listStartText t.standIn)
  | v => throw (.listStartKind v)

/-- The depth that the tag of a heading states after its first letter, or one. -/
def headingDepth? (tag : String) : Except TokenError Int :=
  let digits := tag.toList.drop 1
  if digits.isEmpty || !digits.all isDigitLike then pure 1
  else match readInt? (String.ofList digits) with
    | some n => pure n
    | none => throw (.headingTag tag)

def listStart? (m : Details) : Except TokenError Int :=
  match m.attribute? "start" with
  | some v => v.whole?
  | none => pure 1

def alignmentWords : List (String × TextAlignment) :=
  [("left", .left), ("center", .center), ("right", .right)]

/-- The alignment that a style names at its front, after `text-align:` and white space. -/
def styleAlignmentHere? (s : List Char) : Option TextAlignment :=
  (after? "text-align:".toList s).bind fun rest =>
    let rest := rest.dropWhile isBlank
    (alignmentWords.find? fun w => w.1.toList.isPrefixOf rest).map (·.2)

def styleAlignment? : List Char → Option TextAlignment
  | [] => none
  | c :: rest => (styleAlignmentHere? (c :: rest)).or (styleAlignment? rest)

/-- The alignments of a table: those of the last row in a head. -/
def tableAlignments (children : List Element) : List (Option TextAlignment) :=
  let heads := children.filter (·.details.kind == "thead")
  match (heads.flatMap (·.children)).getLast? with
  | some row => row.children.map fun c => styleAlignment? (c.details.attributeText "style").toList
  | none => []

/-- The text of a leaf, or nothing for an empty text. -/
def textOf (s : String) : List Node := if s.isEmpty then [] else [.text s]

mutual
/-- The nodes of an element: mostly one, none for an empty text, and the nodes of its children for a
wrapper without meaning of its own. -/
def Element.toNodes? : Element → Except TokenError (List Node)
  | .mk m children =>
    let within (f : List Node → Node) : Except TokenError (List Node) := do
      return [f (← elementsToNodes? children)]
    match m.kind with
    | "heading" => do
      let depth ← headingDepth? m.tag
      within (.heading depth)
    | "paragraph" => within .paragraph
    | "blockquote" => within .quote
    | "bullet_list" => within (.list false none)
    | "ordered_list" => do
      let start ← listStart? m
      within (.list true start)
    | "list_item" => within .itemOf
    | "fence" | "code_block" => pure [.codeOf m.content.toList m.info.toList]
    | "hr" => pure [.rule]
    | "table" => within (.table (tableAlignments children))
    | "tr" => within .row
    | "th" | "td" => within .cell
    | "em" => within (.styled .italic)
    | "strong" => within (.styled .bold)
    | "s" => within (.styled .strike)
    | "link" => within (.link (m.attributeText "href") ((m.attribute? "title").getD .null))
    | "image" =>
      let alt := if m.content.isEmpty then none else some m.content
      pure [.image (m.attributeText "src") alt ""]
    | "text" | "text_special" => pure (textOf m.content)
    | "code_inline" => pure [.inlineCode m.content]
    | "softbreak" => pure [.text " "]
    | "hardbreak" => pure [.lineBreak ""]
    | "inline" | "thead" | "tbody" => elementsToNodes? children
    | kind =>
      if children.isEmpty then pure [.literal kind m.content] else within (.parent kind)

def elementsToNodes? : List Element → Except TokenError (List Node)
  | [] => pure []
  | e :: rest => do
    let nodes ← e.toNodes?
    return nodes ++ (← elementsToNodes? rest)
end

def Node.ofTokens? (tokens : List Token) : Except TokenError Node :=
  match Element.ofTokens? tokens with
  | some elements => return .root (← elementsToNodes? elements)
  | none => throw .unbalanced

end MarkdownWord
