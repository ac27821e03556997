import MarkdownWord.Text.Blank
import MarkdownWord.Text.CaseFold

/-! # Raw HTML

Tags, comments and the like inside a line, and the lines that open a block of HTML. -/

namespace MarkdownWord.Markdown.Html
open Text

/-- The rest of a text after the first occurrence of `w`. -/
def afterFirst? (w : List Char) : List Char → Option (List Char)
  | [] => if w.isEmpty then some [] else none
  | c :: rest => if w.isPrefixOf (c :: rest) then some ((c :: rest).drop w.length)
    else afterFirst? w rest

/-- A text that holds `w`, letters compared without regard to case when `caseless` is set. -/
def holds (caseless : Bool) (w : String) (s : List Char) : Bool :=
  (afterFirst? w.toList (if caseless then s.map asciiCaseless else s)).isSome

/-! ## Inside a line -/

/-- A character of a tag name after its first letter. -/
def isTagChar (c : Char) : Bool := c.isAlphanum || c = '-'

/-- A character of an attribute name after its first one. -/
def isNameChar (c : Char) : Bool := c.isAlphanum || c = ':' || c = '.' || c = '_' || c = '-'

def afterName? : List Char → Option (List Char)
  | c :: rest =>
    if c.isAlpha || c = '_' || c = ':' then some (rest.dropWhile isNameChar) else none
  | [] => none

/-- A character of an attribute value without quotes. -/
def isBareChar (c : Char) : Bool :=
  32 < c.toNat && !(c = '"' || c = '\'' || c = '=' || c = '<' || c = '>' || c = '`')

/-- Where a value without quotes may end, the longest reading first: at its last character, or
before a blank beyond ASCII inside it. -/
def bareEnds (s : List Char) : List (List Char) :=
  go (s.takeWhile isBareChar) (s.dropWhile isBareChar) true
where
  go : List Char → List Char → Bool → List (List Char)
    | [], rest, first => if first then [] else [rest]
    | c :: value, rest, first =>
      let longer := go value rest false
      if isBlank c && !first then longer ++ [c :: value ++ rest] else longer

/-- The rests of a text after the value of an attribute. -/
def valueEnds (s : List Char) : List (List Char) :=
  match s.dropWhile isBlank with
  | '=' :: rest =>
    match rest.dropWhile isBlank with
    | '"' :: rest => (afterFirst? ['"'] rest).toList
    | '\'' :: rest => (afterFirst? ['\''] rest).toList
    | rest => bareEnds rest
  | _ => []

/-- The rest of a text after the end of an opening tag: blanks, an optional slash, and `>`. -/
def afterClose? (s : List Char) : Option (List Char) :=
  match s.dropWhile isBlank with
  | '>' :: rest => some rest
  | '/' :: '>' :: rest => some rest
  | _ => none

/-- The rest of a text after the attributes and the end of an opening tag. `fuel` bounds the number
of attributes. -/
def afterAttributes? : Nat → List Char → Option (List Char)
  | 0, s => afterClose? s
  | fuel + 1, s =>
    match s with
    | c :: _ =>
      if isBlank c then
        match afterName? (s.dropWhile isBlank) with
        | some rest =>
          ((valueEnds rest).findSome? (afterAttributes? fuel)).or (afterAttributes? fuel rest)
        | none => afterClose? s
      else afterClose? s
    | [] => none

def afterOpenTag? : List Char → Option (List Char)
  | '<' :: c :: rest =>
    if c.isAlpha then
      let rest := rest.dropWhile isTagChar
      afterAttributes? rest.length rest
    else none
  | _ => none

def afterCloseTag? : List Char → Option (List Char)
  | '<' :: '/' :: c :: rest =>
    if c.isAlpha then
      match (rest.dropWhile isTagChar).dropWhile isBlank with
      | '>' :: rest => some rest
      | _ => none
    else none
  | _ => none

/-- The rest of a text after the body and end of a comment. Hyphens are read in the groups `-x` and
`--x`, where `x` is no hyphen in the first and no `>` in the second. -/
def afterCommentBody? : List Char → Option (List Char)
  | '-' :: '-' :: '>' :: rest => some rest
  | '-' :: '-' :: _ :: rest => afterCommentBody? rest
  | '-' :: c :: rest => if c = '-' then none else afterCommentBody? rest
  | c :: rest => if c = '-' then none else afterCommentBody? rest
  | [] => none

def afterComment? : List Char → Option (List Char)
  | '<' :: '!' :: '-' :: '-' :: '>' :: rest => some rest
  | '<' :: '!' :: '-' :: '-' :: '-' :: '>' :: rest => some rest
  | '<' :: '!' :: '-' :: '-' :: rest => afterCommentBody? rest
  | _ => none

/-- The rest of a text after a processing instruction, a declaration or a CDATA section. -/
def afterSpecial? : List Char → Option (List Char)
  | '<' :: '?' :: rest => afterFirst? "?>".toList rest
  | '<' :: '!' :: '[' :: rest =>
    if "CDATA[".toList.isPrefixOf rest then afterFirst? "]]>".toList (rest.drop 6) else none
  | '<' :: '!' :: c :: rest => if c.isAlpha then afterFirst? ['>'] rest else none
  | _ => none

/-- The rest of a text after a piece of raw HTML at its front. -/
def afterTag? (s : List Char) : Option (List Char) :=
  afterOpenTag? s <|> afterCloseTag? s <|> afterComment? s <|> afterSpecial? s

/-! ## Blocks -/

/-- How a block of HTML ends: with the line that holds one of some texts, or before the next blank
line. Only some kinds may interrupt a paragraph. -/
inductive BlockKind where
  | until (caseless : Bool) (ends : List String)
  | untilBlank (interrupts : Bool)

/-- The elements whose content is text, up to their closing tag. -/
def textElements : List String := ["script", "pre", "style", "textarea"]

/-- The elements that open a block wherever their tag starts a line. -/
def blockElements : List String := [
  "address", "article", "aside", "base", "basefont", "blockquote", "body", "caption", "center",
  "col", "colgroup", "dd", "details", "dialog", "dir", "div", "dl", "dt", "fieldset",
  "figcaption", "figure", "footer", "form", "frame", "frameset", "h1", "h2", "h3", "h4", "h5",
  "h6", "head", "header", "hr", "html", "iframe", "legend", "li", "link", "main", "menu",
  "menuitem", "nav", "noframes", "ol", "optgroup", "option", "p", "param", "search", "section",
  "summary", "table", "tbody", "td", "tfoot", "th", "thead", "title", "tr", "track", "ul"]

/-- The name of an element at the front of a text, in lower case, and the rest. -/
def elementName (s : List Char) : String × List Char :=
  let isNameLetter (c : Char) : Bool := (asciiCaseless c).isAlphanum
  (String.ofList ((s.takeWhile isNameLetter).map asciiCaseless), s.dropWhile isNameLetter)

def opensTextElement : List Char → Bool
  | '<' :: rest =>
    let (name, rest) := elementName rest
    textElements.contains name && match rest with
      | [] => true
      | c :: _ => c = '>' || isBlank c
  | _ => false

/-- The tag, opening or closing, of a block element. -/
def opensBlockElement : List Char → Bool
  | '<' :: rest =>
    let (name, rest) := elementName (match rest with | '/' :: r => r | r => r)
    blockElements.contains name && match rest with
      | [] => true
      | '/' :: '>' :: _ => true
      | c :: _ => c = '>' || isBlank c
  | _ => false

/-- A line that is one opening or closing tag and blanks. -/
def isTagLine (s : List Char) : Bool :=
  match afterOpenTag? s <|> afterCloseTag? s with
  | some rest => rest.all isBlank
  | none => false

/-- The kind of block that a line opens, if it opens one. -/
def blockKind? (line : List Char) : Option BlockKind :=
  let starts (w : String) : Bool := w.toList.isPrefixOf line
  if opensTextElement line then some (.until true (textElements.map fun e => "</" ++ e ++ ">"))
  else if starts "<!--" then some (.until false ["-->"])
  else if starts "<?" then some (.until false ["?>"])
  else if starts "<!" && (line.drop 2).head?.any Char.isUpper then some (.until false [">"])
  else if starts "<![CDATA[" then some (.until false ["]]>"])
  else if opensBlockElement line then some (.untilBlank true)
  else if isTagLine line then some (.untilBlank false)
  else none

def BlockKind.endsAt (line : List Char) : BlockKind → Bool
  | .until caseless ends => ends.any fun w => holds caseless w line
  | .untilBlank _ => line.isEmpty

def BlockKind.interrupts : BlockKind → Bool
  | .until _ _ => true
  | .untilBlank b => b

end MarkdownWord.Markdown.Html
