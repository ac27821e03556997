import MarkdownWord.Markdown.Inline
import MarkdownWord.Node.OfTokens

/-! # The token stream of a Markdown text

A text that is read into blocks and spans, as a flat stream of tokens. Texts without a character,
which may stand beside marks, are left out of it. -/

namespace MarkdownWord.Markdown

/-- The token of an element without content. -/
def leafToken (kind : String) (content : List Char) : Token :=
  .single { kind, content := String.ofList content } []

/-- The tokens of an element around those of its content. -/
def enclosed (m : Details) (content : List Token) : List Token :=
  .opening { m with kind := m.kind ++ openSuffix } :: (content ++ [.closing])

def titleAttribute (title : List Char) : List (String × Value) :=
  if title.isEmpty then [] else [("title", .string (String.ofList title))]

mutual
def Span.tokens : Span → List Token
  | .text s => [leafToken "text" s]
  | .code s => [leafToken "code_inline" s]
  | .softBreak => [leafToken "softbreak" []]
  | .hardBreak => [leafToken "hardbreak" []]
  | .html s => [leafToken "html_inline" s]
  | .emphasis spans => enclosed { kind := "em", tag := "em" } (spansTokens spans)
  | .strong spans => enclosed { kind := "strong", tag := "strong" } (spansTokens spans)
  | .strike spans => enclosed { kind := "s", tag := "s" } (spansTokens spans)
  | .link destination title spans =>
    let attributes := ("href", .string (String.ofList destination)) :: titleAttribute title
    enclosed { kind := "link", tag := "a", attributes } (spansTokens spans)
  | .image destination title label spans =>
    let attributes := ("src", .string (String.ofList destination)) :: ("alt", .string "") ::
      titleAttribute title
    [.single { kind := "image", tag := "img", attributes, content := String.ofList label }
      (spansTokens spans)]

def spansTokens : List Span → List Token
  | [] => []
  | s :: rest => s.tokens ++ spansTokens rest
end

section Blocks

variable (definitions : List Definition)

/-- The token of the inline content of a block, which holds a stream of its own. -/
def inlineToken (text : List Char) : Token :=
  .single { kind := "inline", content := String.ofList text }
    (spansTokens (readSpans definitions text))

def alignmentWord : TextAlignment → String
  | .left => "left"
  | .center => "center"
  | .right => "right"

def styleAttribute : Option TextAlignment → List (String × Value)
  | some a => [("style", .string ("text-align:" ++ alignmentWord a))]
  | none => []

def cellTokens (kind : String) (align : Option TextAlignment) (text : List Char) : List Token :=
  enclosed { kind, tag := kind, attributes := styleAttribute align } [inlineToken definitions text]

/-- The tokens of a row, with a cell for each column. -/
def rowTokens (kind : String) (align : List (Option TextAlignment)) (cells : List (List Char)) :
    List Token :=
  enclosed { kind := "tr", tag := "tr" }
    (List.zipWith (cellTokens definitions kind) align cells).flatten

def startAttribute (start : Nat) : List (String × Value) :=
  if start = 1 then [] else [("start", .number (.int start))]

mutual
def Block.tokens : Block → List Token
  | .indented text => [leafToken "code_block" text]
  | .fenced info text =>
    [.single { kind := "fence", tag := "code", content := String.ofList text
               info := String.ofList info } []]
  | .quote blocks => enclosed { kind := "blockquote", tag := "blockquote" } (blocksTokens blocks)
  | .rule => [leafToken "hr" []]
  | .list none items => enclosed { kind := "bullet_list", tag := "ul" } (itemsTokens items)
  | .list (some start) items =>
    enclosed { kind := "ordered_list", tag := "ol", attributes := startAttribute start }
      (itemsTokens items)
  | .html text => [leafToken "html_block" text]
  | .heading depth text =>
    enclosed { kind := "heading", tag := "h" ++ toString depth } [inlineToken definitions text]
  | .paragraph text => enclosed { kind := "paragraph", tag := "p" } [inlineToken definitions text]
  | .table align header rows =>
    let head :=
      enclosed { kind := "thead", tag := "thead" } (rowTokens definitions "th" align header)
    let body :=
      enclosed { kind := "tbody", tag := "tbody" } (rows.flatMap (rowTokens definitions "td" align))
    enclosed { kind := "table", tag := "table" } (head ++ if rows.isEmpty then [] else body)

def blocksTokens : List Block → List Token
  | [] => []
  | b :: rest => b.tokens ++ blocksTokens rest

def itemsTokens : List (List Block) → List Token
  | [] => []
  | item :: rest =>
    enclosed { kind := "list_item", tag := "li" } (blocksTokens item) ++ itemsTokens rest
end

end Blocks

/-- The token stream of a text. -/
def tokens (s : String) : List Token :=
  let document := readDocument s.toList
  blocksTokens document.definitions document.blocks

end MarkdownWord.Markdown
