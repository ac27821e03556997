import MarkdownWord.Node
import MarkdownWord.Markdown.Inline

/-! # The tree of a Markdown text

The nodes are made from blocks and spans directly. They are those that the token stream of the text
is made into, token by token (`Node.ofTokens?_tokens`). -/

namespace MarkdownWord
open Markdown

mutual
/-- The nodes of a span: none for an empty text, one otherwise. A line end in the text is a blank
between words. -/
def Markdown.Span.toNodes : Span → List Node
  | .text s => if s.isEmpty then [] else [.text (String.ofList s)]
  | .code s => [.inlineCode (String.ofList s)]
  | .softBreak => [.text " "]
  | .hardBreak => [.lineBreak ""]
  | .html s => [.literal "html_inline" (String.ofList s)]
  | .emphasis spans => [.styled .italic (spansToNodes spans)]
  | .strong spans => [.styled .bold (spansToNodes spans)]
  | .strike spans => [.styled .strike (spansToNodes spans)]
  | .link destination title spans =>
    let title := if title.isEmpty then .null else .string (String.ofList title)
    [.link (String.ofList destination) title (spansToNodes spans)]
  | .image destination _ label _ =>
    let alt := if label.isEmpty then none else some (String.ofList label)
    [.image (String.ofList destination) alt ""]

def Markdown.spansToNodes : List Span → List Node
  | [] => []
  | s :: rest => s.toNodes ++ spansToNodes rest
end

def Markdown.inlineNodes (definitions : List Definition) (s : List Char) : List Node :=
  spansToNodes (readSpans definitions s)

def Markdown.rowNode (definitions : List Definition) (cells : List (List Char)) : Node :=
  .row (cells.map fun c => .cell (inlineNodes definitions c))

mutual
def Markdown.Block.toNode (definitions : List Definition) : Block → Node
  | .indented text => .codeOf text []
  | .fenced info text => .codeOf text info
  | .quote blocks => .quote (blocksToNodes definitions blocks)
  | .rule => .rule
  | .list start items =>
    .list start.isSome (start.map Int.ofNat) (itemsToNodes definitions items)
  | .html text => .literal "html_block" (String.ofList text)
  | .heading depth text => .heading depth (inlineNodes definitions text)
  | .paragraph text => .paragraph (inlineNodes definitions text)
  | .table align header rows => .table align ((header :: rows).map (rowNode definitions))

def Markdown.blocksToNodes (definitions : List Definition) : List Block → List Node
  | [] => []
  | b :: rest => b.toNode definitions :: blocksToNodes definitions rest

def Markdown.itemsToNodes (definitions : List Definition) : List (List Block) → List Node
  | [] => []
  | item :: rest => .itemOf (blocksToNodes definitions item) :: itemsToNodes definitions rest
end

def Node.ofMarkdown (s : String) : Node :=
  let document := readDocument s.toList
  .root (blocksToNodes document.definitions document.blocks)

end MarkdownWord
