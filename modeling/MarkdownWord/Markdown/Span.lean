/-! # Spans

The inline content of headings, paragraphs and cells. -/

namespace MarkdownWord.Markdown

/-- A piece of inline content. -/
inductive Span where
  | text (s : List Char)
  | code (s : List Char)
  | softBreak
  | hardBreak
  | html (s : List Char)
  | emphasis (spans : List Span)
  | strong (spans : List Span)
  | strike (spans : List Span)
  /-- A link; an empty title is none. -/
  | link (destination title : List Char) (spans : List Span)
  /-- An image, with its description as written and as read. -/
  | image (destination title label : List Char) (spans : List Span)
  deriving Inhabited

/-- Spans with neighbouring texts joined and empty texts left out. -/
def joinTexts : List Span → List Span
  | [] => []
  | .text s :: rest =>
    match joinTexts rest with
    | .text t :: rest => .text (s ++ t) :: rest
    | rest => if s.isEmpty then rest else .text s :: rest
  | span :: rest => span :: joinTexts rest

end MarkdownWord.Markdown
