import MarkdownWord.Value
import MarkdownWord.Markdown.Table

/-! # The document tree

A document as its author structured it. Any node may stand anywhere; what stands where it has no
meaning is passed through as far as it can be. -/

namespace MarkdownWord
open Markdown

/-- A way to set off text. -/
inductive Style where
  | italic | bold | strike | superscript | subscript
  deriving DecidableEq, Repr, Inhabited

/-- A node of a document. -/
inductive Node where
  | root (children : List Node)
  | heading (depth : Int) (children : List Node)
  | paragraph (children : List Node)
  | quote (children : List Node)
  /-- A list; a numbered one may state its first number. -/
  | list (ordered : Bool) (start : Option Int) (children : List Node)
  /-- An item of a list; an item of a task list is checked or not. -/
  | item (checked : Option Bool) (children : List Node)
  | table (align : List (Option TextAlignment)) (children : List Node)
  | row (children : List Node)
  | cell (children : List Node)
  | styled (style : Style) (children : List Node)
  /-- A link; its title is null if there is none. -/
  | link (url : String) (title : Value) (children : List Node)
  /-- A container of any other kind. -/
  | parent (name : String) (children : List Node)
  | text (value : String)
  | inlineCode (value : String)
  | code (value : String) (lang : Option String)
  | rule
  | lineBreak (value : String)
  | image (url : String) (alt : Option String) (value : String)
  /-- A leaf of any other kind. -/
  | literal (name value : String)
  /-- A leaf without text. -/
  | bare
  deriving Inhabited

namespace Node

def children? : Node → Option (List Node)
  | root cs | heading _ cs | paragraph cs | quote cs | list _ _ cs | item _ cs | table _ cs
  | row cs | cell cs | styled _ cs | link _ _ cs | parent _ cs => some cs
  | _ => none

def children (n : Node) : List Node := n.children?.getD []

def value : Node → String
  | text v | inlineCode v | code v _ | lineBreak v | image _ _ v | literal _ v => v
  | _ => ""

mutual
/-- The texts of the leaves under a node, in reading order, empty ones left out. -/
def pieces : Node → List String
  | root cs | heading _ cs | paragraph cs | quote cs | list _ _ cs | item _ cs | table _ cs
  | row cs | cell cs | styled _ cs | link _ _ cs | parent _ cs => piecesAll cs
  | text v | inlineCode v | code v _ | lineBreak v | image _ _ v | literal _ v =>
    if v.isEmpty then [] else [v]
  | rule | bare => []

def piecesAll : List Node → List String
  | [] => []
  | n :: rest => pieces n ++ piecesAll rest
end

def plainText (n : Node) : String := String.join n.pieces

/-! ## Nodes from written content -/

/-- The task marker that a text starts with: whether it is checked, and the rest. After the
brackets comes a blank, or nothing but a last line end. -/
def taskMarker? : List Char → Option (Bool × List Char)
  | '[' :: c :: ']' :: rest =>
    if c = ' ' || c = 'x' || c = 'X' then
      let after := rest.dropWhile isSpace
      if after.length < rest.length || rest.isEmpty || rest = ['\n'] then some (c != ' ', after)
      else none
    else none
  | _ => none

/-- An item with its content. A task marker at the start of a first paragraph is taken off. -/
def itemOf (content : List Node) : Node :=
  match content with
  | .paragraph (.text v :: more) :: rest =>
    match taskMarker? v.toList with
    | some (checked, left) =>
      let texts := if left.isEmpty then more else .text (String.ofList left) :: more
      .item (some checked) (.paragraph texts :: rest)
    | none => .item none content
  | _ => .item none content

/-- Code as written: a last line end does not belong to it, and the first word of the text after
the fence names the language. -/
def codeOf (text info : List Char) : Node :=
  let text := if text.getLast? = some '\n' then text.dropLast else text
  .code (String.ofList text) ((Text.words info).head?.map String.ofList)

end Node
end MarkdownWord
