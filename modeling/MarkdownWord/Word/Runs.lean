import MarkdownWord.Word.Document

/-! # The runs of a tree

Inline content as a row of runs. Each way of setting off text holds for everything below the node
that asks for it; code keeps bold and italic only, an image is replaced by its description, and a
link that stands directly in a paragraph keeps its runs together. -/

namespace MarkdownWord
open Word

namespace Word

def codeFont : String := "Consolas"

def Format.ofFlags (f : Flags) : Format := { flags := f }

def Format.code (f : Flags) : Format :=
  { flags := { bold := f.bold, italic := f.italic }, font := some codeFont }

/-- The format of the text that stands for an image. -/
def Format.image : Format := { flags := { italic := true }, color := some "888888" }

/-- The text that stands for an image: its description, or its address where it has none. -/
def imageText (url : String) (alt : Option String) : String :=
  let shown := match alt with
    | some a => if a.isEmpty then url else a
    | none => url
  "[Image: " ++ shown ++ "]"

def linkColor : String := "0563C1"

def linkStyle : String := "Hyperlink"

/-- A run inside a link. Line breaks stay as they are. -/
def Run.linked : Run → Run
  | .text v f =>
    .text v { f with color := some linkColor, underline := true, charStyle := some linkStyle }
  | .lineBreak => .lineBreak

/-- The run of a text without format, or nothing for an empty text. -/
def plainRuns (v : String) : List Run := if v.isEmpty then [] else [.text v {}]

end Word

mutual
/-- The runs of a node inside text set off by some flags. -/
def Node.runs (f : Flags) : Node → List Run
  | .text v => [.text v (.ofFlags f)]
  | .inlineCode v => [.text v (.code f)]
  | .lineBreak _ => [.lineBreak]
  | .image url alt _ => [.text (imageText url alt) .image]
  | .styled s cs => runsAll (f.set s) cs
  | .root cs | .heading _ cs | .paragraph cs | .quote cs | .list _ _ cs | .item _ cs | .table _ cs
  | .row cs | .cell cs | .link _ _ cs | .parent _ cs => runsAll f cs
  | .code v _ | .literal _ v => plainRuns v
  | .rule | .bare => []

/-- The runs of some nodes inside text set off by some flags. -/
def Node.runsAll (f : Flags) : List Node → List Run
  | [] => []
  | n :: rest => n.runs f ++ runsAll f rest
end

namespace Node

/-- The runs of a link: those of its children, marked as a link. -/
def linkRuns (f : Flags) (children : List Node) : List Run :=
  (runsAll f children).map Run.linked

/-- The members of a paragraph for one of its nodes. -/
def members (f : Flags) : Node → List Member
  | .link url _ cs => [.link url (linkRuns f cs)]
  | n => (n.runs f).map Member.run

def membersAll (f : Flags) (nodes : List Node) : List Member := nodes.flatMap (members f)

theorem runsAll_eq_flatMap (f : Flags) (nodes : List Node) :
    runsAll f nodes = nodes.flatMap (runs f) := by
  induction nodes with
  | nil => simp [runsAll]
  | cons n rest ih => simp [runsAll, ih]

end Node
end MarkdownWord
