import MarkdownWord.Word.Runs

/-!
# Leaves and the style of their runs

A leaf of a tree stands below a path of containers. How a leaf looks in running text is said here
from its path alone. The runs of a node are shown to be those of its leaves from left to right: the
flags handed down by `Node.runs` are exactly those that the path owns.
-/

namespace MarkdownWord
open Word

/-- A leaf of a tree and the containers around it, the outermost one first. -/
structure Leaf where
  path : List Node
  node : Node

mutual
/-- The leaves of a node from left to right, where `path` leads to the node. -/
def Node.leavesBelow (path : List Node) : Node → List Leaf
  | .root cs => leavesOf (path ++ [.root cs]) cs
  | .heading d cs => leavesOf (path ++ [.heading d cs]) cs
  | .paragraph cs => leavesOf (path ++ [.paragraph cs]) cs
  | .quote cs => leavesOf (path ++ [.quote cs]) cs
  | .list o s cs => leavesOf (path ++ [.list o s cs]) cs
  | .item c cs => leavesOf (path ++ [.item c cs]) cs
  | .table a cs => leavesOf (path ++ [.table a cs]) cs
  | .row cs => leavesOf (path ++ [.row cs]) cs
  | .cell cs => leavesOf (path ++ [.cell cs]) cs
  | .styled s cs => leavesOf (path ++ [.styled s cs]) cs
  | .link u t cs => leavesOf (path ++ [.link u t cs]) cs
  | .parent n cs => leavesOf (path ++ [.parent n cs]) cs
  | n => [⟨path, n⟩]

/-- The leaves of some nodes from left to right, where `path` leads to each of them. -/
def Node.leavesOf (path : List Node) : List Node → List Leaf
  | [] => []
  | n :: rest => n.leavesBelow path ++ leavesOf path rest
end

/-- The leaves of a node from left to right, each with its path from that node on. -/
def Node.leaves (n : Node) : List Leaf := n.leavesBelow []

/-- A node that sets its content off in a style. -/
def Node.setsOff (s : Style) : Node → Bool
  | .styled t _ => decide (t = s)
  | _ => false

namespace Word

/-- Some flags joined with those that the nodes on a path own. -/
def Flags.along (f : Flags) (path : List Node) : Flags where
  bold := f.bold || path.any (Node.setsOff .bold)
  italic := f.italic || path.any (Node.setsOff .italic)
  strike := f.strike || path.any (Node.setsOff .strike)
  superscript := f.superscript || path.any (Node.setsOff .superscript)
  subscript := f.subscript || path.any (Node.setsOff .subscript)

@[simp] theorem Flags.along_nil (f : Flags) : f.along [] = f := by simp [along]

theorem Flags.along_styled (f : Flags) (path : List Node) (s : Style) (cs : List Node) :
    f.along (path ++ [.styled s cs]) = (f.along path).set s := by
  cases s <;> simp [along, set, Node.setsOff]

theorem Flags.along_other (f : Flags) (path : List Node) {n : Node}
    (h : ∀ s, n.setsOff s = false) : f.along (path ++ [n]) = f.along path := by
  simp [along, h]

end Word

/-- The runs of a leaf inside text set off by some flags. Code keeps bold and italic, an image is
always gray and italic, and a leaf of any other kind shows its text as it is. -/
def Node.leafRuns (f : Flags) : Node → List Run
  | .text v => [.text v { flags := f }]
  | .inlineCode v =>
    [.text v { flags := { bold := f.bold, italic := f.italic }, font := some "Consolas" }]
  | .lineBreak _ => [.lineBreak]
  | .image url alt _ =>
    [.text ("[Image: " ++ (alt.filter (!·.isEmpty)).getD url ++ "]")
      { flags := { italic := true }, color := some "888888" }]
  | n => if n.value.isEmpty then [] else [.text n.value {}]

theorem Word.imageText_eq (url : String) (alt : Option String) :
    imageText url alt = "[Image: " ++ (alt.filter (!·.isEmpty)).getD url ++ "]" := by
  cases alt with
  | none => rfl
  | some a =>
    cases h : a.isEmpty <;> simp [imageText, h, Option.filter]

mutual
theorem Node.runs_along (f : Flags) (path : List Node) : ∀ n : Node,
    n.runs (f.along path) = (n.leavesBelow path).flatMap fun l => l.node.leafRuns (f.along l.path)
  | .styled s cs => by
    rw [runs, leavesBelow, ← runsAll_along f _ cs, Flags.along_styled]
  | .root cs | .heading _ cs | .paragraph cs | .quote cs | .list _ _ cs | .item _ cs | .table _ cs
  | .row cs | .cell cs | .link _ _ cs | .parent _ cs => by
    rw [runs, leavesBelow, ← runsAll_along f _ cs, Flags.along_other f path fun _ => rfl]
  | .image url alt _ => by
    simp [runs, leavesBelow, leafRuns, Format.image, imageText_eq]
  | .text _ | .inlineCode _ | .lineBreak _ => by
    simp [runs, leavesBelow, leafRuns, Format.ofFlags, Format.code, codeFont]
  | .code _ _ | .literal _ _ | .rule | .bare => by
    simp [runs, leavesBelow, leafRuns, plainRuns, value]

theorem Node.runsAll_along (f : Flags) (path : List Node) : ∀ ns : List Node,
    runsAll (f.along path) ns =
      (leavesOf path ns).flatMap fun l => l.node.leafRuns (f.along l.path)
  | [] => by simp [runsAll, leavesOf]
  | n :: rest => by
    rw [runsAll, leavesOf, List.flatMap_append, runs_along f path n, runsAll_along f path rest]
end

/-- The runs of a node are those of its leaves from left to right, each leaf looking as the flags
around the node and the flags on its own path make it look. -/
theorem Node.runs_eq_leaves (f : Flags) (n : Node) :
    n.runs f = n.leaves.flatMap fun l => l.node.leafRuns (f.along l.path) := by
  have h := runs_along f [] n
  rwa [Flags.along_nil] at h

/-- Bold does not leave its own subtree, and a link inside it changes nothing. -/
example : Node.runs {} (.parent "" [.styled .bold [.link "u" .null [.text "a"]], .text "b"]) =
    [.text "a" { flags := { bold := true } }, .text "b" {}] := by decide

end MarkdownWord
