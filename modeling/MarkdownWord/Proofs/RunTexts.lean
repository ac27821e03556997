import MarkdownWord.Proofs.NodeTexts

/-!
# The text of runs

The runs of a node have the text of the node, once each line break in it counts as a line end and
each image as what stands for it. The flags handed down do not matter, and without breaks and images
nothing has to be put in their place (`Node.plainText_spelled`).
-/

namespace MarkdownWord
open Word

namespace Node

mutual
/-- A node in which line breaks and images carry the text that a reader sees. -/
def spelled : Node → Node
  | .root cs => .root (spelledAll cs)
  | .heading d cs => .heading d (spelledAll cs)
  | .paragraph cs => .paragraph (spelledAll cs)
  | .quote cs => .quote (spelledAll cs)
  | .list o s cs => .list o s (spelledAll cs)
  | .item c cs => .item c (spelledAll cs)
  | .table a cs => .table a (spelledAll cs)
  | .row cs => .row (spelledAll cs)
  | .cell cs => .cell (spelledAll cs)
  | .styled s cs => .styled s (spelledAll cs)
  | .link u t cs => .link u t (spelledAll cs)
  | .parent n cs => .parent n (spelledAll cs)
  | .lineBreak _ => .lineBreak "\n"
  | .image url alt _ =>
    .image url alt ("[Image: " ++ (alt.filter (!·.isEmpty)).getD url ++ "]")
  | .text v => .text v
  | .inlineCode v => .inlineCode v
  | .code v lang => .code v lang
  | .literal name v => .literal name v
  | .rule => .rule
  | .bare => .bare

def spelledAll : List Node → List Node
  | [] => []
  | n :: rest => n.spelled :: spelledAll rest
end

mutual
theorem join_runs (f : Flags) : ∀ n : Node,
    String.join ((n.runs f).map Run.plainText) = n.spelled.plainText
  | .root cs | .heading _ cs | .paragraph cs | .quote cs | .list _ _ cs | .item _ cs | .table _ cs
  | .row cs | .cell cs | .styled _ cs | .link _ _ cs | .parent _ cs => by
    rw [runs, spelled, plainText, pieces]
    exact join_runsAll _ cs
  | .text _ | .inlineCode _ | .lineBreak _ | .image _ _ _ => by
    rw [spelled, (leaves_of_leaf rfl).1]
    simp [runs, Run.plainText, value, imageText_eq]
  | .code v _ | .literal _ v => by
    rw [spelled, (leaves_of_leaf rfl).1, runs, plainRuns, value]
    by_cases hv : v = ""
    · simp [hv]
    · simp [hv, Run.plainText]
  | .rule | .bare => rfl

/-- The runs of some nodes have the text of the nodes, whatever flags are handed down. -/
theorem join_runsAll (f : Flags) : ∀ ns : List Node,
    String.join ((runsAll f ns).map Run.plainText) = String.join (piecesAll (spelledAll ns))
  | [] => rfl
  | n :: rest => by
    rw [runsAll, spelledAll, piecesAll, List.map_append, String.join_append, String.join_append,
      join_runs f n, join_runsAll f rest, plainText]
end

/-- A node that is neither a line break nor an image. -/
def IsSpelled (n : Node) : Prop := (∀ v, n ≠ .lineBreak v) ∧ ∀ url alt v, n ≠ .image url alt v

mutual
theorem spelled_eq_self (path : List Node) : ∀ n : Node,
    (∀ l ∈ n.leavesBelow path, l.node.IsSpelled) → n.spelled = n
  | .root cs, h | .heading _ cs, h | .paragraph cs, h | .quote cs, h | .list _ _ cs, h
  | .item _ cs, h | .table _ cs, h | .row cs, h | .cell cs, h | .styled _ cs, h | .link _ _ cs, h
  | .parent _ cs, h => by
    rw [leavesBelow] at h
    rw [spelled, spelledAll_eq_self _ cs h]
  | .lineBreak v, h => absurd rfl ((h _ (List.mem_singleton.mpr rfl)).1 v)
  | .image url alt v, h => absurd rfl ((h _ (List.mem_singleton.mpr rfl)).2 url alt v)
  | .text _, _ | .inlineCode _, _ | .code _ _, _ | .rule, _ | .literal _ _, _ | .bare, _ => rfl

/-- Nodes without line breaks and images below them are spelled out already. -/
theorem spelledAll_eq_self (path : List Node) : ∀ ns : List Node,
    (∀ l ∈ leavesOf path ns, l.node.IsSpelled) → spelledAll ns = ns
  | [], _ => rfl
  | n :: rest, h => by
    rw [leavesOf] at h
    obtain ⟨hn, hrest⟩ := List.forall_mem_append.mp h
    rw [spelledAll, spelled_eq_self path n hn, spelledAll_eq_self path rest hrest]
end

/-- Read as runs or read as a tree, a node has one text. A reader sees a line end for each line
break and a placeholder for each image; with none of either it is the plain text of the node. -/
theorem plainText_spelled (n : Node) :
    (∀ f, String.join ((n.runs f).map Run.plainText) = n.spelled.plainText) ∧
      ((∀ l ∈ n.leaves, l.node.IsSpelled) →
        ∀ f, String.join ((n.runs f).map Run.plainText) = n.plainText) := by
  refine ⟨fun f => join_runs f n, ?_⟩
  intro hleaves f
  rw [join_runs f n, spelled_eq_self [] n hleaves]

/-- Blocks in the place of inline content, an empty text, code in a link and raw markup. -/
theorem plainText_spelled_mixed :
    let n : Node := .quote [.styled .bold [.text "a", .item none [.code "b" none]], .text "", .rule,
      .link "u" .null [.inlineCode "c"], .literal "html_inline" "<d>"]
    (∀ l ∈ n.leaves, l.node.IsSpelled) ∧
      ∀ f, String.join ((n.runs f).map Run.plainText) = "abc<d>" := by
  intro n
  have hleaves : ∀ l ∈ n.leaves, l.node.IsSpelled := by
    simp [n, leaves, leavesBelow, leavesOf, IsSpelled]
  have htext : n.plainText = "abc<d>" := by decide
  refine ⟨hleaves, ?_⟩
  rw [← htext]
  exact (plainText_spelled n).2 hleaves

example : (Node.link "u" .null [.image "v" (some "") "w", .lineBreak ""]).spelled.plainText =
    "[Image: v]\n" := by decide

end Node
end MarkdownWord
