import MarkdownWord.Node

/-!
# Where nodes may stand

A tree is well formed when every node stands in a place meant for it: blocks under the root, under
quotes and under items, items in lists, rows in tables, cells in rows, and inline content in
headings, paragraphs and cells. A container of no special kind holds what could stand in its place.
-/

namespace MarkdownWord

/-- The places in which a node can stand. -/
inductive Place where
  | block | inline | item | row | cell
  deriving DecidableEq, Repr

mutual
/-- A node that may stand in a place, and below which every node stands in its own. -/
def Node.fits (p : Place) : Node → Bool
  | .root cs | .quote cs => p = .block && allFit .block cs
  | .heading _ cs | .paragraph cs => p = .block && allFit .inline cs
  | .list _ _ cs => p = .block && allFit .item cs
  | .item _ cs => p = .item && allFit .block cs
  | .table _ cs => p = .block && allFit .row cs
  | .row cs => p = .row && allFit .cell cs
  | .cell cs => p = .cell && allFit .inline cs
  | .styled _ cs | .link _ _ cs => p = .inline && allFit .inline cs
  | .parent _ cs => (p = .block || p = .inline) && allFit p cs
  | .text _ | .inlineCode _ | .lineBreak _ | .image _ _ _ => p = .inline
  | .code _ _ | .rule => p = .block
  | .literal _ _ => p = .block || p = .inline
  | .bare => false

/-- Nodes each of which may stand in a place. -/
def Node.allFit (p : Place) : List Node → Bool
  | [] => true
  | n :: rest => n.fits p && allFit p rest
end

namespace Node

theorem allFit_cons {p : Place} {n : Node} {rest : List Node} :
    allFit p (n :: rest) = true ↔ n.fits p = true ∧ allFit p rest = true := by
  simp [allFit]

/-- Only a row fits in a table. -/
theorem eq_row_of_fits {n : Node} (h : n.fits .row = true) :
    ∃ cs, n = .row cs ∧ allFit .cell cs = true := by
  cases n with
  | row cs => exact ⟨cs, rfl, by simpa [fits] using h⟩
  | _ => simp [fits] at h

/-- Only a cell fits in a row. -/
theorem eq_cell_of_fits {n : Node} (h : n.fits .cell = true) :
    ∃ cs, n = .cell cs ∧ allFit .inline cs = true := by
  cases n with
  | cell cs => exact ⟨cs, rfl, by simpa [fits] using h⟩
  | _ => simp [fits] at h

end Node
end MarkdownWord
