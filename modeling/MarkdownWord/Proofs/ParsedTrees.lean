import MarkdownWord.Node.OfMarkdown
import MarkdownWord.Proofs.Contents
import MarkdownWord.Proofs.Links
import MarkdownWord.Proofs.Readings
import MarkdownWord.Proofs.Sites

/-!
# The trees of Markdown texts

What is read from a text is more regular than trees are in general: the nodes that blocks are made
from have headings of depth one to six, legal link addresses, and no text that is not shown
(`parsed_ofMarkdown`).
-/

namespace MarkdownWord
open Word Markdown

namespace Node

/-- A node with a legal address, if it is a link. -/
def Leads : Node → Prop
  | .link url _ _ => isXmlText url = true
  | _ => True

/-- A node with inline content as it is read from a text. -/
def Parsed : Node → Prop
  | .heading depth cs => (1 ≤ depth ∧ depth ≤ 6) ∧ (∀ c ∈ cs, c.Leads) ∧
      ∀ v ∈ piecesAll cs, ∃ r ∈ runsAll {} cs, r.text? = some v
  | .paragraph cs => ∀ c ∈ cs, c.Leads
  | .table _ rows => ∀ r ∈ rows, ∀ cell ∈ r.children, ∀ c ∈ cell.children, c.Leads
  | _ => True

end Node

/-! ## Inline content -/

theorem Markdown.leads_toNodes {s : Span} (h : s.Leads) : ∀ n ∈ s.toNodes, n.Leads := by
  cases s with
  | text s =>
    unfold Span.toNodes
    split
    · simp
    · simp [Node.Leads]
  | link destination title spans =>
    unfold Span.toNodes
    intro n hn
    rw [List.mem_singleton.mp hn]
    simpa [Node.Leads, isXmlText, Span.Leads, LegalDestination] using h
  | _ => simp [Span.toNodes, Node.Leads]

theorem Markdown.leads_spansToNodes {spans : List Span} (h : ∀ s ∈ spans, s.Leads) :
    ∀ n ∈ spansToNodes spans, n.Leads := by
  induction spans with
  | nil => simp [spansToNodes]
  | cons s spans ih =>
    obtain ⟨hs, hspans⟩ := List.forall_mem_cons.mp h
    intro n hn
    rw [spansToNodes] at hn
    exact (List.mem_append.mp hn).elim (leads_toNodes hs n) (ih hspans n)

theorem Node.piecesAll_append (ms ns : List Node) :
    piecesAll (ms ++ ns) = piecesAll ms ++ piecesAll ns := by
  induction ms with
  | nil => rfl
  | cons m ms ih => simp [piecesAll, ih]

theorem Node.runsAll_append (f : Flags) (ms ns : List Node) :
    runsAll f (ms ++ ns) = runsAll f ms ++ runsAll f ns := by
  simp [runsAll_eq_flatMap]

private theorem eq_of_mem_piece {u v : String} (h : v ∈ if u.isEmpty then [] else [u]) :
    u.isEmpty = false ∧ v = u := by
  split at h
  · cases h
  · next hu => exact ⟨Bool.eq_false_iff.mpr hu, List.mem_singleton.mp h⟩

mutual
private theorem shown_toNodes (f : Flags) : ∀ (s : Span) (v : String),
    v ∈ Node.piecesAll s.toNodes → ∃ r ∈ Node.runsAll f s.toNodes, r.text? = some v
  | .text s, v, h => by
    unfold Span.toNodes at h ⊢
    split at h
    · simp [Node.piecesAll] at h
    · next hs =>
      simp only [Node.piecesAll, Node.pieces, List.append_nil] at h
      rw [if_neg hs, (eq_of_mem_piece h).2]
      exact ⟨_, List.mem_cons_self, rfl⟩
  | .code s, v, h => by
    simp only [Span.toNodes, Node.piecesAll, Node.pieces, List.append_nil] at h
    rw [(eq_of_mem_piece h).2]
    exact ⟨_, List.mem_cons_self, rfl⟩
  | .softBreak, v, h => by
    simp only [Span.toNodes, Node.piecesAll, Node.pieces, List.append_nil] at h
    rw [(eq_of_mem_piece h).2]
    exact ⟨_, List.mem_cons_self, rfl⟩
  | .html s, v, h => by
    simp only [Span.toNodes, Node.piecesAll, Node.pieces, List.append_nil] at h
    obtain ⟨hs, rfl⟩ := eq_of_mem_piece h
    refine ⟨.text (String.ofList s) {}, ?_, rfl⟩
    simp [Span.toNodes, Node.runsAll, Node.runs, plainRuns, hs]
  | .hardBreak, v, h | .image _ _ _ _, v, h => by
    simp [Span.toNodes, Node.piecesAll, Node.pieces] at h
  | .emphasis spans, v, h | .strong spans, v, h | .strike spans, v, h
  | .link _ _ spans, v, h => by
    simp only [Span.toNodes, Node.piecesAll, Node.pieces, List.append_nil] at h
    simp only [Span.toNodes, Node.runsAll, Node.runs, List.append_nil]
    exact shown_spansToNodes _ spans v h

private theorem shown_spansToNodes (f : Flags) : ∀ (spans : List Span) (v : String),
    v ∈ Node.piecesAll (spansToNodes spans) →
      ∃ r ∈ Node.runsAll f (spansToNodes spans), r.text? = some v
  | [], v, h => by simp [spansToNodes, Node.piecesAll] at h
  | s :: spans, v, h => by
    rw [spansToNodes, Node.piecesAll_append] at h
    rw [spansToNodes, Node.runsAll_append]
    rcases List.mem_append.mp h with h | h
    · obtain ⟨r, hr, hv⟩ := shown_toNodes f s v h
      exact ⟨r, List.mem_append_left _ hr, hv⟩
    · obtain ⟨r, hr, hv⟩ := shown_spansToNodes f spans v h
      exact ⟨r, List.mem_append_right _ hr, hv⟩
end

/-! ## Blocks -/

theorem Node.forall_reached_cons {p : Node → Prop} {n : Node} {rest : List Node} :
    (∀ m ∈ reached (n :: rest), p m) ↔
      (p n ∧ ∀ m ∈ n.beneath, p m) ∧ ∀ m ∈ reached rest, p m := by
  rw [reached, List.forall_mem_cons, List.forall_mem_append, and_assoc]

theorem Node.parsed_itemOf {content : List Node} (h : ∀ n ∈ reached content, n.Parsed) :
    (itemOf content).Parsed ∧ ∀ n ∈ (itemOf content).beneath, n.Parsed := by
  unfold itemOf
  split
  · next v more rest =>
    split
    · next checked left _ =>
      obtain ⟨⟨hparagraph, -⟩, hrest⟩ := forall_reached_cons.mp h
      obtain ⟨-, hmore⟩ := List.forall_mem_cons.mp hparagraph
      have htexts : ∀ c ∈ if left.isEmpty then more else .text (String.ofList left) :: more,
          c.Leads := by
        split
        · exact hmore
        · exact List.forall_mem_cons.mpr ⟨trivial, hmore⟩
      exact ⟨trivial, forall_reached_cons.mpr ⟨⟨htexts, by simp [beneath]⟩, hrest⟩⟩
    · exact ⟨trivial, h⟩
  · exact ⟨trivial, h⟩

section Blocks

variable {definitions : List Definition}

theorem Markdown.leads_inlineNodes (h : ∀ d ∈ definitions, LegalDestination d.destination)
    (text : List Char) : ∀ n ∈ inlineNodes definitions text, n.Leads :=
  leads_spansToNodes (readSpans_lead h text)

mutual
private theorem parsed_toNode (h : ∀ d ∈ definitions, LegalDestination d.destination) :
    ∀ b : Markdown.Block, b.Sound →
      (b.toNode definitions).Parsed ∧ ∀ n ∈ (b.toNode definitions).beneath, n.Parsed
  | .heading depth text, hb => by
    have hdepth : 1 ≤ depth ∧ depth ≤ 6 := hb
    refine ⟨⟨by omega, leads_inlineNodes h text, shown_spansToNodes {} _⟩, ?_⟩
    simp [Block.toNode, Node.beneath]
  | .paragraph text, _ =>
    ⟨leads_inlineNodes h text, by simp [Block.toNode, Node.beneath]⟩
  | .table _ header rows, _ => by
    refine ⟨fun r hr cell hcell c hc => ?_, by simp [Block.toNode, Node.beneath]⟩
    obtain ⟨cells, -, rfl⟩ := List.mem_map.mp hr
    obtain ⟨text, -, rfl⟩ := List.mem_map.mp hcell
    exact leads_inlineNodes h text c hc
  | .quote blocks, hb => ⟨trivial, parsed_blocksToNodes h blocks hb⟩
  | .list _ items, hb => ⟨trivial, parsed_itemsToNodes h items hb⟩
  | .indented _, _ | .fenced _ _, _ | .rule, _ | .html _, _ =>
    ⟨trivial, by simp [Block.toNode, Node.beneath, Node.codeOf]⟩

private theorem parsed_blocksToNodes (h : ∀ d ∈ definitions, LegalDestination d.destination) :
    ∀ bs : List Markdown.Block, Markdown.Block.AllSound bs →
      ∀ n ∈ Node.reached (blocksToNodes definitions bs), n.Parsed
  | [], _ => by simp [blocksToNodes, Node.reached]
  | b :: bs, hbs => by
    rw [blocksToNodes]
    exact Node.forall_reached_cons.mpr
      ⟨parsed_toNode h b hbs.1, parsed_blocksToNodes h bs hbs.2⟩

private theorem parsed_itemsToNodes (h : ∀ d ∈ definitions, LegalDestination d.destination) :
    ∀ items : List (List Markdown.Block), Markdown.Block.ItemsSound items →
      ∀ n ∈ Node.reached (itemsToNodes definitions items), n.Parsed
  | [], _ => by simp [itemsToNodes, Node.reached]
  | item :: items, hitems => by
    rw [itemsToNodes]
    exact Node.forall_reached_cons.mpr
      ⟨Node.parsed_itemOf (parsed_blocksToNodes h item hitems.1),
        parsed_itemsToNodes h items hitems.2⟩
end

end Blocks

end MarkdownWord
