import MarkdownWord.Node.OfMarkdown
import MarkdownWord.Proofs.Grammar
import MarkdownWord.Proofs.Readings

/-!
# The grammar of trees that are read

The tree of a text has a grammar of its own, narrower than what may stand where in trees at large:
lists hold nothing but items, tables are full grids of cells with inline content, and no node is
left without a special kind. Every text gives a tree of this grammar (`Node.written_ofMarkdown`).
-/

namespace MarkdownWord
open Markdown

/-- A node that the tree of a text has in a place, with all nodes below it in theirs. -/
inductive Node.Written : Place → Node → Prop
  | heading {depth : Int} {cs : List Node} (hdepth : 1 ≤ depth ∧ depth ≤ 6)
      (hcs : ∀ c ∈ cs, Written .inline c) : Written .block (.heading depth cs)
  | paragraph {cs : List Node} (hcs : ∀ c ∈ cs, Written .inline c) : Written .block (.paragraph cs)
  | quote {cs : List Node} (hcs : ∀ c ∈ cs, Written .block c) : Written .block (.quote cs)
  | bullets {items : List Node} (hitems : ∀ i ∈ items, Written .item i) :
      Written .block (.list false none items)
  | numbers {start : Int} {items : List Node} (hstart : 0 ≤ start)
      (hitems : ∀ i ∈ items, Written .item i) : Written .block (.list true (some start) items)
  /-- Only an item that begins with a paragraph is checked or not. -/
  | item {checked : Option Bool} {cs : List Node}
      (hchecked : checked ≠ none → ∃ texts rest, cs = .paragraph texts :: rest)
      (hcs : ∀ c ∈ cs, Written .block c) : Written .item (.item checked cs)
  | code {value : String} {lang : Option String} : Written .block (.code value lang)
  | rule : Written .block .rule
  | htmlBlock {value : String} : Written .block (.literal "html_block" value)
  /-- A table has a column at least and a row at least, and each row has a cell for each column. -/
  | table {align : List (Option TextAlignment)} {rows : List Node} (hcolumns : align ≠ [])
      (hrows : rows ≠ []) (hgrid : ∀ r ∈ rows, r.children.length = align.length)
      (hwritten : ∀ r ∈ rows, Written .row r) : Written .block (.table align rows)
  | row {cells : List Node} (hcells : ∀ c ∈ cells, Written .cell c) : Written .row (.row cells)
  | cell {cs : List Node} (hcs : ∀ c ∈ cs, Written .inline c) : Written .cell (.cell cs)
  | text {value : String} (hvalue : value ≠ "") : Written .inline (.text value)
  | inlineCode {value : String} : Written .inline (.inlineCode value)
  | lineBreak : Written .inline (.lineBreak "")
  | image {url : String} {alt : Option String} : Written .inline (.image url alt "")
  | htmlSpan {value : String} : Written .inline (.literal "html_inline" value)
  | styled {style : Style} {cs : List Node}
      (hstyle : style = .italic ∨ style = .bold ∨ style = .strike)
      (hcs : ∀ c ∈ cs, Written .inline c) : Written .inline (.styled style cs)
  | link {url : String} {title : Value} {cs : List Node} (hcs : ∀ c ∈ cs, Written .inline c) :
      Written .inline (.link url title cs)

/-! ## Inline content -/

theorem Markdown.ofList_ne_empty {s : List Char} (h : s.isEmpty = false) : String.ofList s ≠ "" := by
  intro hempty
  rw [← String.toList_inj, String.toList_ofList] at hempty
  simp [hempty] at h

mutual
theorem Markdown.written_toNodes : ∀ s : Span, ∀ n ∈ s.toNodes, n.Written .inline
  | .text s => by
    unfold Span.toNodes
    split
    · exact List.forall_mem_nil _
    · next hs =>
      exact List.forall_mem_singleton.mpr (.text (ofList_ne_empty (Bool.eq_false_iff.mpr hs)))
  | .code _ => by
    rw [Span.toNodes]
    exact List.forall_mem_singleton.mpr .inlineCode
  | .softBreak => by
    rw [Span.toNodes]
    exact List.forall_mem_singleton.mpr (.text (by decide))
  | .hardBreak => by
    rw [Span.toNodes]
    exact List.forall_mem_singleton.mpr .lineBreak
  | .html _ => by
    rw [Span.toNodes]
    exact List.forall_mem_singleton.mpr .htmlSpan
  | .emphasis spans => by
    rw [Span.toNodes]
    exact List.forall_mem_singleton.mpr (.styled (.inl rfl) (written_spansToNodes spans))
  | .strong spans => by
    rw [Span.toNodes]
    exact List.forall_mem_singleton.mpr (.styled (.inr (.inl rfl)) (written_spansToNodes spans))
  | .strike spans => by
    rw [Span.toNodes]
    exact List.forall_mem_singleton.mpr (.styled (.inr (.inr rfl)) (written_spansToNodes spans))
  | .link _ _ spans => by
    rw [Span.toNodes]
    exact List.forall_mem_singleton.mpr (.link (written_spansToNodes spans))
  | .image _ _ _ _ => by
    rw [Span.toNodes]
    exact List.forall_mem_singleton.mpr .image

theorem Markdown.written_spansToNodes :
    ∀ spans : List Span, ∀ n ∈ spansToNodes spans, n.Written .inline
  | [] => by
    rw [spansToNodes]
    exact List.forall_mem_nil _
  | s :: spans => by
    rw [spansToNodes]
    exact List.forall_mem_append.mpr ⟨written_toNodes s, written_spansToNodes spans⟩
end

/-! ## Blocks -/

section Blocks

variable (definitions : List Definition)

theorem Markdown.written_inlineNodes (text : List Char) :
    ∀ n ∈ inlineNodes definitions text, n.Written .inline :=
  written_spansToNodes (readSpans definitions text)

theorem Markdown.written_rowNode (cells : List (List Char)) :
    (rowNode definitions cells).Written .row := by
  refine .row fun c hc => ?_
  obtain ⟨text, -, rfl⟩ := List.mem_map.mp hc
  exact .cell (written_inlineNodes definitions text)

/-- An item keeps the first paragraph that its mark is taken off from. -/
theorem Node.written_itemOf {content : List Node} (h : ∀ n ∈ content, n.Written .block) :
    (itemOf content).Written .item := by
  unfold itemOf
  split
  · next v more rest =>
    split
    · next checked left _ =>
      obtain ⟨hparagraph, hrest⟩ := List.forall_mem_cons.mp h
      have htexts : ∀ c ∈ .text v :: more, Written .inline c := by
        cases hparagraph with
        | paragraph hcs => exact hcs
      obtain ⟨-, hmore⟩ := List.forall_mem_cons.mp htexts
      refine .item (fun _ => ⟨_, rest, rfl⟩) (List.forall_mem_cons.mpr ⟨.paragraph ?_, hrest⟩)
      split
      · exact hmore
      · next hleft =>
        have hvalue := ofList_ne_empty (Bool.eq_false_iff.mpr hleft)
        exact List.forall_mem_cons.mpr ⟨.text hvalue, hmore⟩
    · exact .item (fun hnone => absurd rfl hnone) h
  · exact .item (fun hnone => absurd rfl hnone) h

mutual
theorem Markdown.written_toNode : ∀ b : Block, b.Sound → (b.toNode definitions).Written .block
  | .heading depth text, hb => by
    have hdepth : 1 ≤ depth ∧ depth ≤ 6 := hb
    exact .heading (by omega) (written_inlineNodes definitions text)
  | .paragraph text, _ => .paragraph (written_inlineNodes definitions text)
  | .quote blocks, hb => .quote (written_blocksToNodes blocks hb)
  | .list none items, hb => .bullets (written_itemsToNodes items hb)
  | .list (some start) items, hb =>
    .numbers (Int.natCast_nonneg start) (written_itemsToNodes items hb)
  | .table align header rows, hb => by
    obtain ⟨hcolumns, hcells⟩ : align ≠ [] ∧ ∀ row ∈ header :: rows, row.length = align.length := hb
    refine .table hcolumns (by simp) (fun r hr => ?_) fun r hr => ?_
    · obtain ⟨cells, hmem, rfl⟩ := List.mem_map.mp hr
      rw [← hcells cells hmem]
      exact List.length_map _
    · obtain ⟨cells, -, rfl⟩ := List.mem_map.mp hr
      exact written_rowNode definitions cells
  | .indented _, _ | .fenced _ _, _ => .code
  | .rule, _ => .rule
  | .html _, _ => .htmlBlock

theorem Markdown.written_blocksToNodes : ∀ bs : List Block, Block.AllSound bs →
    ∀ n ∈ blocksToNodes definitions bs, n.Written .block
  | [], _ => by
    rw [blocksToNodes]
    exact List.forall_mem_nil _
  | b :: bs, hbs => by
    rw [blocksToNodes]
    exact List.forall_mem_cons.mpr ⟨written_toNode b hbs.1, written_blocksToNodes bs hbs.2⟩

theorem Markdown.written_itemsToNodes : ∀ items : List (List Block), Block.ItemsSound items →
    ∀ n ∈ itemsToNodes definitions items, n.Written .item
  | [], _ => by
    rw [itemsToNodes]
    exact List.forall_mem_nil _
  | item :: items, hitems => by
    rw [itemsToNodes]
    have hitem := Node.written_itemOf (written_blocksToNodes item hitems.1)
    exact List.forall_mem_cons.mpr ⟨hitem, written_itemsToNodes items hitems.2⟩
end

end Blocks

/-- Whatever a text is, its tree is a root over blocks of the grammar. -/
theorem Node.written_ofMarkdown (s : String) :
    ∃ blocks, ofMarkdown s = .root blocks ∧ ∀ b ∈ blocks, b.Written .block :=
  ⟨_, rfl, written_blocksToNodes _ _ (readDocument_sound s.toList).blocks⟩

end MarkdownWord
