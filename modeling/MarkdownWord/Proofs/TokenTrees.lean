import Mathlib.Tactic.IntervalCases
import MarkdownWord.Markdown.Tokens
import MarkdownWord.Node.OfMarkdown
import MarkdownWord.Proofs.Outcomes
import MarkdownWord.Proofs.Readings
import MarkdownWord.Proofs.TokenTexts

/-!
# The tree of the token stream of a text

The token stream of a Markdown text has the tree of the text: the way over a flat stream, whose
tokens have to be paired up and told apart by their kinds, leads to the same nodes as the blocks and
spans themselves, and it never fails (`Node.ofTokens?_tokens`). All its tokens are of known kinds
(`Token.allKnown_tokens`).
-/

namespace MarkdownWord
open Markdown

/-! ## Elements of a part of a stream -/

namespace Element

/-- Tokens that are read as some elements, whatever comes before and after them. -/
def ReadAs (tokens : List Token) (elements : List Element) : Prop :=
  ∀ rest done pending, readFrom? (tokens ++ rest) done pending =
    readFrom? rest (elements.reverse ++ done) pending

theorem elementKind_open {kind : String} (h : containerKinds.contains kind = true) :
    elementKind (kind ++ openSuffix) = kind := by
  have hall : ∀ kind ∈ containerKinds, elementKind (kind ++ openSuffix) = kind := by decide +kernel
  exact hall kind (List.contains_iff_mem.mp h)

namespace ReadAs

theorem nil : ReadAs [] [] := fun _ _ _ => rfl

theorem append {ts us : List Token} {es fs : List Element} (ht : ReadAs ts es)
    (hu : ReadAs us fs) : ReadAs (ts ++ us) (es ++ fs) := by
  intro rest done pending
  rw [List.append_assoc, ht, hu, List.reverse_append, List.append_assoc]

theorem ofTokens? {ts : List Token} {es : List Element} (h : ReadAs ts es) :
    Element.ofTokens? ts = some es := by
  have hread := h [] [] []
  rw [List.append_nil, List.append_nil] at hread
  rw [Element.ofTokens?, hread, readFrom?, List.reverse_reverse]

theorem single {m : Details} {inner : List Token} {children : List Element}
    (h : ReadAs inner children) : ReadAs [.single m inner] [mk m children] := by
  intro rest done pending
  have hinner : readFrom? inner [] [] = some children := h.ofTokens?
  rw [List.singleton_append, readFrom?, hinner]
  rfl

/-- The tokens around some content become one element: its kind is found again in the name of the
token that opens it. -/
theorem enclosed {m : Details} (hm : containerKinds.contains m.kind = true) {content : List Token}
    {children : List Element} (h : ReadAs content children) :
    ReadAs (enclosed m content) [mk m children] := by
  intro rest done pending
  rw [Markdown.enclosed, List.cons_append, readFrom?, List.append_assoc, h, List.append_nil,
    List.singleton_append, readFrom?, List.reverse_reverse, elementKind_open hm]
  rfl

end ReadAs

/-! ## Nodes of a part of a stream -/

theorem elementsToNodes?_singleton {e : Element} {ns : List Node} (h : e.toNodes? = .ok ns) :
    elementsToNodes? [e] = .ok ns := by
  rw [elementsToNodes?, elementsToNodes?, h]
  exact congrArg Except.ok (List.append_nil ns)

theorem elementsToNodes?_append {es fs : List Element} {ms ns : List Node}
    (hes : elementsToNodes? es = .ok ms) (hfs : elementsToNodes? fs = .ok ns) :
    elementsToNodes? (es ++ fs) = .ok (ms ++ ns) := by
  induction es generalizing ms with
  | nil =>
    cases hes
    exact hfs
  | cons e es ih =>
    rw [elementsToNodes?] at hes
    obtain ⟨first, hfirst, hes⟩ := exists_of_bind_eq_ok hes
    obtain ⟨more, hmore, hes⟩ := exists_of_bind_eq_ok hes
    cases hes
    rw [List.cons_append, elementsToNodes?, hfirst, ok_bind, ih hmore, List.append_assoc]
    rfl

end Element

/-- Tokens that are read as elements with some nodes. -/
def Builds (tokens : List Token) (nodes : List Node) : Prop :=
  ∃ elements, Element.ReadAs tokens elements ∧ elementsToNodes? elements = .ok nodes

namespace Builds

theorem nil : Builds [] [] := ⟨[], .nil, rfl⟩

theorem append {ts us : List Token} {ms ns : List Node} (ht : Builds ts ms) (hu : Builds us ns) :
    Builds (ts ++ us) (ms ++ ns) := by
  obtain ⟨es, hts, hes⟩ := ht
  obtain ⟨fs, hus, hfs⟩ := hu
  exact ⟨es ++ fs, hts.append hus, Element.elementsToNodes?_append hes hfs⟩

theorem leaf {m : Details} {ns : List Node} (hn : (Element.mk m []).toNodes? = .ok ns) :
    Builds [.single m []] ns :=
  ⟨_, .single .nil, Element.elementsToNodes?_singleton hn⟩

theorem single {m : Details} {inner : List Token} {ms ns : List Node} (h : Builds inner ms)
    (hn : ∀ children, elementsToNodes? children = .ok ms →
      (Element.mk m children).toNodes? = .ok ns) : Builds [.single m inner] ns := by
  obtain ⟨children, hread, hchildren⟩ := h
  exact ⟨_, .single hread, Element.elementsToNodes?_singleton (hn children hchildren)⟩

/-- Tokens around some content become one node, if their kind makes the nodes of the content into
one. -/
theorem within {m : Details} (hm : containerKinds.contains m.kind = true) {content : List Token}
    {ns : List Node} (h : Builds content ns) {f : List Node → Node}
    (hf : ∀ children,
      (Element.mk m children).toNodes? = (do return [f (← elementsToNodes? children)])) :
    Builds (enclosed m content) [f ns] := by
  obtain ⟨children, hread, hchildren⟩ := h
  refine ⟨_, .enclosed hm hread, Element.elementsToNodes?_singleton ?_⟩
  rw [hf, hchildren]
  rfl

end Builds

/-! ## Spans -/

theorem isEmpty_ofList (s : List Char) : (String.ofList s).isEmpty = s.isEmpty := by
  rw [Bool.eq_iff_iff, String.isEmpty_iff, String.ofList_eq_empty_iff, List.isEmpty_iff]

theorem attributes_link (destination title : List Char) :
    let m : Details := { kind := "link", tag := "a", attributes :=
      ("href", .string (String.ofList destination)) :: titleAttribute title }
    m.attributeText "href" = String.ofList destination ∧ (m.attribute? "title").getD .null =
      if title.isEmpty then .null else .string (String.ofList title) := by
  cases title with
  | nil => exact ⟨rfl, rfl⟩
  | cons c title => exact ⟨rfl, rfl⟩

theorem attributeText_src (destination title label : List Char) :
    let attributes := ("src", .string (String.ofList destination)) :: ("alt", .string "") ::
      titleAttribute title
    let m : Details := { kind := "image", tag := "img", attributes, content := String.ofList label }
    m.attributeText "src" = String.ofList destination := by
  cases title with
  | nil => rfl
  | cons c title => rfl

mutual
theorem builds_tokens : ∀ s : Span, Builds s.tokens s.toNodes
  | .text s => .leaf <| by
    simp only [Element.toNodes?, textOf, isEmpty_ofList, Span.toNodes]
    rfl
  | .code s => .leaf rfl
  | .softBreak => .leaf rfl
  | .hardBreak => .leaf rfl
  | .html s => .leaf rfl
  | .emphasis spans => .within rfl (builds_spansTokens spans) fun _ => rfl
  | .strong spans => .within rfl (builds_spansTokens spans) fun _ => rfl
  | .strike spans => .within rfl (builds_spansTokens spans) fun _ => rfl
  | .link destination title spans => .within rfl (builds_spansTokens spans) fun _ => by
    obtain ⟨hurl, htitle⟩ := attributes_link destination title
    simp only [Element.toNodes?, hurl, htitle]
  | .image destination title label spans => .single (builds_spansTokens spans) fun _ _ => by
    simp only [Element.toNodes?, attributeText_src, isEmpty_ofList, Span.toNodes]
    rfl

theorem builds_spansTokens : ∀ spans : List Span, Builds (spansTokens spans) (spansToNodes spans)
  | [] => .nil
  | s :: rest => (builds_tokens s).append (builds_spansTokens rest)
end

/-! ## Tables -/

section Blocks

variable (definitions : List Definition)

theorem builds_inline (text : List Char) :
    Builds [inlineToken definitions text] (inlineNodes definitions text) :=
  .single (builds_spansTokens _) fun _ h => h

theorem styleAlignment?_styleAttribute (kind : String) (a : Option TextAlignment) :
    let m : Details := { kind, tag := kind, attributes := styleAttribute a }
    styleAlignment? (m.attributeText "style").toList = a := by
  have hall (a : Option TextAlignment) :
      let m : Details := { kind := "", attributes := styleAttribute a }
      styleAlignment? (m.attributeText "style").toList = a := by
    rcases a with _ | _ | _ | _ <;> decide
  exact hall a

/-- The cells of a row are read as elements that state the alignments of their columns. -/
theorem exists_cells {kind : String} (hkind : kind = "th" ∨ kind = "td")
    {align : List (Option TextAlignment)} {cells : List (List Char)}
    (h : cells.length = align.length) : ∃ elements,
      Element.ReadAs (List.zipWith (cellTokens definitions kind) align cells).flatten elements ∧
      elementsToNodes? elements = .ok (cells.map fun c => .cell (inlineNodes definitions c)) ∧
      elements.map (fun e => styleAlignment? (e.details.attributeText "style").toList) = align := by
  induction align generalizing cells with
  | nil =>
    obtain rfl := List.eq_nil_of_length_eq_zero h
    exact ⟨[], .nil, rfl, rfl⟩
  | cons a align ih =>
    obtain ⟨text, cells, rfl⟩ := List.exists_cons_of_length_eq_add_one h
    obtain ⟨elements, hread, hnodes, halign⟩ := ih (by simpa using h)
    obtain ⟨children, hinner, hchildren⟩ := builds_inline definitions text
    let m : Details := { kind, tag := kind, attributes := styleAttribute a }
    have hcontainer : containerKinds.contains m.kind = true := by
      rcases hkind with rfl | rfl <;> rfl
    have hcell : (Element.mk m children).toNodes? = .ok [.cell (inlineNodes definitions text)] := by
      rcases hkind with rfl | rfl <;> simp only [m, Element.toNodes?, hchildren] <;> rfl
    have hreadCell : Element.ReadAs (cellTokens definitions kind a text) [.mk m children] :=
      .enclosed hcontainer hinner
    rw [List.zipWith_cons_cons, List.flatten_cons]
    refine ⟨_, hreadCell.append hread,
      Element.elementsToNodes?_append (Element.elementsToNodes?_singleton hcell) hnodes, ?_⟩
    rw [List.singleton_append, List.map_cons, halign]
    exact congrArg (· :: align) (styleAlignment?_styleAttribute kind a)

theorem builds_row {kind : String} (hkind : kind = "th" ∨ kind = "td")
    {align : List (Option TextAlignment)} {cells : List (List Char)}
    (h : cells.length = align.length) :
    Builds (rowTokens definitions kind align cells) [rowNode definitions cells] := by
  obtain ⟨elements, hread, hnodes, -⟩ := exists_cells definitions hkind h
  exact Builds.within rfl ⟨elements, hread, hnodes⟩ fun _ => rfl

theorem builds_rows {align : List (Option TextAlignment)} {rows : List (List (List Char))}
    (h : ∀ row ∈ rows, row.length = align.length) :
    Builds (rows.flatMap (rowTokens definitions "td" align)) (rows.map (rowNode definitions)) := by
  induction rows with
  | nil => exact .nil
  | cons row rows ih =>
    obtain ⟨hrow, hrows⟩ := List.forall_mem_cons.mp h
    exact (builds_row definitions (.inr rfl) hrow).append (ih hrows)

theorem builds_table {align : List (Option TextAlignment)} {header : List (List Char)}
    {rows : List (List (List Char))} (h : (Block.table align header rows).Sound) :
    Builds ((Block.table align header rows).tokens definitions)
      [(Block.table align header rows).toNode definitions] := by
  obtain ⟨hheader, hrows⟩ := List.forall_mem_cons.mp h.2
  obtain ⟨cells, hcells, hnodes, halign⟩ := exists_cells definitions (.inl rfl) hheader
  let row : Element := .mk { kind := "tr", tag := "tr" } cells
  let head : Element := .mk { kind := "thead", tag := "thead" } [row]
  have hhead : elementsToNodes? [head] = .ok [rowNode definitions header] := by
    refine Element.elementsToNodes?_singleton (Element.elementsToNodes?_singleton ?_)
    simp only [row, Element.toNodes?, hnodes]
    rfl
  -- The alignments are those of the head, with or without rows below it.
  have hbody : ∃ body, Element.ReadAs (if rows.isEmpty then [] else
        enclosed { kind := "tbody", tag := "tbody" }
          (rows.flatMap (rowTokens definitions "td" align))) body ∧
      elementsToNodes? body = .ok (rows.map (rowNode definitions)) ∧
      tableAlignments ([head] ++ body) = align := by
    cases rows with
    | nil => exact ⟨[], .nil, rfl, halign⟩
    | cons row rows =>
      obtain ⟨elements, hread, hrows⟩ := builds_rows definitions hrows
      exact ⟨_, .enclosed rfl hread, Element.elementsToNodes?_singleton hrows, halign⟩
  obtain ⟨body, hread, hrows, halign⟩ := hbody
  have hnodes := Element.elementsToNodes?_append hhead hrows
  refine ⟨_, .enclosed rfl ((Element.ReadAs.enclosed rfl (.enclosed rfl hcells)).append hread),
    Element.elementsToNodes?_singleton ?_⟩
  simp only [Element.toNodes?, head, row] at hnodes halign ⊢
  rw [hnodes, halign]
  rfl

/-! ## Documents -/

theorem headingDepth?_toString {depth : Nat} (h : 1 ≤ depth ∧ depth ≤ 6) :
    headingDepth? ("h" ++ toString depth) = .ok depth := by
  obtain ⟨hlow, hhigh⟩ := h
  interval_cases depth <;> rfl

theorem listStart?_startAttribute (start : Nat) :
    let m : Details := { kind := "ordered_list", tag := "ol", attributes := startAttribute start }
    listStart? m = .ok start := by
  by_cases hstart : start = 1
  · subst hstart
    rfl
  · simp only [startAttribute, if_neg hstart]
    rfl

mutual
theorem builds_block : ∀ b : Block, b.Sound → Builds (b.tokens definitions) [b.toNode definitions]
  | .indented text, _ => .leaf <| by
    simp only [Element.toNodes?, String.toList_ofList, Block.toNode]
    rfl
  | .fenced info text, _ => .leaf <| by
    simp only [Element.toNodes?, String.toList_ofList, Block.toNode]
    rfl
  | .quote blocks, h => .within rfl (builds_blocks blocks h) fun _ => rfl
  | .rule, _ => .leaf rfl
  | .list none items, h => .within rfl (builds_items items h) fun _ => rfl
  | .list (some start) items, h => .within rfl (builds_items items h) fun _ => by
    simp only [Element.toNodes?, listStart?_startAttribute, ok_bind]
    rfl
  | .html text, _ => .leaf rfl
  | .heading depth text, h => .within rfl (builds_inline definitions text) fun _ => by
    simp only [Element.toNodes?, headingDepth?_toString h, ok_bind]
  | .paragraph text, _ => .within rfl (builds_inline definitions text) fun _ => rfl
  | .table _ _ _, h => builds_table definitions h

theorem builds_blocks : ∀ blocks : List Block, Block.AllSound blocks →
    Builds (blocksTokens definitions blocks) (blocksToNodes definitions blocks)
  | [], _ => .nil
  | b :: rest, h => (builds_block b h.1).append (builds_blocks rest h.2)

theorem builds_items : ∀ items : List (List Block), Block.ItemsSound items →
    Builds (itemsTokens definitions items) (itemsToNodes definitions items)
  | [], _ => .nil
  | item :: rest, h =>
    (Builds.within rfl (builds_blocks item h.1) fun _ => rfl).append (builds_items rest h.2)
end

end Blocks

/-- The token stream of a text is read into the tree of the text. -/
theorem Node.ofTokens?_tokens (s : String) :
    Node.ofTokens? (Markdown.tokens s) = .ok (Node.ofMarkdown s) := by
  obtain ⟨elements, hread, hnodes⟩ :=
    builds_blocks (readDocument s.toList).definitions _ (readDocument_sound s.toList).blocks
  rw [Node.ofTokens?, Markdown.tokens, hread.ofTokens?, Node.ofMarkdown]
  simp only [hnodes]
  rfl

/-! ## Kinds -/

namespace Token

theorem allKnown_append (ts us : List Token) :
    allKnown (ts ++ us) = (allKnown ts && allKnown us) := by
  induction ts with
  | nil => rfl
  | cons t ts ih => rw [List.cons_append, allKnown, allKnown, ih, Bool.and_assoc]

theorem allKnown_flatten {tss : List (List Token)} (h : ∀ ts ∈ tss, allKnown ts = true) :
    allKnown tss.flatten = true := by
  induction tss with
  | nil => rfl
  | cons ts tss ih =>
    obtain ⟨hts, htss⟩ := List.forall_mem_cons.mp h
    rw [List.flatten_cons, allKnown_append, hts, ih htss]
    rfl

theorem allKnown_enclosed {m : Details} (hm : containerKinds.contains m.kind = true)
    {content : List Token} (h : allKnown content = true) :
    allKnown (enclosed m content) = true := by
  rw [enclosed, allKnown, isKnown, Element.elementKind_open hm, hm, allKnown_append, h]
  rfl

mutual
theorem allKnown_span : ∀ s : Span, allKnown s.tokens = true
  | .text _ | .code _ | .softBreak | .hardBreak | .html _ | .image _ _ _ _ => rfl
  | .emphasis spans | .strong spans | .strike spans | .link _ _ spans =>
    allKnown_enclosed rfl (allKnown_spans spans)

theorem allKnown_spans : ∀ spans : List Span, allKnown (spansTokens spans) = true
  | [] => rfl
  | s :: rest => by
    rw [spansTokens, allKnown_append, allKnown_span s, allKnown_spans rest]
    rfl
end

section Blocks

variable (definitions : List Definition)

theorem allKnown_inline (text : List Char) : allKnown [inlineToken definitions text] = true := by
  rw [allKnown, inlineToken, isKnown, allKnown_spans]
  rfl

theorem allKnown_row {kind : String} (hkind : kind = "th" ∨ kind = "td")
    (align : List (Option TextAlignment)) (cells : List (List Char)) :
    allKnown (rowTokens definitions kind align cells) = true := by
  refine allKnown_enclosed rfl (allKnown_flatten fun ts hts => ?_)
  obtain ⟨i, hi, rfl⟩ := List.mem_iff_getElem.mp hts
  rw [List.getElem_zipWith]
  refine allKnown_enclosed ?_ (allKnown_inline definitions _)
  rcases hkind with rfl | rfl <;> rfl

mutual
theorem allKnown_block : ∀ b : Block, allKnown (b.tokens definitions) = true
  | .indented _ | .fenced _ _ | .rule | .html _ => rfl
  | .quote blocks => allKnown_enclosed rfl (allKnown_blocks blocks)
  | .list none items | .list (some _) items => allKnown_enclosed rfl (allKnown_items items)
  | .heading _ text | .paragraph text => allKnown_enclosed rfl (allKnown_inline definitions text)
  | .table align header rows => by
    have hhead := allKnown_row definitions (.inl rfl) align header
    have hrows : allKnown (rows.flatMap (rowTokens definitions "td" align)) = true := by
      refine allKnown_flatten fun ts hts => ?_
      obtain ⟨row, -, rfl⟩ := List.mem_map.mp hts
      exact allKnown_row definitions (.inr rfl) align row
    refine allKnown_enclosed rfl ?_
    rw [allKnown_append, allKnown_enclosed rfl hhead]
    split
    · rfl
    · exact allKnown_enclosed rfl hrows

theorem allKnown_blocks : ∀ blocks : List Block, allKnown (blocksTokens definitions blocks) = true
  | [] => rfl
  | b :: rest => by
    rw [blocksTokens, allKnown_append, allKnown_block b, allKnown_blocks rest]
    rfl

theorem allKnown_items : ∀ items : List (List Block),
    allKnown (itemsTokens definitions items) = true
  | [] => rfl
  | item :: rest => by
    rw [itemsTokens, allKnown_append, allKnown_enclosed rfl (allKnown_blocks item),
      allKnown_items rest]
    rfl
end

end Blocks

/-- Every token of a text is of a known kind. -/
theorem allKnown_tokens (s : String) : allKnown (tokens s) = true := allKnown_blocks _ _

end Token
end MarkdownWord
