import MarkdownWord.Proofs.Grammar
import MarkdownWord.Proofs.Sites

/-!
# The reading order of blocks

What a reader of a tree finds from left to right is said by one walk that knows nothing of blocks:
`Node.shown`. For a well-formed tree the runs of its blocks show the same texts and line breaks in
the same order, so that nothing is lost, doubled or moved on the way.
-/

namespace MarkdownWord
open Word

/-! ## What a reader finds in a tree -/

/-- The mark in front of the children of an item, which stands only before a paragraph. -/
def Node.shownMark (mark : Option String) : List Node → List (Option String)
  | .paragraph _ :: _ => mark.toList.map some
  | _ => []

mutual
/-- The texts and line breaks below a node from left to right; a line break is nothing. A literal
counts inside a text only, code is shown line by line, and a rule is a tab. -/
def Node.shown (inText : Bool) : Node → List (Option String)
  | .text v | .inlineCode v => [some v]
  | .lineBreak _ => [none]
  | .image url alt _ => [some (imageText url alt)]
  | .literal _ v => if inText && !v.isEmpty then [some v] else []
  | .code v _ => (Text.lines v.toList).map fun l => some (if l.isEmpty then " " else String.ofList l)
  | .rule => [some "\t"]
  | .bare => []
  | .heading _ cs | .paragraph cs | .cell cs => shownAll true cs
  | .item checked cs =>
    shownMark (checked.map fun done => if done then "☑ " else "☐ ") cs ++ shownAll inText cs
  | .root cs | .quote cs | .list _ _ cs | .table _ cs | .row cs | .styled _ cs | .link _ _ cs
  | .parent _ cs => shownAll inText cs

/-- The texts and line breaks below some nodes from left to right. -/
def Node.shownAll (inText : Bool) : List Node → List (Option String)
  | [] => []
  | n :: rest => n.shown inText ++ shownAll inText rest
end

theorem Word.checkbox_eq (checked : Option Bool) :
    checkbox checked = checked.map fun done => if done then "☑ " else "☐ " := by
  rcases checked with _ | _ | _ <;> rfl

/-! ## Inline content -/

namespace Node

mutual
private theorem text_runs (f : Flags) : ∀ n : Node, n.fits .inline = true →
    (n.runs f).map Run.text? = n.shown true
  | .styled s cs, h => by
    rw [runs, shown, text_runsAll _ cs (by simpa [fits] using h)]
  | .link _ _ cs, h | .parent _ cs, h => by
    rw [runs, shown, text_runsAll f cs (by simpa [fits] using h)]
  | .text v, _ | .inlineCode v, _ | .lineBreak v, _ | .image _ _ v, _ => by
    simp [runs, shown, Run.text?]
  | .literal _ v, _ => by
    cases h : v.isEmpty <;> simp [runs, shown, plainRuns, h, Run.text?]
  | .root _, h | .heading _ _, h | .paragraph _, h | .quote _, h | .list _ _ _, h | .item _ _, h
  | .table _ _, h | .row _, h | .cell _, h | .code _ _, h | .rule, h | .bare, h => by
    simp [fits] at h

private theorem text_runsAll (f : Flags) : ∀ ns : List Node, allFit .inline ns = true →
    (runsAll f ns).map Run.text? = shownAll true ns
  | [], _ => by simp [runsAll, shownAll]
  | n :: rest, h => by
    obtain ⟨hn, hrest⟩ := allFit_cons.mp h
    rw [runsAll, shownAll, List.map_append, text_runs f n hn, text_runsAll f rest hrest]
end

/-- The members of a paragraph show what stands below its nodes, whatever flags are handed down. -/
theorem text_membersAll (f : Flags) (ns : List Node) (h : allFit .inline ns = true) :
    ((membersAll f ns).flatMap Member.runs).map Run.text? = shownAll true ns := by
  rw [texts_membersAll, text_runsAll f ns h]

end Node

/-! ## Blocks -/

namespace Word

/-- The texts and line breaks in some blocks. -/
def shownIn (bs : List Block) : List (Option String) := (bs.flatMap Block.runs).map Run.text?

@[simp] theorem shownIn_nil : shownIn [] = [] := rfl

@[simp] theorem shownIn_append (bs cs : List Block) :
    shownIn (bs ++ cs) = shownIn bs ++ shownIn cs := by simp [shownIn]

theorem shownIn_cons (b : Block) (bs : List Block) :
    shownIn (b :: bs) = b.runs.map Run.text? ++ shownIn bs := by simp [shownIn]

@[simp] theorem shownIn_paragraph_cons (p : Paragraph) (bs : List Block) :
    shownIn (.paragraph p :: bs) =
      (p.members.flatMap Member.runs).map Run.text? ++ shownIn bs := by
  rw [shownIn_cons, Block.runs_paragraph]

theorem shownIn_quoted (bs : List Block) : shownIn (bs.map Block.quoted) = shownIn bs := by
  simp [shownIn, List.flatMap_map]

theorem shownIn_codeBlocks (v : String) : shownIn (codeBlocks v) =
    (Text.lines v.toList).map fun l => some (if l.isEmpty then " " else String.ofList l) := by
  have hlines (ls : List (List Char)) : shownIn (ls.map fun l => .paragraph (codeLine l)) =
      ls.map fun l => some (if l.isEmpty then " " else String.ofList l) := by
    induction ls with
    | nil => rfl
    | cons l ls ih =>
      rw [List.map_cons, shownIn_paragraph_cons, ih]
      simp [codeLine, Member.runs, Run.text?]
  rw [codeBlocks, shownIn_append, hlines]
  simp [spacer]

/-! ### Tables -/

private theorem text_cellOf (head : Bool) (n : Node) (h : n.fits .cell = true) :
    ((cellOf head n).paragraphs.flatMap Paragraph.runs).map Run.text? = n.shown false := by
  obtain ⟨cs, rfl, hcs⟩ := Node.eq_cell_of_fits h
  simpa [cellOf, Paragraph.runs, Node.shown, Node.children, Node.children?] using
    Node.text_membersAll _ cs hcs

private theorem text_cells (head : Bool) (cs : List Node) (h : Node.allFit .cell cs = true) :
    ((cs.map (cellOf head)).flatMap fun c => c.paragraphs.flatMap Paragraph.runs).map Run.text? =
      Node.shownAll false cs := by
  induction cs with
  | nil => simp [Node.shownAll]
  | cons c cs ih =>
    obtain ⟨hc, hrest⟩ := Node.allFit_cons.mp h
    rw [List.map_cons, List.flatMap_cons, List.map_append, text_cellOf head c hc, ih hrest,
      Node.shownAll]

private theorem text_rowOf (head : Bool) (n : Node) (h : n.fits .row = true) :
    ((rowOf head n).cells.flatMap fun c => c.paragraphs.flatMap Paragraph.runs).map Run.text? =
      n.shown false := by
  obtain ⟨cs, rfl, hcs⟩ := Node.eq_row_of_fits h
  exact text_cells head cs hcs

private theorem text_rows (ns : List Node) (h : Node.allFit .row ns = true) :
    ((ns.map (rowOf false)).flatMap fun r => r.cells.flatMap fun c =>
      c.paragraphs.flatMap Paragraph.runs).map Run.text? = Node.shownAll false ns := by
  induction ns with
  | nil => simp [Node.shownAll]
  | cons n ns ih =>
    obtain ⟨hn, hrest⟩ := Node.allFit_cons.mp h
    rw [List.map_cons, List.flatMap_cons, List.map_append, text_rowOf false n hn, ih hrest,
      Node.shownAll]

/-- The head row is read before the others and shows the same texts as they would. -/
theorem text_tableOf (cs : List Node) (h : Node.allFit .row cs = true) :
    (Block.table (tableOf cs)).runs.map Run.text? = Node.shownAll false cs := by
  simp only [Block.runs, Block.paragraphs, List.flatMap_assoc]
  cases cs with
  | nil => simp [tableOf, Node.shownAll]
  | cons head rest =>
    obtain ⟨hhead, hrest⟩ := Node.allFit_cons.mp h
    rw [tableOf, List.flatMap_cons, List.map_append, text_rowOf true head hhead,
      text_rows rest hrest, Node.shownAll]

end Word

/-! ### Sites -/

namespace Holder

/-- The place of the nodes that something holds. -/
def place : Holder → Place
  | .list _ => .item
  | _ => .block

/-- The mark that is still to be set before the next node. -/
def mark : Holder → Option String
  | .item _ mark => mark
  | _ => none

end Holder

theorem Setting.place_after (s : Setting) : s.after.holder.place = s.holder.place := by
  cases h : s.holder <;> simp [after, h, Holder.place]

theorem Setting.mark_after (s : Setting) : s.after.holder.mark = none := by
  cases h : s.holder <;> simp [after, h, Holder.mark]

theorem Word.shownIn_decorate (q : Bool) (bs : List Block) :
    shownIn (decorate q bs) = shownIn bs := by
  cases q with
  | false => rfl
  | true => exact shownIn_quoted bs

namespace Node

private theorem shownMark_none (ns : List Node) : shownMark none ns = [] := by
  unfold shownMark
  split <;> rfl

private theorem shownIn_paragraph_site (o : Overflow) (s : Setting) (cs : List Node)
    (h : allFit .inline cs = true) : shownIn (Site.blocks o ⟨s, .paragraph cs⟩) =
      shownMark s.holder.mark [.paragraph cs] ++ shownAll true cs := by
  rw [← text_membersAll {} cs h, Site.blocks, shownIn_decorate]
  cases hs : s.holder with
  | item reference mark =>
    cases mark <;> simp [Site.plainBlocks, hs, Holder.mark, shownMark, itemParagraph, Member.runs,
      Run.text?]
  | _ => simp [Site.plainBlocks, hs, Holder.mark, shownMark, paragraphOf]

mutual
/-- The mark of an item is shown with its first child, so the induction carries the mark along. -/
private theorem shownIn_sites (o : Overflow) : ∀ (n : Node) (s : Setting),
    n.fits s.holder.place = true → ((n.sites s).flatMap fun t => shownIn (t.blocks o)) =
      shownMark s.holder.mark [n] ++ n.shown false
  | .quote cs, s, h => by
    have hcs : allFit .block cs = true := by simp_all [fits]
    rw [sites, shown, shownIn_sitesOf o cs .withinQuote hcs]
    exact congrArg (· ++ shownAll false cs) (shownMark_none cs)
  | .list ordered _ cs, s, h => by
    have hcs : allFit .item cs = true := by simp_all [fits]
    rw [sites, shown, shownIn_sitesOf o cs (s.withinList ordered) hcs]
    exact congrArg (· ++ shownAll false cs) (shownMark_none cs)
  | .root cs, s, h | .parent _ cs, s, h => by
    have hcs : allFit .block cs = true := by
      cases hs : s.holder <;> simp_all [fits, Holder.place]
    rw [sites, shown, shownIn_sitesOf o cs s.within hcs]
    exact congrArg (· ++ shownAll false cs) (shownMark_none cs)
  | .item checked cs, s, h => by
    have hcs : allFit .block cs = true := by simp_all [fits]
    cases hs : s.holder with
    | list reference =>
      have hitem : (s.withinItem checked).holder = .item reference (checkbox checked) := by
        simp [Setting.withinItem, hs]
      rw [sites, shown, shownIn_sitesOf o cs (s.withinItem checked) (by rw [hitem]; exact hcs),
        hitem, ← checkbox_eq]
      rfl
    | _ => simp [fits, hs, Holder.place] at h
  | .paragraph cs, s, h => by
    have hcs : allFit .inline cs = true := by simp_all [fits]
    simp [sites, shown, shownIn_paragraph_site o s cs hcs]
  | .heading _ cs, s, h => by
    have hcs : allFit .inline cs = true := by simp_all [fits]
    rw [shown, ← text_membersAll {} cs hcs]
    simp [sites, Site.blocks, shownIn_decorate, Site.plainBlocks, headingOf, shownMark]
  | .table _ cs, s, h => by
    have hcs : allFit .row cs = true := by simp_all [fits]
    rw [shown, ← text_tableOf cs hcs]
    simp [sites, Site.blocks, shownIn_decorate, Site.plainBlocks, shownIn_cons,
      Block.runs_paragraph, spacer, shownMark]
  | .code v _, s, _ => by
    simp [sites, shown, Site.blocks, shownIn_decorate, Site.plainBlocks, shownIn_codeBlocks,
      shownMark]
  | .rule, s, _ => by
    simp [sites, shown, Site.blocks, shownIn_decorate, Site.plainBlocks, ruleParagraph,
      Member.runs, Run.text?, shownMark]
  | .literal _ _, s, _ => by
    simp [sites, shown, Site.blocks, Site.plainBlocks, shownMark]
  | .row _, s, h | .cell _, s, h | .styled _ _, s, h | .link _ _ _, s, h | .text _, s, h
  | .inlineCode _, s, h | .lineBreak _, s, h | .image _ _ _, s, h | .bare, s, h => by
    cases hs : s.holder <;> simp [fits, hs, Holder.place] at h

private theorem shownIn_sitesOf (o : Overflow) : ∀ (ns : List Node) (s : Setting),
    allFit s.holder.place ns = true → ((sitesOf s ns).flatMap fun t => shownIn (t.blocks o)) =
      shownMark s.holder.mark ns ++ shownAll false ns
  | [], s, _ => by simp [sitesOf, shownMark, shownAll]
  | n :: rest, s, h => by
    obtain ⟨hn, hrest⟩ := allFit_cons.mp h
    have hmark : shownMark s.holder.mark (n :: rest) = shownMark s.holder.mark [n] := by
      cases n <;> rfl
    rw [sitesOf, List.flatMap_append, shownIn_sites o n s hn,
      shownIn_sitesOf o rest s.after (by rwa [Setting.place_after]), Setting.mark_after,
      shownMark_none, hmark, shownAll]
    simp
end

/-- The runs of the blocks of a well-formed tree show, one by one and in the same order, what a
reader finds in the tree from left to right. -/
theorem shown_blocksAll (o : Overflow) (depth : Int) (nodes : List Node)
    (h : allFit .block nodes = true) :
    ((blocksAll o depth nodes).flatMap Block.runs).map Run.text? = shownAll false nodes := by
  have hsites := shownIn_sitesOf o nodes { depth } h
  rw [blocksAll_eq_sites, List.flatMap_assoc, List.map_flatMap]
  exact hsites.trans (congrArg (· ++ shownAll false nodes) (shownMark_none nodes))

/-- A quote with a checked item in it, code inside the item, and a table with a link in its head. -/
theorem shown_blocksAll_nested :
    let nodes : List Node := [
      .quote [.list true (some 3) [.item (some true) [
        .paragraph [.styled .bold [.text "a", .lineBreak ""], .literal "html_inline" "<b>"],
        .list false none [.item none [.paragraph [.image "u" (some "") ""]]],
        .code "x\n" none]]],
      .literal "html_block" "<hr>", .rule,
      .table [none] [.row [.cell [.link "v" .null [.inlineCode "h"]]], .row [.cell [.text ""]]]]
    allFit .block nodes = true ∧
      ((blocksAll .cycle 7 nodes).flatMap Block.runs).map Run.text? =
        [some "☑ ", some "a", none, some "<b>", some "[Image: u]", some "x", some " ", some "\t",
          some "h", some ""] :=
  ⟨by decide, (shown_blocksAll .cycle 7 _ (by decide)).trans (by decide)⟩

end Node
end MarkdownWord
