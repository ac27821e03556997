import Mathlib.Algebra.GroupWithZero.Nat
import MarkdownWord.Proofs.LinkedRuns
import MarkdownWord.Proofs.Occurrences
import MarkdownWord.Proofs.Outlines
import MarkdownWord.Proofs.Respellings
import MarkdownWord.Proofs.SeveralLines

/-!
# Statistics

The statistics of a document are taken over its blocks. What they count are the nodes of the tree
that are reached: each heading, paragraph, rule and table once, wherever it stands, and a piece of
code by its lines (`Word.Document.statistics_ofNodes`).
-/

namespace MarkdownWord
open Word

/-! ## Line ends -/

namespace Text

/-- The number of line ends in a text; CR LF is one of them. -/
def lineEnds : List Char → Nat
  | '\r' :: '\n' :: rest => lineEnds rest + 1
  | c :: rest => if c = '\r' ∨ c = '\n' then lineEnds rest + 1 else lineEnds rest
  | [] => 0

theorem length_splitAt (sep : Char) (s : List Char) : (splitAt sep s).length = s.count sep + 1 := by
  induction s with
  | nil => rfl
  | cons c s ih =>
    rw [splitAt]
    cases hrest : splitAt sep s with
    | nil => exact absurd hrest (splitAt_ne_nil sep s)
    | cons line lines =>
      rw [hrest] at ih
      by_cases hc : c = sep
      · simpa [hc] using ih
      · simpa [hc] using ih

theorem count_unifyLineEnds (s : List Char) : (unifyLineEnds s).count '\n' = lineEnds s := by
  fun_induction lineEnds s with
  | case1 rest ih => rw [unifyLineEnds, List.count_cons_self, ih]
  | case2 c rest hpair hend ih =>
    have hunified : unifyLineEnds (c :: rest) = '\n' :: unifyLineEnds rest := by
      rcases hend with rfl | rfl
      · rw [unifyLineEnds]
        exact fun more heq => hpair more rfl heq
      · exact unifyLineEnds_cons (by decide) rest
    rw [hunified, List.count_cons_self, ih]
  | case3 c rest hpair hend ih =>
    obtain ⟨hreturn, hfeed⟩ := not_or.mp hend
    rw [unifyLineEnds_cons hreturn, List.count_cons_of_ne hfeed, ih]
  | case4 => rfl

theorem length_lines (s : List Char) : (lines s).length = lineEnds s + 1 := by
  rw [lines, length_splitAt, count_unifyLineEnds]

/-- A CR before CR LF is a line end of its own. -/
example : lineEnds "a\r\n\r\nb\r\r\n\n".toList = 5 := by decide

end Text

/-! ## Nodes that are counted -/

namespace Node

def isHeading : Node → Bool
  | .heading _ _ => true
  | _ => false

/-- A heading of a depth other than zero. -/
def isTitled : Node → Bool
  | .heading depth _ => depth != 0
  | _ => false

def isRule : Node → Bool
  | .rule => true
  | _ => false

def isTable : Node → Bool
  | .table _ _ => true
  | _ => false

/-- The text of a piece of code. -/
def codeText? : Node → Option String
  | .code v _ => some v
  | _ => none

/-- The running text of a heading or a paragraph. -/
def runningText? : Node → Option (List Node)
  | .heading _ cs | .paragraph cs => some cs
  | _ => none

/-- What is counted in some nodes, of which a number are paragraphs of items. A piece of code has a
paragraph for each of its lines and one more after them, and a table has one after it. -/
def tally (ns : List Node) (listItems : Nat) : Statistics where
  paragraphs := ns.countP isHeading + ns.countP isParagraph + ns.countP isRule + ns.countP isTable +
    ((ns.filterMap codeText?).map fun v => 2 + Text.lineEnds v.toList).sum
  headings := ns.countP isTitled
  listItems
  tables := ns.countP isTable
  links := (ns.filterMap runningText?).flatten.countP isLink

end Node

/-! ## Statistics of several blocks -/

namespace Word.Statistics

instance : Add Statistics where
  add s t :=
    { paragraphs := s.paragraphs + t.paragraphs, headings := s.headings + t.headings,
      listItems := s.listItems + t.listItems, tables := s.tables + t.tables,
      links := s.links + t.links }

theorem add_def (s t : Statistics) : s + t =
    { paragraphs := s.paragraphs + t.paragraphs, headings := s.headings + t.headings,
      listItems := s.listItems + t.listItems, tables := s.tables + t.tables,
      links := s.links + t.links } := rfl

/-- The statistics of a document with some blocks. -/
def ofBlocks (bs : List Block) : Statistics := ({ blocks := bs } : Document).statistics

theorem ofBlocks_append (bs cs : List Block) : ofBlocks (bs ++ cs) = ofBlocks bs + ofBlocks cs := by
  simp [ofBlocks, Document.statistics, Document.paragraphs, Document.tables, add_def]

theorem ofBlocks_cons (b : Block) (bs : List Block) :
    ofBlocks (b :: bs) = ofBlocks [b] + ofBlocks bs := ofBlocks_append [b] bs

theorem ofBlocks_paragraph (p : Paragraph) : ofBlocks [.paragraph p] =
    { paragraphs := 1, headings := if p.isHeading then 1 else 0,
      listItems := if p.numbering.isSome then 1 else 0, tables := 0,
      links := p.members.countP Member.isLink } := by
  simp [ofBlocks, Document.statistics, Document.paragraphs, Document.tables, Block.paragraph?,
    Block.table?, List.countP_singleton]

/-- A quote changes how paragraphs look, and none of what is counted. -/
theorem ofBlocks_decorate (q : Bool) (bs : List Block) :
    ofBlocks (decorate q bs) = ofBlocks bs := by
  have hquoted (b : Block) : ofBlocks [b.quoted] = ofBlocks [b] := by cases b <;> rfl
  cases q with
  | false => rfl
  | true =>
    change ofBlocks (bs.map Block.quoted) = ofBlocks bs
    induction bs with
    | nil => rfl
    | cons b bs ih => rw [List.map_cons, ofBlocks_cons, hquoted, ih, ← ofBlocks_cons]

theorem ofBlocks_codeLines (ls : List (List Char)) :
    ofBlocks (ls.map fun l => .paragraph (codeLine l)) =
      { paragraphs := ls.length, headings := 0, listItems := 0, tables := 0, links := 0 } := by
  induction ls with
  | nil => rfl
  | cons l ls ih =>
    rw [List.map_cons, ofBlocks_cons, ih, ofBlocks_paragraph, List.length_cons, Nat.add_comm]
    rfl

theorem ofBlocks_codeBlocks (v : String) : ofBlocks (codeBlocks v) =
    { paragraphs := Text.lineEnds v.toList + 2, headings := 0, listItems := 0, tables := 0,
      links := 0 } := by
  rw [codeBlocks, ofBlocks_append, ofBlocks_codeLines, Text.length_lines, ofBlocks_paragraph]
  rfl

end Word.Statistics

namespace Node

theorem tally_append (ns ms : List Node) (j k : Nat) :
    tally (ns ++ ms) (j + k) = tally ns j + tally ms k := by
  simp [tally, Statistics.add_def]
  omega

theorem tally_cons_of_isOpen {n : Node} (h : n.isOpen = true) (ns : List Node) (k : Nat) :
    tally (n :: ns) k = tally ns k := by
  cases n <;> first | rfl | cases h

/-- Open nodes do not count. -/
theorem tally_filter (ns : List Node) (k : Nat) :
    tally (ns.filter (!·.isOpen)) k = tally ns k := by
  induction ns with
  | nil => rfl
  | cons n ns ih =>
    cases hn : n.isOpen with
    | true => rw [List.filter_cons_of_neg (by simp [hn]), ih, tally_cons_of_isOpen hn]
    | false =>
      have hcons (ms : List Node) : tally (n :: ms) k = tally [n] 0 + tally ms k := by
        rw [← tally_append, Nat.zero_add, List.singleton_append]
      rw [List.filter_cons_of_pos (by simp [hn]), hcons, ih, hcons]

theorem countP_isLink_members (f : Flags) (n : Node) :
    (n.members f).countP Member.isLink = [n].countP isLink := by
  cases n with
  | link url title cs => rfl
  | _ => simp [members, isLink, Function.comp_def, Member.isLink]

/-- Each link that stands directly in running text stays a link, and no other one does. -/
theorem countP_isLink_membersAll (f : Flags) (ns : List Node) :
    (membersAll f ns).countP Member.isLink = ns.countP isLink := by
  induction ns with
  | nil => rfl
  | cons n rest ih =>
    rw [membersAll_cons, List.countP_append, ih, countP_isLink_members, ← List.countP_append,
      List.singleton_append]

theorem tally_heading (depth : Int) (cs : List Node) (k : Nat) : tally [.heading depth cs] k =
    { paragraphs := 1, headings := if depth != 0 then 1 else 0, listItems := k, tables := 0,
      links := cs.countP isLink } := by
  simp [tally, isHeading, isTitled, isParagraph, isRule, isTable, codeText?, runningText?,
    List.countP_singleton, List.filterMap_cons]

theorem tally_paragraph (cs : List Node) (k : Nat) : tally [.paragraph cs] k =
    { paragraphs := 1, headings := 0, listItems := k, tables := 0, links := cs.countP isLink } := by
  simp [tally, isHeading, isTitled, isParagraph, isRule, isTable, codeText?, runningText?,
    List.filterMap_cons]

theorem tally_code (v : String) (lang : Option String) (k : Nat) : tally [.code v lang] k =
    { paragraphs := 2 + Text.lineEnds v.toList, headings := 0, listItems := k, tables := 0,
      links := 0 } := by
  simp [tally, isHeading, isTitled, isParagraph, isRule, isTable, codeText?, runningText?,
    List.filterMap_cons]

end Node

/-! ## From sites to statistics -/

def Holder.isItem : Holder → Bool
  | .item _ _ => true
  | _ => false

/-- A paragraph that an item of a list holds. -/
def Site.isListed (t : Site) : Bool := t.node.isParagraph && t.setting.holder.isItem

/-- What a site adds to the statistics is what is counted in its node. -/
theorem Site.statistics_plainBlocks (o : Overflow) (t : Site) :
    Statistics.ofBlocks (t.plainBlocks o) = Node.tally [t.node] (if t.isListed then 1 else 0) := by
  obtain ⟨s, n⟩ := t
  cases n with
  | heading depth cs =>
    have hlinks := Node.countP_isLink_membersAll {} cs
    rw [plainBlocks, Statistics.ofBlocks_paragraph, headingOf, hlinks, Node.tally_heading]
    rfl
  | paragraph cs =>
    have hlinks := Node.countP_isLink_membersAll {} cs
    rw [Node.tally_paragraph, ← hlinks]
    cases hholder : s.holder with
    | item reference mark =>
      -- The mark of a task is a run before the members, so it adds no link.
      simp only [plainBlocks, hholder, Statistics.ofBlocks_paragraph]
      cases mark <;> simp [itemParagraph, isListed, Holder.isItem, Node.isParagraph, hholder,
        Member.isLink, Paragraph.isHeading]
    | _ =>
      simp only [plainBlocks, hholder, Statistics.ofBlocks_paragraph]
      simp [paragraphOf, isListed, Holder.isItem, Node.isParagraph, hholder, Paragraph.isHeading]
  | code v lang =>
    rw [plainBlocks, Statistics.ofBlocks_codeBlocks, Node.tally_code, Nat.add_comm]
    rfl
  | table columns cs => rfl
  | rule => rfl
  | _ => rfl

theorem Site.statistics_sites (o : Overflow) (ts : List Site) :
    Statistics.ofBlocks (ts.flatMap (Site.blocks o)) =
      Node.tally (ts.map Site.node) (ts.countP isListed) := by
  induction ts with
  | nil => rfl
  | cons t ts ih =>
    have hfirst := t.statistics_plainBlocks o
    rw [← Statistics.ofBlocks_decorate t.setting.quoted] at hfirst
    rw [List.flatMap_cons, Statistics.ofBlocks_append, ih, List.map_cons, List.countP_cons,
      Nat.add_comm (ts.countP isListed), ← List.singleton_append, Node.tally_append, ← hfirst]
    rfl

theorem Ancestors.isItem_holder (as : Ancestors) (mark : Option String) :
    (as.holder mark).isItem = as.listKind?.isSome := by
  rcases as.shapes with ⟨_, _, _, _, _, _, rfl⟩ | ⟨_, _, _, _, rfl⟩ | ⟨hkind, hplain, -⟩
  · rfl
  · rfl
  · rw [hplain, hkind]
    rfl

/-- Paragraphs of items are known by the containers around them. -/
theorem Occurrence.IsAt.isListed {start : Int} {t : Occurrence} {site : Site}
    (h : t.IsAt start site) : t.listKind?.isSome = site.isListed := by
  obtain ⟨mark, hholder⟩ := h.setting.holder
  rw [Site.isListed, h.node, hholder, Ancestors.isItem_holder, Occurrence.listKind?]
  cases t.node <;> rfl

theorem Node.countP_listKind? (ns : List Node) :
    (occurrencesOf [] ns).countP (·.listKind?.isSome) = (sitesOf {} ns).countP Site.isListed := by
  have hfits := fits_sitesOf ns (Setting.Fits.initial 0)
  generalize occurrencesOf [] ns = ts, sitesOf {} ns = sites at hfits
  induction hfits with
  | nil => rfl
  | cons h _ ih => rw [List.countP_cons, List.countP_cons, ih, h.isListed]

theorem Word.Statistics.length_blocks {bs : List Block} (h : ∀ b ∈ bs, ∀ kind, b ≠ .foreign kind) :
    bs.length = (ofBlocks bs).paragraphs + (ofBlocks bs).tables := by
  induction bs with
  | nil => rfl
  | cons b bs ih =>
    have hrest := ih fun c hc => h c (List.mem_cons_of_mem b hc)
    have hfirst : 1 = (ofBlocks [b]).paragraphs + (ofBlocks [b]).tables := by
      cases b with
      | paragraph p => rfl
      | table t => rfl
      | foreign kind => exact absurd rfl (h _ List.mem_cons_self kind)
    rw [List.length_cons, ofBlocks_cons, add_def]
    dsimp only
    omega

/-- The statistics of a document count what is reached in its tree, and its blocks are the
paragraphs and tables that are counted. -/
theorem Word.Document.statistics_ofNodes (nodes : List Node) (size : Option Number) (o : Overflow) :
    (ofNodes nodes size o).statistics = Node.tally (Node.reached nodes)
      ((Node.occurrencesOf [] nodes).countP (·.listKind?.isSome)) ∧
    (ofNodes nodes size o).blocks.length =
      (ofNodes nodes size o).statistics.paragraphs + (ofNodes nodes size o).statistics.tables := by
  constructor
  · calc (ofNodes nodes size o).statistics
      _ = Statistics.ofBlocks ((Node.sitesOf {} nodes).flatMap (Site.blocks o)) := by
        rw [← Node.blocksAll_eq_sites o 0 nodes]
        rfl
      _ = Node.tally ((Node.reached nodes).filter (!·.isOpen))
          ((Node.sitesOf {} nodes).countP Site.isListed) := by
        rw [Site.statistics_sites, Node.node_sitesOf]
      _ = _ := by rw [Node.tally_filter, Node.countP_listKind?]
  · exact Statistics.length_blocks fun b hb => Node.ne_foreign_of_mem hb

end MarkdownWord
