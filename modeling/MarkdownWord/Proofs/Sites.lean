import MarkdownWord.Proofs.Contents

/-!
# Where blocks come from

The blocks of a tree are made from the headings, paragraphs, code, tables and rules in it, one after
another. What else a block depends on is the setting of its node: whether a quote is around it, how
deep its list is nested, and which item holds it. Here the tree is flattened to its sites, the nodes
in their settings, and `blocksAll_eq_sites` shows that composing is a map over the sites. What is
said about all blocks of a tree is then said about one site, or about the settings on the way to it.
-/

namespace MarkdownWord
open Word

/-- What holds a node, as far as its blocks depend on it: a list with its scheme, an item of such a
list with the mark that is still to be set, or anything else. -/
inductive Holder where
  | plain
  | list (reference : String)
  | item (reference : String) (mark : Option String)
  deriving DecidableEq, Repr

/-- Where a node stands: inside a quote or not, in a list nested how deep, and what holds it. -/
structure Setting where
  quoted : Bool := false
  depth : Int := 0
  holder : Holder := .plain
  deriving DecidableEq, Repr

namespace Setting

/-- The setting inside a container without meaning for blocks. -/
def within (s : Setting) : Setting := { s with holder := .plain }

/-- The setting inside a quote. Lists are counted afresh there. -/
def withinQuote : Setting := { quoted := true }

/-- The setting inside a list, which is nested one deeper when an item holds it. -/
def withinList (s : Setting) (ordered : Bool) : Setting where
  quoted := s.quoted
  depth := match s.holder with
    | .item _ _ => s.depth + 1
    | _ => s.depth
  holder := .list (ListScheme.referenceFor ordered)

/-- The setting inside an item. An item outside of lists is like any other container. -/
def withinItem (s : Setting) (checked : Option Bool) : Setting where
  quoted := s.quoted
  depth := s.depth
  holder := match s.holder with
    | .list reference => .item reference (checkbox checked)
    | _ => .plain

/-- The setting of the next sibling. The mark of an item belongs to its first child alone. -/
def after (s : Setting) : Setting where
  quoted := s.quoted
  depth := s.depth
  holder := match s.holder with
    | .item reference _ => .item reference none
    | holder => holder

theorem after_of_plain {s : Setting} (h : s.holder = .plain) : s.after = s := by
  cases s; simp_all [after]

theorem after_of_list {s : Setting} {reference : String} (h : s.holder = .list reference) :
    s.after = s := by
  cases s; simp_all [after]

end Setting

/-- A node in its setting. -/
structure Site where
  setting : Setting
  node : Node

mutual
/-- The sites of a node in some setting, in reading order. -/
def Node.sites (s : Setting) : Node → List Site
  | .quote cs => sitesOf .withinQuote cs
  | .list ordered _ cs => sitesOf (s.withinList ordered) cs
  | .item checked cs => sitesOf (s.withinItem checked) cs
  | .root cs | .row cs | .cell cs | .styled _ cs | .link _ _ cs | .parent _ cs =>
    sitesOf s.within cs
  | n => [⟨s, n⟩]

/-- The sites of some nodes, the first of which stands in some setting. -/
def Node.sitesOf (s : Setting) : List Node → List Site
  | [] => []
  | n :: rest => n.sites s ++ sitesOf s.after rest
end

/-! ## The blocks of a site -/

/-- Blocks as they are, or as they are inside a quote. -/
def Word.decorate (quoted : Bool) (bs : List Block) : List Block :=
  if quoted then bs.map Block.quoted else bs

namespace Word

@[simp] theorem decorate_nil (q : Bool) : decorate q [] = [] := by cases q <;> rfl

@[simp] theorem decorate_append (q : Bool) (bs cs : List Block) :
    decorate q (bs ++ cs) = decorate q bs ++ decorate q cs := by
  cases q <;> simp [decorate]

@[simp] theorem Block.quoted_quoted (b : Block) : b.quoted.quoted = b.quoted := by
  cases b <;> rfl

theorem decorate_quoted (q : Bool) (bs : List Block) :
    decorate q (bs.map Block.quoted) = bs.map Block.quoted := by
  cases q <;> simp [decorate]

theorem exists_mem_decorate (q : Bool) {b : Block} {bs : List Block} (h : b ∈ bs) :
    ∃ a ∈ decorate q bs, a = b ∨ a = b.quoted := by
  cases q with
  | false => exact ⟨b, h, .inl rfl⟩
  | true => exact ⟨b.quoted, List.mem_map_of_mem h, .inr rfl⟩

theorem mem_decorate {q : Bool} {b : Block} {bs : List Block} (h : b ∈ decorate q bs) :
    ∃ a ∈ bs, b = a ∨ b = a.quoted := by
  cases q with
  | false => exact ⟨b, h, .inl rfl⟩
  | true =>
    obtain ⟨a, ha, rfl⟩ := List.mem_map.mp h
    exact ⟨a, ha, .inr rfl⟩

end Word

/-- The ways in which a block is made from a node, apart from what a quote adds to it. -/
inductive Node.Makes : Node → Block → Prop
  | heading {depth cs} :
    Makes (.heading depth cs) (.paragraph (headingOf depth (membersAll {} cs)))
  | item {cs} (mark : Option String) (numbering : ListReference) :
    Makes (.paragraph cs) (.paragraph (itemParagraph mark numbering (membersAll {} cs)))
  | paragraph {cs} : Makes (.paragraph cs) (.paragraph (paragraphOf (membersAll {} cs)))
  | code {v lang} (line : List Char) : Makes (.code v lang) (.paragraph (codeLine line))
  | table {columns cs} : Makes (.table columns cs) (.table (tableOf cs))
  | rule : Makes .rule (.paragraph ruleParagraph)
  | spacer {n} : Makes n (.paragraph Word.spacer)

theorem Node.Makes.ne_foreign {n : Node} {b : Block} (h : n.Makes b) (kind : String) :
    b ≠ .foreign kind ∧ b.quoted ≠ .foreign kind := by
  cases h <;> exact ⟨nofun, nofun⟩

namespace Site

/-- The blocks of a site, apart from what a quote adds to them. -/
def plainBlocks (o : Overflow) (t : Site) : List Block :=
  match t.node, t.setting.holder with
  | .heading d cs, _ => [.paragraph (headingOf d (Node.membersAll {} cs))]
  | .paragraph cs, .item reference mark =>
    [.paragraph (itemParagraph mark ⟨reference, o.level t.setting.depth⟩ (Node.membersAll {} cs))]
  | .paragraph cs, _ => [.paragraph (paragraphOf (Node.membersAll {} cs))]
  | .code v _, _ => codeBlocks v
  | .table _ cs, _ => [.table (tableOf cs), .paragraph spacer]
  | .rule, _ => [.paragraph ruleParagraph]
  | _, _ => []

theorem makes_of_mem {o : Overflow} {t : Site} {b : Block} (h : b ∈ t.plainBlocks o) :
    t.node.Makes b := by
  unfold plainBlocks at h
  split at h
  · next hnode =>
    rw [hnode, List.mem_singleton.mp h]
    exact .heading
  · next reference mark hnode _ =>
    rw [hnode, List.mem_singleton.mp h]
    exact .item mark _
  · next hnode _ =>
    rw [hnode, List.mem_singleton.mp h]
    exact .paragraph
  · next hnode =>
    rcases List.mem_append.mp h with h | h
    · obtain ⟨l, -, rfl⟩ := List.mem_map.mp h
      rw [hnode]
      exact .code l
    · rw [List.mem_singleton.mp h]
      exact .spacer
  · next hnode =>
    rcases List.mem_cons.mp h with rfl | h
    · rw [hnode]
      exact .table
    · rw [List.mem_singleton.mp h]
      exact .spacer
  · next hnode =>
    rw [hnode, List.mem_singleton.mp h]
    exact .rule
  · cases h

/-- The blocks of a site. -/
def blocks (o : Overflow) (t : Site) : List Block := decorate t.setting.quoted (t.plainBlocks o)

end Site

/-- The blocks of a node depend on what holds it only for an item in a list, and for a list or a
paragraph in an item. -/
def Holder.matters : Holder → Node → Bool
  | .list _, .item _ _ => true
  | .item _ _, .list _ _ _ => true
  | .item _ _, .paragraph _ => true
  | _, _ => false

namespace Node

mutual
private theorem decorate_blocks (o : Overflow) : ∀ (n : Node) (s : Setting),
    s.holder.matters n = false →
      decorate s.quoted (n.blocks o s.depth) = (n.sites s).flatMap (Site.blocks o)
  | .quote cs, s, _ => by
    rw [blocks, sites, decorate_quoted]
    exact decorate_blocksAll o cs .withinQuote rfl
  | .list ordered start cs, s, h => by
    have hdepth : (s.withinList ordered).depth = s.depth := by
      unfold Setting.withinList
      split <;> simp_all [Holder.matters]
    rw [blocks, sites, ← hdepth]
    exact decorate_listBlocks o cs (s.withinList ordered) _ rfl
  | .item checked cs, s, h => by
    have hholder : (s.withinItem checked).holder = .plain := by
      unfold Setting.withinItem
      split <;> simp_all [Holder.matters]
    rw [blocks, sites]
    exact decorate_blocksAll o cs (s.withinItem checked) hholder
  | .root cs, s, _ | .row cs, s, _ | .cell cs, s, _ | .styled _ cs, s, _ | .link _ _ cs, s, _
  | .parent _ cs, s, _ => by
    rw [blocks, sites]
    exact decorate_blocksAll o cs s.within rfl
  | .paragraph cs, s, h => by
    have hplain : Site.plainBlocks o ⟨s, .paragraph cs⟩ =
        [.paragraph (paragraphOf (membersAll {} cs))] := by
      unfold Site.plainBlocks
      split <;> simp_all [Holder.matters]
    simp [blocks, sites, Site.blocks, hplain]
  | .heading _ _, s, _ | .code _ _, s, _ | .table _ _, s, _ | .rule, s, _ | .text _, s, _
  | .inlineCode _, s, _ | .lineBreak _, s, _ | .image _ _ _, s, _ | .literal _ _, s, _
  | .bare, s, _ => by
    simp [blocks, sites, Site.blocks, Site.plainBlocks]

private theorem decorate_blocksAll (o : Overflow) : ∀ (ns : List Node) (s : Setting),
    s.holder = .plain →
      decorate s.quoted (blocksAll o s.depth ns) = (sitesOf s ns).flatMap (Site.blocks o)
  | [], s, _ => by simp [blocksAll, sitesOf]
  | n :: rest, s, h => by
    rw [blocksAll, sitesOf, decorate_append, List.flatMap_append, Setting.after_of_plain h,
      decorate_blocks o n s (by rw [h]; rfl), decorate_blocksAll o rest s h]

private theorem decorate_listBlocks (o : Overflow) :
    ∀ (ns : List Node) (s : Setting) (reference : String), s.holder = .list reference →
      decorate s.quoted (listBlocks o s.depth reference ns) =
        (sitesOf s ns).flatMap (Site.blocks o)
  | [], s, _, _ => by simp [listBlocks, sitesOf]
  | n :: rest, s, reference, h => by
    have hrest := decorate_listBlocks o rest s reference h
    rw [sitesOf, Setting.after_of_list h, List.flatMap_append, ← hrest]
    cases n with
    | item checked cs =>
      have hitem := decorate_itemBlocks o cs (s.withinItem checked) reference (checkbox checked)
        (by simp [Setting.withinItem, h])
      rw [listBlocks, decorate_append, sites, ← hitem]
      rfl
    | _ =>
      rw [← decorate_blocks o _ s (by rw [h]; rfl), listBlocks, decorate_append]
      all_goals simp

private theorem decorate_itemBlocks (o : Overflow) :
    ∀ (ns : List Node) (s : Setting) (reference : String) (mark : Option String),
      s.holder = .item reference mark →
        decorate s.quoted (itemBlocks o s.depth reference mark ns) =
          (sitesOf s ns).flatMap (Site.blocks o)
  | [], s, _, _, _ => by simp [itemBlocks, sitesOf]
  | n :: rest, s, reference, mark, h => by
    have hrest := decorate_itemBlocks o rest s.after reference none (by simp [Setting.after, h])
    rw [sitesOf, List.flatMap_append, ← hrest]
    cases n with
    | list ordered start cs =>
      have hlist := decorate_listBlocks o cs (s.withinList ordered) _ rfl
      have hdepth : (s.withinList ordered).depth = s.depth + 1 := by
        simp [Setting.withinList, h]
      rw [sites, ← hlist, hdepth, itemBlocks, decorate_append]
      rfl
    | paragraph cs =>
      rw [itemBlocks, ← List.singleton_append, decorate_append]
      simp [sites, Site.blocks, Site.plainBlocks, h, Setting.after]
    | _ =>
      rw [← decorate_blocks o _ s (by rw [h]; rfl), itemBlocks, decorate_append]
      · rfl
      all_goals simp
end

/-- Composing some nodes is a map over their sites. -/
theorem blocksAll_eq_sites (o : Overflow) (depth : Int) (ns : List Node) :
    blocksAll o depth ns = (sitesOf { depth } ns).flatMap (Site.blocks o) :=
  decorate_blocksAll o ns { depth } rfl

/-! ## Nodes that are reached -/

/-- A container other than a heading, a paragraph or a table. -/
def isOpen : Node → Bool
  | .root _ | .quote _ | .list _ _ _ | .item _ _ | .row _ | .cell _ | .styled _ _ | .link _ _ _
  | .parent _ _ => true
  | _ => false

mutual
/-- The nodes below a node that are reached through open containers, in reading order. -/
def beneath : Node → List Node
  | .root cs | .quote cs | .list _ _ cs | .item _ cs | .row cs | .cell cs | .styled _ cs
  | .link _ _ cs | .parent _ cs => reached cs
  | _ => []

/-- Some nodes and those below them that are reached through open containers. -/
def reached : List Node → List Node
  | [] => []
  | n :: rest => n :: (n.beneath ++ reached rest)
end

mutual
private theorem node_sites : ∀ (n : Node) (s : Setting),
    (n.sites s).map Site.node = (n :: n.beneath).filter (!·.isOpen)
  | .root cs, s | .quote cs, s | .list _ _ cs, s | .item _ cs, s | .row cs, s | .cell cs, s
  | .styled _ cs, s | .link _ _ cs, s | .parent _ cs, s => by
    rw [sites, beneath, node_sitesOf cs]
    simp [isOpen]
  | .heading _ _, s | .paragraph _, s | .code _ _, s | .table _ _, s | .rule, s | .text _, s
  | .inlineCode _, s | .lineBreak _, s | .image _ _ _, s | .literal _ _, s | .bare, s => by
    simp [sites, beneath, isOpen]

/-- The sites of some nodes are the nodes that are reached and not open themselves. -/
theorem node_sitesOf : ∀ (ns : List Node) (s : Setting),
    (sitesOf s ns).map Site.node = (reached ns).filter (!·.isOpen)
  | [], s => by simp [sitesOf, reached]
  | n :: rest, s => by
    rw [sitesOf, reached, List.map_append, node_sites n s, node_sitesOf rest, ← List.cons_append,
      List.filter_append]
end

/-- What is found at the sites of some nodes is found at the nodes that are reached, when open ones
have nothing of it. -/
theorem filterMap_sitesOf {α : Type} {find : Node → Option α}
    (h : ∀ n, n.isOpen = true → find n = none) (ns : List Node) (s : Setting) :
    (sitesOf s ns).filterMap (fun t => find t.node) = (reached ns).filterMap find := by
  have hclosed (n : Node) : (if !n.isOpen then find n else none) = find n := by
    cases hn : n.isOpen with
    | false => rfl
    | true => exact (h n hn).symm
  calc (sitesOf s ns).filterMap (fun t => find t.node)
    _ = ((sitesOf s ns).map Site.node).filterMap find := by
      rw [List.filterMap_map]
      rfl
    _ = ((reached ns).filter (!·.isOpen)).filterMap find := by rw [node_sitesOf]
    _ = (reached ns).filterMap find := by
      rw [List.filterMap_filter]
      simp only [hclosed]

/-- Each block of some nodes is made from one that is reached, inside a quote or not. -/
theorem exists_makes_of_mem {o : Overflow} {depth : Int} {ns : List Node} {b : Block}
    (h : b ∈ blocksAll o depth ns) :
    ∃ n ∈ reached ns, ∃ a, n.Makes a ∧ (b = a ∨ b = a.quoted) := by
  rw [blocksAll_eq_sites] at h
  obtain ⟨t, ht, hb⟩ := List.mem_flatMap.mp h
  obtain ⟨a, ha, hab⟩ := mem_decorate hb
  have hnode : t.node ∈ (reached ns).filter (!·.isOpen) := by
    rw [← node_sitesOf]
    exact List.mem_map_of_mem ht
  exact ⟨t.node, (List.mem_filter.mp hnode).1, a, Site.makes_of_mem ha, hab⟩

theorem ne_foreign_of_mem {o : Overflow} {depth : Int} {ns : List Node} {b : Block}
    (h : b ∈ blocksAll o depth ns) (kind : String) : b ≠ .foreign kind := by
  obtain ⟨n, -, a, hmakes, rfl | rfl⟩ := exists_makes_of_mem h
  · exact (hmakes.ne_foreign kind).1
  · exact (hmakes.ne_foreign kind).2

/-- Each heading that is reached has its block, inside a quote or not. -/
theorem exists_headingOf_of_reached (o : Overflow) (depth : Int) {ns : List Node} {d : Int}
    {cs : List Node} (h : .heading d cs ∈ reached ns) : ∃ b ∈ blocksAll o depth ns,
      b = .paragraph (headingOf d (membersAll {} cs)) ∨
        b = (Block.paragraph (headingOf d (membersAll {} cs))).quoted := by
  have hsite : .heading d cs ∈ (sitesOf { depth } ns).map Site.node := by
    rw [node_sitesOf]
    exact List.mem_filter.mpr ⟨h, rfl⟩
  obtain ⟨t, ht, hnode⟩ := List.mem_map.mp hsite
  have hplain : .paragraph (headingOf d (membersAll {} cs)) ∈ t.plainBlocks o := by
    simp [Site.plainBlocks, hnode]
  obtain ⟨b, hb, hab⟩ := exists_mem_decorate t.setting.quoted hplain
  refine ⟨b, ?_, hab⟩
  rw [blocksAll_eq_sites]
  exact List.mem_flatMap.mpr ⟨t, ht, hb⟩

end Node
end MarkdownWord
