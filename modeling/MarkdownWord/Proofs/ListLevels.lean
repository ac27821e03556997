import MarkdownWord.Proofs.Occurrences

/-!
# The levels of lists

The blocks of a tree fall into groups, one for each node that is reached. A paragraph in an item of
a list is the only one to be numbered, at the level that its nesting has under the policy for deep
lists (`Node.composes_blocksAll`).
-/

namespace MarkdownWord
open Word

namespace Word

/-- What the paragraphs of a block refer to. -/
def Block.numberings (b : Block) : List (Option ListReference) := b.paragraphs.map (·.numbering)

@[simp] theorem Block.numberings_paragraph (p : Paragraph) :
    (Block.paragraph p).numberings = [p.numbering] := rfl

@[simp] theorem Block.numberings_quoted (b : Block) : b.quoted.numberings = b.numberings := by
  cases b <;> rfl

theorem numberings_tableOf {rows : List Node} {r : Option ListReference}
    (h : r ∈ (Block.table (tableOf rows)).numberings) : r = none := by
  obtain ⟨p, hp, rfl⟩ := List.mem_map.mp h
  obtain ⟨row, hrow, hcells⟩ := List.mem_flatMap.mp hp
  obtain ⟨c, hc, hpc⟩ := List.mem_flatMap.mp hcells
  obtain ⟨n, -, head, rfl⟩ := exists_rowOf_of_mem hrow
  obtain ⟨m, -, rfl⟩ := List.mem_map.mp hc
  obtain rfl := List.mem_singleton.mp hpc
  rfl

/-! ## Levels under a policy -/

namespace Overflow

theorem level_of_le (o : Overflow) {n : Int} (h : n ≤ 8) : o.level n = max n 0 := by
  unfold level ListScheme.levelCount
  split
  · omega
  · have hlt : n < (9 : Nat) := by omega
    rw [if_pos hlt]
    omega

theorem level_ofName_of_lt (policy : String) {n : Int} (h : 8 < n) :
    (ofName policy).level n = if policy = "cycle" then n % 9 else 8 := by
  have hnonneg : ¬ n < 0 := by omega
  have hdeep : ¬ n < (ListScheme.levelCount : Int) := by
    unfold ListScheme.levelCount
    omega
  unfold level
  rw [if_neg hnonneg, if_neg hdeep]
  unfold ofName
  by_cases hcycle : policy = "cycle"
  · rw [if_pos hcycle, if_pos hcycle]
    rfl
  · rw [if_neg hcycle, if_neg hcycle]
    rfl

/-- A further nesting raises the level by one until it is the last one. -/
theorem level_add_one (o : Overflow) {n : Int} (hlow : 0 ≤ n) (hhigh : n < 8) :
    o.level (n + 1) = o.level n + 1 := by
  rw [level_of_le o (by omega), level_of_le o (by omega)]
  omega

end Overflow
end Word

/-! ## Groups of blocks -/

/-- What a paragraph in an item of a list refers to: the scheme of that list, at the level of its
nesting. -/
def Occurrence.reference? (o : Overflow) (start : Int) (t : Occurrence) : Option ListReference :=
  t.listKind?.map fun ordered =>
    ⟨ListScheme.referenceFor ordered, o.level (t.ancestors.base start + t.ancestors.nesting)⟩

theorem Occurrence.reference?_eq_none {o : Overflow} {start : Int} {t : Occurrence} :
    t.reference? o start = none ↔ t.listKind? = none := Option.map_eq_none_iff

/-- Some blocks are all that a node is composed to. A paragraph becomes one paragraph, which is
numbered if an item of a list holds it. Nothing else is numbered. -/
structure Occurrence.Composes (o : Overflow) (start : Int) (t : Occurrence) (bs : List Block) :
    Prop where
  made : ∀ b ∈ bs, ∃ a, t.node.Makes a ∧ (b = a ∨ b = a.quoted)
  paragraph : ∀ cs, t.node = .paragraph cs →
    ∃ p, bs = [.paragraph p] ∧ p.numbering = t.reference? o start
  other : (∀ cs, t.node ≠ .paragraph cs) → ∀ b ∈ bs, ∀ p ∈ b.paragraphs, p.numbering = none

namespace Occurrence.Composes

variable {o : Overflow} {start : Int} {t : Occurrence} {bs : List Block}

theorem item (h : t.Composes o start bs) {ordered : Bool} (hkind : t.listKind? = some ordered) :
    ∃ p, bs = [.paragraph p] ∧ p.numbering = some ⟨ListScheme.referenceFor ordered,
      o.level (t.ancestors.base start + t.ancestors.nesting)⟩ := by
  obtain ⟨cs, hnode, -⟩ := Occurrence.listKind?_eq_some hkind
  obtain ⟨p, hp, hnumbering⟩ := h.paragraph cs hnode
  refine ⟨p, hp, ?_⟩
  rw [hnumbering, reference?, hkind]
  rfl

theorem unnumbered (h : t.Composes o start bs) (hkind : t.listKind? = none) :
    ∀ b ∈ bs, ∀ p ∈ b.paragraphs, p.numbering = none := by
  by_cases hnode : ∃ cs, t.node = .paragraph cs
  · obtain ⟨cs, hnode⟩ := hnode
    obtain ⟨p, rfl, hnumbering⟩ := h.paragraph cs hnode
    rw [reference?_eq_none.mpr hkind] at hnumbering
    simpa [Block.paragraphs] using hnumbering
  · exact h.other fun cs hcs => hnode ⟨cs, hcs⟩

end Occurrence.Composes

namespace Site

/-- Paragraphs of other nodes than paragraphs are not numbered. -/
theorem unnumbered_plainBlocks {o : Overflow} {t : Site} (h : ∀ cs, t.node ≠ .paragraph cs)
    {b : Block} (hb : b ∈ t.plainBlocks o) : ∀ r ∈ b.numberings, r = none := by
  unfold plainBlocks at hb
  split at hb
  · rw [List.mem_singleton.mp hb]
    simp [headingOf]
  · next hnode _ => exact absurd hnode (h _)
  · next hnode _ => exact absurd hnode (h _)
  · rcases List.mem_append.mp hb with hb | hb
    · obtain ⟨line, -, rfl⟩ := List.mem_map.mp hb
      simp [codeLine]
    · rw [List.mem_singleton.mp hb]
      simp [spacer]
  · rcases List.mem_cons.mp hb with rfl | hb
    · exact fun r hr => numberings_tableOf hr
    · rw [List.mem_singleton.mp hb]
      simp [spacer]
  · rw [List.mem_singleton.mp hb]
    simp [ruleParagraph]
  · cases hb

end Site

/-- The paragraph of a paragraph: a numbered one if an item of a list holds it. -/
theorem Occurrence.IsAt.exists_plainBlocks {o : Overflow} {start : Int} {t : Occurrence}
    {site : Site} (h : t.IsAt start site) {cs : List Node} (hnode : t.node = .paragraph cs) :
    ∃ p, site.plainBlocks o = [.paragraph p] ∧ p.numbering = t.reference? o start := by
  have hsite : site.node = .paragraph cs := h.node.trans hnode
  obtain ⟨mark, hholder⟩ := h.setting.holder
  cases hkind : t.ancestors.listKind? with
  | some ordered =>
    rw [Ancestors.holder_of_listKind? hkind] at hholder
    let r : ListReference := ⟨ListScheme.referenceFor ordered, o.level site.setting.depth⟩
    refine ⟨itemParagraph mark r (Node.membersAll {} cs), ?_, ?_⟩
    · simp [Site.plainBlocks, hsite, hholder, r]
    · simp [itemParagraph, r, reference?, listKind?, hnode, hkind, h.setting.depth]
  | none =>
    refine ⟨paragraphOf (Node.membersAll {} cs), ?_, ?_⟩
    · unfold Site.plainBlocks
      rw [hsite, hholder]
      rcases t.ancestors.shapes with ⟨_, _, _, _, _, _, has⟩ | ⟨_, _, _, _, has⟩ | ⟨-, hplain, -⟩
      · rw [has] at hkind
        cases hkind
      · rw [has]
        rfl
      · rw [hplain]
    · simp [paragraphOf, reference?, listKind?, hnode, hkind]

theorem Occurrence.IsAt.composes {o : Overflow} {start : Int} {t : Occurrence} {site : Site}
    (h : t.IsAt start site) : t.Composes o start (site.blocks o) where
  made b hb := by
    obtain ⟨a, ha, hab⟩ := mem_decorate hb
    refine ⟨a, ?_, hab⟩
    rw [← h.node]
    exact Site.makes_of_mem ha
  paragraph cs hnode := by
    obtain ⟨p, hplain, hnumbering⟩ := h.exists_plainBlocks (o := o) hnode
    rw [Site.blocks, hplain]
    cases site.setting.quoted with
    | false => exact ⟨p, rfl, hnumbering⟩
    | true => exact ⟨_, rfl, hnumbering⟩
  other hnode b hb p hp := by
    have hsite : ∀ cs, site.node ≠ .paragraph cs := by
      rw [h.node]
      exact hnode
    obtain ⟨a, ha, hab⟩ := mem_decorate hb
    have hnumberings : b.numberings = a.numberings := by
      rcases hab with rfl | rfl
      · rfl
      · exact a.numberings_quoted
    refine Site.unnumbered_plainBlocks hsite ha _ ?_
    rw [← hnumberings]
    exact List.mem_map_of_mem hp

namespace Node

/-- The blocks of some nodes, in groups, are what the occurrences are composed to. -/
theorem composes_occurrencesOf (o : Overflow) (start : Int) (nodes : List Node) :
    ∃ groups, groups.flatten = blocksAll o start nodes ∧
      List.Forall₂ (Occurrence.Composes o start) (occurrencesOf [] nodes) groups := by
  refine ⟨(sitesOf { depth := start } nodes).map (Site.blocks o), ?_, ?_⟩
  · rw [blocksAll_eq_sites, List.flatMap_def]
  · rw [List.forall₂_map_right_iff]
    have hsites := fits_sitesOf nodes (Setting.Fits.initial start)
    exact hsites.imp fun t site h => h.composes

/-- A paragraph in an item of a list becomes one numbered paragraph: it refers to the scheme of its
list, at the level that belongs to its depth, which is the number of the lists around it, up to the
nearest quote, that are held by items of lists. No other paragraph is numbered. When lists are
nested through items only, all lists but the outermost are counted. -/
theorem composes_blocksAll (policy : String) (start : Int) (nodes : List Node) :
    (∃ groups, groups.flatten = blocksAll (.ofName policy) start nodes ∧
      List.Forall₂ (Occurrence.Composes (.ofName policy) start) (occurrencesOf [] nodes) groups) ∧
    (∀ t ∈ occurrencesOf [] nodes, t.listKind?.isSome → t.ancestors.Linked →
      t.ancestors.nesting + 1 = t.ancestors.lists) ∧
    (∀ n : Int, 0 ≤ n → n < 8 →
      (Overflow.ofName policy).level (n + 1) = (Overflow.ofName policy).level n + 1) ∧
    (∀ n : Int, n ≤ 8 → (Overflow.ofName policy).level n = max n 0) ∧
    ∀ n : Int, 8 < n →
      (Overflow.ofName policy).level n = if policy = "cycle" then n % 9 else 8 := by
  refine ⟨composes_occurrencesOf _ start nodes, fun t _ hkind hlinked => ?_, ?_, ?_, ?_⟩
  · obtain ⟨ordered, hsome⟩ := Option.isSome_iff_exists.mp hkind
    obtain ⟨cs, -, hancestors⟩ := Occurrence.listKind?_eq_some hsome
    refine Ancestors.nesting_add_one hlinked (Ancestors.any_isList_of_listKind? ?_)
    rw [Ancestors.listKind?_belowQuote, hancestors]
    rfl
  · exact fun n hlow hhigh => Overflow.level_add_one _ hlow hhigh
  · exact fun n h => Overflow.level_of_le _ h
  · exact fun n h => Overflow.level_ofName_of_lt policy h

/-- A list in a quote is on the first level again. -/
example :
    (occurrencesOf [] [
      .list true none [.item none [
        .paragraph [],
        .quote [.list false none [.item none [.parent "" [.paragraph []], .paragraph [],
          .list true none [.item none [.paragraph []]]]]]]]]).map
      (Occurrence.reference? .cycle 10) =
    [some ⟨"ordered-list", 1⟩, none, some ⟨"bullet-list", 0⟩, some ⟨"ordered-list", 1⟩] := by
  decide

end Node
end MarkdownWord
