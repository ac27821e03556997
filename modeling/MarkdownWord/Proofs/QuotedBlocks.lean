import MarkdownWord.Proofs.NestedQuotes
import MarkdownWord.Proofs.Occurrences

/-!
# What a quote adds

A quote indents the paragraphs inside it and puts a border on their left edge. It does so after they
are composed, and a paragraph can pass through several quotes on its way out, with lists between
them. What comes out is marked when the node that it comes from is inside a quote, not marked
otherwise, and the same in every other respect (`Node.isQuoted_blocksAll`).
-/

namespace MarkdownWord
open Word

/-- A paragraph has nothing that a quote could have given it. -/
def Word.Paragraph.IsPlain (p : Paragraph) : Prop := p.indentLeft = none ∧ p.borderLeft = none

namespace Word.Block

/-- Two blocks are the same, apart from what a quote adds to a paragraph. -/
inductive Alike : Block → Block → Prop
  | paragraph (p : Paragraph) (indent : Option Int) (border : Option Border) :
    Alike (.paragraph { p with indentLeft := indent, borderLeft := border }) (.paragraph p)
  | table (t : Table) : Alike (.table t) (.table t)
  | foreign (kind : String) : Alike (.foreign kind) (.foreign kind)

theorem Alike.refl : ∀ b : Block, b.Alike b
  | .paragraph p => .paragraph p p.indentLeft p.borderLeft
  | .table t => .table t
  | .foreign kind => .foreign kind

theorem alike_quoted : ∀ b : Block, b.quoted.Alike b
  | .paragraph p => .paragraph p (some 720) (some quoteBorder)
  | .table t => .table t
  | .foreign kind => .foreign kind

theorem forall₂_alike_decorate (q : Bool) (bs : List Block) :
    List.Forall₂ Alike (decorate q bs) bs := by
  cases q with
  | false => exact List.forall₂_same.mpr fun b _ => .refl b
  | true => exact List.forall₂_map_left_iff.mpr (List.forall₂_same.mpr fun b _ => alike_quoted b)

theorem quoted_isQuoted {b : Block} {p : Paragraph} (h : b.quoted = .paragraph p) : p.IsQuoted := by
  cases b with
  | paragraph q =>
    cases h
    exact ⟨rfl, rfl⟩
  | table t => cases h
  | foreign kind => cases h

end Word.Block

/-- Every paragraph that a node is made into is plain, before a quote adds anything. -/
theorem Node.Makes.isPlain {n : Node} {p : Paragraph} (h : n.Makes (.paragraph p)) : p.IsPlain := by
  cases h <;> exact ⟨rfl, rfl⟩

/-- Some blocks are those of an occurrence: the ones that its node has in a setting which fits, all
of their paragraphs marked if the node is inside a quote, and none of them otherwise. -/
structure Occurrence.Gives (o : Overflow) (start : Int) (t : Occurrence) (group : List Block) :
    Prop where
  made : ∃ site, t.IsAt start site ∧ List.Forall₂ Block.Alike group (site.plainBlocks o)
  isQuoted_iff : ∀ p, .paragraph p ∈ group → (p.IsQuoted ↔ ∃ a ∈ t.ancestors, a.isQuote)
  isPlain : ∀ p, .paragraph p ∈ group → (∀ a ∈ t.ancestors, ¬ a.isQuote) → p.IsPlain

theorem Occurrence.IsAt.gives {o : Overflow} {start : Int} {t : Occurrence} {site : Site}
    (h : t.IsAt start site) : t.Gives o start (site.blocks o) := by
  have hplain (p : Paragraph) (hp : .paragraph p ∈ site.plainBlocks o) : p.IsPlain :=
    (Site.makes_of_mem hp).isPlain
  have hquoted : site.setting.quoted = true ↔ ∃ a ∈ t.ancestors, a.isQuote := by
    rw [h.setting.quoted, List.any_eq_true]
  refine ⟨⟨site, h, Block.forall₂_alike_decorate _ _⟩, fun p hp => ?_, fun p hp hnone => ?_⟩
  · rw [← hquoted]
    unfold Site.blocks decorate at hp
    cases hq : site.setting.quoted with
    | false =>
      rw [hq] at hp
      have hnone := (hplain p hp).1
      refine iff_of_false (fun hmarked => ?_) Bool.false_ne_true
      cases hnone.symm.trans hmarked.indent
    | true =>
      rw [hq] at hp
      obtain ⟨b, -, hb⟩ := List.mem_map.mp hp
      simp [Block.quoted_isQuoted hb]
  · have hq : site.setting.quoted = false := by
      rw [← Bool.not_eq_true, hquoted]
      simpa using hnone
    rw [Site.blocks, hq] at hp
    exact hplain p hp

namespace Node

theorem blocksAll_singleton_quote (o : Overflow) (depth : Int) (ns : List Node) :
    blocksAll o depth [.quote ns] = (blocksAll o 0 ns).map Block.quoted := by
  simp [blocksAll, blocks]

/-- The blocks of some nodes come in groups, one for each node that is reached, and a paragraph is
marked as one inside a quote when its node is inside one. A quote around all the nodes changes
nothing else about their blocks, which are composed as if they stood alone, and a second one changes
nothing at all. -/
theorem isQuoted_blocksAll (o : Overflow) (depth : Int) (ns : List Node) :
    (∃ groups, groups.flatten = blocksAll o depth ns ∧
      List.Forall₂ (Occurrence.Gives o depth) (occurrencesOf [] ns) groups) ∧
    List.Forall₂ Block.Alike (blocksAll o depth [.quote ns]) (blocksAll o 0 ns) ∧
    blocksAll o depth [.quote [.quote ns]] = blocksAll o depth [.quote ns] := by
  refine ⟨⟨(sitesOf { depth } ns).map (Site.blocks o), ?_, ?_⟩, ?_, ?_⟩
  · rw [blocksAll_eq_sites, List.flatMap_def]
  · have hsites := fits_sitesOf ns (Setting.Fits.initial depth)
    exact List.forall₂_map_right_iff.mpr (hsites.imp fun _ _ hsite => hsite.gives)
  · rw [blocksAll_singleton_quote]
    exact Block.forall₂_alike_decorate true _
  · simp [blocksAll_singleton_quote, Function.comp_def]

end Node
end MarkdownWord
