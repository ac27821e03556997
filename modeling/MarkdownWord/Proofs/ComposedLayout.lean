import MarkdownWord.Proofs.Layout
import MarkdownWord.Proofs.Sites

/-!
# The layout of composed blocks

Whatever a tree is like, its blocks are laid out in the few ways that composing knows, all of which
can be written (`Node.writable_blocksAll`). The levels of its headings are taken over from the tree
and can be anything (`Node.level?_blocksAll`).
-/

namespace MarkdownWord
open Word

namespace Word

theorem writable_of_members {p : Paragraph} (h : ∀ m ∈ p.members, ∀ r ∈ m.runs, r.Writable)
    (hlayout : p.isLaidOut = true) : p.Writable := by
  refine ⟨fun r hr => ?_, hlayout⟩
  obtain ⟨m, hm, hr⟩ := List.mem_flatMap.mp hr
  exact h m hm r hr

theorem writable_spacer : spacer.Writable :=
  writable_of_members (fun m hm => absurd hm List.not_mem_nil) (by decide)

theorem writable_codeLine (line : List Char) : (codeLine line).Writable := by
  refine ⟨fun r hr => ?_, by rfl⟩
  obtain rfl := List.mem_singleton.mp hr
  exact ⟨.inl rfl, .inr rfl, .inl rfl, .inr rfl⟩

theorem writable_ruleParagraph : ruleParagraph.Writable := by
  refine ⟨fun r hr => ?_, by decide⟩
  obtain rfl := List.mem_singleton.mp hr
  exact ⟨.inl rfl, .inl rfl, .inl rfl, .inl rfl⟩

theorem writable_itemParagraph (mark : Option String) (numbering : ListReference) (cs : List Node) :
    (itemParagraph mark numbering (Node.membersAll {} cs)).Writable := by
  refine writable_of_members (fun m hm r hr => ?_) (by rfl)
  have htree (hm : m ∈ Node.membersAll {} cs) : r.Writable := Node.writable_membersAll hm hr
  cases mark with
  | none => exact htree hm
  | some mark =>
    rcases List.mem_cons.mp hm with rfl | hm
    · obtain rfl := List.mem_singleton.mp hr
      exact ⟨.inl rfl, .inl rfl, .inl rfl, .inl rfl⟩
    · exact htree hm

theorem writable_cellOf (head : Bool) (n : Node) : (cellOf head n).Writable := by
  refine ⟨fun p hp => ?_, ?_⟩
  · obtain rfl := List.mem_singleton.mp hp
    exact writable_of_members (fun m hm r hr => Node.writable_membersAll hm hr) (by rfl)
  · cases head <;> simp [cellOf]
    decide

theorem writable_tableOf (rows : List Node) : (Block.table (tableOf rows)).Writable := by
  intro r hr c hc
  obtain ⟨n, -, head, rfl⟩ := exists_rowOf_of_mem hr
  obtain ⟨m, -, rfl⟩ := List.mem_map.mp hc
  exact writable_cellOf head m

theorem Block.Writable.quoted {b : Block} (h : b.Writable) : b.quoted.Writable := by
  cases b with
  | paragraph p =>
    refine ⟨h.runs, ?_⟩
    have hlayout := h.layout
    have hborder : quoteBorder.isLegal = true := by decide
    simp only [Paragraph.isLaidOut, Paragraph.lengths, List.all_append, Bool.and_eq_true] at hlayout ⊢
    simp [hlayout, hborder]
  | table t => exact h
  | foreign kind => exact h

end Word

theorem Node.Makes.writable {n : Node} {b : Block} (h : n.Makes b) : b.Writable := by
  have hmembers {cs : List Node} {m : Member} (hm : m ∈ Node.membersAll {} cs) :
      ∀ r ∈ m.runs, r.Writable := fun r hr => Node.writable_membersAll hm hr
  cases h with
  | heading => exact writable_of_members (fun m hm => hmembers hm) (by rfl)
  | item mark numbering => exact writable_itemParagraph mark numbering _
  | paragraph => exact writable_of_members (fun m hm => hmembers hm) (by rfl)
  | code line => exact writable_codeLine line
  | table => exact writable_tableOf _
  | rule => exact writable_ruleParagraph
  | spacer => exact writable_spacer

theorem Node.writable_blocksAll {o : Overflow} {depth : Int} {ns : List Node} {b : Block}
    (h : b ∈ blocksAll o depth ns) : b.Writable := by
  obtain ⟨n, -, a, ha, rfl | rfl⟩ := exists_makes_of_mem h
  · exact ha.writable
  · exact ha.writable.quoted

/-! ## Levels -/

@[simp] theorem Word.Block.level?_quoted (b : Block) : b.quoted.level? = b.level? := by
  cases b <;> rfl

theorem Node.Makes.level? {n : Node} {b : Block} {d : Int} (h : n.Makes b)
    (hlevel : b.level? = some d) : ∃ cs, n = .heading d cs := by
  cases h with
  | heading =>
    obtain rfl := Option.some.inj hlevel
    exact ⟨_, rfl⟩
  | item | paragraph | code | table | rule | spacer => cases hlevel

/-- The levels of the blocks of some nodes are the depths of the headings that are reached. -/
theorem Node.level?_blocksAll {o : Overflow} {depth d : Int} {ns : List Node} :
    (∃ b ∈ blocksAll o depth ns, b.level? = some d) ↔ ∃ cs, .heading d cs ∈ reached ns := by
  constructor
  · rintro ⟨b, hb, hlevel⟩
    obtain ⟨n, hn, a, ha, hab⟩ := exists_makes_of_mem hb
    have hlevel : a.level? = some d := by
      rcases hab with rfl | rfl
      · exact hlevel
      · rwa [Block.level?_quoted] at hlevel
    obtain ⟨cs, rfl⟩ := ha.level? hlevel
    exact ⟨cs, hn⟩
  · rintro ⟨cs, hmem⟩
    obtain ⟨b, hb, hab⟩ := exists_headingOf_of_reached o depth hmem
    refine ⟨b, hb, ?_⟩
    rcases hab with rfl | rfl
    · rfl
    · rfl

end MarkdownWord
