import Mathlib
import MarkdownWord.Node.OfMarkdown
import MarkdownWord.Proofs.ShownTexts
import MarkdownWord.Proofs.SingleLines

/-!
# Documents of one bulleted line

A line with a hyphen and a blank before it makes a list of one item, unless it makes none, and the
paragraph of the item has the text of the line. Whether the item is a task is told from the text
that the spans of the paragraph start with (`Node.checked_bullet`).
-/

namespace MarkdownWord.Markdown
open Text

/-! ## Lines -/

def Block.isParagraph : Block → Bool
  | .paragraph _ => true
  | _ => false

def Block.isList : Block → Bool
  | .list _ _ => true
  | _ => false

/-- A reading that gives neither paragraphs nor lists. -/
structure Reading.IsOther (r : Reading) : Prop where
  paragraph : r.blocks.any Block.isParagraph = false
  list : r.blocks.any Block.isList = false

theorem Reading.isOther_block {b : Block} (hparagraph : b.isParagraph = false)
    (hlist : b.isList = false) (n : Nat) : (block b n).IsOther :=
  ⟨by simp [block, hparagraph], by simp [block, hlist]⟩

/-- A line is read as a list or as a paragraph, unless all it gives is of other kinds. -/
theorem readBlock_cases (inQuote inItem : Reader) (f : Frame) (l : Line) (rest : List Line) :
    readList? inItem f l rest = some (readBlock inQuote inItem f l rest) ∨
      readBlock inQuote inItem f l rest = readParagraph f l rest ∨
      (readBlock inQuote inItem f l rest).IsOther := by
  have htable : ∀ r ∈ readTable? f l rest, r.IsOther :=
    holds_of_map fun _ _ => Reading.isOther_block (by rfl) (by rfl) _
  have hindented : ∀ r ∈ readIndented? f l rest, r.IsOther := by
    unfold readIndented?
    split
    · rintro r ⟨⟩
      exact Reading.isOther_block (by rfl) (by rfl) _
    · rintro r ⟨⟩
  have hfenced : ∀ r ∈ readFenced? f l rest, r.IsOther :=
    holds_of_map fun _ _ => Reading.isOther_block (by rfl) (by rfl) _
  have hquote : ∀ r ∈ readQuote? inQuote f l rest, r.IsOther := by
    unfold readQuote?
    split
    · exact holds_of_map fun _ _ => ⟨rfl, rfl⟩
    · rintro r ⟨⟩
  have hrule : ∀ r ∈ readRule? f l, r.IsOther := by
    unfold readRule?
    split
    · rintro r ⟨⟩
      exact Reading.isOther_block (by rfl) (by rfl) _
    · rintro r ⟨⟩
  have hdefinition : ∀ r ∈ readDefinition? f l rest, r.IsOther := by
    unfold readDefinition?
    split
    · rintro r ⟨⟩
    · exact holds_of_map fun _ _ => ⟨rfl, rfl⟩
  have hhtml : ∀ r ∈ readHtml? f l rest, r.IsOther :=
    holds_of_map fun _ _ => Reading.isOther_block (by rfl) (by rfl) _
  have hheading : ∀ r ∈ readHeading? f l, r.IsOther :=
    holds_of_map fun _ _ => Reading.isOther_block (by rfl) (by rfl) _
  have hunderlined : ∀ r ∈ readUnderlined? f l rest, r.IsOther := by
    unfold readUnderlined?
    split
    · rintro r ⟨⟩
    · exact holds_of_map fun _ _ => Reading.isOther_block (by rfl) (by rfl) _
  have hother {o : Option Reading} (h : ∀ r ∈ o, r.IsOther) : ∀ r ∈ o,
      readList? inItem f l rest = some r ∨ r = readParagraph f l rest ∨ r.IsOther :=
    fun r hr => .inr (.inr (h r hr))
  exact readBlock_of_kinds
    (P := fun r => readList? inItem f l rest = some r ∨ r = readParagraph f l rest ∨ r.IsOther)
    (hother htable) (hother hindented) (hother hfenced) (hother hquote) (hother hrule)
    (fun r hr => .inl hr) (hother hdefinition) (hother hhtml) (hother hheading)
    (hother hunderlined) (.inr (.inl rfl))

theorem readItems_line (inItem : Reader) (f : Frame) (m : ListMarker) (l : Line) :
    readItems inItem f m [l] = ([(readItem inItem f m l []).blocks],
      (readItem inItem f m l []).definitions, max 1 (readItem inItem f m l []).used) := by
  rw [readItems]
  simp

theorem isBlank_cleaned {s : List Char} (h : ∀ c ∈ s.head?, isBlank c = false) :
    ∀ c ∈ (cleaned s).head?, isBlank c = false := by
  cases s with
  | nil => rintro c ⟨⟩
  | cons c s =>
    rintro d ⟨⟩
    dsimp only
    split
    · rfl
    · exact h c rfl

/-- The line of an item as it is read inside the item. -/
def bulletLine (s : List Char) : Line := ⟨['-', ' '], s, 2, 0, false⟩

theorem item_bullet {s : List Char} (h : ∀ c ∈ s.head?, isSpace c = false) :
    Line.item ⟨'-', none, 1⟩ ⟨[], '-' :: ' ' :: s, 0, 0, false⟩ = (bulletLine s, 2) := by
  cases s with
  | nil => rfl
  | cons c s =>
    have hc : isSpace c = false := h c rfl
    have hspace : isSpace ' ' = true := rfl
    simp [Line.item, bulletLine, hc, hspace, columnAfterAll, columnAfter]

/-- What is read inside the item of a bulleted line. -/
def bulletReading (s : List Char) : Reading :=
  readBlock (reader 197) (reader 196) ⟨2, some 0⟩ (bulletLine s) []

theorem readItem_bullet {s : List Char} (hs : s ≠ []) (h : ∀ c ∈ s.head?, isSpace c = false) :
    let item := readItem (reader 198) ⟨0, none⟩ ⟨'-', none, 1⟩ ⟨[], '-' :: ' ' :: s, 0, 0, false⟩ []
    item.blocks = (bulletReading s).blocks ∧ item.definitions = (bulletReading s).definitions := by
  intro item
  have hline : (bulletLine s).isEmpty = false := by simpa [bulletLine, Line.isEmpty] using hs
  have hitem : item = reader 198 ⟨2, some 0⟩ [bulletLine s] := by
    simp only [item, readItem, item_bullet h, hline]
    rfl
  rw [hitem]
  exact readBlocks_line hline rfl

/-- A bulleted line that makes a list makes a list of one item. -/
theorem readDocument_bullet {t : List Char} (hreturn : '\r' ∉ t) (hline : '\n' ∉ t)
    (hblank : ∀ c ∈ t.head?, isBlank c = false) (ht : t ≠ [])
    (hlist : (readDocument ('-' :: ' ' :: t)).blocks.any Block.isList = true) :
    (readDocument ('-' :: ' ' :: t)).blocks = [.list none [(bulletReading (cleaned t)).blocks]] ∧
      (readDocument ('-' :: ' ' :: t)).definitions = (bulletReading (cleaned t)).definitions := by
  obtain ⟨hblocks, hdefinitions⟩ := readDocument_line (c := '-') (s := ' ' :: t) rfl (by decide)
    (by simpa using hreturn) (by simpa using hline)
  have hcleaned : cleaned (' ' :: t) = ' ' :: cleaned t := rfl
  rw [hcleaned] at hblocks hdefinitions
  rw [hblocks] at hlist
  have hspace : ∀ c ∈ (cleaned t).head?, isSpace c = false := fun c hc =>
    isSpace_of_not_isBlank (isBlank_cleaned hblank c hc)
  obtain ⟨hitem, hitem'⟩ := readItem_bullet (by simpa [cleaned] using ht) hspace
  let l : Line := ⟨[], '-' :: ' ' :: cleaned t, 0, 0, false⟩
  rcases readBlock_cases (reader 199) (reader 198) ⟨0, none⟩ l [] with hread | hread | hread
  · have hstart : l.listStart? ⟨0, none⟩ false = some ⟨'-', none, 1⟩ := rfl
    rw [readList?, hstart, Option.map_some, readItems_line, Option.some_inj] at hread
    rw [hblocks, hdefinitions, ← hread]
    exact ⟨congrArg (fun item => [Block.list none [item]]) hitem, hitem'⟩
  · rw [hread] at hlist
    cases hlist
  · rw [hread.list] at hlist
    cases hlist

/-- A paragraph inside the item of a bulleted line has the text of the line. -/
theorem bulletReading_of_paragraph {s : List Char}
    (h : (bulletReading s).blocks.any Block.isParagraph = true) :
    bulletReading s = .block (.paragraph (trimBlank s)) 1 := by
  unfold bulletReading at h ⊢
  rcases readBlock_cases (reader 197) (reader 196) ⟨2, some 0⟩ (bulletLine s) []
    with hread | hread | hread
  · obtain ⟨m, -, heq⟩ := Option.map_eq_some_iff.mp hread
    rw [← heq] at h
    cases h
  · exact hread
  · rw [hread.paragraph] at h
    cases h

/-! ## Nodes -/

theorem exists_of_mem_blocksToNodes {definitions : List Definition} {bs : List Block} {n : Node}
    (h : n ∈ blocksToNodes definitions bs) : ∃ b ∈ bs, b.toNode definitions = n := by
  induction bs with
  | nil => cases h
  | cons b bs ih =>
    rcases List.mem_cons.mp h with rfl | h
    · exact ⟨b, List.mem_cons_self, rfl⟩
    · obtain ⟨c, hc, hn⟩ := ih h
      exact ⟨c, List.mem_cons_of_mem b hc, hn⟩

theorem isParagraph_of_toNode {definitions : List Definition} {b : Block} {cs : List Node}
    (h : b.toNode definitions = .paragraph cs) : b.isParagraph = true := by
  cases b with
  | paragraph text => rfl
  | indented text => rw [Block.toNode, Node.codeOf] at h; cases h
  | fenced info text => rw [Block.toNode, Node.codeOf] at h; cases h
  | _ => rw [Block.toNode] at h; cases h

theorem isList_of_toNode {definitions : List Definition} {b : Block} {ordered : Bool}
    {start : Option Int} {cs : List Node} (h : b.toNode definitions = .list ordered start cs) :
    b.isList = true := by
  cases b with
  | list start items => rfl
  | indented text => rw [Block.toNode, Node.codeOf] at h; cases h
  | fenced info text => rw [Block.toNode, Node.codeOf] at h; cases h
  | _ => rw [Block.toNode] at h; cases h

end MarkdownWord.Markdown

namespace MarkdownWord
open Markdown Text

theorem Node.head?_of_itemOf {content rest : List Node} {checked : Option Bool} {cs : List Node}
    (h : itemOf content = .item checked (.paragraph cs :: rest)) :
    ∃ cs, content.head? = some (.paragraph cs) := by
  unfold itemOf at h
  split at h
  · exact ⟨_, rfl⟩
  · cases h
    exact ⟨cs, rfl⟩

/-- An item has the task marker of the text that its first paragraph starts with. -/
theorem Node.itemOf_spans {spans : List Span} (hspans : ∀ later, spans ≠ .text [] :: later)
    (rest : List Node) : ∃ cs, itemOf (.paragraph (spansToNodes spans) :: rest) =
      .item ((taskMarker? (firstText spans)).map Prod.fst) (.paragraph cs :: rest) := by
  cases spans with
  | nil => exact ⟨_, rfl⟩
  | cons s later =>
    cases s with
    | text u =>
      have hu : u.isEmpty = false := by
        rw [List.isEmpty_eq_false_iff]
        rintro rfl
        exact hspans later rfl
      have hnodes : spansToNodes (.text u :: later) =
          .text (String.ofList u) :: spansToNodes later := by
        rw [spansToNodes, Span.toNodes, hu]
        rfl
      rw [hnodes, itemOf, String.toList_ofList, firstText]
      cases taskMarker? u with
      | none => exact ⟨_, rfl⟩
      | some found => exact ⟨_, rfl⟩
    | _ => exact ⟨_, rfl⟩

section Bullet

variable {t : List Char} (hreturn : '\r' ∉ t) (hline : '\n' ∉ t)
  (hblank : ∀ c ∈ t.head?, isBlank c = false)

include hreturn hline hblank

/-- Where a bulleted line makes a list with a paragraph, its tree is that of one item, which has the
task marker of the text that the paragraph starts with. -/
theorem Node.ofMarkdown_bullet (ht : t ≠ [])
    (hlist : (readDocument ('-' :: ' ' :: t)).blocks.any Block.isList = true)
    (hparagraph : (bulletReading (cleaned t)).blocks.any Block.isParagraph = true) :
    ∃ cs, (ofMarkdown (String.ofList ('-' :: ' ' :: t))).children = [.list false none
      [.item ((taskMarker? (firstText (readSpans [] (trimBlank (cleaned t))))).map Prod.fst)
        [.paragraph cs]]] := by
  obtain ⟨hblocks, hdefinitions⟩ := readDocument_bullet hreturn hline hblank ht hlist
  rw [bulletReading_of_paragraph hparagraph] at hblocks hdefinitions
  obtain ⟨cs, hitem⟩ := itemOf_spans (readSpans_ne_empty [] (trimBlank (cleaned t))) []
  refine ⟨cs, ?_⟩
  rw [← hitem, ofMarkdown, String.toList_ofList, hblocks, hdefinitions]
  rfl

/-- The task marker of a bulleted line is that of the text that its paragraph starts with. -/
theorem Node.checked_bullet {ordered : Bool} {start : Option Int} {checked : Option Bool}
    {cs rest : List Node} (h : (ofMarkdown (String.ofList ('-' :: ' ' :: t))).children =
      [.list ordered start [.item checked (.paragraph cs :: rest)]]) :
    checked = (taskMarker? (firstText (readSpans [] (trimBlank (cleaned t))))).map Prod.fst := by
  have htree : blocksToNodes (readDocument ('-' :: ' ' :: t)).definitions
      (readDocument ('-' :: ' ' :: t)).blocks =
        [.list ordered start [.item checked (.paragraph cs :: rest)]] := by
    rw [ofMarkdown, String.toList_ofList] at h
    exact h
  have ht : t ≠ [] := by
    rintro rfl
    cases htree.symm.trans (by cbv : _ = [.list false none [.item none []]])
  have hlist : (readDocument ('-' :: ' ' :: t)).blocks.any Block.isList = true := by
    obtain ⟨b, hb, hnode⟩ := exists_of_mem_blocksToNodes (htree ▸ List.mem_singleton_self _)
    exact List.any_eq_true.mpr ⟨b, hb, isList_of_toNode hnode⟩
  have hparagraph : (bulletReading (cleaned t)).blocks.any Block.isParagraph = true := by
    obtain ⟨hblocks, hdefinitions⟩ := readDocument_bullet hreturn hline hblank ht hlist
    rw [hblocks, hdefinitions] at htree
    have hitems := (Node.list.inj (List.cons.inj htree).1).2.2
    obtain ⟨cs', hfirst⟩ := head?_of_itemOf (List.cons.inj hitems).1
    obtain ⟨b, hb, hnode⟩ := exists_of_mem_blocksToNodes (List.mem_of_mem_head? hfirst)
    exact List.any_eq_true.mpr ⟨b, hb, isParagraph_of_toNode hnode⟩
  obtain ⟨cs', htree'⟩ := ofMarkdown_bullet hreturn hline hblank ht hlist hparagraph
  cases h.symm.trans htree'
  rfl

end Bullet

end MarkdownWord
