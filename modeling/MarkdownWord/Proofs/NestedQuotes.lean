import MarkdownWord.Proofs.EscapedTexts
import MarkdownWord.Proofs.Sites

/-!
# Quotes inside quotes

A quote takes up one level of nesting. The reader of its content has one level less, and where no
level is left nothing is read: a letter inside fewer quotes than there are levels is a quoted
paragraph, and inside as many or more it is lost (`Node.blocksAll_quoted`).
-/

namespace MarkdownWord

/-! ## Quotes -/

namespace Markdown
open Text

/-- A letter after `n` quote marks and a blank, or the letter alone. -/
def markedText : Nat → List Char
  | 0 => ['x']
  | n + 1 => List.replicate (n + 1) '>' ++ [' ', 'x']

def markedLine (n base : Nat) : Line := ⟨[], markedText n, 0, base, false⟩

/-- What a reader with some levels left makes of a letter after `n` quote marks. -/
def markedBlocks : (levels n : Nat) → List Block
  | 0, _ => []
  | _ + 1, 0 => [.paragraph ['x']]
  | levels + 1, n + 1 => [.quote (markedBlocks levels n)]

theorem unquote?_markedLine (n base : Nat) :
    ∃ base', (markedLine (n + 1) base).unquote? = some (markedLine n base') := by
  cases n with
  | zero => exact ⟨2, rfl⟩
  | succ n => exact ⟨1, rfl⟩

/-- Where no level is left, nothing is read. -/
theorem dropDeep_of_inside {f : Frame} {l : Line} (hempty : l.isEmpty = false)
    (hinside : l.isOutside f = false) (rest : List Line) :
    dropDeep f (l :: rest) = .blank (rest.length + 1) := by
  unfold dropDeep
  rw [List.dropWhile_cons_of_neg (by simp [hempty])]
  simp [hinside]

/-- A quote takes up one level. -/
theorem reader_succ (levels : Nat) :
    ∃ inItem, reader (levels + 1) = readBlocks (reader levels) inItem := by
  cases levels with
  | zero => exact ⟨_, rfl⟩
  | succ levels => exact ⟨_, rfl⟩

/-- The content of a quote is read with one level less. -/
theorem readBlock_markedLine (inQuote inItem : Reader) (n base : Nat) :
    ∃ base', readBlock inQuote inItem ⟨0, none⟩ (markedLine (n + 1) base) [] =
      ⟨[.quote (inQuote ⟨0, none⟩ [markedLine n base']).blocks],
        (inQuote ⟨0, none⟩ [markedLine n base']).definitions,
        (inQuote ⟨0, none⟩ [markedLine n base']).used⟩ := by
  obtain ⟨base', hunquote⟩ := unquote?_markedLine n base
  have hquote : readQuote? inQuote ⟨0, none⟩ (markedLine (n + 1) base) [] =
      some ⟨[.quote (inQuote ⟨0, none⟩ [markedLine n base']).blocks],
        (inQuote ⟨0, none⟩ [markedLine n base']).definitions,
        (inQuote ⟨0, none⟩ [markedLine n base']).used⟩ := by
    have hmark : (markedLine (n + 1) base).isQuote ⟨0, none⟩ = true := rfl
    rw [readQuote?, hmark, hunquote]
    rfl
  have htable : readTable? ⟨0, none⟩ (markedLine (n + 1) base) [] = none := rfl
  have hindented : readIndented? ⟨0, none⟩ (markedLine (n + 1) base) [] = none := rfl
  have hfenced : readFenced? ⟨0, none⟩ (markedLine (n + 1) base) [] = none := by
    have hfence : (markedLine (n + 1) base).fence? ⟨0, none⟩ = none := by
      unfold Line.fence?
      simp [markedLine, markedText, List.replicate_succ]
    rw [readFenced?, hfence]
    rfl
  exact ⟨base', by rw [readBlock, htable, hindented, hfenced, hquote]; rfl⟩

theorem reader_markedLine (levels n base : Nat) :
    (reader levels ⟨0, none⟩ [markedLine n base]).blocks = markedBlocks levels n ∧
      (reader levels ⟨0, none⟩ [markedLine n base]).definitions = [] := by
  have hempty (n base : Nat) : (markedLine n base).isEmpty = false := by
    cases n with
    | zero => rfl
    | succ n => rfl
  induction levels generalizing n base with
  | zero =>
    have hdrop : dropDeep ⟨0, none⟩ [markedLine n base] = .blank 1 :=
      dropDeep_of_inside (hempty n base) rfl []
    exact ⟨congrArg Reading.blocks hdrop, congrArg Reading.definitions hdrop⟩
  | succ levels ih =>
    obtain ⟨inItem, hreader⟩ := reader_succ levels
    obtain ⟨hblocks, hdefinitions⟩ :=
      @readBlocks_line (reader levels) inItem ⟨0, none⟩ _ (hempty n base) rfl
    rw [hreader, hblocks, hdefinitions]
    cases n with
    | zero =>
      have hread : readBlock (reader levels) inItem ⟨0, none⟩ (markedLine 0 base) [] =
          .block (.paragraph ['x']) 1 :=
        readBlock_of_plain_start rfl (by rintro c ⟨⟩; decide) (by rfl)
      rw [hread]
      exact ⟨rfl, rfl⟩
    | succ n =>
      obtain ⟨base', hread⟩ := readBlock_markedLine (reader levels) inItem n base
      obtain ⟨hinner, hinner'⟩ := ih n base'
      rw [hread, hinner, hinner', markedBlocks]
      exact ⟨rfl, rfl⟩

theorem mem_markedText {c : Char} {n : Nat} (h : c ∈ markedText n) : c = '>' ∨ c = ' ' ∨ c = 'x' := by
  cases n with
  | zero => exact .inr (.inr (List.mem_singleton.mp h))
  | succ n =>
    rcases List.mem_append.mp h with h | h
    · exact .inl (List.eq_of_mem_replicate h)
    · simpa using Or.inr h

theorem readDocument_marked (n : Nat) :
    (readDocument (markedText (n + 1))).blocks = markedBlocks maxNesting (n + 1) ∧
      (readDocument (markedText (n + 1))).definitions = [] := by
  have hnot (c : Char) (hc : c ≠ '>' ∧ c ≠ ' ' ∧ c ≠ 'x') : c ∉ markedText (n + 1) := by
    intro hmem
    rcases mem_markedText hmem with heq | heq | heq
    · exact hc.1 heq
    · exact hc.2.1 heq
    · exact hc.2.2 heq
  have hlines : documentLines (normalize (markedText (n + 1))) = [markedLine (n + 1) 0] := by
    rw [normalize_of_not_mem (hnot '\r' (by decide)), cleaned_of_not_mem (hnot '\x00' (by decide)),
      documentLines_of_line (hnot '\n' (by decide)) (by rfl)]
    rfl
  rw [readDocument, hlines]
  exact reader_markedLine maxNesting (n + 1) 0

end Markdown

open Markdown Word

/-- A paragraph inside a quote. -/
structure Word.Paragraph.IsQuoted (p : Paragraph) : Prop where
  indent : p.indentLeft = some 720
  border : p.borderLeft = some { style := "single", size := 6, color := "BBBBBB", space := 10 }

/-- The quoted paragraph of a letter. -/
def Word.quotedLetter : Paragraph :=
  { paragraphOf [.run (.text "x" {})] with indentLeft := some 720, borderLeft := some quoteBorder }

theorem Markdown.inlineNodes_letter : inlineNodes [] ['x'] = [.text "x"] := by
  have hspans : readSpans [] ['x'] = [.text ['x']] :=
    readSpans_escaped [] (s := ['x']) (by simp) (by simp)
  rw [inlineNodes, hspans]
  rfl

theorem Node.blocksAll_marked (o : Overflow) (depth : Int) (levels n : Nat) :
    blocksAll o depth (blocksToNodes [] (markedBlocks levels (n + 1))) =
      if n + 1 < levels then [.paragraph quotedLetter] else [] := by
  induction n generalizing levels depth with
  | zero =>
    cases levels with
    | zero => rfl
    | succ levels =>
      cases levels with
      | zero => rfl
      | succ levels =>
        rw [if_pos (by omega)]
        simp only [markedBlocks, blocksToNodes, Block.toNode, inlineNodes_letter, blocksAll,
          Node.blocks]
        rfl
  | succ n ih =>
    cases levels with
    | zero => rfl
    | succ levels =>
      have hinner := ih 0 levels
      rw [markedBlocks, blocksToNodes, Block.toNode, blocksToNodes, blocksAll, Node.blocks, hinner,
        blocksAll, List.append_nil]
      by_cases hdeep : n + 1 < levels
      · rw [if_pos hdeep, if_pos (by omega)]
        rfl
      · rw [if_neg hdeep, if_neg (by omega)]
        rfl

theorem Node.blocksAll_quoted (o : Overflow) (depth : Int) (n : Nat) :
    blocksAll o depth (ofMarkdown (String.ofList (markedText (n + 1)))).children =
      if n + 1 < maxNesting then [.paragraph quotedLetter] else [] := by
  obtain ⟨hblocks, hdefinitions⟩ := readDocument_marked n
  rw [ofMarkdown, String.toList_ofList, hblocks, hdefinitions]
  exact blocksAll_marked o depth maxNesting n

end MarkdownWord
