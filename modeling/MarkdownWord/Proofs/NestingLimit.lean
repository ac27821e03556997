import MarkdownWord.Proofs.NestedLists

/-!
# How deep content may be nested

A quote takes up one level of nesting, a list with its item two. So content is kept inside fewer
than 200 quotes or fewer than 100 lists, each paragraph in its place, and nothing is kept of deeper
content (`Node.blocksAll_nested`).
-/

namespace MarkdownWord

namespace Markdown
open Text

/-! ## Documents -/

/-- The item at some depth as it is written. -/
def levelSource (i : Nat) : List Char := List.replicate (2 * i) ' ' ++ '-' :: ' ' :: levelText i

/-- The lines of `n` items, each inside the one before it. -/
def nestedText (n : Nat) : List Char := ['\n'].intercalate ((List.range n).map levelSource)

theorem not_mem_levelSource {c : Char} (hblank : c ≠ ' ') (hbullet : c ≠ '-')
    (hword : c ∉ "level ".toList) (hdigit : c.isDigit = false) (i : Nat) : c ∉ levelSource i := by
  have hmargin : c ∉ List.replicate (2 * i) ' ' := fun hmem => hblank (List.eq_of_mem_replicate hmem)
  simp only [levelSource, List.mem_append, List.mem_cons, not_or]
  exact ⟨hmargin, hbullet, hblank, not_mem_levelText hword hdigit i⟩

theorem ofText_levelSource (i : Nat) (ended : Bool) :
    Line.ofText ended (levelSource i) = levelLine i ended := by
  have hmargin : (levelSource i).takeWhile isSpace = List.replicate (2 * i) ' ' := by
    rw [levelSource, List.takeWhile_append_of_pos]
    · simp [isSpace]
    · intro c hc
      rw [List.eq_of_mem_replicate hc]
      rfl
  have hbody : (levelSource i).dropWhile isSpace = '-' :: ' ' :: levelText i := by
    rw [levelSource, List.dropWhile_append_of_pos]
    · rfl
    · intro c hc
      rw [List.eq_of_mem_replicate hc]
      rfl
  have hcolumn (n : Nat) : columnAfterAll 0 0 (List.replicate n ' ') = n := by
    induction n with
    | zero => rfl
    | succ n ih =>
      rw [List.replicate_succ', columnAfterAll, List.foldl_append]
      change columnAfter 0 (columnAfterAll 0 0 (List.replicate n ' ')) ' ' = n + 1
      rw [ih]
      rfl
  rw [Line.ofText, hmargin, hbody, hcolumn, levelLine]
  simp

/-- A line end after the last line makes no difference to the lines but that it is there. -/
theorem documentLines_nested (n : Nat) {finish : List Char} (hfinish : finish = [] ∨ finish = ['\n']) :
    ∃ ended, documentLines (nestedText (n + 1) ++ finish) = levelLines ended 0 (n + 1) := by
  have hne : (List.range (n + 1)).map levelSource ≠ [] := by simp
  have hline : ∀ l ∈ (List.range (n + 1)).map levelSource, '\n' ∉ l := by
    intro l hl
    obtain ⟨i, -, rfl⟩ := List.mem_map.mp hl
    exact not_mem_levelSource (by decide) (by decide) (by decide) (by decide) i
  rcases hfinish with rfl | rfl
  · refine ⟨fun i => decide (i < n), ?_⟩
    have hlast : (levelSource n).all isSpace = false := by
      simp [levelSource, isSpace]
    rw [List.append_nil, documentLines, nestedText, splitAt_intercalate hne hline,
      List.range_succ, List.map_append, List.map_singleton, documentLines_go_append _ hlast,
      levelLines, List.range'_1_concat, List.map_append, List.map_map, ← List.range_eq_range',
      ofText_levelSource]
    have hbefore : (List.range n).map (Line.ofText true ∘ levelSource) =
        (List.range n).map fun i => levelLine i (decide (i < n)) := by
      refine List.map_congr_left fun i hi => ?_
      rw [decide_eq_true (List.mem_range.mp hi)]
      exact ofText_levelSource i true
    rw [hbefore]
    simp
  · refine ⟨fun _ => true, ?_⟩
    have hended : nestedText (n + 1) ++ ['\n'] =
        (((List.range (n + 1)).map levelSource).flatMap fun l => l ++ ['\n']) ++ [] := by
      rw [flatMap_ended hne, List.append_nil]
      rfl
    rw [hended, documentLines, splitAt_ended hline List.not_mem_nil, documentLines_go_ended rfl,
      List.map_map, levelLines, ← List.range_eq_range']
    exact List.map_congr_left fun i _ => ofText_levelSource i true

theorem readDocument_nested (n : Nat) {finish : List Char}
    (hfinish : finish = [] ∨ finish = ['\n']) :
    (readDocument (nestedText (n + 1) ++ finish)).blocks = levelBlocks 100 (n + 1) 0 ∧
      (readDocument (nestedText (n + 1) ++ finish)).definitions = [] := by
  have hnot (c : Char) (hline : c ≠ '\n') (hblank : c ≠ ' ') (hbullet : c ≠ '-')
      (hword : c ∉ "level ".toList) (hdigit : c.isDigit = false) :
      c ∉ nestedText (n + 1) ++ finish := by
    have htext : c ∉ nestedText (n + 1) := by
      refine not_mem_intercalate hline fun l hl => ?_
      obtain ⟨i, -, rfl⟩ := List.mem_map.mp hl
      exact not_mem_levelSource hblank hbullet hword hdigit i
    have hend : c ∉ finish := by
      rcases hfinish with rfl | rfl
      · exact List.not_mem_nil
      · simpa using hline
    exact fun hmem => (List.mem_append.mp hmem).elim htext hend
  have hreturn := hnot '\r' (by decide) (by decide) (by decide) (by decide) (by decide)
  have hnull := hnot '\x00' (by decide) (by decide) (by decide) (by decide) (by decide)
  obtain ⟨ended, hlines⟩ := documentLines_nested n hfinish
  rw [readDocument, normalize_of_not_mem hreturn, cleaned_of_not_mem hnull, hlines]
  have hread := reader_levelLines ended 99 (n + 1) 0 none
  exact ⟨hread.blocks, hread.definitions⟩

theorem inlineNodes_levelText (i : Nat) :
    inlineNodes [] (levelText i) = [.text (String.ofList (levelText i))] := by
  have hspans : readSpans [] (levelText i) = [.text (levelText i)] := by
    have hescaped : escaped (levelText i) = levelText i :=
      escaped_eq_self fun c hc => isAsciiPunctuation_of_mem_levelText hc
    have hread := readSpans_escaped [] (s := levelText i) (List.cons_ne_nil _ _)
      (not_mem_levelText (by decide) (by rfl) i)
    rwa [hescaped] at hread
  rw [inlineNodes, hspans]
  rfl

end Markdown

open Word Markdown

/-! ## Paragraphs -/

/-- The paragraph of the item at some depth. -/
def Word.levelParagraph (level : Int) (i : Nat) : Paragraph :=
  itemParagraph none ⟨ListScheme.bulletReference, level⟩
    [.run (.text (String.ofList (levelText i)) {})]

/-- A list that follows the paragraph of an item is nested one deeper. -/
theorem Node.itemBlocks_levelBlocks (o : Overflow) (depth : Int) (reference : String)
    (lists m i : Nat) :
    itemBlocks o depth reference none (blocksToNodes [] (levelBlocks lists m i)) =
      blocksAll o (depth + 1) (blocksToNodes [] (levelBlocks lists m i)) := by
  cases lists with
  | zero => rfl
  | succ lists =>
    cases m with
    | zero => rfl
    | succ m => rfl

theorem Node.itemOf_levelText (i : Nat) (rest : List Node) :
    itemOf (.paragraph [.text (String.ofList (levelText i))] :: rest) =
      .item none (.paragraph [.text (String.ofList (levelText i))] :: rest) := by
  have hmarker : taskMarker? (levelText i) = none := rfl
  rw [itemOf, String.toList_ofList, hmarker]

/-- The items down to the deepest one that is read have their paragraphs, in order. -/
theorem Node.blocksAll_levelBlocks (o : Overflow) (depth : Int) (lists m i : Nat) :
    blocksAll o depth (blocksToNodes [] (levelBlocks (lists + 1) m i)) =
      (List.range (min m lists)).map fun (j : Nat) =>
        .paragraph (levelParagraph (o.level (depth + j)) (i + j)) := by
  induction m generalizing lists i depth with
  | zero => rw [Nat.zero_min]; rfl
  | succ m ih =>
    cases lists with
    | zero => rw [Nat.min_zero]; rfl
    | succ lists =>
      let rest := blocksToNodes [] (levelBlocks (lists + 1) m (i + 1))
      have htree : blocksToNodes [] (levelBlocks (lists + 2) (m + 1) i) =
          [.list false none
            [.item none (.paragraph [.text (String.ofList (levelText i))] :: rest)]] := by
        rw [levelBlocks, if_neg (Nat.succ_ne_zero lists), ← itemOf_levelText]
        simp only [blocksToNodes, Block.toNode, itemsToNodes, inlineNodes_levelText]
        rfl
      have hfirst : blocksAll o depth (blocksToNodes [] (levelBlocks (lists + 2) (m + 1) i)) =
          .paragraph (levelParagraph (o.level depth) i) ::
            itemBlocks o depth ListScheme.bulletReference none rest := by
        rw [htree]
        simp only [blocksAll, Node.blocks, listBlocks, itemBlocks, List.append_nil]
        rfl
      have hinner : itemBlocks o depth ListScheme.bulletReference none rest =
          (List.range (min m lists)).map fun (j : Nat) =>
            .paragraph (levelParagraph (o.level (depth + 1 + j)) (i + 1 + j)) :=
        (itemBlocks_levelBlocks o depth _ (lists + 1) m (i + 1)).trans (ih (depth + 1) lists (i + 1))
      have hshift (j : Nat) : levelParagraph (o.level (depth + 1 + j)) (i + 1 + j) =
          levelParagraph (o.level (depth + (j + 1 : Nat))) (i + (j + 1)) := by
        have hdepth : depth + 1 + (j : Int) = depth + (j + 1 : Nat) := by omega
        have hindex : i + 1 + j = i + (j + 1) := by omega
        rw [hdepth, hindex]
      have hzero : depth + ((0 : Nat) : Int) = depth := by omega
      simp only [hfirst, hinner, Nat.succ_min_succ, List.range_succ_eq_map, List.map_cons,
        List.map_map, Function.comp_def, hzero, Nat.add_zero, hshift, Nat.succ_eq_add_one]

/-- Each list takes up two levels of nesting, so all items but those of the first 99 depths are
lost. -/
theorem Node.blocksAll_nestedText (o : Overflow) (depth : Int) {n : Nat} (hn : 1 ≤ n)
    {finish : List Char} (hfinish : finish = [] ∨ finish = ['\n']) :
    blocksAll o depth (ofMarkdown (String.ofList (nestedText n ++ finish))).children =
      (List.range (min n 99)).map fun (i : Nat) =>
        .paragraph (levelParagraph (o.level (depth + i)) i) := by
  obtain ⟨m, rfl⟩ := Nat.exists_eq_add_of_le' hn
  obtain ⟨hblocks, hdefinitions⟩ := readDocument_nested m hfinish
  have hlists := blocksAll_levelBlocks o depth 99 (m + 1) 0
  rw [ofMarkdown, String.toList_ofList, hblocks, hdefinitions]
  simp only [Nat.zero_add] at hlists
  exact hlists

theorem Word.plainText_levelParagraph (level : Int) (i : Nat) :
    (levelParagraph level i).plainText = s!"level {i}" := by
  have htext : String.ofList (levelText i) = "level " ++ toString i := by
    have hchars : levelText i = ("level " ++ toString i).toList := (String.toList_append ..).symm
    rw [hchars, String.ofList_toList]
  change String.join [String.join [String.ofList (levelText i)]] = _
  rw [htext]
  simp [String.join]
  rfl

/-! ## The limit -/

/-- Content inside fewer than 200 quotes is kept, and content inside fewer than 100 lists; nothing
is kept of deeper content. -/
theorem Node.blocksAll_nested (o : Overflow) (depth : Int) {n : Nat} (hn : 1 ≤ n) :
    (∃ ps : List Paragraph,
      blocksAll o depth (ofMarkdown (String.ofList (List.replicate n '>' ++ [' ', 'x']))).children =
        ps.map .paragraph ∧
      (∀ p ∈ ps, p.IsQuoted) ∧ ps.map Paragraph.plainText = if n < 200 then ["x"] else []) ∧
    ∀ finish, finish = [] ∨ finish = ['\n'] → ∃ ps : List Paragraph,
      blocksAll o depth (ofMarkdown (String.ofList (nestedText n ++ finish))).children =
        ps.map .paragraph ∧
      (∀ p ∈ ps, p.numbering.isSome = true) ∧
      ps.map Paragraph.plainText = (List.range (min n 99)).map fun i => s!"level {i}" := by
  constructor
  · obtain ⟨m, rfl⟩ := Nat.exists_eq_add_of_le' hn
    have hblocks := blocksAll_quoted o depth m
    refine ⟨if m + 1 < 200 then [quotedLetter] else [], ?_, ?_, ?_⟩
    · rw [apply_ite (List.map Word.Block.paragraph)]
      exact hblocks
    · intro p hp
      split at hp
      · rw [List.mem_singleton.mp hp]
        exact ⟨rfl, rfl⟩
      · cases hp
    · split <;> rfl
  · intro finish hfinish
    refine ⟨(List.range (min n 99)).map fun (i : Nat) => levelParagraph (o.level (depth + i)) i,
      ?_, ?_, ?_⟩
    · rw [blocksAll_nestedText o depth hn hfinish, List.map_map]
      rfl
    · intro p hp
      obtain ⟨i, -, rfl⟩ := List.mem_map.mp hp
      rfl
    · rw [List.map_map]
      exact List.map_congr_left fun i _ => plainText_levelParagraph _ i

theorem Node.blocksAll_nested_deep :
    (∃ ps : List Paragraph,
      blocksAll .clamp 0 (ofMarkdown
        (String.ofList (List.replicate 150 '>' ++ [' ', 'x']))).children = ps.map .paragraph ∧
      (∀ p ∈ ps, p.IsQuoted) ∧ ps.map Paragraph.plainText = if 150 < 200 then ["x"] else []) ∧
    ∀ finish, finish = [] ∨ finish = ['\n'] → ∃ ps : List Paragraph,
      blocksAll .clamp 0 (ofMarkdown (String.ofList (nestedText 150 ++ finish))).children =
        ps.map .paragraph ∧
      (∀ p ∈ ps, p.numbering.isSome = true) ∧
      ps.map Paragraph.plainText = (List.range (min 150 99)).map fun i => s!"level {i}" :=
  blocksAll_nested .clamp 0 (by decide)

/-- Content is not kept at every depth, neither inside quotes nor inside lists. -/
theorem Node.content_lost_when_nested :
    (¬∀ n, 1 ≤ n → ∃ p : Paragraph,
      blocksAll .clamp 0 (ofMarkdown (String.ofList (List.replicate n '>' ++ [' ', 'x']))).children =
        [.paragraph p] ∧ p.IsQuoted ∧ p.plainText = "x") ∧
    ¬∀ n, 1 ≤ n → ∃ ps : List Paragraph,
      blocksAll .clamp 0 (ofMarkdown (String.ofList (nestedText n))).children =
        ps.map .paragraph ∧
      (∀ p ∈ ps, p.numbering.isSome = true) ∧
      ps.map Paragraph.plainText = (List.range n).map fun i => s!"level {i}" := by
  constructor
  · intro h
    obtain ⟨p, hp, -⟩ := h 200 (by decide)
    have hnone := blocksAll_quoted .clamp 0 199
    rw [if_neg (by decide)] at hnone
    cases hp.symm.trans hnone
  · intro h
    obtain ⟨ps, hps, -, htexts⟩ := h 100 (by decide)
    have hkept := blocksAll_nestedText .clamp 0 (n := 100) (by decide) (.inl rfl)
    rw [List.append_nil, hps] at hkept
    have hlength := congrArg List.length hkept
    have hlength' := congrArg List.length htexts
    simp only [List.length_map, List.length_range] at hlength hlength'
    omega

end MarkdownWord
