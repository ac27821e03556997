import Mathlib.Data.List.Forall2
import MarkdownWord.Node.OfMarkdown
import MarkdownWord.Proofs.SeveralLines
import MarkdownWord.Word.Blocks

/-!
# Code between fences

A fence is longer than any run of its mark in the code, so no line of the code ends the block. The
lines between the fences become one text, from which the same lines are cut again when its
paragraphs are made. Nothing is added but the paragraph that keeps the code apart from what follows
it (`Node.blocksAll_fenced`).
-/

namespace MarkdownWord

/-! ## Runs of a character -/

namespace Text

/-- The length of the longest run of a character in a text. -/
def longestRun (mark : Char) : List Char → Nat
  | [] => 0
  | c :: rest => max ((c :: rest).takeWhile (· == mark)).length (longestRun mark rest)

theorem length_takeWhile_le_longestRun (mark : Char) (s : List Char) :
    (s.takeWhile (· == mark)).length ≤ longestRun mark s := by
  cases s with
  | nil => exact Nat.le_refl 0
  | cons c s => exact Nat.le_max_left _ _

theorem longestRun_dropWhile_le (mark : Char) (p : Char → Bool) (s : List Char) :
    longestRun mark (s.dropWhile p) ≤ longestRun mark s := by
  induction s with
  | nil => exact Nat.le_refl 0
  | cons c s ih =>
    rw [List.dropWhile_cons]
    split
    · exact ih.trans (Nat.le_max_right _ _)
    · exact Nat.le_refl _

end Text

/-! ## Reading -/

namespace Markdown
open Text

/-- The lines of code between two fences of `n` backticks. -/
def fencedText (n : Nat) (ls : List (List Char)) : List Char :=
  List.replicate n '`' ++ '\n' :: (['\n'].intercalate ls ++ '\n' :: List.replicate n '`')

/-- A fence of `n` backticks. -/
def fenceLine (n : Nat) (ended : Bool) : Line := ⟨[], List.replicate n '`', 0, 0, ended⟩

variable {n : Nat} {ls : List (List Char)}

theorem ofText_fence (hn : 3 ≤ n) (ended : Bool) :
    Line.ofText ended (List.replicate n '`') = fenceLine n ended := by
  obtain ⟨k, rfl⟩ := Nat.exists_eq_add_of_le' hn
  rfl

theorem isEmpty_fenceLine (hn : 3 ≤ n) (ended : Bool) : (fenceLine n ended).isEmpty = false := by
  obtain ⟨k, rfl⟩ := Nat.exists_eq_add_of_le' hn
  rfl

theorem documentLines_fenced (hn : 3 ≤ n) (hne : ls ≠ []) (hline : ∀ l ∈ ls, '\n' ∉ l) :
    documentLines (fencedText n ls) =
      fenceLine n true :: (ls.map (Line.ofText true) ++ [fenceLine n false]) := by
  have hfence : '\n' ∉ List.replicate n '`' := fun hmem =>
    absurd (List.eq_of_mem_replicate hmem) (by decide)
  have hblank : (List.replicate n '`').all isSpace = false := by
    obtain ⟨k, rfl⟩ := Nat.exists_eq_add_of_le' hn
    rfl
  have hcode : splitAt '\n' (['\n'].intercalate ls ++ '\n' :: List.replicate n '`') =
      ls ++ [List.replicate n '`'] := by
    have htail : ['\n'].intercalate ls ++ '\n' :: List.replicate n '`' =
        (ls.flatMap fun l => l ++ ['\n']) ++ List.replicate n '`' := by
      rw [flatMap_ended hne, List.append_assoc, List.singleton_append]
    rw [htail, splitAt_ended hline hfence]
  rw [documentLines, fencedText, splitAt_append hfence, hcode, ← List.cons_append,
    documentLines_go_append _ hblank, List.map_cons, ofText_fence hn, ofText_fence hn]
  rfl

/-! ## The block -/

theorem takeWhile_fence (n : Nat) :
    (List.replicate n '`').takeWhile (· == '`') = List.replicate n '`' := by
  rw [List.takeWhile_replicate]
  rfl

theorem dropWhile_fence (n : Nat) : (List.replicate n '`').dropWhile (· == '`') = [] := by
  rw [List.dropWhile_replicate]
  rfl

/-- A line of backticks opens a block of code. -/
theorem fence?_fenceLine (hn : 3 ≤ n) (ended : Bool) :
    (fenceLine n ended).fence? ⟨0, none⟩ = some ⟨'`', n, []⟩ := by
  obtain ⟨k, rfl⟩ := Nat.exists_eq_add_of_le' hn
  have hcode : (fenceLine (k + 3) ended).isCode ⟨0, none⟩ = false := rfl
  have htake := takeWhile_fence (k + 3)
  have hdrop := dropWhile_fence (k + 3)
  have hbody : (fenceLine (k + 3) ended).body = '`' :: List.replicate (k + 2) '`' := rfl
  rw [List.replicate_succ] at htake hdrop
  unfold Line.fence?
  simp only [hbody, hcode, htake, hdrop]
  simp

/-- A line of code in which no run of backticks is as long as the fence does not close the block. -/
theorem closes_of_longestRun {l : List Char} (h : longestRun '`' l < n) (ended : Bool) :
    (Line.ofText ended l).closes ⟨0, none⟩ ⟨'`', n, []⟩ = false := by
  have hrun : ((l.dropWhile isSpace).takeWhile (· == '`')).length < n :=
    ((length_takeWhile_le_longestRun '`' _).trans (longestRun_dropWhile_le '`' isSpace l)).trans_lt h
  have hlong : decide (n ≤ ((l.dropWhile isSpace).takeWhile (· == '`')).length) = false :=
    decide_eq_false (Nat.not_le.mpr hrun)
  unfold Line.closes Line.ofText
  dsimp only
  rw [hlong, Bool.and_false, Bool.false_and]

theorem closes_fenceLine (n : Nat) (ended : Bool) :
    (fenceLine n ended).closes ⟨0, none⟩ ⟨'`', n, []⟩ = true := by
  have hcode : (fenceLine n ended).isCode ⟨0, none⟩ = false := rfl
  unfold Line.closes
  rw [hcode]
  simp [fenceLine]

/-- The code goes on to the closing fence. -/
theorem fencedLines_fenced (hn : 3 ≤ n) (hrun : ∀ l ∈ ls, longestRun '`' l < n) :
    fencedLines ⟨0, none⟩ ⟨'`', n, []⟩ (ls.map (Line.ofText true) ++ [fenceLine n false]) =
      (ls.length, true) := by
  induction ls with
  | nil =>
    have hempty := isEmpty_fenceLine hn false
    have houtside : (fenceLine n false).isOutside ⟨0, none⟩ = false := rfl
    rw [List.map_nil, List.nil_append, fencedLines, hempty, houtside, if_neg (by simp),
      if_pos (closes_fenceLine n false)]
    rfl
  | cons l ls ih =>
    have hl := closes_of_longestRun (hrun l List.mem_cons_self) true
    have hended : (Line.ofText true l).ended = true := rfl
    rw [List.map_cons, List.cons_append, fencedLines, hended, isOutside_ofText, if_neg (by simp),
      if_neg (by simp [hl]), ih fun k hk => hrun k (List.mem_cons_of_mem l hk)]
    rfl

/-- The text of lines with line ends. -/
theorem joinEnded_ofText (ls : List (List Char)) :
    Line.joinEnded 0 (ls.map (Line.ofText true)) = ls.flatMap fun l => l ++ ['\n'] := by
  unfold Line.joinEnded
  rw [List.flatMap_map]
  refine List.flatMap_congr fun l _ => ?_
  rw [cut_ofText]
  rfl

/-- What stands at a fence is read as the code up to its closing fence. -/
theorem readBlock_fenced (inQuote inItem : Reader) (hn : 3 ≤ n)
    (hrun : ∀ l ∈ ls, longestRun '`' l < n) :
    readBlock inQuote inItem ⟨0, none⟩ (fenceLine n true)
      (ls.map (Line.ofText true) ++ [fenceLine n false]) =
        .block (.fenced [] (ls.flatMap fun l => l ++ ['\n'])) (ls.length + 2) := by
  have hpipe : '|' ∉ (fenceLine n true).body := fun hmem =>
    absurd (List.eq_of_mem_replicate hmem) (by decide)
  have hindented : readIndented? ⟨0, none⟩ (fenceLine n true)
      (ls.map (Line.ofText true) ++ [fenceLine n false]) = none := rfl
  have hlines : (ls.map (Line.ofText true) ++ [fenceLine n false]).take ls.length =
      ls.map (Line.ofText true) := by
    rw [← List.length_map (Line.ofText true), List.take_left]
  have hfenced : readFenced? ⟨0, none⟩ (fenceLine n true)
      (ls.map (Line.ofText true) ++ [fenceLine n false]) =
        some (.block (.fenced [] (ls.flatMap fun l => l ++ ['\n'])) (ls.length + 2)) := by
    rw [readFenced?, fence?_fenceLine hn, Option.map_some, fencedLines_fenced hn hrun]
    dsimp only
    rw [hlines]
    exact congrArg (fun text => some (Reading.block (.fenced [] text) (ls.length + 2)))
      (joinEnded_ofText ls)
  rw [readBlock, readTable?_eq_none hpipe, hindented, hfenced]
  rfl

/-- Between fences there is one block of code, and nothing stands after it. -/
theorem readDocument_fenced (hn : 3 ≤ n) (hne : ls ≠ [])
    (hplain : ∀ l ∈ ls, '\r' ∉ l ∧ '\n' ∉ l ∧ '\x00' ∉ l)
    (hrun : ∀ l ∈ ls, longestRun '`' l < n) :
    (readDocument (fencedText n ls)).blocks =
      [.fenced [] (ls.flatMap fun l => l ++ ['\n'])] := by
  have hnot (c : Char) (hline : c ≠ '\n') (htick : c ≠ '`') (h : ∀ l ∈ ls, c ∉ l) :
      c ∉ fencedText n ls := by
    have hfence : c ∉ List.replicate n '`' := fun hmem => htick (List.eq_of_mem_replicate hmem)
    have hcode := not_mem_intercalate hline h
    simp only [fencedText, List.mem_append, List.mem_cons, not_or]
    exact ⟨hfence, hline, hcode, hline, hfence⟩
  have hreturn := hnot '\r' (by decide) (by decide) fun l hl => (hplain l hl).1
  have hnull := hnot '\x00' (by decide) (by decide) fun l hl => (hplain l hl).2.2
  have hempty := isEmpty_fenceLine hn true
  have hrest : (ls.map (Line.ofText true) ++ [fenceLine n false]).drop (ls.length + 1) = [] :=
    List.drop_eq_nil_of_le (by simp)
  rw [readDocument, normalize_of_not_mem hreturn, cleaned_of_not_mem hnull,
    documentLines_fenced hn hne fun l hl => (hplain l hl).2.1]
  change (readBlocks (reader 199) (reader 198) ⟨0, none⟩ _).blocks = _
  rw [readBlocks, if_neg (by simp [hempty]), if_neg (by simp [Line.isOutside, fenceLine]),
    readBlock_fenced _ _ hn hrun]
  dsimp only [Reading.append, Reading.block]
  rw [show max 1 (ls.length + 2) - 1 = ls.length + 1 by omega, hrest, readBlocks]
  rfl

end Markdown

/-! ## The tree and its paragraphs -/

open Text Markdown Word

variable {n : Nat} {ls : List (List Char)}

/-- The last line end of the code is that of its last line and not part of it. -/
theorem Node.ofMarkdown_fenced (hn : 3 ≤ n) (hne : ls ≠ [])
    (hplain : ∀ l ∈ ls, '\r' ∉ l ∧ '\n' ∉ l ∧ '\x00' ∉ l)
    (hrun : ∀ l ∈ ls, longestRun '`' l < n) :
    Node.ofMarkdown (String.ofList (fencedText n ls)) =
      .root [.code (String.ofList (['\n'].intercalate ls)) none] := by
  unfold Node.ofMarkdown
  dsimp only
  rw [String.toList_ofList, readDocument_fenced hn hne hplain hrun, blocksToNodes, blocksToNodes,
    Block.toNode, Node.codeOf, flatMap_ended hne]
  simp [Text.words, Text.words.go, Text.words.close]

/-- A paragraph that shows a line of code: shaded, and with the line as its only run, in the font of
code. A blank stands for an empty line. -/
structure Word.Paragraph.ShowsCode (line : List Char) (p : Paragraph) : Prop where
  shaded : p.shading = some "F4F4F4"
  run : ∃ format : Format, format.font = some "Consolas" ∧
    p.members = [.run (.text (if line = [] then " " else String.ofList line) format)]

theorem Word.showsCode_codeLine (line : List Char) : (codeLine line).ShowsCode line := by
  refine ⟨rfl, { font := some codeFont, size := some (.int 20) }, rfl, ?_⟩
  cases line with
  | nil => rfl
  | cons c line => rfl

/-- The lines of some code are cut as they were put together. -/
theorem Word.codeBlocks_intercalate (hne : ls ≠ []) (hplain : ∀ l ∈ ls, '\r' ∉ l ∧ '\n' ∉ l) :
    codeBlocks (String.ofList (['\n'].intercalate ls)) =
      (ls.map codeLine ++ [spacer]).map Block.paragraph := by
  have hreturn : '\r' ∉ ['\n'].intercalate ls :=
    not_mem_intercalate (by decide) fun l hl => (hplain l hl).1
  have hlines : lines (['\n'].intercalate ls) = ls := by
    rw [lines, unifyLineEnds_of_not_mem hreturn,
      splitAt_intercalate hne fun l hl => (hplain l hl).2]
  rw [codeBlocks, String.toList_ofList, hlines, List.map_append, List.map_map]
  rfl

/-- Each line between two fences is shown by a paragraph of its own, in order, whatever it looks
like. After them comes one empty paragraph and nothing else. -/
theorem Node.blocksAll_fenced (o : Overflow) (depth : Int) (hn : 3 ≤ n) (hne : ls ≠ [])
    (hplain : ∀ l ∈ ls, '\r' ∉ l ∧ '\n' ∉ l ∧ '\x00' ∉ l)
    (hrun : ∀ l ∈ ls, longestRun '`' l < n) :
    ∃ (codes : List Paragraph) (last : Paragraph),
      blocksAll o depth (ofMarkdown (String.ofList (fencedText n ls))).children =
        (codes ++ [last]).map .paragraph ∧
      List.Forall₂ Paragraph.ShowsCode ls codes ∧ last.members = [] ∧ last.shading = none := by
  refine ⟨ls.map codeLine, spacer, ?_, ?_, rfl, rfl⟩
  · rw [ofMarkdown_fenced hn hne hplain hrun]
    have hcode := codeBlocks_intercalate hne fun l hl => ⟨(hplain l hl).1, (hplain l hl).2.1⟩
    simp only [children, children?, Option.getD_some, blocksAll, Node.blocks, List.append_nil]
    exact hcode
  · rw [List.forall₂_map_right_iff]
    exact List.forall₂_same.mpr fun l _ => showsCode_codeLine l

theorem Node.blocksAll_fenced_lookalikes :
    ∃ (codes : List Paragraph) (last : Paragraph),
      blocksAll .clamp 0 (ofMarkdown "````\n\n    # a\n\t- ```\n|-|\n> ~~~~ \n \n\n````").children =
        (codes ++ [last]).map .paragraph ∧
      List.Forall₂ Paragraph.ShowsCode
        ["".toList, "    # a".toList, "\t- ```".toList, "|-|".toList, "> ~~~~ ".toList, " ".toList,
          "".toList] codes ∧
      last.members = [] ∧ last.shading = none :=
  @blocksAll_fenced 4 ["".toList, "    # a".toList, "\t- ```".toList, "|-|".toList,
    "> ~~~~ ".toList, " ".toList, "".toList] .clamp 0 (by decide) (by decide) (by decide) (by decide)

end MarkdownWord
