import Mathlib.Data.List.DropRight
import MarkdownWord.Proofs.Readings

/-!
# Documents of one line

A text without line ends is one line of one document. What is read from that line is all there is:
no line before it can take it in, and none after it can make a table or a heading of it. So the
line is a paragraph unless its own first characters say otherwise (`readBlock_of_plain_start`).
-/

namespace MarkdownWord.Markdown
open Text

/-! ## Lines -/

theorem unifyLineEnds_of_not_mem {s : List Char} (h : '\r' ∉ s) : unifyLineEnds s = s := by
  fun_induction unifyLineEnds s with
  | case1 => exact absurd List.mem_cons_self h
  | case2 => exact absurd List.mem_cons_self h
  | case3 c rest _ _ ih => rw [ih fun hmem => h (List.mem_cons_of_mem c hmem)]
  | case4 => rfl

theorem splitAt_of_not_mem {sep : Char} {s : List Char} (h : sep ∉ s) : splitAt sep s = [s] := by
  induction s with
  | nil => rfl
  | cons c s ih =>
    have hc : c ≠ sep := fun heq => h (heq ▸ List.mem_cons_self)
    simp [splitAt, ih fun hs => h (List.mem_cons_of_mem c hs), hc]

/-- A text that is no more than blanks makes no line; any other one makes a line of its own. -/
theorem documentLines_of_line {s : List Char} (hline : '\n' ∉ s) (hs : s.all isSpace = false) :
    documentLines s = [.ofText false s] := by
  simp [documentLines, splitAt_of_not_mem hline, documentLines.go, hs]

theorem ofText_of_not_space {s : List Char} (h : ∀ c ∈ s.head?, isSpace c = false) :
    Line.ofText false s = ⟨[], s, 0, 0, false⟩ := by
  cases s with
  | nil => rfl
  | cons c s => simp [Line.ofText, columnAfterAll, h c rfl]

theorem isSpace_of_not_isBlank {c : Char} (h : isBlank c = false) : isSpace c = false := by
  rw [isSpace, Bool.or_eq_false_iff, decide_eq_false_iff_not, decide_eq_false_iff_not]
  constructor
  · rintro rfl
    exact absurd h (by decide)
  · rintro rfl
    exact absurd h (by decide)

/-- A text is trimmed when it has no white space at either end. -/
theorem trimBlank_eq_self_iff {s : List Char} : trimBlank s = s ↔
    (∀ c ∈ s.head?, isBlank c = false) ∧ ∀ c ∈ s.getLast?, isBlank c = false := by
  have htrim : trimBlank s = (s.dropWhile isBlank).rdropWhile isBlank := rfl
  have hhead : s.dropWhile isBlank = s ↔ ∀ c ∈ s.head?, isBlank c = false := by
    cases s with
    | nil => simp
    | cons c s => simp [List.dropWhile_eq_self_iff]
  have hlast : s.rdropWhile isBlank = s ↔ ∀ c ∈ s.getLast?, isBlank c = false := by
    rw [List.rdropWhile_eq_self_iff]
    cases s with
    | nil => simp
    | cons c s => simp [List.getLast?_eq_some_getLast]
  rw [htrim, ← hhead, ← hlast]
  constructor
  · intro h
    have hdrop : s.dropWhile isBlank = s := by
      have hsuffix := List.dropWhile_suffix isBlank (l := s)
      refine hsuffix.eq_of_length (le_antisymm hsuffix.length_le ?_)
      have hprefix := (List.rdropWhile_prefix isBlank (l := s.dropWhile isBlank)).length_le
      rwa [h] at hprefix
    rw [hdrop] at h
    exact ⟨hdrop, h⟩
  · rintro ⟨hdrop, hright⟩
    rw [hdrop, hright]

/-- Only white space is trimmed at the end. -/
theorem exists_trimBlank_append {t : List Char} (h : ∀ c ∈ t.head?, isBlank c = false) :
    ∃ blanks, (∀ d ∈ blanks, isBlank d = true) ∧ trimBlank t ++ blanks = t := by
  have hfront : t.dropWhile isBlank = t := by
    cases t with
    | nil => rfl
    | cons c t => exact List.dropWhile_cons_of_neg (by simp [h c rfl])
  refine ⟨(t.reverse.takeWhile isBlank).reverse, fun d hd => ?_, ?_⟩
  · exact List.mem_takeWhile_imp (List.mem_reverse.mp hd)
  · rw [trimBlank, trim, hfront, trimRight, ← List.reverse_append,
      List.takeWhile_append_dropWhile, List.reverse_reverse]

/-! ## What one line can be -/

variable {inQuote inItem : Reader} {f : Frame} {l : Line}

/-- From the only line of a container its one block is read. -/
theorem readBlocks_line (hl : l.isEmpty = false) (hinside : l.isOutside f = false) :
    (readBlocks inQuote inItem f [l]).blocks = (readBlock inQuote inItem f l []).blocks ∧
      (readBlocks inQuote inItem f [l]).definitions =
        (readBlock inQuote inItem f l []).definitions := by
  rw [readBlocks, if_neg (by simp [hl]), if_neg (by simp [hinside])]
  dsimp only
  rw [List.drop_nil, readBlocks]
  simp [Reading.append, Reading.blank]

/-- The only line of a container is followed by no line of its paragraph. -/
theorem readParagraph_line : readParagraph f l [] =
    .block (.paragraph (trimBlank (l.cut f.indent))) 1 := rfl

theorem blockKind?_eq_none {s : List Char} (h : s.head? ≠ some '<') : Html.blockKind? s = none := by
  cases s with
  | nil => rfl
  | cons c s =>
    have hc : c ≠ '<' := fun heq => h (by rw [heq]; rfl)
    simp [Html.blockKind?, Html.opensTextElement, Html.opensBlockElement, Html.isTagLine,
      Html.afterOpenTag?, Html.afterCloseTag?, hc, Ne.symm hc]

/-- A marker is or ends with punctuation other than a backslash. -/
theorem marker?_eq_none (h : ∀ c ∈ (l.body.dropWhile Char.isDigit).head?,
    isAsciiPunctuation c = true → c = '\\') : l.marker? = none := by
  unfold Line.marker?
  dsimp only
  split
  · next c rest hbody =>
    have hnot (d : Char) (hd : isAsciiPunctuation d = true) (hne : d ≠ '\\') : c ≠ d := by
      rintro rfl
      exact hne (h c (by rw [hbody]; rfl) hd)
    simp [hnot '*' (by decide) (by decide), hnot '-' (by decide) (by decide),
      hnot '+' (by decide) (by decide), hnot '.' (by decide) (by decide),
      hnot ')' (by decide) (by decide)]
  · rfl

/-- A line whose content does not start with punctuation, nor with a marker of a list, starts a
paragraph, unless the lines after it make a table or a heading of it. A backslash starts nothing. -/
theorem readBlock_eq_readParagraph {rest : List Line} (hcode : l.isCode f = false)
    (hstart : ∀ c ∈ l.body.head?, isAsciiPunctuation c = true → c = '\\')
    (hmarker : l.marker? = none) (htable : readTable? f l rest = none)
    (hunderlined : readUnderlined? f l rest = none) :
    readBlock inQuote inItem f l rest = readParagraph f l rest := by
  have hnot (c : Char) (hpunctuation : isAsciiPunctuation c = true) (hc : c ≠ '\\') :
      l.body.head? ≠ some c := fun hhead => hc (hstart c hhead hpunctuation)
  have hnone {o : Option Reading} (h : o = none) {P : Reading → Prop} : ∀ r ∈ o, P r := by
    rw [h]
    rintro r ⟨⟩
  have hfence : l.fence? f = none := by
    unfold Line.fence?
    split
    · next c rest hbody =>
      rw [if_pos]
      have htilde := hnot '~' (by decide) (by decide)
      have htick := hnot '`' (by decide) (by decide)
      rw [hbody] at htilde htick
      simp_all
    · rfl
  have hrule : l.isRule f = false := by
    unfold Line.isRule
    split
    · next c rest hbody =>
      have hstar := hnot '*' (by decide) (by decide)
      have hhyphen := hnot '-' (by decide) (by decide)
      have hlow := hnot '_' (by decide) (by decide)
      rw [hbody] at hstar hhyphen hlow
      simp_all
    · rfl
  have hquote : l.isQuote f = false := by
    simp [Line.isQuote, hnot '>' (by decide) (by decide)]
  have hlist : l.listStart? f false = none := by
    unfold Line.listStart?
    rw [hmarker]
    exact ite_self none
  have hhtml : l.htmlKind? f = none := by
    unfold Line.htmlKind?
    rw [blockKind?_eq_none (hnot '<' (by decide) (by decide))]
    split <;> rfl
  have hheading : l.heading? f = none := by
    have hnumber := hnot '#' (by decide) (by decide)
    have hdepth : l.body.takeWhile (· == '#') = [] := by
      cases hbody : l.body with
      | nil => rfl
      | cons c rest =>
        rw [hbody] at hnumber
        simp_all
    simp [Line.heading?, hdepth]
  refine readBlock_of_kinds (P := fun r => r = readParagraph f l rest) (hnone htable) (hnone ?_)
    (hnone ?_) (hnone ?_) (hnone ?_) (hnone ?_) (hnone ?_) (hnone ?_) (hnone ?_)
    (hnone hunderlined) rfl
  · simp [readIndented?, hcode]
  · simp [readFenced?, hfence]
  · simp [readQuote?, hquote]
  · simp [readRule?, hrule]
  · simp [readList?, hlist]
  · simp [readDefinition?, hnot '[' (by decide) (by decide)]
  · simp [readHtml?, hhtml]
  · simp [readHeading?, hheading]

/-- Alone in its container such a line is all there is of its paragraph. -/
theorem readBlock_of_plain_start (hcode : l.isCode f = false)
    (hstart : ∀ c ∈ l.body.head?, isAsciiPunctuation c = true → c = '\\')
    (hmarker : l.marker? = none) :
    readBlock inQuote inItem f l [] = .block (.paragraph (trimBlank (l.cut f.indent))) 1 := by
  have hunderlined : readUnderlined? f l [] = none := by
    rw [readUnderlined?, hcode]
    rfl
  rw [readBlock_eq_readParagraph hcode hstart hmarker rfl hunderlined, readParagraph_line]

/-! ## Documents -/

/-- A text with each NUL made the replacement character. -/
def cleaned (s : List Char) : List Char := s.map fun c => if c = '\x00' then '\uFFFD' else c

theorem normalize_of_not_mem {s : List Char} (h : '\r' ∉ s) : normalize s = cleaned s := by
  rw [normalize, unifyLineEnds_of_not_mem h, cleaned]

theorem cleaned_of_not_mem {s : List Char} (h : '\x00' ∉ s) : cleaned s = s := by
  have hsame : ∀ c ∈ s, (if c = '\x00' then '\uFFFD' else c) = c := fun c hc =>
    if_neg fun heq : c = '\x00' => h (heq ▸ hc)
  rw [cleaned, List.map_congr_left hsame, List.map_id']

theorem mem_of_mem_cleaned {c : Char} {s : List Char} (h : c ∈ cleaned s) (hc : c ≠ '\uFFFD') :
    c ∈ s := by
  obtain ⟨d, hd, heq⟩ := List.mem_map.mp h
  split at heq
  · exact absurd heq.symm hc
  · exact heq ▸ hd

theorem eq_cons_of_cleaned {c : Char} {s v : List Char} (h : cleaned s = c :: v)
    (hc : c ≠ '\uFFFD') : ∃ s', s = c :: s' ∧ cleaned s' = v := by
  cases s with
  | nil => cases h
  | cons d s =>
    obtain ⟨hd, hs⟩ := List.cons.inj h
    dsimp only at hd
    split at hd
    · exact absurd hd.symm hc
    · exact ⟨s, by rw [hd], hs⟩

theorem eq_append_of_cleaned {s u v : List Char} (h : cleaned s = u ++ v) (hu : '\uFFFD' ∉ u) :
    ∃ s', s = u ++ s' ∧ cleaned s' = v := by
  induction u generalizing s with
  | nil => exact ⟨s, rfl, h⟩
  | cons c u ih =>
    obtain ⟨s, rfl, hs⟩ := eq_cons_of_cleaned h fun hc => hu (hc ▸ List.mem_cons_self)
    obtain ⟨s', rfl, hv⟩ := ih hs fun hmem => hu (List.mem_cons_of_mem c hmem)
    exact ⟨s', rfl, hv⟩

/-- A line that starts with a character is read from that character on, and nothing else is. -/
theorem readDocument_line {c : Char} {s : List Char} (hc : isBlank c = false) (hnull : c ≠ '\x00')
    (hreturn : '\r' ∉ c :: s) (hline : '\n' ∉ c :: s) :
    let line : Line := ⟨[], c :: cleaned s, 0, 0, false⟩
    let reading := readBlock (reader 199) (reader 198) ⟨0, none⟩ line []
    (readDocument (c :: s)).blocks = reading.blocks ∧
      (readDocument (c :: s)).definitions = reading.definitions := by
  intro line reading
  have hspace : isSpace c = false := isSpace_of_not_isBlank hc
  have hcleaned : cleaned (c :: s) = c :: cleaned s := by simp [cleaned, hnull]
  have hline' : '\n' ∉ c :: cleaned s := by
    rw [← hcleaned]
    exact fun hmem => hline (mem_of_mem_cleaned hmem (by decide))
  have hlines : documentLines (normalize (c :: s)) = [line] := by
    rw [normalize_of_not_mem hreturn, hcleaned, documentLines_of_line hline' (by simp [hspace]),
      ofText_of_not_space (by rintro d ⟨⟩; exact hspace)]
  rw [readDocument, hlines]
  exact readBlocks_line rfl rfl

end MarkdownWord.Markdown
