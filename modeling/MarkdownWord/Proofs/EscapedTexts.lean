import MarkdownWord.Node.OfMarkdown
import MarkdownWord.Proofs.LeadingTexts
import MarkdownWord.Proofs.PlainTexts
import MarkdownWord.Proofs.SingleLines

/-!
# Texts that are escaped

With a backslash before each of its ASCII punctuation characters a line is nothing but text, since
all that starts a block or is set off inside one is such a character. It is read as one paragraph
that holds the line (`Node.ofMarkdown_escaped`).
-/

namespace MarkdownWord.Markdown
open Text

/-- A text with a backslash before each ASCII punctuation character. -/
def escaped : List Char → List Char
  | [] => []
  | c :: rest => if isAsciiPunctuation c then '\\' :: c :: escaped rest else c :: escaped rest

/-- A text without punctuation has nothing to escape. -/
theorem escaped_eq_self {s : List Char} (h : ∀ c ∈ s, isAsciiPunctuation c = false) :
    escaped s = s := by
  induction s with
  | nil => rfl
  | cons c s ih =>
    have hs : ∀ d ∈ s, isAsciiPunctuation d = false := fun d hd => h d (List.mem_cons_of_mem c hd)
    rw [escaped, h c List.mem_cons_self, ih hs]
    rfl

theorem mem_escaped {c : Char} {s : List Char} (h : c ∈ escaped s) : c ∈ s ∨ c = '\\' := by
  induction s with
  | nil => exact .inl h
  | cons d s ih =>
    rw [escaped] at h
    split at h
    · rcases List.mem_cons.mp h with heq | h
      · exact .inr heq
      · rcases List.mem_cons.mp h with rfl | h
        · exact .inl List.mem_cons_self
        · exact (ih h).imp_left (List.mem_cons_of_mem d)
    · rcases List.mem_cons.mp h with rfl | h
      · exact .inl List.mem_cons_self
      · exact (ih h).imp_left (List.mem_cons_of_mem d)

/-- No punctuation but a backslash stands at the front. -/
theorem head?_escaped {s : List Char} :
    ∀ c ∈ (escaped s).head?, isAsciiPunctuation c = true → c = '\\' := by
  cases s with
  | nil => rintro c ⟨⟩
  | cons d s =>
    rw [escaped]
    split
    · rintro c ⟨⟩ -
      rfl
    · next hd =>
      rintro c ⟨⟩ hc
      exact absurd hc hd

theorem getLast?_escaped (s : List Char) : (escaped s).getLast? = s.getLast? := by
  induction s with
  | nil => rfl
  | cons c s ih =>
    rw [escaped]
    split <;> simp [List.getLast?_cons, ih]

theorem toNat_of_isDigit {c : Char} (h : c.isDigit = true) : 48 ≤ c.toNat ∧ c.toNat ≤ 57 := by
  simpa [Char.isDigit, UInt32.le_iff_toNat_le] using h

theorem isBlank_of_isDigit {c : Char} (h : c.isDigit = true) : isBlank c = false := by
  have hrange := toNat_of_isDigit h
  simp only [isBlank, Bool.or_eq_false_iff, Bool.and_eq_false_iff, decide_eq_false_iff_not]
  omega

theorem isAsciiPunctuation_of_isDigit {c : Char} (h : c.isDigit = true) :
    isAsciiPunctuation c = false := by
  have hrange := toNat_of_isDigit h
  simp only [isAsciiPunctuation, Bool.or_eq_false_iff, Bool.and_eq_false_iff,
    decide_eq_false_iff_not]
  omega

theorem dropWhile_isDigit_escaped (s : List Char) :
    ∃ rest, (escaped s).dropWhile Char.isDigit = escaped rest := by
  induction s with
  | nil => exact ⟨[], rfl⟩
  | cons c s ih =>
    by_cases hdigit : c.isDigit = true
    · have hplain := isAsciiPunctuation_of_isDigit hdigit
      obtain ⟨rest, hrest⟩ := ih
      exact ⟨rest, by simp [escaped, hplain, hdigit, hrest]⟩
    · refine ⟨c :: s, ?_⟩
      rw [escaped]
      split
      · rw [List.dropWhile_cons_of_neg (by decide)]
      · rw [List.dropWhile_cons_of_neg hdigit]

/-! ## Inline content -/

/-- An escaped text is read as texts that make it up. -/
theorem readPieces_escaped (definitions : List Definition) (depth : Nat) {s : List Char}
    (h : '\n' ∉ s) (before : Char) (pos : Nat) (pending : List Char) (survey : Survey) :
    ∃ us : List (List Char),
      (readPieces definitions depth before pos pending (escaped s)).run survey =
        (us.map fun u => .span (.text u), survey) ∧ us.flatten = pending.reverse ++ s := by
  induction s generalizing before pos pending with
  | nil =>
    rw [escaped, readPieces.eq_def]
    cases pending with
    | nil => exact ⟨[], rfl, rfl⟩
    | cons c pending => exact ⟨[(c :: pending).reverse], rfl, by simp⟩
  | cons c s ih =>
    have hrest : '\n' ∉ s := fun hmem => h (List.mem_cons_of_mem c hmem)
    have hc : c ≠ '\n' := fun heq => h (heq ▸ List.mem_cons_self)
    rw [escaped]
    split
    · next hpunctuation =>
      obtain ⟨us, hus, hflat⟩ := ih hrest c (pos + 2) []
      have hrun : (readPieces definitions depth before pos pending ('\\' :: c :: escaped s)).run
          survey =
            (flush pending (.span (.text [c]) :: us.map fun u => .span (.text u)), survey) := by
        rw [readPieces_backslash hc, if_pos hpunctuation]
        exact congrArg (fun r : List Piece × Survey =>
          (flush pending (.span (.text [c]) :: r.1), r.2)) hus
      cases pending with
      | nil => exact ⟨[c] :: us, hrun, by simpa using hflat⟩
      | cons d pending => exact ⟨(d :: pending).reverse :: [c] :: us, hrun, by simpa using hflat⟩
    · next hplain =>
      have hconstruct : c ∉ constructChars := by
        intro hmem
        have hall : constructChars.all (fun d => d = '\n' || isAsciiPunctuation d) = true := rfl
        have hmember := List.all_eq_true.mp hall c hmem
        simp only [Bool.or_eq_true, decide_eq_true_eq] at hmember
        exact hmember.elim hc hplain
      rw [readPieces_plain hconstruct]
      obtain ⟨us, hus, hflat⟩ := ih hrest c (pos + 1) (c :: pending)
      exact ⟨us, hus, by simpa using hflat⟩

theorem readSpans_escaped (definitions : List Definition) {s : List Char} (hne : s ≠ [])
    (h : '\n' ∉ s) : readSpans definitions (escaped s) = [.text s] := by
  obtain ⟨us, hus, hflat⟩ := readPieces_escaped definitions maxNesting h ' ' 0 [] {}
  rw [readSpans, hus, map_span_text, resolve_of_spans, joinTexts_of_texts, hflat, List.reverse_nil,
    List.nil_append, if_neg (by simpa using hne)]

/-! ## Blocks -/

theorem trimBlank_escaped {s : List Char} (h : trimBlank s = s) :
    trimBlank (escaped s) = escaped s := by
  obtain ⟨hhead, hlast⟩ := trimBlank_eq_self_iff.mp h
  refine trimBlank_eq_self_iff.mpr ⟨?_, by rwa [getLast?_escaped]⟩
  cases s with
  | nil => exact hhead
  | cons c s =>
    rw [escaped]
    split
    · rintro d ⟨⟩
      decide
    · exact hhead

/-- A line that is escaped is a paragraph and nothing else, with the line as its text. -/
theorem readDocument_escaped {s : List Char} (hne : s ≠ []) (hreturn : '\r' ∉ s) (hline : '\n' ∉ s)
    (hnull : '\x00' ∉ s) (htrim : trimBlank s = s) :
    (readDocument (escaped s)).blocks = [.paragraph (escaped s)] := by
  have hnot (d : Char) (hd : d ∉ s) (hne : d ≠ '\\') : d ∉ escaped s := fun hmem =>
    (mem_escaped hmem).elim hd hne
  have hstart := head?_escaped (s := s)
  have hdigits : ∀ c ∈ ((escaped s).dropWhile Char.isDigit).head?,
      isAsciiPunctuation c = true → c = '\\' := by
    obtain ⟨rest, hrest⟩ := dropWhile_isDigit_escaped s
    rw [hrest]
    exact head?_escaped
  have htrimmed := trimBlank_escaped htrim
  have hblank := (trimBlank_eq_self_iff.mp htrimmed).1
  have hnull := hnot '\x00' hnull (by decide)
  have hreturn := hnot '\r' hreturn (by decide)
  have hline := hnot '\n' hline (by decide)
  cases hescaped : escaped s with
  | nil =>
    cases s with
    | nil => exact absurd rfl hne
    | cons c s => rw [escaped] at hescaped; split at hescaped <;> cases hescaped
  | cons c rest =>
    rw [hescaped] at hstart hdigits htrimmed hblank hnull hreturn hline
    have hc : c ≠ '\x00' := fun heq => hnull (heq ▸ List.mem_cons_self)
    obtain ⟨hblocks, -⟩ := readDocument_line (hblank c rfl) hc hreturn hline
    rw [cleaned_of_not_mem fun hmem => hnull (List.mem_cons_of_mem c hmem)] at hblocks
    rw [hblocks, readBlock_of_plain_start rfl hstart (marker?_eq_none hdigits)]
    exact congrArg (fun text => [Block.paragraph text]) htrimmed

end MarkdownWord.Markdown

namespace MarkdownWord
open Markdown Text

/-- A line that is escaped is read as a paragraph with the line as its only text. -/
theorem Node.ofMarkdown_escaped {s : List Char} (hne : s ≠ []) (hreturn : '\r' ∉ s)
    (hline : '\n' ∉ s) (hnull : '\x00' ∉ s) (htrim : trimBlank s = s) :
    Node.ofMarkdown (String.ofList (escaped s)) =
      .root [.paragraph [.text (String.ofList s)]] := by
  unfold Node.ofMarkdown
  dsimp only
  rw [String.toList_ofList, readDocument_escaped hne hreturn hline hnull htrim]
  simp [blocksToNodes, Block.toNode, inlineNodes, readSpans_escaped _ hne hline, spansToNodes,
    Span.toNodes, hne]

end MarkdownWord
