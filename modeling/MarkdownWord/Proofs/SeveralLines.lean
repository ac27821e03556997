import MarkdownWord.Proofs.SingleLines

/-!
# Documents of several lines

Lines that are put together with line ends between them are cut apart again, whether or not a line
end follows the last one. A line keeps its text, counted from its own start or from the end of a
margin without tabs.
-/

namespace MarkdownWord

/-! ## Texts and their lines -/

namespace Text

variable {sep : Char}

theorem splitAt_ne_nil (sep : Char) (s : List Char) : splitAt sep s ≠ [] := by
  cases s with
  | nil => exact List.cons_ne_nil _ _
  | cons c s =>
    rw [splitAt]
    split
    · split <;> exact List.cons_ne_nil _ _
    · exact List.cons_ne_nil _ _

/-- Where a separator stands, the pieces before it and those after it meet. -/
theorem splitAt_append_cons (s rest : List Char) :
    splitAt sep (s ++ sep :: rest) = splitAt sep s ++ splitAt sep rest := by
  induction s with
  | nil =>
    cases hrest : splitAt sep rest with
    | nil => exact absurd hrest (splitAt_ne_nil sep rest)
    | cons line lines => simp [splitAt, hrest]
  | cons c s ih =>
    rw [List.cons_append, splitAt, ih, splitAt]
    cases hs : splitAt sep s with
    | nil => exact absurd hs (splitAt_ne_nil sep s)
    | cons line lines => by_cases hc : c = sep <;> simp [hc]

theorem splitAt_append {s : List Char} (h : sep ∉ s) (rest : List Char) :
    splitAt sep (s ++ sep :: rest) = s :: splitAt sep rest := by
  rw [splitAt_append_cons, Markdown.splitAt_of_not_mem h, List.singleton_append]

/-- The pieces of a text hold all of it but the separators. -/
theorem flatten_splitAt (sep : Char) (s : List Char) :
    (splitAt sep s).flatten = s.filter (· != sep) := by
  induction s with
  | nil => rfl
  | cons c s ih =>
    rw [splitAt]
    cases hrest : splitAt sep s with
    | nil => exact absurd hrest (splitAt_ne_nil sep s)
    | cons line lines =>
      rw [hrest] at ih
      by_cases hc : c = sep
      · simpa [hc] using ih
      · simpa [hc] using ih

theorem mem_of_mem_splitAt {s piece : List Char} (h : piece ∈ splitAt sep s) {c : Char}
    (hc : c ∈ piece) : c ∈ s ∧ c ≠ sep := by
  have hmem : c ∈ (splitAt sep s).flatten := List.mem_flatten_of_mem h hc
  rw [flatten_splitAt] at hmem
  simpa using hmem

theorem notMem_of_mem_splitAt {s piece : List Char} (h : piece ∈ splitAt sep s) : sep ∉ piece :=
  fun hsep => (mem_of_mem_splitAt h hsep).2 rfl

theorem return_notMem_unifyLineEnds (s : List Char) : '\r' ∉ unifyLineEnds s := by
  fun_induction unifyLineEnds s with
  | case1 rest ih => simpa using ih
  | case2 rest hnext ih => simpa using ih
  | case3 c rest hpair hsingle ih =>
    have hc : '\r' ≠ c := fun h => hsingle h.symm
    simpa [hc] using ih
  | case4 => simp

/-- Neither end of a line is left in the lines of a text. -/
theorem notMem_of_mem_lines {s line : List Char} (h : line ∈ lines s) :
    '\r' ∉ line ∧ '\n' ∉ line :=
  ⟨fun hc => return_notMem_unifyLineEnds s (mem_of_mem_splitAt h hc).1, notMem_of_mem_splitAt h⟩

theorem lines_ne_nil (s : List Char) : lines s ≠ [] := splitAt_ne_nil _ _

/-- Lines that are put together are cut apart again. -/
theorem splitAt_intercalate {ls : List (List Char)} (hne : ls ≠ []) (h : ∀ l ∈ ls, sep ∉ l) :
    splitAt sep ([sep].intercalate ls) = ls := by
  induction ls with
  | nil => exact absurd rfl hne
  | cons l ls ih =>
    have hl : sep ∉ l := h l List.mem_cons_self
    cases ls with
    | nil => rw [List.intercalate_singleton, Markdown.splitAt_of_not_mem hl]
    | cons m ls =>
      have hls : ∀ k ∈ m :: ls, sep ∉ k := fun k hk => h k (List.mem_cons_of_mem l hk)
      rw [List.intercalate_cons_cons, List.append_assoc, List.singleton_append, splitAt_append hl,
        ih (List.cons_ne_nil m ls) hls]

theorem not_mem_intercalate {c : Char} (hc : c ≠ sep) {ls : List (List Char)}
    (h : ∀ l ∈ ls, c ∉ l) : c ∉ [sep].intercalate ls := by
  induction ls with
  | nil => exact List.not_mem_nil
  | cons l ls ih =>
    have hl : c ∉ l := h l List.mem_cons_self
    have hls : c ∉ [sep].intercalate ls := ih fun k hk => h k (List.mem_cons_of_mem l hk)
    cases ls with
    | nil => rwa [List.intercalate_singleton]
    | cons m ls =>
      rw [List.intercalate_cons_cons, List.mem_append, List.mem_append, List.mem_singleton]
      rintro ((hmem | heq) | hmem)
      · exact hl hmem
      · exact hc heq
      · exact hls hmem

/-- A line end after each of some lines is one between any two of them, and one at the end. -/
theorem flatMap_ended {ls : List (List Char)} (hne : ls ≠ []) :
    (ls.flatMap fun l => l ++ [sep]) = [sep].intercalate ls ++ [sep] := by
  induction ls with
  | nil => exact absurd rfl hne
  | cons l ls ih =>
    cases ls with
    | nil => rw [List.flatMap_singleton, List.intercalate_singleton]
    | cons m ls =>
      rw [List.flatMap_cons, ih (List.cons_ne_nil m ls), List.intercalate_cons_cons]
      simp only [List.append_assoc]

/-- Lines that each have a line end, and a last one without, are cut apart again. -/
theorem splitAt_ended {ls : List (List Char)} (h : ∀ l ∈ ls, sep ∉ l) {last : List Char}
    (hlast : sep ∉ last) :
    splitAt sep ((ls.flatMap fun l => l ++ [sep]) ++ last) = ls ++ [last] := by
  induction ls with
  | nil => exact Markdown.splitAt_of_not_mem hlast
  | cons l ls ih =>
    have hl : sep ∉ l := h l List.mem_cons_self
    have hls : ∀ k ∈ ls, sep ∉ k := fun k hk => h k (List.mem_cons_of_mem l hk)
    rw [List.flatMap_cons, List.append_assoc, List.append_assoc, List.singleton_append,
      splitAt_append hl, ih hls, List.cons_append]

end Text

/-! ## Lines of a document -/

namespace Markdown
open Text

theorem documentLines_go_append (ls : List (List Char)) {last : List Char}
    (hlast : last.all isSpace = false) :
    documentLines.go (ls ++ [last]) = ls.map (Line.ofText true) ++ [Line.ofText false last] := by
  induction ls with
  | nil => exact if_neg (by simp [hlast])
  | cons l ls ih =>
    rw [List.cons_append, documentLines.go, ih]
    · rfl
    · simp

/-- Blanks at the very end make no line. -/
theorem documentLines_go_ended {ls : List (List Char)} {last : List Char}
    (hlast : last.all isSpace = true) :
    documentLines.go (ls ++ [last]) = ls.map (Line.ofText true) := by
  induction ls with
  | nil => exact if_pos hlast
  | cons l ls ih =>
    rw [List.cons_append, documentLines.go, ih]
    · rfl
    · simp

/-- The text of a line from its start is the line. -/
theorem cut_ofText (ended : Bool) (s : List Char) : (Line.ofText ended s).cut 0 = s := by
  have hparts : s.takeWhile isSpace ++ s.dropWhile isSpace = s := List.takeWhile_append_dropWhile
  unfold Line.cut Line.ofText
  dsimp only
  cases hmargin : s.takeWhile isSpace with
  | nil =>
    rw [hmargin] at hparts
    exact hparts
  | cons c blanks =>
    rw [hmargin] at hparts
    exact hparts

theorem isOutside_ofText (ended : Bool) (s : List Char) :
    (Line.ofText ended s).isOutside ⟨0, none⟩ = false :=
  decide_eq_false (Int.not_lt.mpr (Int.natCast_nonneg _))

/-- Without tabs a margin is as wide as it has characters. -/
theorem cut_go_of_not_mem {l : Line} {margin : List Char} (htab : '\t' ∉ margin) (col : Nat) :
    Line.cut.go (col + margin.length) l col margin = l.body := by
  induction margin generalizing col with
  | nil => simp [Line.cut.go]
  | cons c margin ih =>
    have hc : c ≠ '\t' := fun heq => htab (heq ▸ List.mem_cons_self)
    have hmargin : '\t' ∉ margin := fun hmem => htab (List.mem_cons_of_mem c hmem)
    have hcolumn : columnAfter l.base col c = col + 1 := if_neg hc
    have hwidth : col + (c :: margin).length = col + 1 + margin.length := by
      rw [List.length_cons]
      omega
    rw [Line.cut.go, if_neg (by rw [List.length_cons]; omega), hcolumn, hwidth]
    exact ih hmargin (col + 1)

end Markdown
end MarkdownWord
