import MarkdownWord.Proofs.Labels
import MarkdownWord.Proofs.PlainTexts
import MarkdownWord.Proofs.ShownTexts

/-!
# Texts without markup

A star between blanks, an underscore inside a word, a bracket that is never closed: these are text
as well. A text in which nothing else starts, no delimiter can close and no line ends is read as it
stands (`readSpans_unmarked`).
-/

namespace MarkdownWord.Markdown
open Text

/-! ## Runs -/

/-- A text is its run of some character at the front and what follows the run. -/
theorem run_append_drop (c : Char) (s : List Char) :
    let n := (s.takeWhile (· == c)).length
    s = List.replicate n c ++ s.drop n ∧ (s.drop n).head? ≠ some c := by
  induction s with
  | nil => exact ⟨rfl, by simp⟩
  | cons d s ih =>
    by_cases hd : d = c
    · subst hd
      obtain ⟨heq, hhead⟩ := ih
      simp only [List.takeWhile_cons, beq_self_eq_true, if_true, List.length_cons,
        List.replicate_succ, List.cons_append, List.drop_succ_cons]
      exact ⟨congrArg (d :: ·) heq, hhead⟩
    · simp [hd]

/-- A text before which no run of marks is cut. -/
def Uncut (before : Char) (s : List Char) : Prop :=
  ∀ c, isMark c = true → s.head? = some c → c ≠ before

theorem uncut_of_not_mark {c : Char} (h : isMark c = false) (s : List Char) : Uncut c s := by
  rintro d hd - rfl
  rw [h] at hd
  cases hd

theorem uncut_of_head? {c : Char} {s : List Char} (h : s.head? ≠ some c) : Uncut c s := by
  rintro d - hd rfl
  exact h hd

theorem isAsciiPunctuation_of_isMark {c : Char} (h : isMark c = true) :
    isAsciiPunctuation c = true := by
  simp only [isMark, Bool.or_eq_true, decide_eq_true_eq] at h
  rcases h with ((rfl | rfl) | rfl) | rfl <;> rfl

/-! ## What starts in a text -/

/-- Whether the delimiters of a run can close. `before` is the character before the run. -/
def closesRun (before c : Char) (rest : List Char) : Bool :=
  let n := (rest.takeWhile (· == c)).length
  isDelimiterRun c (n + 1) && (flanking c before ((rest.drop n).head?.getD ' ')).2

/-- Whether something other than text may start at a character. What a run of marks is belongs to
the first of them. -/
def startsMarkup (before c : Char) (rest : List Char) : Bool :=
  if c = '\n' then true
  else if c = '\\' then rest.head?.any fun d => d = '\n' || isAsciiPunctuation d
  else if c = '`' then before != c && (codeSpan? (c :: rest)).isSome
  else if c = '*' || c = '_' || c = '~' then before != c && closesRun before c rest
  else if c = '[' then rest.contains ']'
  else if c = '<' then (autolink? rest).isSome || (Html.afterTag? (c :: rest)).isSome
  else if c = '&' then (reference? rest).isSome
  else false

/-- Whether nothing but text starts in a text. -/
def isUnmarked (before : Char) : List Char → Bool
  | [] => true
  | c :: rest => !startsMarkup before c rest && isUnmarked c rest

theorem isUnmarked_cons {before c : Char} {rest : List Char} :
    isUnmarked before (c :: rest) = true ↔
      startsMarkup before c rest = false ∧ isUnmarked c rest = true := by
  simp [isUnmarked]

theorem codeSpan?_eq_none {before : Char} {rest : List Char} (hbefore : '`' ≠ before)
    (h : startsMarkup before '`' rest = false) : codeSpan? ('`' :: rest) = none := by
  simpa [startsMarkup, hbefore.symm] using h

theorem closesRun_eq_false {before c : Char} {rest : List Char} (hc : c = '*' ∨ c = '_' ∨ c = '~')
    (hbefore : c ≠ before) (h : startsMarkup before c rest = false) :
    closesRun before c rest = false := by
  rcases hc with rfl | rfl | rfl <;> simpa [startsMarkup, hbefore.symm] using h

/-- Nothing starts after a run of marks either, and the run is not cut there. -/
theorem isUnmarked_run {c : Char} {s : List Char} (h : isUnmarked c s = true) :
    let n := (s.takeWhile (· == c)).length
    isUnmarked c (s.drop n) = true ∧ Uncut c (s.drop n) := by
  obtain ⟨heq, hhead⟩ := run_append_drop c s
  refine ⟨?_, uncut_of_head? hhead⟩
  rw [heq] at h
  generalize (s.takeWhile (· == c)).length = n at h ⊢
  generalize s.drop n = t at h ⊢
  induction n with
  | zero => exact h
  | succ n ih => exact ih (isUnmarked_cons.mp h).2

/-! ## What is read -/

/-- Pieces that spell a text: all of them are texts, or delimiters that close nothing. -/
inductive Spells : List Char → List Piece → Prop
  | nil : Spells [] []
  | cons {p : Piece} {u s : List Char} {ps : List Piece} (hp : p.closes = false)
      (hu : p.shown = .text u) (h : Spells s ps) : Spells (u ++ s) (p :: ps)

namespace Spells

variable {s t : List Char} {ps qs : List Piece}

theorem singleton {p : Piece} {u : List Char} (hp : p.closes = false) (hu : p.shown = .text u) :
    Spells u [p] := by
  have h := cons hp hu nil
  rwa [List.append_nil] at h

theorem append (hs : Spells s ps) (ht : Spells t qs) : Spells (s ++ t) (ps ++ qs) := by
  induction hs with
  | nil => exact ht
  | cons hp hu _ ih =>
    rw [List.append_assoc]
    exact cons hp hu ih

theorem flush (pending : List Char) (h : Spells s ps) :
    Spells (pending.reverse ++ s) (flush pending ps) := by
  unfold Markdown.flush
  split
  · next hpending => rwa [List.isEmpty_iff.mp hpending]
  · exact cons rfl rfl h

theorem replicate {p : Piece} {u : List Char} (hp : p.closes = false) (hu : p.shown = .text u)
    (n : Nat) : Spells (List.replicate n u).flatten (List.replicate n p) := by
  induction n with
  | zero => exact nil
  | succ n ih => exact cons hp hu ih

/-- The delimiters of a run that cannot close are the marks of the run. -/
theorem delimiters {mark before after : Char} (h : (flanking mark before after).2 = false)
    (n : Nat) : Spells (List.replicate n mark) (delimiters mark before after n) := by
  unfold Markdown.delimiters
  dsimp only
  split
  · next htilde =>
    subst htilde
    have hodd : Spells (List.replicate (n % 2) '~') (if n % 2 = 1 then [.oddTilde] else []) := by
      rcases Nat.mod_two_eq_zero_or_one n with hn | hn
      · rw [hn]
        exact nil
      · rw [hn]
        exact singleton rfl rfl
    have hpairs := replicate (p := .delimiter ⟨'~', 0, (flanking '~' before after).1,
      (flanking '~' before after).2⟩) h rfl (n / 2)
    have hmarks : List.replicate n '~' =
        List.replicate (n % 2) '~' ++ (List.replicate (n / 2) ['~', '~']).flatten := by
      rw [show ['~', '~'] = List.replicate 2 '~' from rfl, List.flatten_replicate_replicate,
        List.replicate_append_replicate]
      congr 1
      omega
    rw [hmarks]
    exact hodd.append hpairs
  · next htilde =>
    have hmarks := replicate (u := [mark]) (p := .delimiter ⟨mark, n,
      (flanking mark before after).1, (flanking mark before after).2⟩) h
      (by simp [Piece.shown, Delimiter.text, htilde]) n
    simpa using hmarks

/-- Pieces that spell a text are joined to it. -/
theorem resolve (h : Spells s ps) : resolve ps = if s.isEmpty then [] else [.text s] := by
  obtain ⟨hcloses, us, hshown, hflat⟩ : (∀ p ∈ ps, p.closes = false) ∧
      ∃ us : List (List Char), ps.map Piece.shown = us.map .text ∧ us.flatten = s := by
    induction h with
    | nil => exact ⟨List.forall_mem_nil _, [], rfl, rfl⟩
    | @cons p u s ps hp hu _ ih =>
      obtain ⟨hcloses, us, hshown, hflat⟩ := ih
      refine ⟨List.forall_mem_cons.mpr ⟨hp, hcloses⟩, u :: us, ?_, ?_⟩
      · rw [List.map_cons, List.map_cons, hu, hshown]
      · rw [List.flatten_cons, hflat]
  rw [resolve_of_not_closes hcloses, hshown, joinTexts_of_texts, hflat]

end Spells

variable {definitions : List Definition}

theorem readPieces_unmarked (depth : Nat) (before : Char) (pos : Nat) (pending : List Char) :
    ∀ s : List Char, isUnmarked before s = true → Uncut before s →
      AlwaysGives (Spells (pending.reverse ++ s))
        (readPieces definitions depth before pos pending s)
  | [], _, _ => by
    rw [readPieces.eq_def]
    exact AlwaysGives.pure (Spells.nil.flush pending)
  | c :: rest, hs, hcut => by
    obtain ⟨hstart, hrest⟩ := isUnmarked_cons.mp hs
    rw [readPieces.eq_def]
    dsimp -zeta only
    extract_lets plain piece kept hard ticks marks after
    have hplain (n : Nat) {last : Char} (hunmarked : isUnmarked last (rest.drop n) = true)
        (hnext : Uncut last (rest.drop n)) {text : List Char}
        (htext : c :: rest = text.reverse ++ rest.drop n) :
        AlwaysGives (Spells (pending.reverse ++ c :: rest)) (plain n text last) := by
      intro survey
      have h := readPieces_unmarked depth last (pos + (n + 1)) (text ++ pending) (rest.drop n)
        hunmarked hnext survey
      rw [htext]
      rwa [List.reverse_append, List.append_assoc] at h
    have hpiece (n : Nat) {last : Char} (hunmarked : isUnmarked last (rest.drop n) = true)
        (hnext : Uncut last (rest.drop n)) {new : List Piece} {text : List Char}
        (hnew : Spells text new) (htext : c :: rest = text ++ rest.drop n) :
        AlwaysGives (Spells (pending.reverse ++ c :: rest)) (piece n last pending new) := by
      have hlater := readPieces_unmarked depth last (pos + (n + 1)) [] (rest.drop n) hunmarked hnext
      refine AlwaysGives.bind hlater fun later h => AlwaysGives.pure ?_
      rw [htext]
      exact (hnew.append h).flush pending
    clear_value plain piece
    have hone (hnext : Uncut c rest) :
        AlwaysGives (Spells (pending.reverse ++ c :: rest)) (plain 0 [c] c) :=
      hplain 0 hrest hnext rfl
    split
    · next hc => simp [startsMarkup, hc] at hstart
    split
    · next hc =>
      subst hc
      split
      · exact hone (uncut_of_not_mark rfl _)
      · next d more =>
        obtain ⟨hd, hplain⟩ : d ≠ '\n' ∧ isAsciiPunctuation d = false := by
          simpa [startsMarkup] using hstart
        have hmark : isMark d = false := Bool.eq_false_iff.mpr fun hmark =>
          Bool.eq_false_iff.mp hplain (isAsciiPunctuation_of_isMark hmark)
        rw [if_neg hd, hplain]
        exact hpiece 1 (isUnmarked_cons.mp hrest).2 (uncut_of_not_mark hmark _)
          (.singleton rfl rfl) rfl
    split
    · next hc =>
      subst hc
      obtain ⟨hunmarked, hnext⟩ := isUnmarked_run hrest
      rw [codeSpan?_eq_none (hcut '`' rfl rfl) hstart]
      refine hplain _ hunmarked hnext ?_
      rw [List.reverse_replicate, List.replicate_succ, List.cons_append,
        ← (run_append_drop '`' rest).1]
    split
    · next hc =>
      simp only [Bool.or_eq_true, decide_eq_true_eq, or_assoc] at hc
      have hmark : isMark c = true := by rcases hc with rfl | rfl | rfl <;> rfl
      have hcloses := closesRun_eq_false hc (hcut c hmark rfl) hstart
      obtain ⟨hunmarked, hnext⟩ := isUnmarked_run hrest
      split
      · next hrun =>
        have hflanking : (flanking c before after).2 = false :=
          (Bool.and_eq_false_iff.mp hcloses).resolve_left (Bool.not_eq_false _ ▸ hrun)
        refine hpiece _ hunmarked hnext (.delimiters hflanking _) ?_
        rw [List.replicate_succ, List.cons_append, ← (run_append_drop c rest).1]
      · next hrun =>
        -- Only a tilde without another one behind it is no run of delimiters.
        refine hone (uncut_of_head? fun hhead => hrun ?_)
        obtain ⟨more, rfl⟩ : ∃ more, rest = c :: more := by
          cases rest with
          | nil => cases hhead
          | cons d more => exact ⟨more, by rw [Option.some.inj hhead]⟩
        simpa [isDelimiterRun, marks, or_assoc] using hc
    split
    · next hc =>
      subst hc
      have hbracket : ']' ∉ rest := by simpa [startsMarkup] using hstart
      refine AlwaysGives.bind (linkScan?_of_not_mem _ _ _ ?_) ?_
      · rintro inner ⟨⟩
        exact hbracket
      · rintro _ rfl
        exact hone (uncut_of_not_mark rfl _)
    split
    · next hc =>
      subst hc
      refine AlwaysGives.bind (linkScan?_of_not_mem _ _ _ ?_) ?_
      · rintro inner rfl
        simpa [startsMarkup] using (isUnmarked_cons.mp hrest).1
      · rintro _ rfl
        exact hone (uncut_of_not_mark rfl _)
    split
    · next hc =>
      subst hc
      obtain ⟨hauto, htag⟩ : autolink? rest = none ∧ Html.afterTag? ('<' :: rest) = none := by
        simpa [startsMarkup] using hstart
      rw [hauto]
      dsimp only
      rw [htag]
      exact hone (uncut_of_not_mark rfl _)
    split
    · next hc =>
      subst hc
      have hreference : reference? rest = none := by simpa [startsMarkup] using hstart
      rw [hreference]
      exact hone (uncut_of_not_mark rfl _)
    · next htick hmarks _ _ _ _ =>
      refine hone (uncut_of_not_mark ?_ _)
      simpa [isMark, htick, and_assoc] using hmarks
termination_by s => s.length
decreasing_by
  all_goals
    simp only [List.length_drop, List.length_cons]
    omega

/-- A text in which nothing but text starts is read as it stands. -/
theorem readSpans_unmarked {s : List Char} (h : isUnmarked ' ' s = true) :
    readSpans definitions s = if s.isEmpty then [] else [.text s] :=
  (readPieces_unmarked maxNesting ' ' 0 [] s h (uncut_of_not_mark rfl s) {}).resolve

end MarkdownWord.Markdown
