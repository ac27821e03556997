import MarkdownWord.Proofs.LeadingTexts
import MarkdownWord.Proofs.Links

/-!
# Texts and what is shown of them

The text that a row of spans starts with shows the front of the text that it is read from, character
by character, with each escape and each reference as the characters that it spells. It ends where
something other than text may start, at the latest (`shown_readSpans`).
-/

namespace MarkdownWord.Markdown
open Text

/-- A character whose runs are read as a whole. -/
def isMark (c : Char) : Bool := c = '`' || c = '*' || c = '_' || c = '~'

/-- A character at which something other than text may start within a line. -/
def opensSpan (c : Char) : Bool := isMark c || c = '[' || c = '!' || c = '<'

theorem opensSpan_of_isMark {c : Char} (h : isMark c = true) : opensSpan c = true := by
  simp [opensSpan, h]

/-- The characters that an escape or a reference at the front of a text spells, and the rest. -/
def spelled? : List Char → Option (List Char × List Char)
  | '\\' :: c :: rest => if isAsciiPunctuation c then some ([c], rest) else none
  | '&' :: rest => reference? rest
  | _ => none

theorem referenceBody?_suffix {s name rest : List Char}
    (h : referenceBody? s = some (name, rest)) : rest <:+ s := by
  cases s with
  | nil => cases h
  | cons c s =>
    rw [referenceBody?] at h
    split at h
    · next rest' hrest =>
      split at h
      · obtain rfl := (Prod.mk.inj (Option.some.inj h)).2
        have hsuffix := List.dropWhile_suffix Char.isAlphanum (l := s)
        rw [hrest] at hsuffix
        exact ((List.suffix_cons ';' rest').trans hsuffix).trans (List.suffix_cons c s)
      · cases h
    · cases h

/-- The characters that the body of a reference stands for. -/
def referenceChars? : List Char → Option (List Char)
  | '#' :: number =>
    (codePoint? 7 6 number).map fun n => [if isReferable n then Char.ofNat n else '\uFFFD']
  | name => named? (String.ofList name)

theorem referenceChars?_ne_nil {name cs : List Char} (h : referenceChars? name = some cs) :
    cs ≠ [] := by
  unfold referenceChars? at h
  split at h
  · obtain ⟨n, -, rfl⟩ := Option.map_eq_some_iff.mp h
    exact List.cons_ne_nil _ _
  · exact named?_ne_nil h

/-- The characters of a reference depend on its body alone. -/
theorem reference?_eq_some_iff {cs s rest : List Char} : reference? s = some (cs, rest) ↔
    ∃ name, referenceBody? s = some (name, rest) ∧ referenceChars? name = some cs := by
  unfold reference?
  split
  · next number rest' hbody =>
    rw [hbody, Option.map_eq_some_iff]
    constructor
    · rintro ⟨n, hn, heq⟩
      cases heq
      exact ⟨_, rfl, by rw [referenceChars?, hn]; rfl⟩
    · rintro ⟨name, hname, hc⟩
      cases hname
      obtain ⟨n, hn, rfl⟩ := Option.map_eq_some_iff.mp hc
      exact ⟨n, hn, rfl⟩
  · next body rest' hbody' hbody =>
    have hchars : referenceChars? body = named? (String.ofList body) := by
      unfold referenceChars?
      split
      · exact (hbody' _ rfl).elim
      · rfl
    rw [hbody, Option.map_eq_some_iff]
    constructor
    · rintro ⟨d, hd, heq⟩
      cases heq
      exact ⟨body, rfl, hchars.trans hd⟩
    · rintro ⟨name, hname, hc⟩
      cases hname
      exact ⟨cs, hchars.symm.trans hc, rfl⟩
  · next hbody => simp [hbody]

theorem referenceBody?_append {s name rest : List Char}
    (h : referenceBody? s = some (name, rest)) (t : List Char) :
    referenceBody? (s ++ t) = some (name, rest ++ t) := by
  cases s with
  | nil => cases h
  | cons c s =>
    rw [referenceBody?] at h
    split at h
    · next rest' hrest =>
      have hdrop : (s ++ t).dropWhile Char.isAlphanum = ';' :: (rest' ++ t) := by
        simp [List.dropWhile_append, hrest]
      have htake : (s ++ t).takeWhile Char.isAlphanum = s.takeWhile Char.isAlphanum := by
        rw [List.takeWhile_append, if_neg]
        intro hlength
        have hsum := congrArg List.length
          (List.takeWhile_append_dropWhile (p := Char.isAlphanum) (l := s))
        rw [List.length_append, hlength, hrest, List.length_cons] at hsum
        omega
      rw [List.cons_append, referenceBody?, hdrop, htake]
      split at h
      · next hname =>
        cases h
        exact if_pos hname
      · cases h
    · cases h

theorem spelled?_ne_nil {cs s rest : List Char} (h : spelled? s = some (cs, rest)) : cs ≠ [] := by
  unfold spelled? at h
  split at h
  · split at h
    · cases h
      exact List.cons_ne_nil _ _
    · cases h
  · obtain ⟨name, -, hname⟩ := reference?_eq_some_iff.mp h
    exact referenceChars?_ne_nil hname
  · cases h

theorem spelled?_append {cs s rest : List Char} (h : spelled? s = some (cs, rest))
    (t : List Char) : spelled? (s ++ t) = some (cs, rest ++ t) := by
  unfold spelled? at h
  split at h
  · next d rest' =>
    split at h
    · next hd =>
      cases h
      simp [spelled?, hd]
    · cases h
  · next s =>
    obtain ⟨name, hbody, hname⟩ := reference?_eq_some_iff.mp h
    exact reference?_eq_some_iff.mpr ⟨name, referenceBody?_append hbody t, hname⟩
  · cases h

/-- What may be shown of a text at its front. Marks that turn out to be text may be followed by
anything. -/
inductive Shown : List Char → List Char → Prop
  | stop {s : List Char} (h : ∀ c ∈ s.head?, opensSpan c = true) : Shown s []
  | mark {c : Char} (h : isMark c = true) (s v : List Char) : Shown (c :: s) (c :: v)
  | plain (c : Char) {s v : List Char} (h : Shown s v) : Shown (c :: s) (c :: v)
  | spelled {cs s rest v : List Char} (hcs : spelled? s = some (cs, rest))
      (h : Shown rest v) : Shown s (cs ++ v)

/-- What is shown first is written or spelled at the front, unless it is a mark. -/
theorem Shown.written_or_spelled {c : Char} {s v : List Char} (h : Shown s (c :: v))
    (hc : isMark c = false) :
    (∃ rest, s = c :: rest ∧ Shown rest v) ∨ ∃ cs rest, spelled? s = some (c :: cs, rest) := by
  generalize hu : c :: v = u at h
  cases h with
  | stop => cases hu
  | mark h =>
    cases hu
    rw [hc] at h
    cases h
  | plain _ h =>
    cases hu
    exact .inl ⟨_, rfl, h⟩
  | @spelled ds _ rest w hspelled h =>
    cases ds with
    | nil => exact absurd rfl (spelled?_ne_nil hspelled)
    | cons d ds =>
      cases hu
      exact .inr ⟨ds, rest, hspelled⟩

/-- Pieces that show a text after some text that was pending. -/
def Shows (pending s : List Char) (pieces : List Piece) : Prop :=
  ∀ v, Begins pieces v → ∃ w, v = pending.reverse ++ w ∧ Shown s w

theorem Begins.of_flush {pending v : List Char} {pieces : List Piece}
    (h : Begins (flush pending pieces) v) : ∃ w, v = pending.reverse ++ w ∧ Begins pieces w := by
  unfold flush at h
  split at h
  · next hpending =>
    rw [List.isEmpty_iff.mp hpending]
    exact ⟨v, rfl, h⟩
  · cases h with
    | text h => exact ⟨_, rfl, h⟩
    | stop h => exact absurd rfl (h _)
    | mark h => exact absurd rfl (h _)

/-- A run of marks starts with a piece that is shown as such marks unless it is paired. -/
theorem delimiters_cons {mark : Char} {n : Nat} (h : isDelimiterRun mark (n + 1) = true)
    (before after : Char) : ∃ p ps w, delimiters mark before after (n + 1) = p :: ps ∧
      (∀ s, p ≠ .span s) ∧ p.shown = .text (mark :: w) := by
  unfold delimiters
  dsimp only
  split
  · next htilde =>
    subst htilde
    have hlong : 1 ≤ n := by
      simp only [isDelimiterRun] at h
      simpa using h
    split
    · exact ⟨.oddTilde, _, [], rfl, fun s hs => (nomatch hs), rfl⟩
    · obtain ⟨k, hk⟩ : ∃ k, (n + 1) / 2 = k + 1 := ⟨(n + 1) / 2 - 1, by omega⟩
      rw [hk]
      exact ⟨_, _, ['~'], rfl, fun s hs => (nomatch hs), rfl⟩
  · next htilde =>
    refine ⟨_, _, [], rfl, fun s hs => (nomatch hs), ?_⟩
    simp [Piece.shown, Delimiter.text, htilde]

section Reading

variable {definitions : List Definition} {c : Char} {rest : List Char}

/-- What is read in place of the front of a text, while the rest is read on its own. -/
def Replaces (new : List Piece) (s rest : List Char) : Prop :=
  ∀ later, Shows [] rest later → Shows [] s (new ++ later)

theorem replaces_span {s : Span} (hs : ∀ t, s ≠ .text t) (hc : opensSpan c = true)
    (tail : List Char) : Replaces [.span s] (c :: rest) tail := by
  rintro later - v hv
  cases hv with
  | text => exact absurd rfl (hs _)
  | stop => exact ⟨[], rfl, .stop (by rintro d ⟨⟩; exact hc)⟩
  | mark h => exact absurd rfl (h _)

theorem replaces_spelled {cs s : List Char} (hcs : spelled? s = some (cs, rest)) :
    Replaces [.span (.text cs)] s rest := by
  rintro later hlater v hv
  cases hv with
  | text h =>
    obtain ⟨w, rfl, hw⟩ := hlater _ h
    exact ⟨_, rfl, .spelled hcs hw⟩
  | stop h => exact absurd rfl (h _)
  | mark h => exact absurd rfl (h _)

/-- A backslash that escapes nothing is shown, and so is the character after it. -/
theorem replaces_backslash (d : Char) (more : List Char) :
    Replaces [.span (.text ['\\', d])] ('\\' :: d :: more) more := by
  rintro later hlater v hv
  cases hv with
  | text h =>
    obtain ⟨w, rfl, hw⟩ := hlater _ h
    exact ⟨_, rfl, .plain _ (.plain _ hw)⟩
  | stop h => exact absurd rfl (h _)
  | mark h => exact absurd rfl (h _)

theorem replaces_delimiters {n : Nat} (h : isDelimiterRun c (n + 1) = true) (hc : isMark c = true)
    (before after : Char) (tail : List Char) :
    Replaces (delimiters c before after (n + 1)) (c :: rest) tail := by
  obtain ⟨p, ps, w, hcons, hp, hshown⟩ := delimiters_cons h before after
  rintro later - v hv
  rw [hcons] at hv
  cases hv with
  | text => exact absurd rfl (hp _)
  | stop => exact ⟨[], rfl, .stop (by rintro d ⟨⟩; exact opensSpan_of_isMark hc)⟩
  | mark _ hshown' v =>
    obtain rfl := Span.text.inj (hshown.symm.trans hshown')
    exact ⟨_, rfl, .mark hc rest _⟩

/-- Whatever the line, what is read from it shows it. -/
theorem readPieces_shows (depth : Nat) (before : Char) (pos : Nat) (pending : List Char) :
    ∀ s : List Char, '\n' ∉ s →
      AlwaysGives (Shows pending s) (readPieces definitions depth before pos pending s)
  | [], _ => by
    rw [readPieces.eq_def]
    refine AlwaysGives.pure fun v hv => ?_
    obtain ⟨w, rfl, hw⟩ := hv.of_flush
    cases hw
    exact ⟨[], rfl, .stop (by rintro d ⟨⟩)⟩
  | c :: rest, hline => by
    have hc : c ≠ '\n' := fun heq => hline (heq ▸ List.mem_cons_self)
    have hrest : '\n' ∉ rest := fun hmem => hline (List.mem_cons_of_mem c hmem)
    have hdrop (n : Nat) : '\n' ∉ rest.drop n := fun hmem => hrest (List.mem_of_mem_drop hmem)
    rw [readPieces.eq_def]
    dsimp -zeta only
    extract_lets plain piece
    have hplain (last : Char) : AlwaysGives (Shows pending (c :: rest)) (plain 0 [c] last) := by
      intro survey v hv
      obtain ⟨w, rfl, hw⟩ := readPieces_shows depth last _ _ (rest.drop 0) (hdrop 0) survey v hv
      exact ⟨c :: w, by simp, .plain c hw⟩
    have hpiece (n : Nat) (last : Char) {new : List Piece}
        (hnew : Replaces new (c :: rest) (rest.drop n)) :
        AlwaysGives (Shows pending (c :: rest)) (piece n last pending new) := by
      refine AlwaysGives.bind (readPieces_shows depth last _ _ (rest.drop n) (hdrop n)) ?_
      refine fun later hlater => AlwaysGives.pure fun v hv => ?_
      obtain ⟨w, rfl, hw⟩ := hv.of_flush
      obtain ⟨w, rfl, hw⟩ := hnew later hlater w hw
      exact ⟨w, rfl, hw⟩
    have hticks (n : Nat) (htick : isMark c = true) (last : Char) :
        AlwaysGives (Shows pending (c :: rest)) (plain n (List.replicate (n + 1) c) last) := by
      intro survey v hv
      obtain ⟨w, rfl, -⟩ := readPieces_shows depth last _ _ (rest.drop n) (hdrop n) survey v hv
      refine ⟨List.replicate (n + 1) c ++ w, by simp, ?_⟩
      exact .mark htick rest (List.replicate n c ++ w)
    clear_value plain piece
    rw [if_neg hc]
    split
    · next hescape =>
      subst hescape
      split
      · exact hplain _
      · next d more _ _ _ =>
        split
        · next hd => exact absurd (hd ▸ List.mem_cons_self) hrest
        refine hpiece _ _ ?_
        split
        · next hd => exact replaces_spelled (by simp [spelled?, hd])
        · exact replaces_backslash d more
    split
    · next htick =>
      have htick : isMark c = true := by rw [htick]; rfl
      split
      · exact hpiece _ _ (replaces_span (by rintro t ⟨⟩) (opensSpan_of_isMark htick) _)
      · exact hticks _ htick _
    split
    · next hmark =>
      have hmark : isMark c = true := by
        simp only [Bool.or_eq_true, decide_eq_true_eq] at hmark
        rcases hmark with (rfl | rfl) | rfl <;> rfl
      split
      · next hrun => exact hpiece _ _ (replaces_delimiters hrun hmark _ _ _)
      · exact hplain _
    split
    · next hbracket =>
      have hopens : opensSpan c = true := by simp [opensSpan, hbracket]
      refine AlwaysGives.bind_any fun found => ?_
      split
      · refine AlwaysGives.bind_any fun label => hpiece _ _ (replaces_span ?_ hopens _)
        rintro t ⟨⟩
      · exact hplain _
    split
    · next hbang =>
      have hopens : opensSpan c = true := by simp [opensSpan, hbang]
      refine AlwaysGives.bind_any fun found => ?_
      split
      · exact hpiece _ _ (replaces_span (by rintro t ⟨⟩) hopens _)
      · exact hplain _
    split
    · next hangle =>
      have hopens : opensSpan c = true := by simp [opensSpan, hangle]
      split
      · exact hpiece _ _ (replaces_span (by rintro t ⟨⟩) hopens _)
      · split
        · exact hpiece _ _ (replaces_span (by rintro t ⟨⟩) hopens _)
        · exact hplain _
    split
    · next hand =>
      split
      · next cs after href =>
        obtain ⟨name, hbody, -⟩ := reference?_eq_some_iff.mp href
        have hsuffix := referenceBody?_suffix hbody
        have hrest : rest.drop (rest.length - after.length) = after :=
          (List.suffix_iff_eq_drop.mp hsuffix).symm
        refine hpiece _ _ ?_
        rw [hrest, hand]
        exact replaces_spelled href
      · exact hplain _
    · exact hplain _
termination_by s => s.length
decreasing_by
  all_goals
    simp only [List.length_drop, List.length_cons]
    omega

/-- Plain text before a line is shown as it is. -/
theorem shown_of_pending {depth pos : Nat} {before : Char} {pending s : List Char}
    (hline : '\n' ∉ s) (survey : Survey) :
    ∃ w, firstText (resolve
        ((readPieces definitions depth before pos pending s).run survey).1) = pending.reverse ++ w ∧
      Shown s w :=
  readPieces_shows _ _ _ _ s hline survey _ (begins_resolve _)

/-- The text that the spans of a line start with shows the line. -/
theorem shown_readSpans {s : List Char} (hline : '\n' ∉ s) :
    Shown s (firstText (readSpans definitions s)) := by
  obtain ⟨w, heq, hw⟩ := shown_of_pending hline ∅
  rw [readSpans, heq]
  exact hw

end Reading

/-- No empty text comes first among texts that are joined. -/
theorem joinTexts_ne_empty (spans later : List Span) : joinTexts spans ≠ .text [] :: later := by
  induction spans generalizing later with
  | nil => rintro ⟨⟩
  | cons s spans ih =>
    cases s with
    | text t =>
      rw [joinTexts]
      split
      · next u rest hrest =>
        intro heq
        have hempty := Span.text.inj (List.cons.inj heq).1
        rw [(List.append_eq_nil_iff.mp hempty).2] at hrest
        exact ih rest hrest
      · split
        · exact ih later
        · next ht =>
          intro heq
          exact ht (List.isEmpty_iff.mpr (Span.text.inj (List.cons.inj heq).1))
    | _ => rintro ⟨⟩

theorem readSpans_ne_empty (definitions : List Definition) (s : List Char) (later : List Span) :
    readSpans definitions s ≠ .text [] :: later := by
  obtain ⟨spans, hspans⟩ : ∃ spans, readSpans definitions s = joinTexts spans :=
    (nest_front _).1 []
  rw [hspans]
  exact joinTexts_ne_empty _ later

end MarkdownWord.Markdown
