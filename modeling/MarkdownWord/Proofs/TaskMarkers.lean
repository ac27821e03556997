import MarkdownWord.Proofs.BulletedLines
import MarkdownWord.Proofs.PlainTexts

/-!
# Task markers

A bulleted line that starts with a task marker is the item of a task. It is so, too, when other text
is shown as a marker: text with escapes or references in place of characters of the marker, or
brackets right before something that is not text (`Node.checked_ofMarkdown`).
-/

namespace MarkdownWord.Markdown
open Text

/-! ## Markers -/

/-- What stands between the brackets of a task marker tells whether it is checked. -/
def boxOf? (c : Char) : Option Bool :=
  if c = ' ' then some false else if c = 'x' || c = 'X' then some true else none

/-- The task marker that a text starts with as it is written: a box in brackets, and then a blank or
the end of the text. -/
def writtenMarker? : List Char → Option Bool
  | '[' :: c :: ']' :: rest => if rest.head?.all isSpace then boxOf? c else none
  | _ => none

/-- A text that starts with no task marker but may be shown as if it did: a character of the marker
is spelled by an escape or a reference, or right after the brackets comes what may be no text or is
trimmed. -/
inductive Disguised : List Char → Prop
  | bracket {cs s rest : List Char} (h : spelled? s = some ('[' :: cs, rest)) : Disguised s
  | box {c : Char} {b : Bool} {cs s rest : List Char} (hc : boxOf? c = some b)
      (h : spelled? s = some (c :: cs, rest)) : Disguised ('[' :: s)
  | closing {c : Char} {b : Bool} {cs s rest : List Char} (hc : boxOf? c = some b)
      (h : spelled? s = some (']' :: cs, rest)) : Disguised ('[' :: c :: s)
  | gap {c d : Char} {b : Bool} {cs s rest : List Char} (hc : boxOf? c = some b)
      (hd : isSpace d = true ∨ d = '\n') (h : spelled? s = some (d :: cs, rest)) :
      Disguised ('[' :: c :: ']' :: s)
  | span {c d : Char} {b : Bool} (hc : boxOf? c = some b) (hd : opensSpan d = true)
      (s : List Char) : Disguised ('[' :: c :: ']' :: d :: s)
  | trimmed {c d : Char} {b : Bool} {s : List Char} (hc : boxOf? c = some b)
      (hd : isSpace d = false) (h : ∀ e ∈ d :: s, isBlank e = true) :
      Disguised ('[' :: c :: ']' :: d :: s)

theorem writtenMarker?_eq_some_iff {s : List Char} {b : Bool} : writtenMarker? s = some b ↔
    ∃ c r, s = '[' :: c :: ']' :: r ∧ boxOf? c = some b ∧ ∀ d ∈ r.head?, isSpace d = true := by
  unfold writtenMarker?
  split
  · next c r =>
    have hall : r.head?.all isSpace = true ↔ ∀ d ∈ r.head?, isSpace d = true := by
      cases r <;> simp
    constructor
    · intro h
      split at h
      · next hr => exact ⟨c, r, rfl, h, hall.mp hr⟩
      · cases h
    · rintro ⟨c', r', heq, hc, hr⟩
      cases heq
      rw [if_pos (hall.mpr hr), hc]
  · next hs =>
    refine iff_of_false (by simp) ?_
    rintro ⟨c, r, rfl, -⟩
    exact hs c r rfl

theorem spelled?_head {cs s rest : List Char} (h : spelled? s = some (cs, rest)) :
    ∃ d tail, s = d :: tail ∧ (d = '\\' ∨ d = '&') := by
  unfold spelled? at h
  split at h
  · exact ⟨_, _, rfl, .inl rfl⟩
  · exact ⟨_, _, rfl, .inr rfl⟩
  · cases h

theorem boxOf?_cases {c : Char} {b : Bool} (h : boxOf? c = some b) :
    c = ' ' ∨ c = 'x' ∨ c = 'X' := by
  unfold boxOf? at h
  split at h
  · next hc => exact .inl hc
  · split at h
    · next hc => exact .inr (by simpa using hc)
    · cases h

/-- What is disguised is not written. -/
theorem writtenMarker?_eq_none {s : List Char} (h : Disguised s) : writtenMarker? s = none := by
  have hgap {c d : Char} {s : List Char} (hd : isSpace d = false) :
      writtenMarker? ('[' :: c :: ']' :: d :: s) = none := by
    simp [writtenMarker?, hd]
  cases h with
  | bracket h =>
    obtain ⟨d, tail, rfl, rfl | rfl⟩ := spelled?_head h <;> rfl
  | box hc h =>
    obtain ⟨d, tail, rfl, hd⟩ := spelled?_head h
    have hbox : boxOf? d = none := by rcases hd with rfl | rfl <;> rfl
    unfold writtenMarker?
    split
    · next heq =>
      cases heq
      rw [hbox, ite_self]
    · rfl
  | closing hc h =>
    obtain ⟨d, tail, rfl, rfl | rfl⟩ := spelled?_head h <;> rfl
  | gap hc hd h =>
    obtain ⟨d, tail, rfl, rfl | rfl⟩ := spelled?_head h <;> rfl
  | @span c d b hc hd s =>
    refine hgap ?_
    rw [isSpace, Bool.or_eq_false_iff, decide_eq_false_iff_not, decide_eq_false_iff_not]
    constructor <;> (rintro rfl; cases hd)
  | trimmed hc hd h => exact hgap hd

/-- A text that a task marker is taken off starts with one, but may end its line after it. -/
theorem taskMarker?_eq_some_iff {v : List Char} {b : Bool} :
    (Node.taskMarker? v).map Prod.fst = some b ↔
      ∃ c w, v = '[' :: c :: ']' :: w ∧ boxOf? c = some b ∧
        ((∀ d ∈ w.head?, isSpace d = true) ∨ w = ['\n']) := by
  have hafter (w : List Char) :
      (w.dropWhile isSpace).length < w.length ∨ w.isEmpty = true ↔
        ∀ d ∈ w.head?, isSpace d = true := by
    cases w with
    | nil => simp
    | cons d w =>
      have hle := (List.dropWhile_suffix isSpace (l := w)).length_le
      by_cases hd : isSpace d = true
      · simp [hd, List.dropWhile_cons_of_pos, Nat.lt_succ_of_le hle]
      · simp [hd, List.dropWhile_cons_of_neg]
  unfold Node.taskMarker?
  split
  · next c w =>
    have hwhole : (∃ c' w', '[' :: c :: ']' :: w = '[' :: c' :: ']' :: w' ∧ boxOf? c' = some b ∧
        ((∀ d ∈ w'.head?, isSpace d = true) ∨ w' = ['\n'])) ↔
          boxOf? c = some b ∧ ((∀ d ∈ w.head?, isSpace d = true) ∨ w = ['\n']) := by
      constructor
      · rintro ⟨c', w', heq, h⟩
        cases heq
        exact h
      · exact fun h => ⟨c, w, rfl, h⟩
    have hbox : boxOf? c = if c = ' ' || c = 'x' || c = 'X' then some (c != ' ') else none := by
      unfold boxOf?
      by_cases hblank : c = ' '
      · simp [hblank]
      · have hchecked : (c != ' ') = true := by simpa using hblank
        simp [hblank, hchecked]
    rw [hwhole, hbox, ← hafter]
    dsimp only
    split
    · split
      · next hend => simp_all
      · next hend => simp_all
    · simp
  · next hv =>
    refine iff_of_false (by simp) ?_
    rintro ⟨c, w, rfl, -⟩
    exact hv c w rfl

/-! ## Reading -/

/-- Whatever shows a task marker is one, or is disguised. -/
theorem written_or_disguised {s v : List Char} {b : Bool} (hshown : Shown s v) (hline : '\n' ∉ s)
    (hv : (Node.taskMarker? v).map Prod.fst = some b) :
    writtenMarker? s = some b ∨ Disguised s := by
  obtain ⟨c, w, rfl, hc, hw⟩ := taskMarker?_eq_some_iff.mp hv
  have hnext : ∀ d ∈ w.head?, isSpace d = true ∨ d = '\n' := by
    rcases hw with hw | rfl
    · exact fun d hd => .inl (hw d hd)
    · rintro d ⟨⟩
      exact .inr rfl
  have hmark : isMark c = false := by rcases boxOf?_cases hc with rfl | rfl | rfl <;> rfl
  obtain ⟨s₁, rfl, h₁⟩ | ⟨cs, rest, hspelled⟩ := hshown.written_or_spelled (by rfl)
  rotate_left
  · exact .inr (.bracket hspelled)
  obtain ⟨s₂, rfl, h₂⟩ | ⟨cs, rest, hspelled⟩ := h₁.written_or_spelled hmark
  rotate_left
  · exact .inr (.box hc hspelled)
  obtain ⟨s₃, rfl, h₃⟩ | ⟨cs, rest, hspelled⟩ := h₂.written_or_spelled (by rfl)
  rotate_left
  · exact .inr (.closing hc hspelled)
  cases h₃ with
  | stop h =>
    cases s₃ with
    | nil => exact .inl (by rw [writtenMarker?, if_pos (by rfl), hc])
    | cons d s₃ => exact .inr (.span hc (h d rfl) s₃)
  | mark h s => exact .inr (.span hc (opensSpan_of_isMark h) s)
  | @plain d s₃ w h =>
    have hd : d ≠ '\n' := by
      rintro rfl
      exact hline (by simp)
    have hspace : isSpace d = true := (hnext d rfl).resolve_right hd
    exact .inl (by rw [writtenMarker?, if_pos (by simpa using hspace), hc])
  | @spelled cs _ _ _ hspelled =>
    cases cs with
    | nil => exact absurd rfl (spelled?_ne_nil hspelled)
    | cons d cs => exact .inr (.gap hc (hnext d rfl) hspelled)

theorem run_bind_of_run_eq {σ α β : Type} {m : StateM σ α} {s t : σ} {a : α}
    (h : m.run s = (a, t)) (f : α → StateM σ β) : (m >>= f).run s = (f a).run t := by
  rw [StateT.run_bind, h]
  rfl

/-- A box between brackets is a label of one character. -/
theorem labelLength?_box {c : Char} {b : Bool} (hc : boxOf? c = some b) (r : List Char) :
    (labelLength? (skipToken [] maxNesting) true 1 1 (c :: ']' :: r)).run ∅ =
      (some 1, (∅ : Survey).insert 1 1) := by
  have hlength (survey : Survey) :
      (tokenLength (skipToken [] 199) [] 1 (c :: ']' :: r)).run survey = (1, survey) := by
    rcases boxOf?_cases hc with rfl | rfl | rfl <;> rfl
  have hskip : (skipToken [] maxNesting 1 (c :: ']' :: r)).run ∅ =
      (1, (∅ : Survey).insert 1 1) := by
    have hnone : (∅ : Survey)[1]? = none := by simp
    have hget : (get : StateM Survey Survey).run ∅ = (∅, ∅) := rfl
    rw [maxNesting, skipToken, run_bind_of_run_eq hget, hnone]
    exact run_bind_of_run_eq (hlength ∅) _
  have hclosing (survey : Survey) :
      (labelLength? (skipToken [] maxNesting) true 1 2 (']' :: r)).run survey =
        (some 0, survey) := by
    rw [labelLength?]
    rfl
  have hopening : c ≠ ']' ∧ c ≠ '[' := by rcases boxOf?_cases hc with rfl | rfl | rfl <;> decide
  rw [labelLength?]
  simp only [if_neg hopening.1, if_neg Nat.one_ne_zero]
  rw [run_bind_of_run_eq hskip]
  simp only [hopening.2]
  exact run_bind_of_run_eq (hclosing _) _

theorem linkScan?_box {c : Char} {b : Bool} {r : List Char} (hc : boxOf? c = some b)
    (hr : r.head? ≠ some '(') :
    (linkScan? (skipToken [] maxNesting) [] true 0 ('[' :: c :: ']' :: r)).run ∅ =
      (none, (∅ : Survey).insert 1 1) := by
  rw [linkScan?, Nat.zero_add, run_bind_of_run_eq (labelLength?_box hc r)]
  dsimp only
  split
  · next hafter => exact absurd (congrArg List.head? hafter) hr
  · rfl

/-- Where no parenthesis follows, a box in brackets is read as text. -/
theorem readPieces_box {c : Char} {b : Bool} {r : List Char} (hc : boxOf? c = some b)
    (hr : r.head? ≠ some '(') :
    (readPieces [] maxNesting ' ' 0 [] ('[' :: c :: ']' :: r)).run ∅ =
      (readPieces [] maxNesting ']' 3 [']', c, '['] r).run ((∅ : Survey).insert 1 1) := by
  have hbox : c ∉ constructChars := by
    rcases boxOf?_cases hc with rfl | rfl | rfl <;> decide
  have hopening : (readPieces [] maxNesting ' ' 0 [] ('[' :: c :: ']' :: r)).run ∅ =
      (readPieces [] maxNesting '[' 1 ['['] (c :: ']' :: r)).run ((∅ : Survey).insert 1 1) := by
    rw [readPieces.eq_def]
    exact run_bind_of_run_eq (linkScan?_box hc hr) _
  rw [hopening, readPieces_plain hbox, readPieces_plain (by decide)]

/-- After a blank nothing but a blank is shown. -/
theorem Shown.isSpace_head {r w : List Char} (h : Shown r w)
    (hr : ∀ d ∈ r.head?, isSpace d = true) : ∀ d ∈ w.head?, isSpace d = true := by
  cases h with
  | stop => rintro d ⟨⟩
  | @mark c h s v =>
    exfalso
    have hc := hr c rfl
    simp only [isSpace, Bool.or_eq_true, decide_eq_true_eq] at hc
    rcases hc with rfl | rfl <;> cases h
  | plain c h =>
    rintro d ⟨⟩
    exact hr c rfl
  | spelled hspelled h =>
    obtain ⟨d, tail, rfl, rfl | rfl⟩ := spelled?_head hspelled <;> cases hr _ rfl

/-- The marker that is taken off a line is the one that is written there, unless there is none and
other text is disguised as one. -/
theorem taskMarker?_readSpans {s : List Char} (hline : '\n' ∉ s) :
    (Node.taskMarker? (firstText (readSpans [] s))).map Prod.fst = writtenMarker? s ∨
      Disguised s := by
  cases hwritten : writtenMarker? s with
  | some b =>
    obtain ⟨c, r, rfl, hc, hr⟩ := writtenMarker?_eq_some_iff.mp hwritten
    have hparen : r.head? ≠ some '(' := fun hhead => by cases hr '(' hhead
    have hrest : '\n' ∉ r := fun hmem => hline (by simp [hmem])
    obtain ⟨w, hfirst, hw⟩ := shown_of_pending hrest ((∅ : Survey).insert 1 1)
    rw [readSpans, readPieces_box hc hparen, hfirst]
    exact .inl (taskMarker?_eq_some_iff.mpr ⟨c, w, rfl, hc, .inl (hw.isSpace_head hr)⟩)
  | none =>
    cases hmarker : (Node.taskMarker? (firstText (readSpans [] s))).map Prod.fst with
    | none => exact .inl rfl
    | some b =>
      have hsource := written_or_disguised (shown_readSpans hline) hline hmarker
      rw [hwritten] at hsource
      exact hsource.imp (fun h => h.symm) id

/-! ## White space at the end -/

section Trimming

variable {s blanks : List Char}

theorem Disguised.append (h : Disguised s) (hblanks : ∀ d ∈ blanks, isBlank d = true) :
    Disguised (s ++ blanks) := by
  cases h with
  | bracket h => exact .bracket (spelled?_append h blanks)
  | box hc h => exact .box hc (spelled?_append h blanks)
  | closing hc h => exact .closing hc (spelled?_append h blanks)
  | gap hc hd h => exact .gap hc hd (spelled?_append h blanks)
  | span hc hd s => exact .span hc hd (s ++ blanks)
  | trimmed hc hd h =>
    refine .trimmed hc hd fun e he => ?_
    exact (List.mem_append (s := _ :: _).mp he).elim (h e) (hblanks e)

theorem writtenMarker?_append (hblanks : ∀ d ∈ blanks, isBlank d = true) :
    writtenMarker? s = writtenMarker? (s ++ blanks) ∨ Disguised (s ++ blanks) := by
  have hnot (d : Char) (hd : isBlank d = false) : d ∉ blanks := fun hmem => by
    rw [hblanks d hmem] at hd
    cases hd
  cases hs : writtenMarker? s with
  | some b =>
    obtain ⟨c, r, rfl, hc, hr⟩ := writtenMarker?_eq_some_iff.mp hs
    have hkept (h : ∀ d ∈ (r ++ blanks).head?, isSpace d = true) :
        some b = writtenMarker? ('[' :: c :: ']' :: (r ++ blanks)) :=
      (writtenMarker?_eq_some_iff.mpr ⟨c, r ++ blanks, rfl, hc, h⟩).symm
    cases r with
    | cons d r => exact .inl (hkept hr)
    | nil =>
      cases blanks with
      | nil => exact .inl (hkept hr)
      | cons d blanks =>
        cases hd : isSpace d with
        | true => exact .inl (hkept (by rintro e ⟨⟩; exact hd))
        | false => exact .inr (.trimmed hc hd hblanks)
  | none =>
    refine .inl ?_
    cases hwhole : writtenMarker? (s ++ blanks) with
    | none => rfl
    | some b =>
      exfalso
      obtain ⟨c, r, heq, hc, hr⟩ := writtenMarker?_eq_some_iff.mp hwhole
      -- The blanks hold no bracket, so the brackets stand before them.
      rcases s with _ | ⟨x, _ | ⟨y, _ | ⟨z, r'⟩⟩⟩
      · obtain rfl : blanks = _ := heq
        exact hnot '[' rfl (by simp)
      · obtain rfl : blanks = _ := (List.cons.inj heq).2
        exact hnot ']' rfl (by simp)
      · obtain rfl : blanks = _ := (List.cons.inj (List.cons.inj heq).2).2
        exact hnot ']' rfl (by simp)
      · cases heq
        have hr' : ∀ d ∈ r'.head?, isSpace d = true := by
          cases r' with
          | nil => rintro d ⟨⟩
          | cons d r' => exact hr
        rw [writtenMarker?_eq_some_iff.mpr ⟨c, r', rfl, hc, hr'⟩] at hs
        cases hs

end Trimming

/-! ## Characters that are replaced -/

/-- The body of a reference has no character that is replaced. -/
theorem referenceBody?_cleaned {s name v : List Char}
    (h : referenceBody? (cleaned s) = some (name, v)) :
    ∃ rest, referenceBody? s = some (name, rest) ∧ v = cleaned rest := by
  have hsame : Char.isAlphanum ∘ (fun c => if c = '\x00' then '\uFFFD' else c) =
      Char.isAlphanum := by
    funext c
    by_cases hc : c = '\x00'
    · rw [hc]
      rfl
    · simp [hc]
  cases s with
  | nil => cases h
  | cons c s =>
    have hdrop : (cleaned s).dropWhile Char.isAlphanum = cleaned (s.dropWhile Char.isAlphanum) := by
      rw [cleaned, List.dropWhile_map, hsame, cleaned]
    have htake : (cleaned s).takeWhile Char.isAlphanum = s.takeWhile Char.isAlphanum := by
      rw [cleaned, List.takeWhile_map, hsame, ← cleaned]
      refine cleaned_of_not_mem fun hmem => ?_
      cases List.mem_takeWhile_imp hmem
    have hcons : cleaned (c :: s) = (if c = '\x00' then '\uFFFD' else c) :: cleaned s := rfl
    have hc : c ≠ '\x00' := by
      rintro rfl
      rw [hcons, if_pos rfl, referenceBody?] at h
      split at h
      · cases h
      · cases h
    rw [hcons, if_neg hc, referenceBody?, hdrop, htake] at h
    split at h
    · next v' hrest =>
      obtain ⟨rest, hbody, rfl⟩ := eq_cons_of_cleaned hrest (by decide)
      split at h
      · next hname =>
        cases h
        refine ⟨rest, ?_, rfl⟩
        rw [referenceBody?, hbody]
        exact if_pos hname
      · cases h
    · cases h

theorem spelled?_cleaned {cs s v : List Char} (h : spelled? (cleaned s) = some (cs, v)) :
    ∃ rest, spelled? s = some (cs, rest) := by
  unfold spelled? at h
  split at h
  · next d v' hs =>
    obtain ⟨s', rfl, hv⟩ := eq_cons_of_cleaned hs (by decide)
    split at h
    · next hd =>
      cases h
      have hplain : d ≠ '\uFFFD' := by
        rintro rfl
        cases hd
      obtain ⟨rest, rfl, -⟩ := eq_cons_of_cleaned hv hplain
      exact ⟨rest, by simp [spelled?, hd]⟩
    · cases h
  · next v' hs =>
    obtain ⟨s', rfl, rfl⟩ := eq_cons_of_cleaned hs (by decide)
    obtain ⟨name, hbody, hname⟩ := reference?_eq_some_iff.mp h
    obtain ⟨rest, hbody, -⟩ := referenceBody?_cleaned hbody
    exact ⟨rest, reference?_eq_some_iff.mpr ⟨name, hbody, hname⟩⟩
  · cases h

theorem boxOf?_replaced {c : Char} {b : Bool} (hc : boxOf? c = some b) : '\uFFFD' ≠ c := by
  rintro rfl
  cases hc

theorem isBlank_of_cleaned {s : List Char} (h : ∀ c ∈ cleaned s, isBlank c = true) :
    ∀ c ∈ s, isBlank c = true := by
  intro c hc
  have hmem := h _ (List.mem_map_of_mem hc)
  split at hmem
  · cases hmem
  · exact hmem

theorem isSpace_head_cleaned {s : List Char} :
    (∀ c ∈ (cleaned s).head?, isSpace c = true) ↔ ∀ c ∈ s.head?, isSpace c = true := by
  cases s with
  | nil => exact Iff.rfl
  | cons c s =>
    have hsame : isSpace (if c = '\x00' then '\uFFFD' else c) = isSpace c := by
      by_cases hc : c = '\x00'
      · rw [hc]
        rfl
      · rw [if_neg hc]
    simp [cleaned, hsame]

theorem writtenMarker?_cleaned (s : List Char) : writtenMarker? (cleaned s) = writtenMarker? s := by
  refine Option.ext fun b => ?_
  rw [writtenMarker?_eq_some_iff, writtenMarker?_eq_some_iff]
  constructor
  · rintro ⟨c, r, heq, hc, hr⟩
    obtain ⟨r, rfl, rfl⟩ := eq_append_of_cleaned (u := ['[', c, ']']) heq
      (by simp [boxOf?_replaced hc])
    exact ⟨c, r, rfl, hc, isSpace_head_cleaned.mp hr⟩
  · rintro ⟨c, r, rfl, hc, hr⟩
    have hnull : c ≠ '\x00' := by
      rintro rfl
      cases hc
    exact ⟨c, cleaned r, by simp [cleaned, hnull], hc, isSpace_head_cleaned.mpr hr⟩

/-- What is disguised once some characters are replaced is disguised as it is. -/
theorem Disguised.of_cleaned {s : List Char} (h : Disguised (cleaned s)) : Disguised s := by
  generalize hu : cleaned s = u at h
  cases h with
  | bracket h =>
    subst hu
    obtain ⟨rest, h⟩ := spelled?_cleaned h
    exact .bracket h
  | box hc h =>
    obtain ⟨s, rfl, rfl⟩ := eq_append_of_cleaned (u := ['[']) hu (by decide)
    obtain ⟨rest, h⟩ := spelled?_cleaned h
    exact .box hc h
  | @closing c b cs v rest hc h =>
    obtain ⟨s, rfl, rfl⟩ := eq_append_of_cleaned (u := ['[', c]) hu (by simp [boxOf?_replaced hc])
    obtain ⟨rest, h⟩ := spelled?_cleaned h
    exact .closing hc h
  | @gap c d b cs v rest hc hd h =>
    obtain ⟨s, rfl, rfl⟩ := eq_append_of_cleaned (u := ['[', c, ']']) hu
      (by simp [boxOf?_replaced hc])
    obtain ⟨rest, h⟩ := spelled?_cleaned h
    exact .gap hc hd h
  | @span c d b hc hd v =>
    have hopens : '\uFFFD' ≠ d := by
      rintro rfl
      cases hd
    obtain ⟨s, rfl, -⟩ := eq_append_of_cleaned (u := ['[', c, ']', d]) hu
      (by simp [boxOf?_replaced hc, hopens])
    exact .span hc hd s
  | @trimmed c d b v hc hd h =>
    obtain ⟨s, rfl, hs⟩ := eq_append_of_cleaned (u := ['[', c, ']']) hu
      (by simp [boxOf?_replaced hc])
    have hreplaced : d ≠ '\uFFFD' := by
      rintro rfl
      cases h _ List.mem_cons_self
    rw [← hs] at h
    obtain ⟨s, rfl, -⟩ := eq_cons_of_cleaned hs hreplaced
    exact .trimmed hc hd (isBlank_of_cleaned h)

end MarkdownWord.Markdown

namespace MarkdownWord
open Markdown Text

/-- The tree of a bulleted line that starts with a box in brackets, where no parenthesis follows. -/
theorem Node.ofMarkdown_box {c : Char} {b : Bool} {r : List Char} (hc : boxOf? c = some b)
    (hparen : r.head? ≠ some '(') (hreturn : '\r' ∉ r) (hline : '\n' ∉ r) (hnull : '\x00' ∉ r)
    (htrim : trimBlank ('[' :: c :: ']' :: r) = '[' :: c :: ']' :: r)
    (hlist : (readDocument ('-' :: ' ' :: '[' :: c :: ']' :: r)).blocks.any Block.isList = true)
    (hparagraph :
      (bulletReading ('[' :: c :: ']' :: r)).blocks.any Block.isParagraph = true) :
    ∃ cs, (ofMarkdown (String.ofList ('-' :: ' ' :: '[' :: c :: ']' :: r))).children =
      [.list false none [.item ((taskMarker? (firstText (resolve
        ((readPieces [] maxNesting ']' 3 [']', c, '['] r).run ((∅ : Survey).insert 1 1)).1))).map
          Prod.fst) [.paragraph cs]]] := by
  have hnot (d : Char) (hd : d ∉ ['[', ']', ' ', 'x', 'X']) (hr : d ∉ r) :
      d ∉ '[' :: c :: ']' :: r := by
    rcases boxOf?_cases hc with rfl | rfl | rfl <;> simp_all
  have hclean : cleaned ('[' :: c :: ']' :: r) = '[' :: c :: ']' :: r :=
    cleaned_of_not_mem (hnot _ (by decide) hnull)
  obtain ⟨cs, htree⟩ := ofMarkdown_bullet (hnot _ (by decide) hreturn) (hnot _ (by decide) hline)
    (by rintro d ⟨⟩; rfl) (List.cons_ne_nil _ _) hlist (by rwa [hclean])
  rw [hclean, htrim, readSpans, readPieces_box hc hparen] at htree
  exact ⟨cs, htree⟩

/-- The item of a bulleted line is checked or unchecked as the task marker at the start of the line
tells, and no task without such a marker, unless other text there is disguised as one. -/
theorem Node.checked_ofMarkdown {t : String} (hreturn : '\r' ∉ t.toList) (hline : '\n' ∉ t.toList)
    (hblank : ∀ c ∈ t.toList.head?, isBlank c = false) {ordered : Bool} {start : Option Int}
    {checked : Option Bool} {cs rest : List Node}
    (h : (ofMarkdown ("- " ++ t)).children =
      [.list ordered start [.item checked (.paragraph cs :: rest)]]) :
    checked = writtenMarker? t.toList ∨
      writtenMarker? t.toList = none ∧ Disguised t.toList := by
  have hbulleted : "- " ++ t = String.ofList ('-' :: ' ' :: t.toList) := by
    simp [String.ext_iff]
  rw [hbulleted] at h
  obtain ⟨blanks, hblanks, htrim⟩ := exists_trimBlank_append (isBlank_cleaned hblank)
  let s := trimBlank (cleaned t.toList)
  have hs : '\n' ∉ s := fun hmem => by
    have hcleaned : '\n' ∈ cleaned t.toList := htrim ▸ List.mem_append_left blanks hmem
    exact hline (mem_of_mem_cleaned hcleaned (by decide))
  have hread : checked = writtenMarker? s ∨ Disguised s := by
    rw [checked_bullet hreturn hline hblank h]
    exact taskMarker?_readSpans hs
  have hwhole : checked = writtenMarker? (cleaned t.toList) ∨ Disguised (cleaned t.toList) := by
    rw [← htrim]
    rcases hread with rfl | hdisguised
    · exact writtenMarker?_append hblanks
    · exact .inr (hdisguised.append hblanks)
  rw [writtenMarker?_cleaned] at hwhole
  refine hwhole.imp id fun hdisguised => ?_
  exact ⟨writtenMarker?_eq_none hdisguised.of_cleaned, hdisguised.of_cleaned⟩

theorem Node.checked_ofMarkdown_bold :
    ∃ cs, (ofMarkdown ("- " ++ "[x] **done**")).children =
        [.list false none [.item (some true) [.paragraph cs]]] ∧
      (some true = writtenMarker? "[x] **done**".toList ∨
        writtenMarker? "[x] **done**".toList = none ∧ Disguised "[x] **done**".toList) := by
  obtain ⟨cs, htree⟩ := ofMarkdown_box (c := 'x') (b := true) (r := " **done**".toList) rfl
    (by decide) (by decide) (by decide) (by decide) (by decide) (by decide +kernel)
    (by decide +kernel)
  have hmarker : (taskMarker? (firstText (resolve ((readPieces [] maxNesting ']' 3 [']', 'x', '[']
      " **done**".toList).run ((∅ : Survey).insert 1 1)).1))).map Prod.fst = some true := by
    decide +kernel
  rw [hmarker] at htree
  exact ⟨cs, htree, checked_ofMarkdown (by decide) (by decide) (by rintro c ⟨⟩; rfl) htree⟩

/-- Brackets right before bold text are no task marker, but they are taken for one. -/
theorem Node.checked_not_as_written :
    ¬ ∀ (t : String) (ordered : Bool) (start : Option Int) (checked : Option Bool)
        (cs rest : List Node), '\r' ∉ t.toList → '\n' ∉ t.toList →
      (∀ c ∈ t.toList.head?, isBlank c = false) →
      (ofMarkdown ("- " ++ t)).children =
        [.list ordered start [.item checked (.paragraph cs :: rest)]] →
      checked = writtenMarker? t.toList := by
  intro h
  obtain ⟨cs, htree⟩ := ofMarkdown_box (c := 'x') (b := true) (r := "**bold**".toList) rfl
    (by decide) (by decide) (by decide) (by decide) (by decide) (by decide +kernel)
    (by decide +kernel)
  have hmarker : (taskMarker? (firstText (resolve ((readPieces [] maxNesting ']' 3 [']', 'x', '[']
      "**bold**".toList).run ((∅ : Survey).insert 1 1)).1))).map Prod.fst = some true := by
    decide +kernel
  rw [hmarker] at htree
  cases h "[x]**bold**" _ _ _ _ _ (by decide) (by decide) (by rintro c ⟨⟩; rfl) htree

end MarkdownWord
