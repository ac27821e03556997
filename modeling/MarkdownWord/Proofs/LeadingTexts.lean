import MarkdownWord.Proofs.Delimiters
import MarkdownWord.Proofs.Pairings

/-!
# What stands before the first delimiter

Pairs of delimiters enclose spans, but the spans before the first delimiter stay where they are. The
piece after them stays too, or something opens in its place (`resolve_leading`). So the text at the
front of a row of pieces goes as far as its pieces do, unless a delimiter after them is text as well
(`begins_resolve`).
-/

namespace MarkdownWord.Markdown

/-! ## Marks -/

/-- Marks of which those before place `k` are as they were, and the one there is as it was or opens
something. -/
structure Intact (k : Nat) (marks marks' : Array Mark) : Prop where
  size : marks'.size = marks.size
  before : ∀ i < k, marks'[i]? = marks[i]?
  first : marks'[k]? = marks[k]? ∨ ∃ e, marks'[k]? = some (.opening e)

namespace Intact

variable {k i : Nat} {marks marks' : Array Mark}

theorem refl (k : Nat) (marks : Array Mark) : Intact k marks marks := ⟨rfl, fun _ _ => rfl, .inl rfl⟩

theorem set_after (h : Intact k marks marks') (hi : k < i) (m : Mark) :
    Intact k marks (marks'.setIfInBounds i m) where
  size := by rw [Array.size_setIfInBounds, h.size]
  before j hj := by
    rw [Array.getElem?_setIfInBounds_ne (Nat.ne_of_gt (Nat.lt_trans hj hi)), h.before j hj]
  first := by
    rw [Array.getElem?_setIfInBounds_ne (Nat.ne_of_gt hi)]
    exact h.first

theorem set_opening (h : Intact k marks marks') (hi : k ≤ i) (e : Enclosure) :
    Intact k marks (marks'.setIfInBounds i (.opening e)) := by
  rcases Nat.lt_or_eq_of_le hi with hlt | rfl
  · exact h.set_after hlt _
  refine ⟨by rw [Array.size_setIfInBounds, h.size], fun j hj => ?_, ?_⟩
  · rw [Array.getElem?_setIfInBounds_ne (Nat.ne_of_gt hj), h.before j hj]
  · by_cases hk : k < marks'.size
    · exact .inr ⟨e, Array.getElem?_setIfInBounds_self_of_lt hk⟩
    · rw [Array.setIfInBounds_eq_of_size_le (Nat.le_of_not_lt hk)]
      exact h.first

end Intact

variable {k low high : Nat} {es : Array Entry} {marks marks' : Array Mark}

/-- Entries that are paired with later ones only. -/
def Forward (es : Array Entry) : Prop :=
  ∀ i j, (es.getD i default).partner = some j → i < j ∧ j < es.size

theorem getElem?_of_getD_oddTilde {i : Nat} (h : marks.getD i default = .oddTilde) :
    marks[i]? = some .oddTilde := by
  rw [Array.getD_eq_getD_getElem?] at h
  cases hi : marks[i]? with
  | none =>
    rw [hi] at h
    cases h
  | some m =>
    rw [hi] at h
    exact congrArg some h

theorem markStrikes_intact (hplaced : Placed low high es) (hpartner : Forward es) (hk : k ≤ low)
    (hodd : k < low ∨ marks[k]? ≠ some .oddTilde) :
    Intact k marks (markStrikes es marks).1 ∧ ∀ i ∈ (markStrikes es marks).2, k < i := by
  unfold markStrikes
  refine Array.foldl_induction
    (motive := fun _ (acc : Array Mark × List Nat) => Intact k marks acc.1 ∧ ∀ i ∈ acc.2, k < i)
    ⟨.refl k marks, fun _ hi => absurd hi List.not_mem_nil⟩ ?_
  rintro i ⟨marks', odd⟩ ⟨hintact, hfound⟩
  have hget : es[i] = es.getD i default := by simp [Array.getD]
  dsimp only
  rw [hget]
  split
  · next j _ hj =>
    obtain ⟨hij, hjs⟩ := hpartner i j hj
    have hlow := hplaced.low i i.isLt
    have hrise := hplaced.rising i j hij hjs
    have hboth := (hintact.set_opening (Nat.le_trans hk hlow) .strike).set_after
      (Nat.lt_of_le_of_lt (Nat.le_trans hk hlow) hrise) (.closing .strike)
    split
    · next htilde =>
      refine ⟨hboth, List.forall_mem_cons.mpr ⟨?_, hfound⟩⟩
      -- The odd tilde stands before a closing pair, so it is not the mark at place `k`.
      by_contra hle
      have hfirst : (es.getD j default).place - 1 = k := by omega
      rw [hfirst] at htilde
      have hkept : marks[k]? ≠ some .oddTilde := hodd.resolve_left (by omega)
      rcases hboth.first with hsame | ⟨e, hopening⟩
      · exact hkept (hsame ▸ getElem?_of_getD_oddTilde htilde)
      · rw [getElem?_of_getD_oddTilde htilde] at hopening
        cases hopening
    · exact ⟨hboth, hfound⟩
  · exact ⟨hintact, hfound⟩

theorem moveOddTilde_intact (h : Intact k marks marks') {i : Nat} (hi : k < i) :
    Intact k marks (moveOddTilde marks' i) :=
  (h.set_after hi _).set_after (Nat.lt_of_lt_of_le hi (Nat.le_add_right _ _)) _

/-- What the marks before place `k` and the one there have become in the end: as it was, opening
something, or empty before something that opens. -/
structure Settled (k : Nat) (marks marks' : Array Mark) : Prop where
  before : ∀ i < k, marks'[i]? = marks[i]?
  first : marks'[k]? = marks[k]? ∨ (∃ e, marks'[k]? = some (.opening e)) ∨
    marks'[k]? = some (.span (.text [])) ∧ ∃ e, marks'[k + 1]? = some (.opening e)

theorem markEmphasis_settled (hplaced : Placed k marks.size es) (hpartner : Forward es) {n : Nat}
    (hn : n ≤ es.size) (h : Intact k marks marks') :
    Settled k marks (markEmphasis es n marks') := by
  fun_induction markEmphasis es n marks' with
  | case1 marks' => exact ⟨h.before, h.first.imp id .inl⟩
  | case2 n marks' e j hj _ close outer outerClose hnested marks₁ marks₂ ih =>
    simp only [Bool.and_eq_true, decide_eq_true_eq, beq_iff_eq] at hnested
    obtain ⟨⟨⟨⟨hpos, hpartner'⟩, -⟩, hplace⟩, hclose⟩ := hnested
    obtain ⟨hij, hjs⟩ := hpartner n j hj
    obtain ⟨-, hjs'⟩ := hpartner (n - 1) (j + 1) hpartner'
    have hrise : e.place < close.place := hplaced.rising n j hij hjs
    have hlow : k ≤ outer.place := hplaced.low (n - 1) (by omega)
    rcases Nat.lt_or_eq_of_le hlow with hlt | heq
    · refine ih (by omega) ?_
      exact ((((h.set_after (by omega) _).set_after (by omega) _).set_after hlt _).set_after
        (by omega) _)
    -- The outer pair opens at place `k`, so it belongs to the first delimiter of all.
    have hlast : n - 1 = 0 := by
      by_contra hne
      have hfirst := hplaced.rising 0 (n - 1) (by omega) (by omega)
      have hlow' := hplaced.low 0 (by omega)
      have houter : (es.getD (n - 1) default).place = k := heq.symm
      omega
    have hinside : e.place < marks'.size := by
      rw [h.size]
      exact hplaced.high n hn
    rw [hlast, markEmphasis]
    refine ⟨fun i hi => ?_, .inr (.inr ⟨?_, .strong, ?_⟩)⟩
    · simp only [marks₂, marks₁]
      rw [Array.getElem?_setIfInBounds_ne (by omega), Array.getElem?_setIfInBounds_ne (by omega),
        Array.getElem?_setIfInBounds_ne (by omega), Array.getElem?_setIfInBounds_ne (by omega),
        h.before i hi]
    · simp only [marks₂]
      rw [Array.getElem?_setIfInBounds_ne (by omega), heq]
      refine Array.getElem?_setIfInBounds_self_of_lt ?_
      simp only [marks₁, Array.size_setIfInBounds]
      omega
    · have hnext : k + 1 = e.place := by omega
      simp only [marks₂, marks₁]
      rw [Array.getElem?_setIfInBounds_ne (by omega), Array.getElem?_setIfInBounds_ne (by omega),
        Array.getElem?_setIfInBounds_ne (by omega), hnext]
      exact Array.getElem?_setIfInBounds_self_of_lt hinside
  | case3 n marks' e j hj _ close outer outerClose _ ih =>
    obtain ⟨hij, hjs⟩ := hpartner n j hj
    have hrise := hplaced.rising n j hij hjs
    have hlow := hplaced.low n hn
    refine ih (Nat.le_of_succ_le hn) ?_
    exact (h.set_opening hlow .emphasis).set_after (Nat.lt_of_le_of_lt hlow hrise) _
  | case4 n marks' e _ ih => exact ih (Nat.le_of_succ_le hn) h

/-! ## Nesting -/

theorem nest_spans (before spans : List Span) (marks : List Mark) :
    nest [] before (spans.map .span ++ marks) = nest [] (spans.reverse ++ before) marks := by
  induction spans generalizing before with
  | nil => rfl
  | cons s spans ih => simp [nest, ih]

/-- The spans before the first thing that is open stay at the front, and what is open encloses the
spans after them. -/
theorem nest_front (marks : List Mark) :
    (∀ before, ∃ later, nest [] before marks = joinTexts (before.reverse ++ later)) ∧
    ∀ outer e before spans, ∃ inner later, nest (outer ++ [(e, before)]) spans marks =
      joinTexts (before.reverse ++ Enclosure.span e inner :: later) := by
  induction marks with
  | nil =>
    refine ⟨fun before => ⟨[], by simp [nest]⟩, fun outer e before spans => ?_⟩
    rw [nest, List.foldl_append]
    exact ⟨_, [], by simp; rfl⟩
  | cons m marks ih =>
    obtain ⟨ihfront, ihopen⟩ := ih
    cases m with
    | span s =>
      refine ⟨fun before => ?_, fun outer e before spans => ?_⟩
      · obtain ⟨later, hlater⟩ := ihfront (s :: before)
        exact ⟨s :: later, by rw [nest, hlater]; simp⟩
      · obtain ⟨inner, later, h⟩ := ihopen outer e before (s :: spans)
        exact ⟨inner, later, by rw [nest, h]⟩
    | oddTilde =>
      refine ⟨fun before => ?_, fun outer e before spans => ?_⟩
      · obtain ⟨later, hlater⟩ := ihfront (.text ['~'] :: before)
        exact ⟨.text ['~'] :: later, by rw [nest, hlater]; simp⟩
      · obtain ⟨inner, later, h⟩ := ihopen outer e before (.text ['~'] :: spans)
        exact ⟨inner, later, by rw [nest, h]⟩
    | opening e' =>
      refine ⟨fun before => ?_, fun outer e before spans => ?_⟩
      · obtain ⟨inner, later, h⟩ := ihopen [] e' before []
        exact ⟨e'.span inner :: later, by rw [nest]; exact h⟩
      · obtain ⟨inner, later, h⟩ := ihopen ((e', spans) :: outer) e before []
        exact ⟨inner, later, by rw [nest]; exact h⟩
    | closing e' =>
      refine ⟨fun before => ?_, fun outer e before spans => ?_⟩
      · obtain ⟨later, hlater⟩ := ihfront before
        exact ⟨later, by rw [nest, hlater]⟩
      · cases outer with
        | nil =>
          obtain ⟨later, hlater⟩ := ihfront (e.span (joinTexts spans.reverse) :: before)
          exact ⟨joinTexts spans.reverse, later, by rw [List.nil_append, nest, hlater]; simp⟩
        | cons o outer =>
          obtain ⟨inner, later, h⟩ :=
            ihopen outer e before (o.1.span (joinTexts spans.reverse) :: o.2)
          exact ⟨inner, later, by rw [List.cons_append, nest, h]⟩

/-! ## Pieces -/

/-- The span that a piece is where it is not paired. -/
def Piece.shown : Piece → Span
  | .span s => s
  | .delimiter d => .text d.text
  | .oddTilde => .text ['~']

/-- What the first piece after some spans may become: what it is on its own, or something enclosed,
maybe after an empty text. -/
inductive Piece.Becomes (p : Piece) : List Span → Prop
  | kept (later : List Span) : p.Becomes (p.shown :: later)
  | enclosed (e : Enclosure) (inner later : List Span) : p.Becomes (e.span inner :: later)
  | emptied (e : Enclosure) (inner later : List Span) :
      p.Becomes (.text [] :: e.span inner :: later)

/-- A piece is read on from its mark, or from the mark that has taken its place. -/
theorem nest_becomes (p : Piece) (before : List Span) (m : Mark) (marks : List Mark)
    (h : m = Mark.ofPiece p ∨ (∃ e, m = .opening e) ∨
      m = .span (.text []) ∧ ∃ e, marks.head? = some (.opening e)) :
    ∃ later, nest [] before (m :: marks) = joinTexts (before.reverse ++ later) ∧
      p.Becomes later := by
  have hspan (s : Span) (later : List Span) (before : List Span) :
      (s :: before).reverse ++ later = before.reverse ++ s :: later := by simp
  rcases h with rfl | ⟨e, rfl⟩ | ⟨rfl, e, hopen⟩
  · obtain ⟨later, hlater⟩ := (nest_front marks).1 (p.shown :: before)
    refine ⟨p.shown :: later, ?_, .kept later⟩
    rw [← hspan, ← hlater]
    cases p <;> rfl
  · obtain ⟨inner, later, hlater⟩ := (nest_front marks).2 [] e before []
    exact ⟨_, hlater, .enclosed e inner later⟩
  · obtain ⟨rest, rfl⟩ : ∃ rest, marks = .opening e :: rest := by
      cases marks with
      | nil => cases hopen
      | cons m rest => exact ⟨rest, by rw [Option.some.inj hopen]⟩
    obtain ⟨inner, later, hlater⟩ := (nest_front rest).2 [] e (.text [] :: before) []
    rw [hspan] at hlater
    exact ⟨_, hlater, .emptied e inner later⟩

/-- The marks that are nested in the end are settled where the spans at the front of a row end. -/
theorem resolve_settled (spans : List Span) (p : Piece) (rest : List Piece) :
    ∃ marks : Array Mark, resolve (spans.map .span ++ p :: rest) = nest [] [] marks.toList ∧
      Settled spans.length ((spans.map Piece.span ++ p :: rest).map Mark.ofPiece).toArray marks := by
  let pieces := spans.map Piece.span ++ p :: rest
  let k := spans.length
  let es := Pairing.run pieces
  let marks := (pieces.map Mark.ofPiece).toArray
  have hpaired : Paired (entries pieces) es := Pairing.run_paired pieces
  have hforward : Forward es := fun i j h => hpaired.size ▸ hpaired.partner i j h
  have hentries := toList_entries_append spans (p :: rest)
  have hplaced : Placed k marks.size es := by
    have hsize : marks.size = k + (p :: rest).length := by simp [marks, pieces, k]
    rw [hsize]
    exact (placed_of_toList hentries).paired hpaired
  have hmark : marks[k]? = some (Mark.ofPiece p) := by simp [marks, pieces, k]
  have hstrikes : Intact k marks (markStrikes es marks).1 ∧
      ∀ i ∈ (markStrikes es marks).2, k < i := by
    by_cases htilde : Mark.ofPiece p = .oddTilde
    · -- An odd tilde has no entry, so all entries stand behind it.
      have hp : p = .oddTilde := by cases p <;> first | rfl | cases htilde
      have hbehind : Placed (k + 1) (k + 1 + rest.length) es := by
        refine (placed_of_toList ?_).paired hpaired
        rw [hentries, hp]
        rfl
      exact markStrikes_intact hbehind hforward (Nat.le_succ k) (.inl (Nat.lt_succ_self k))
    · refine markStrikes_intact hplaced hforward (Nat.le_refl k) (.inr ?_)
      rw [hmark]
      exact fun h => htilde (Option.some.inj h)
  have hmoved (odd : List Nat) (hodd : ∀ i ∈ odd, k < i) {marks' : Array Mark}
      (h : Intact k marks marks') : Intact k marks (odd.foldl moveOddTilde marks') := by
    induction odd generalizing marks' with
    | nil => exact h
    | cons i odd ih =>
      obtain ⟨hi, hodd⟩ := List.forall_mem_cons.mp hodd
      exact ih hodd (moveOddTilde_intact h hi)
  exact ⟨_, rfl, markEmphasis_settled hplaced hforward (Nat.le_refl es.size)
    (hmoved _ hstrikes.2 hstrikes.1)⟩

/-- The spans at the front of a row stay there, and the piece after them is what comes next. -/
theorem resolve_leading (spans : List Span) (p : Piece) (rest : List Piece) :
    ∃ later, resolve (spans.map .span ++ p :: rest) = joinTexts (spans ++ later) ∧
      p.Becomes later := by
  obtain ⟨marks, hresolve, hbefore, hfirst⟩ := resolve_settled spans p rest
  have hmarks : (spans.map Piece.span ++ p :: rest).map Mark.ofPiece =
      spans.map Mark.span ++ Mark.ofPiece p :: rest.map Mark.ofPiece := by
    rw [List.map_append, List.map_map]
    rfl
  rw [hmarks] at hbefore hfirst
  simp only [← Array.getElem?_toList] at hbefore hfirst
  let k := spans.length
  have hlength : (spans.map Mark.span).length = k := List.length_map _
  have hmark : (spans.map Mark.span ++ Mark.ofPiece p :: rest.map Mark.ofPiece)[k]? =
      some (Mark.ofPiece p) := by
    rw [List.getElem?_append_right (Nat.le_of_eq hlength), hlength, Nat.sub_self]
    rfl
  have hfront : marks.toList.take k = spans.map .span := by
    refine List.ext_getElem? fun i => ?_
    by_cases hi : i < k
    · rw [List.getElem?_take_of_lt hi, hbefore i hi, List.getElem?_append_left (hlength ▸ hi)]
    · rw [List.getElem?_take, if_neg hi, List.getElem?_eq_none (hlength ▸ Nat.le_of_not_lt hi)]
  rw [hmark] at hfirst
  obtain ⟨m, later, hback⟩ : ∃ m later, marks.toList.drop k = m :: later := by
    cases hdrop : marks.toList.drop k with
    | cons m later => exact ⟨m, later, rfl⟩
    | nil =>
      have hnone : marks.toList[k]? = none := by rw [← List.head?_drop, hdrop]; rfl
      simp [hnone, k] at hfirst
  have hat : marks.toList[k]? = some m := by rw [← List.head?_drop, hback]; rfl
  have hafter : marks.toList[k + 1]? = later.head? := by
    rw [← List.head?_drop, ← List.drop_drop, hback]
    rfl
  have hwhole : marks.toList = spans.map .span ++ m :: later := by
    rw [← hfront, ← hback, List.take_append_drop]
  rw [hat, hafter] at hfirst
  simp only [Option.some_inj] at hfirst
  obtain ⟨after, hnest, hbecomes⟩ := nest_becomes p spans.reverse m later hfirst
  refine ⟨after, ?_, hbecomes⟩
  rw [hresolve, hwhole, nest_spans, List.append_nil, hnest, List.reverse_reverse]

/-! ## Pieces that stay apart -/

/-- Whether a piece is a delimiter that can close. -/
def Piece.closes : Piece → Bool
  | .delimiter d => d.closes
  | _ => false

theorem markStrikes_unpaired (h : ∀ i, (es.getD i default).partner = none) (marks : Array Mark) :
    markStrikes es marks = (marks, []) := by
  unfold markStrikes
  refine Array.foldl_induction (motive := fun _ acc => acc = (marks, [])) rfl ?_
  rintro i acc rfl
  have hnone : es[i].partner = none := by simpa [Array.getD] using h i
  dsimp only
  rw [hnone]
  split
  · next hsome => cases hsome
  · rfl

theorem markEmphasis_unpaired (h : ∀ i, (es.getD i default).partner = none) (n : Nat)
    (marks : Array Mark) : markEmphasis es n marks = marks := by
  fun_induction markEmphasis es n marks with
  | case1 => rfl
  | case2 n _ _ j hj => rw [h n] at hj; cases hj
  | case3 n _ _ j hj => rw [h n] at hj; cases hj
  | case4 _ _ _ _ ih => exact ih

theorem nest_pieces (pieces : List Piece) (before : List Span) :
    nest [] before (pieces.map Mark.ofPiece) =
      joinTexts (before.reverse ++ pieces.map Piece.shown) := by
  induction pieces generalizing before with
  | nil => simp [nest]
  | cons p pieces ih => cases p <;> simp [nest, Mark.ofPiece, Piece.shown, ih]

/-- Where no delimiter closes, pieces are only joined. -/
theorem resolve_of_not_closes {pieces : List Piece} (h : ∀ p ∈ pieces, p.closes = false) :
    resolve pieces = joinTexts (pieces.map Piece.shown) := by
  have hcloses : ∀ i, ((entries pieces).getD i default).closes = false := by
    refine entries_have (P := fun e => e.closes = false) rfl fun p hp i e he => ?_
    cases p with
    | delimiter d => cases he; exact h _ hp
    | _ => cases he
  unfold resolve
  rw [Pairing.run_of_not_closes hcloses]
  dsimp only
  rw [markStrikes_unpaired (partner_entries pieces), List.foldl_nil,
    markEmphasis_unpaired (partner_entries pieces), List.toList_toArray, nest_pieces,
    List.reverse_nil, List.nil_append]

theorem resolve_of_spans (spans : List Span) : resolve (spans.map .span) = joinTexts spans := by
  have hspans : ∀ p ∈ spans.map Piece.span, p.closes = false :=
    List.forall_mem_map.mpr fun _ _ => rfl
  rw [resolve_of_not_closes hspans, List.map_map]
  exact congrArg joinTexts (List.map_id spans)

/-! ## Texts -/

/-- The text that some spans start with. -/
def firstText : List Span → List Char
  | .text s :: _ => s
  | _ => []

theorem firstText_joinTexts (us : List (List Char)) (spans : List Span) :
    firstText (joinTexts (us.map .text ++ spans)) = us.flatten ++ firstText (joinTexts spans) := by
  induction us with
  | nil => rfl
  | cons u us ih =>
    rw [List.map_cons, List.cons_append, joinTexts, List.flatten_cons, List.append_assoc, ← ih]
    split
    · next t rest heq => rw [heq]; rfl
    · next rest hne =>
      have hnone : firstText (joinTexts (us.map .text ++ spans)) = [] := by
        unfold firstText
        split
        · next t rest heq => exact absurd heq (hne t rest)
        · rfl
      rw [hnone, List.append_nil]
      split
      · next hu => rw [hnone, List.isEmpty_iff.mp hu]
      · rfl

theorem firstText_of_not_text {s : Span} (h : ∀ t, s ≠ .text t) (spans : List Span) :
    firstText (joinTexts (s :: spans)) = [] := by
  cases s with
  | text t => exact absurd rfl (h t)
  | _ => rfl

/-- A text that some pieces may start with when they are resolved: that of the texts at their front
and, where a delimiter or odd tilde follows them, maybe more that starts with it. -/
inductive Begins : List Piece → List Char → Prop
  | nil : Begins [] []
  | text {s v : List Char} {ps : List Piece} (h : Begins ps v) :
      Begins (.span (.text s) :: ps) (s ++ v)
  | stop {p : Piece} {ps : List Piece} (h : ∀ s, p ≠ .span (.text s)) : Begins (p :: ps) []
  | mark {p : Piece} {ps : List Piece} {w : List Char} (hspan : ∀ s, p ≠ .span s)
      (hshown : p.shown = .text w) (v : List Char) : Begins (p :: ps) (w ++ v)

theorem Begins.texts {ps : List Piece} {v : List Char} (h : Begins ps v) (us : List (List Char)) :
    Begins (us.map (fun u => .span (.text u)) ++ ps) (us.flatten ++ v) := by
  induction us with
  | nil => exact h
  | cons u us ih =>
    rw [List.flatten_cons, List.append_assoc]
    exact .text ih

theorem exists_leading (pieces : List Piece) :
    ∃ us : List (List Char), pieces = us.map (fun u => .span (.text u)) ∨
      ∃ p rest, pieces = us.map (fun u => .span (.text u)) ++ p :: rest ∧
        ∀ s, p ≠ .span (.text s) := by
  induction pieces with
  | nil => exact ⟨[], .inl rfl⟩
  | cons p pieces ih =>
    by_cases htext : ∃ s, p = .span (.text s)
    · obtain ⟨s, rfl⟩ := htext
      obtain ⟨us, h | ⟨q, rest, h, hq⟩⟩ := ih
      · exact ⟨s :: us, .inl (by rw [h]; rfl)⟩
      · exact ⟨s :: us, .inr ⟨q, rest, by rw [h]; rfl, hq⟩⟩
    · exact ⟨[], .inr ⟨p, pieces, rfl, fun s hs => htext ⟨s, hs⟩⟩⟩

theorem map_span_text (us : List (List Char)) :
    us.map (fun u => Piece.span (.text u)) = (us.map .text).map .span := by
  rw [List.map_map]
  rfl

/-- What pieces are resolved to starts with a text that they may start with. -/
theorem begins_resolve (pieces : List Piece) : Begins pieces (firstText (resolve pieces)) := by
  have henclosure (e : Enclosure) (inner : List Span) (t : List Char) :
      e.span inner ≠ .text t := by cases e <;> simp [Enclosure.span]
  obtain ⟨us, rfl | ⟨p, rest, rfl, hp⟩⟩ := exists_leading pieces
  · have htexts := Begins.nil.texts us
    have hfirst := firstText_joinTexts us []
    rw [List.append_nil] at htexts hfirst
    rw [map_span_text, resolve_of_spans, hfirst, ← map_span_text]
    exact htexts
  · obtain ⟨later, hresolve, hbecomes⟩ := resolve_leading (us.map .text) p rest
    rw [map_span_text, hresolve, firstText_joinTexts, ← map_span_text]
    refine Begins.texts ?_ us
    cases hbecomes with
    | kept later =>
      by_cases hspan : ∃ s, p = .span s
      · obtain ⟨s, rfl⟩ := hspan
        have hs : ∀ t, s ≠ .text t := fun t ht => hp t (congrArg Piece.span ht)
        exact firstText_of_not_text hs later ▸ .stop hp
      · obtain ⟨w, hw⟩ : ∃ w, p.shown = .text w := by
          cases p with
          | span s => exact absurd ⟨s, rfl⟩ hspan
          | _ => exact ⟨_, rfl⟩
        have hfirst := firstText_joinTexts [w] later
        rw [List.map_singleton, List.singleton_append, ← hw] at hfirst
        rw [hfirst, List.flatten_singleton]
        exact .mark (fun s hs => hspan ⟨s, hs⟩) hw _
    | enclosed e inner later =>
      exact firstText_of_not_text (henclosure e inner) later ▸ .stop hp
    | emptied e inner later =>
      have hfirst := firstText_joinTexts [[]] (e.span inner :: later)
      rw [firstText_of_not_text (henclosure e inner) later] at hfirst
      exact hfirst ▸ .stop hp

end MarkdownWord.Markdown
