import MarkdownWord.Markdown.Delimiter

/-!
# What pairing delimiters keeps

Pairing delimiters moves spans about, joins texts and encloses spans in emphasis. A property that
texts have anyway, and enclosures if the spans inside have it, is kept by all of it (`resolve_keeps`).
-/

namespace MarkdownWord.Markdown

/-- A property of spans that holds for every text, and for an enclosure of spans that have it. -/
structure Inherited (P : Span → Prop) : Prop where
  text : ∀ s, P (.text s)
  enclosure : ∀ e spans, (∀ s ∈ spans, P s) → P (Enclosure.span e spans)

/-- A mark whose span, if it is one, has a property. -/
def Mark.Holds (P : Span → Prop) : Mark → Prop
  | .span s => P s
  | _ => True

/-- A piece whose span, if it is one, has a property. -/
def Piece.Holds (P : Span → Prop) : Piece → Prop
  | .span s => P s
  | _ => True

variable {P : Span → Prop}

theorem joinTexts_keeps (hP : Inherited P) {spans : List Span} (h : ∀ s ∈ spans, P s) :
    ∀ s ∈ joinTexts spans, P s := by
  fun_induction joinTexts spans with
  | case1 => simp
  | case2 s rest t later heq ih =>
    have hlater := ih fun x hx => h x (List.mem_cons_of_mem _ hx)
    rw [heq] at hlater
    intro x hx
    rcases List.mem_cons.mp hx with rfl | hx
    · exact hP.text _
    · exact hlater x (List.mem_cons_of_mem _ hx)
  | case3 s rest _ _ ih => exact ih fun x hx => h x (List.mem_cons_of_mem _ hx)
  | case4 s rest _ _ ih =>
    have hrest := ih fun x hx => h x (List.mem_cons_of_mem _ hx)
    intro x hx
    rcases List.mem_cons.mp hx with rfl | hx
    · exact hP.text _
    · exact hrest x hx
  | case5 span rest _ ih =>
    have hrest := ih fun x hx => h x (List.mem_cons_of_mem _ hx)
    intro x hx
    rcases List.mem_cons.mp hx with rfl | hx
    · exact h _ List.mem_cons_self
    · exact hrest x hx

/-! ## Marks -/

/-- Marks whose spans have a property. -/
def AllHold (P : Span → Prop) (marks : Array Mark) : Prop := ∀ m ∈ marks, m.Holds P

theorem AllHold.getD (hP : Inherited P) {marks : Array Mark} (h : AllHold P marks) (i : Nat) :
    (marks.getD i default).Holds P := by
  rw [Array.getD_eq_getD_getElem?]
  cases hi : marks[i]? with
  | none => exact hP.text _
  | some m => exact h m (Array.mem_of_getElem? hi)

theorem AllHold.set {marks : Array Mark} (h : AllHold P marks) {i : Nat} {m : Mark}
    (hm : m.Holds P) : AllHold P (marks.setIfInBounds i m) := by
  intro x hx
  rcases Array.mem_or_eq_of_mem_setIfInBounds hx with hx | rfl
  · exact h x hx
  · exact hm

theorem AllHold.markStrikes (es : Array Entry) {marks : Array Mark} (h : AllHold P marks) :
    AllHold P (markStrikes es marks).1 := by
  unfold Markdown.markStrikes
  refine Array.foldl_induction (motive := fun _ (acc : Array Mark × List Nat) => AllHold P acc.1) h ?_
  rintro i ⟨marks, odd⟩ hmarks
  dsimp only
  split
  · next j _ _ =>
    have hopening : (Mark.opening .strike).Holds P := trivial
    have hclosing : (Mark.closing .strike).Holds P := trivial
    split <;> exact (hmarks.set hopening).set hclosing
  · exact hmarks

theorem AllHold.moveOddTilde (hP : Inherited P) {marks : Array Mark} (h : AllHold P marks) (i : Nat) :
    AllHold P (moveOddTilde marks i) :=
  (h.set (h.getD hP _)).set (h.getD hP _)

theorem AllHold.markEmphasis (hP : Inherited P) (es : Array Entry) (n : Nat) {marks : Array Mark}
    (h : AllHold P marks) : AllHold P (markEmphasis es n marks) := by
  have hopening (e : Enclosure) : (Mark.opening e).Holds P := trivial
  have hclosing (e : Enclosure) : (Mark.closing e).Holds P := trivial
  have hempty : (Mark.span (.text [])).Holds P := hP.text []
  fun_induction Markdown.markEmphasis es n marks with
  | case1 marks => exact h
  | case2 n marks e j _ _ close outer outerClose _ marks' marks'' ih =>
    exact ih ((((h.set (hopening _)).set (hclosing _)).set hempty).set hempty)
  | case3 n marks e j _ _ close outer outerClose _ ih =>
    exact ih ((h.set (hopening _)).set (hclosing _))
  | case4 n marks e _ ih => exact ih h

theorem joinTexts_reverse_keeps (hP : Inherited P) {spans : List Span} (h : ∀ s ∈ spans, P s) :
    ∀ s ∈ joinTexts spans.reverse, P s :=
  joinTexts_keeps hP fun s hs => h s (List.mem_reverse.mp hs)

theorem nest_keeps (hP : Inherited P) (outer : List (Enclosure × List Span)) (spans : List Span)
    (marks : List Mark) (houter : ∀ o ∈ outer, ∀ s ∈ o.2, P s) (hspans : ∀ s ∈ spans, P s)
    (hmarks : ∀ m ∈ marks, m.Holds P) : ∀ s ∈ nest outer spans marks, P s := by
  fun_induction nest outer spans marks with
  | case1 outer spans =>
    refine joinTexts_keeps hP fun s hs => ?_
    rw [List.mem_reverse] at hs
    clear hmarks
    induction outer generalizing spans with
    | nil => exact hspans s hs
    | cons o outer ih =>
      obtain ⟨ho, houter⟩ := List.forall_mem_cons.mp houter
      have hspan := hP.enclosure o.1 _ (joinTexts_reverse_keeps hP hspans)
      exact ih _ houter (List.forall_mem_cons.mpr ⟨hspan, ho⟩) hs
  | case2 outer spans s rest ih =>
    obtain ⟨hs, hrest⟩ := List.forall_mem_cons.mp hmarks
    exact ih houter (List.forall_mem_cons.mpr ⟨hs, hspans⟩) hrest
  | case3 outer spans rest ih =>
    obtain ⟨-, hrest⟩ := List.forall_mem_cons.mp hmarks
    exact ih houter (List.forall_mem_cons.mpr ⟨hP.text _, hspans⟩) hrest
  | case4 outer spans e rest ih =>
    obtain ⟨-, hrest⟩ := List.forall_mem_cons.mp hmarks
    exact ih (List.forall_mem_cons.mpr ⟨hspans, houter⟩) (fun _ hs => absurd hs List.not_mem_nil)
      hrest
  | case5 spans _ rest e before outer ih =>
    obtain ⟨-, hrest⟩ := List.forall_mem_cons.mp hmarks
    obtain ⟨hbefore, houter⟩ := List.forall_mem_cons.mp houter
    have hspan := hP.enclosure e _ (joinTexts_reverse_keeps hP hspans)
    exact ih houter (List.forall_mem_cons.mpr ⟨hspan, hbefore⟩) hrest
  | case6 spans _ rest ih =>
    obtain ⟨-, hrest⟩ := List.forall_mem_cons.mp hmarks
    exact ih houter hspans hrest

/-- A property that texts and enclosures have is kept when the delimiters of a row of pieces are
paired, where an enclosure may have it from the spans inside. -/
theorem resolve_keeps (hP : Inherited P) {pieces : List Piece} (h : ∀ p ∈ pieces, p.Holds P) :
    ∀ s ∈ resolve pieces, P s := by
  have hpieces : AllHold P (pieces.map Mark.ofPiece).toArray := by
    intro m hm
    obtain ⟨p, hp, rfl⟩ := List.mem_map.mp (List.mem_toArray.mp hm)
    cases p with
    | span s => exact h _ hp
    | delimiter d => exact hP.text _
    | oddTilde => trivial
  have hodd (odd : List Nat) {marks : Array Mark} (hmarks : AllHold P marks) :
      AllHold P (odd.foldl moveOddTilde marks) := by
    induction odd generalizing marks with
    | nil => exact hmarks
    | cons i odd ih => exact ih (hmarks.moveOddTilde hP i)
  refine nest_keeps hP [] [] _ (fun _ ho => absurd ho List.not_mem_nil)
    (fun _ hs => absurd hs List.not_mem_nil) fun m hm => ?_
  exact (hodd _ (hpieces.markStrikes _)).markEmphasis hP _ _ m (Array.mem_toList_iff.mp hm)

end MarkdownWord.Markdown
