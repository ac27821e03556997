import Mathlib.Data.List.DropRight
import MarkdownWord.Proofs.Contents
import MarkdownWord.Proofs.Leaves

/-!
# Titles

The title of a document is the text of its first heading of depth one, where white space counts as
one space. The two are read from the tree apart from each other: the title from the values of the
leaves, the heading from their runs. A line break is a line end in the heading, but in the title it
is the value that it carries, so that the words around a break without value run together.
-/

namespace MarkdownWord

/-! ## White space -/

namespace Text

/-- A text with each of its runs of white space written as one space, and none at its ends. -/
def tidy (s : List Char) : List Char := trimBlank (squeeze s)

theorem squeeze_cons_of_not_blank {c : Char} (h : isBlank c = false) (s : List Char) :
    squeeze (c :: s) = c :: squeeze s := by
  simp [squeeze, h]

theorem squeeze_blank_cons {c d : Char} (hc : isBlank c = true) (s : List Char) :
    squeeze (c :: d :: s) = if isBlank d then squeeze (d :: s) else ' ' :: squeeze (d :: s) := by
  simp [squeeze, hc]

theorem squeeze_eq_nil {s : List Char} : squeeze s = [] ↔ s = [] := by
  fun_induction squeeze s with
  | case1 => exact Iff.rfl
  | case2 c hc d more hd ih => simpa using ih
  | case3 => simp
  | case4 => simp
  | case5 => simp

theorem dropWhile_squeeze (s : List Char) :
    (squeeze s).dropWhile isBlank = squeeze (s.dropWhile isBlank) := by
  have hspace : isBlank ' ' = true := by decide
  fun_induction squeeze s with
  | case1 => rfl
  | case2 c hc d more hd ih => rw [ih, List.dropWhile_cons_of_pos hc]
  | case3 c hc d more hd ih =>
    rw [List.dropWhile_cons_of_pos hspace, ih, List.dropWhile_cons_of_pos hc]
  | case4 c hc =>
    rw [List.dropWhile_cons_of_pos hspace, List.dropWhile_cons_of_pos hc]
    rfl
  | case5 c rest hc ih =>
    rw [List.dropWhile_cons_of_neg hc, List.dropWhile_cons_of_neg hc,
      squeeze_cons_of_not_blank (by simpa using hc)]

theorem rdropWhile_cons {α : Type} {p : α → Bool} {a : α} {s : List α}
    (h : (a :: s).rdropWhile p ≠ []) : (a :: s).rdropWhile p = a :: s.rdropWhile p := by
  cases hs : (s.reverse.dropWhile p).isEmpty with
  | false => simp [List.rdropWhile, List.dropWhile_append, hs]
  | true =>
    have hrest : s.rdropWhile p = [] := by simpa [List.rdropWhile] using hs
    have ha : ¬ p a = true := fun ha => h (List.rdropWhile_eq_nil_iff.mpr
      (List.forall_mem_cons.mpr ⟨ha, List.rdropWhile_eq_nil_iff.mp hrest⟩))
    rw [hrest]
    simp [List.rdropWhile, List.dropWhile_append, hs, ha]

theorem rdropWhile_squeeze (s : List Char) :
    (squeeze s).rdropWhile isBlank = squeeze (s.rdropWhile isBlank) := by
  fun_induction squeeze s with
  | case1 => rfl
  | case2 c hc d more hd ih =>
    by_cases hrest : (d :: more).rdropWhile isBlank = []
    · have hall : (c :: d :: more).rdropWhile isBlank = [] := List.rdropWhile_eq_nil_iff.mpr
        (List.forall_mem_cons.mpr ⟨hc, List.rdropWhile_eq_nil_iff.mp hrest⟩)
      rw [ih, hrest, hall]
    · have hfront : (c :: d :: more).rdropWhile isBlank ≠ [] := fun h =>
        hrest (List.rdropWhile_eq_nil_iff.mpr
          (List.forall_mem_cons.mp (List.rdropWhile_eq_nil_iff.mp h)).2)
      rw [ih, rdropWhile_cons hfront, rdropWhile_cons hrest, squeeze_blank_cons hc, if_pos hd]
  | case3 c hc d more hd ih =>
    have hrest : (d :: more).rdropWhile isBlank ≠ [] := fun h =>
      hd (List.rdropWhile_eq_nil_iff.mp h d List.mem_cons_self)
    have hfront : (c :: d :: more).rdropWhile isBlank ≠ [] := fun h =>
      hd (List.rdropWhile_eq_nil_iff.mp h d (by simp))
    have hspace : (' ' :: squeeze (d :: more)).rdropWhile isBlank ≠ [] := fun h =>
      hd (List.rdropWhile_eq_nil_iff.mp h d (by simp [squeeze_cons_of_not_blank, hd]))
    rw [rdropWhile_cons hspace, ih, rdropWhile_cons hfront, rdropWhile_cons hrest,
      squeeze_blank_cons hc, if_neg hd]
  | case4 c hc =>
    have hblank : [c].rdropWhile isBlank = [] := by simp [hc]
    have hspace : [' '].rdropWhile isBlank = [] := by decide
    rw [hspace, hblank, squeeze]
  | case5 c rest hc ih =>
    have hc' : isBlank c = false := by simpa using hc
    have hfront (s : List Char) : (c :: s).rdropWhile isBlank ≠ [] := fun h =>
      hc (List.rdropWhile_eq_nil_iff.mp h c List.mem_cons_self)
    rw [rdropWhile_cons (hfront _), rdropWhile_cons (hfront _), ih, squeeze_cons_of_not_blank hc']

theorem trimBlank_eq (s : List Char) : trimBlank s = (s.dropWhile isBlank).rdropWhile isBlank := rfl

theorem trimBlank_squeeze (s : List Char) : trimBlank (squeeze s) = squeeze (trimBlank s) := by
  rw [trimBlank_eq, dropWhile_squeeze, rdropWhile_squeeze, trimBlank_eq]

theorem trimBlank_trimBlank (s : List Char) : trimBlank (trimBlank s) = trimBlank s := by
  rw [trimBlank_eq s]
  cases hfront : s.dropWhile isBlank with
  | nil => rfl
  | cons c t =>
    have hc : ¬ isBlank c = true := by
      have hhead := List.head?_dropWhile_not isBlank s
      rw [hfront] at hhead
      simpa using hhead
    have hkept : (c :: t).rdropWhile isBlank = c :: t.rdropWhile isBlank :=
      rdropWhile_cons fun h => hc (List.rdropWhile_eq_nil_iff.mp h c List.mem_cons_self)
    rw [trimBlank_eq, hkept, List.dropWhile_cons_of_neg hc, ← hkept, List.rdropWhile_idempotent]

/-- White space at the ends of a text does not matter when it is tidied. -/
theorem tidy_trimBlank (s : List Char) : tidy (trimBlank s) = tidy s := by
  rw [tidy, trimBlank_squeeze, trimBlank_trimBlank, tidy, trimBlank_squeeze]

theorem tidy_eq_nil {s : List Char} : tidy s = [] ↔ trimBlank s = [] := by
  rw [tidy, trimBlank_squeeze, squeeze_eq_nil]

end Text

/-! ## The text of a heading -/

namespace Word

/-- The text of a paragraph in which `between` stands for each line break. -/
def Paragraph.textWith (between : String) (p : Paragraph) : String :=
  String.join (p.runs.map fun r => r.text?.getD between)

/-- A line break in a paragraph is read as a line end. -/
theorem Paragraph.textWith_lineEnd (p : Paragraph) : p.textWith "\n" = p.plainText := by
  have hrun (r : Run) : r.text?.getD "\n" = r.plainText := by cases r <;> rfl
  rw [textWith, p.plainText_eq_runs]
  simp only [hrun]

end Word

namespace Node
open Word Text

mutual
theorem join_pieces (path : List Node) : ∀ n : Node,
    String.join n.pieces = String.join ((n.leavesBelow path).map (·.node.value))
  | .root cs | .heading _ cs | .paragraph cs | .quote cs | .list _ _ cs | .item _ cs | .table _ cs
  | .row cs | .cell cs | .styled _ cs | .link _ _ cs | .parent _ cs => by
    rw [pieces, leavesBelow, join_piecesAll]
  | .text v | .inlineCode v | .code v _ | .lineBreak v | .image _ _ v | .literal _ v => by
    by_cases hv : v = ""
    · simp [pieces, leavesBelow, value, hv]
    · simp [pieces, leavesBelow, value, hv]
  | .rule | .bare => by simp [pieces, leavesBelow, value]

/-- The title of a heading is made of the values of its leaves. -/
theorem join_piecesAll (path : List Node) : ∀ ns : List Node,
    String.join (piecesAll ns) = String.join ((leavesOf path ns).map (·.node.value))
  | [] => rfl
  | n :: rest => by
    rw [piecesAll, leavesOf, String.join_append, List.map_append, String.join_append,
      join_pieces path n, join_piecesAll path rest]
end

/-- Only images and line breaks may look different from the value of their leaf. -/
theorem join_leafRuns {between : String} (f : Flags) {n : Node}
    (himage : ∀ url alt v, n ≠ .image url alt v) (hbreak : ∀ v, n = .lineBreak v → v = between) :
    String.join ((n.leafRuns f).map fun r => r.text?.getD between) = n.value := by
  have hplain (v : String) (hv : v = n.value)
      (hruns : n.leafRuns f = if v.isEmpty then [] else [.text v {}]) :
      String.join ((n.leafRuns f).map fun r => r.text?.getD between) = n.value := by
    rw [hruns, ← hv]
    by_cases hempty : v = ""
    · simp [hempty]
    · simp [hempty, Run.text?]
  cases n with
  | text v => simp [leafRuns, Run.text?, value]
  | inlineCode v => simp [leafRuns, Run.text?, value]
  | lineBreak v => simp [leafRuns, Run.text?, value, hbreak v rfl]
  | image url alt v => exact absurd rfl (himage url alt v)
  | _ => exact hplain _ rfl rfl

/-- Without images the heading made of some nodes shows the values of their leaves. -/
theorem textWith_headingOf {between : String} {cs : List Node}
    (himage : ∀ l ∈ leavesOf [] cs, ∀ url alt v, l.node ≠ .image url alt v)
    (hbreak : ∀ l ∈ leavesOf [] cs, ∀ v, l.node = .lineBreak v → v = between) :
    (headingOf 1 (membersAll {} cs)).textWith between = String.join (piecesAll cs) := by
  have hleaves : runsAll {} cs =
      (leavesOf [] cs).flatMap fun l => l.node.leafRuns (Flags.along {} l.path) := by
    rw [← runsAll_along, Flags.along_nil]
  have htexts : (headingOf 1 (membersAll {} cs)).runs.map (fun r => r.text?.getD between) =
      (runsAll {} cs).map fun r => r.text?.getD between := by
    have h := congrArg (List.map fun t => t.getD between) (texts_membersAll {} cs)
    rwa [List.map_map, List.map_map] at h
  rw [Paragraph.textWith, htexts, hleaves, join_piecesAll []]
  generalize leavesOf [] cs = ls at himage hbreak
  induction ls with
  | nil => rfl
  | cons l ls ih =>
    have hl := join_leafRuns (Flags.along {} l.path) (himage l List.mem_cons_self)
      (hbreak l List.mem_cons_self)
    rw [List.flatMap_cons, List.map_append, String.join_append, hl,
      ih (fun m hm => himage m (List.mem_cons_of_mem l hm))
        (fun m hm => hbreak m (List.mem_cons_of_mem l hm)),
      List.map_cons, String.join_cons]

/-! ## The title -/

/-- A title shows a text if the two differ in white space only; a blank text is shown by none. -/
def Shows (title : Option String) (text : String) : Prop :=
  title.map (fun s => tidy s.toList) = (some (tidy text.toList)).filter (!·.isEmpty)

instance (title : Option String) (text : String) : Decidable (Shows title text) :=
  inferInstanceAs (Decidable (_ = _))

theorem title?_of_first_heading {before cs after : List Node}
    (hfirst : ∀ n ∈ before, ∀ ds, n ≠ .heading 1 ds) :
    title? (before ++ .heading 1 cs :: after) =
      (some (stripped (String.join (piecesAll cs)))).filter (!·.isEmpty) := by
  rw [title?, List.findSome?_append, List.findSome?_eq_none_iff.mpr ?before, Option.none_or,
    List.findSome?_cons]
  · rfl
  case before =>
    intro n hn
    split
    · next ds => exact absurd rfl (hfirst _ hn ds)
    · rfl

theorem shows_stripped (s : String) : Shows ((some (stripped s)).filter (!·.isEmpty)) s := by
  have htidy : tidy (stripped s).toList = tidy s.toList := by
    rw [stripped, String.toList_ofList, tidy_trimBlank]
  have hblank : (stripped s).isEmpty = (tidy s.toList).isEmpty := by
    rw [Bool.eq_iff_iff]
    simp [stripped, tidy_eq_nil]
  rw [Shows, Option.filter_some, Option.filter_some, hblank]
  cases (tidy s.toList).isEmpty with
  | true => rfl
  | false => exact congrArg some htidy

theorem blocksAll_append (o : Overflow) (depth : Int) (ms ns : List Node) :
    blocksAll o depth (ms ++ ns) = blocksAll o depth ms ++ blocksAll o depth ns := by
  induction ms with
  | nil => rw [List.nil_append, blocksAll, List.nil_append]
  | cons m ms ih => rw [List.cons_append, blocksAll, ih, blocksAll, List.append_assoc]

variable {before cs after : List Node}

/-- The first heading of depth one stands in the document as a paragraph. Without images the title
shows its text, if each line break counts as the value that it carries. So without line breaks it
shows what a reader sees. -/
theorem title_shows_heading (hfirst : ∀ n ∈ before, ∀ ds, n ≠ .heading 1 ds)
    (himage : ∀ l ∈ leavesOf [] cs, ∀ url alt v, l.node ≠ .image url alt v)
    (size : Option Number) (o : Overflow) :
    let d := Document.ofNodes (before ++ .heading 1 cs :: after) size o
    let heading := headingOf 1 (membersAll {} cs)
    d.blocks = blocksAll o 0 before ++ .paragraph heading :: blocksAll o 0 after ∧
      (∀ between, (∀ l ∈ leavesOf [] cs, ∀ v, l.node = .lineBreak v → v = between) →
        Shows d.title (heading.textWith between)) ∧
      ((∀ l ∈ leavesOf [] cs, ∀ v, l.node ≠ .lineBreak v) → Shows d.title heading.plainText) := by
  intro d heading
  have hshows (between : String)
      (hbreak : ∀ l ∈ leavesOf [] cs, ∀ v, l.node = .lineBreak v → v = between) :
      Shows d.title (heading.textWith between) := by
    have htitle : d.title = title? (before ++ .heading 1 cs :: after) := rfl
    rw [htitle, title?_of_first_heading hfirst, textWith_headingOf himage hbreak]
    exact shows_stripped _
  refine ⟨?_, hshows, ?_⟩
  · exact (blocksAll_append o 0 before _).trans (congrArg _ (by rw [blocksAll, blocks]; rfl))
  · intro hnone
    rw [← Paragraph.textWith_lineEnd]
    exact hshows "\n" fun l hl v hv => absurd hv (hnone l hl v)

/-- Blanks at the ends and inside, code, a link, raw markup and a title of the same depth later. -/
theorem title_shows_heading_mixed :
    let before : List Node := [.heading 2 [.text "Above"], .paragraph []]
    let cs : List Node := [.text " On\t", .styled .bold [.inlineCode "x", .text "  y"],
      .link "u" .null [.text "z"], .literal "html_inline" "<b>", .text "\n"]
    let after : List Node := [.heading 1 [.text "Later"]]
    let d := Document.ofNodes (before ++ .heading 1 cs :: after) none .clamp
    (∀ n ∈ before, ∀ ds, n ≠ .heading 1 ds) ∧
      (∀ l ∈ leavesOf [] cs, ∀ url alt v, l.node ≠ .image url alt v) ∧
      (∀ l ∈ leavesOf [] cs, ∀ v, l.node ≠ .lineBreak v) ∧
      (headingOf 1 (membersAll {} cs)).plainText = " On\tx  yz<b>\n" ∧
      Shows d.title " On\tx  yz<b>\n" := by
  intro before cs after d
  have hfirst : ∀ n ∈ before, ∀ ds, n ≠ .heading 1 ds := by simp [before]
  have himage : ∀ l ∈ leavesOf [] cs, ∀ url alt v, l.node ≠ .image url alt v := by
    simp [cs, leavesOf, leavesBelow]
  have hnone : ∀ l ∈ leavesOf [] cs, ∀ v, l.node ≠ .lineBreak v := by
    simp [cs, leavesOf, leavesBelow]
  have htext : (headingOf 1 (membersAll {} cs)).plainText = " On\tx  yz<b>\n" := by decide
  refine ⟨hfirst, himage, hnone, htext, ?_⟩
  rw [← htext]
  exact (title_shows_heading hfirst himage none .clamp).2.2 hnone

/-- The words on both sides of a line break stand apart in the heading, but not in the title. -/
theorem title_joins_lines :
    ¬ ∀ (before cs after : List Node) (size : Option Number) (o : Overflow),
      (∀ n ∈ before, ∀ ds, n ≠ .heading 1 ds) →
      (∀ l ∈ leavesOf [] cs, ∀ url alt v, l.node ≠ .image url alt v) →
      Shows (Document.ofNodes (before ++ .heading 1 cs :: after) size o).title
        (headingOf 1 (membersAll {} cs)).plainText := by
  intro hall
  let cs : List Node := [.text "a", .lineBreak "", .text "b"]
  have himage : ∀ l ∈ leavesOf [] cs, ∀ url alt v, l.node ≠ .image url alt v := by
    simp [cs, leavesOf, leavesBelow]
  have hshown := hall [] cs [] none .clamp (by simp) himage
  exact absurd hshown (by decide)

end Node
end MarkdownWord
