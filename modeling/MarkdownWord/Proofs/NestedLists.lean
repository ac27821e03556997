import MarkdownWord.Proofs.NestedQuotes
import MarkdownWord.Proofs.SeveralLines

/-!
# Lists inside lists

Items that stand each inside the one before it are read line by line. A list with its item takes up
two levels of nesting. At the depth where the reader has no level left the lines of all deeper items
are taken up without being read (`reader_levelLines`).
-/

namespace MarkdownWord.Markdown
open Text

/-- The text of the item at some depth. -/
def levelText (i : Nat) : List Char := "level ".toList ++ (toString i).toList

/-- The line of the item at some depth, below the content of the item around it. -/
def levelLine (i : Nat) (ended : Bool) : Line :=
  ⟨List.replicate (2 * i) ' ', '-' :: ' ' :: levelText i, 2 * i, 0, ended⟩

/-- The line of an item as it is read inside the item. -/
def itemLine (i : Nat) (ended : Bool) : Line :=
  ⟨List.replicate (2 * i) ' ' ++ ['-', ' '], levelText i, 2 * i + 2, 0, ended⟩

theorem levelText_eq (i : Nat) : levelText i = 'l' :: ("evel ".toList ++ (toString i).toList) := rfl

theorem toList_toString (i : Nat) : (toString i).toList = Nat.toDigits 10 i := by
  simp [toString, Nat.repr]

theorem isDigit_of_mem_toDigits {c : Char} {i : Nat} (h : c ∈ Nat.toDigits 10 i) :
    c.isDigit = true :=
  Nat.isDigit_of_mem_toDigits (by decide) (by decide) h

/-- The text of an item is a word, a blank and digits. -/
theorem mem_levelText {c : Char} {i : Nat} (h : c ∈ levelText i) :
    c ∈ "level ".toList ∨ c.isDigit = true := by
  rcases List.mem_append.mp h with h | h
  · exact .inl h
  · rw [toList_toString] at h
    exact .inr (isDigit_of_mem_toDigits h)

theorem not_mem_levelText {c : Char} (hword : c ∉ "level ".toList) (hdigit : c.isDigit = false)
    (i : Nat) : c ∉ levelText i := by
  intro hmem
  rcases mem_levelText hmem with h | h
  · exact hword h
  · rw [h] at hdigit
    cases hdigit

theorem isAsciiPunctuation_of_mem_levelText {c : Char} {i : Nat} (h : c ∈ levelText i) :
    isAsciiPunctuation c = false := by
  rcases mem_levelText h with h | h
  · have hall : "level ".toList.all (fun c => !isAsciiPunctuation c) = true := rfl
    simpa using List.all_eq_true.mp hall c h
  · exact isAsciiPunctuation_of_isDigit h

theorem trimBlank_levelText (i : Nat) : trimBlank (levelText i) = levelText i := by
  have hlast : (levelText i).getLast? = (Nat.toDigits 10 i).getLast? := by
    unfold levelText
    rw [toList_toString]
    exact List.getLast?_append_of_ne_nil _ Nat.toDigits_ne_nil
  refine trimBlank_eq_self_iff.mpr ⟨?_, ?_⟩
  · rintro c ⟨⟩
    rfl
  · rw [hlast]
    intro c hc
    exact isBlank_of_isDigit (isDigit_of_mem_toDigits (List.mem_of_mem_getLast? hc))

theorem item_levelLine (i : Nat) (ended : Bool) :
    (levelLine i ended).item ⟨'-', none, 1⟩ = (itemLine i ended, 2 * i + 2) := by
  have hspace : isSpace ' ' = true := rfl
  have hletter : isSpace 'l' = false := rfl
  unfold Line.item levelLine itemLine
  simp only [levelText_eq]
  simp [hspace, hletter, columnAfterAll, columnAfter]
  omega

theorem cut_itemLine (i : Nat) (ended : Bool) : (itemLine i ended).cut (2 * i + 2) = levelText i := by
  have htab : '\t' ∉ (itemLine i ended).margin := by
    simp [itemLine]
  have hlength : (itemLine i ended).margin.length = 2 * i + 2 := by simp [itemLine]
  have hcut := cut_go_of_not_mem (l := itemLine i ended) htab 0
  rw [Nat.zero_add, hlength] at hcut
  exact hcut

/-! ## How the lines start -/

/-- The container of the items at some depth, in whatever list it stands. -/
def levelFrame (i : Nat) (listIndent : Option Nat) : Frame := ⟨2 * i, listIndent⟩

section Starts

variable (i : Nat) (ended : Bool) (listIndent : Option Nat)

theorem isOutside_levelLine : (levelLine i ended).isOutside (levelFrame i listIndent) = false :=
  decide_eq_false (by simp [levelLine, levelFrame])

theorem isCode_levelLine : (levelLine i ended).isCode (levelFrame i listIndent) = false :=
  decide_eq_false (by simp [levelLine, levelFrame])

theorem isCode_itemLine : (itemLine i ended).isCode (levelFrame (i + 1) listIndent) = false :=
  decide_eq_false (by simp [itemLine, levelFrame]; omega)

theorem isOutside_itemLine : (itemLine i ended).isOutside (levelFrame (i + 1) listIndent) = false :=
  decide_eq_false (by simp [itemLine, levelFrame]; omega)

/-- The line of an item starts a list, also where it interrupts a paragraph. -/
theorem listStart?_levelLine (inParagraph : Bool) :
    (levelLine i ended).listStart? (levelFrame i listIndent) inParagraph = some ⟨'-', none, 1⟩ := by
  have hmarker : (levelLine i ended).marker? = some ⟨'-', none, 1⟩ := rfl
  unfold Line.listStart?
  rw [isCode_levelLine, isOutside_levelLine, hmarker]
  cases listIndent with
  | none => cases inParagraph <;> rfl
  | some n =>
    simp only [levelFrame, Bool.and_false]
    cases inParagraph <;> rfl

theorem endsParagraph_levelLine (rest : List Line) :
    (levelLine i ended).endsParagraph (levelFrame i listIndent) rest = true := by
  unfold Line.endsParagraph
  rw [listStart?_levelLine]
  simp

theorem isLazy_levelLine : (levelLine i ended).isLazy (levelFrame i listIndent) = false := by
  have hindent : ¬(2 * i : Int) < 0 := by omega
  rw [Line.isLazy, isCode_levelLine, Bool.false_or]
  exact decide_eq_false hindent

theorem underlineIn?_levelLine :
    (levelLine i ended).underlineIn? (levelFrame i listIndent) = none := by
  have hunderline : (levelLine i ended).underline? = none := rfl
  rw [Line.underlineIn?, hunderline, ite_self]

theorem readBlock_levelLine (inQuote inItem : Reader) (rest : List Line) :
    some (readBlock inQuote inItem (levelFrame i listIndent) (levelLine i ended) rest) =
      readList? inItem (levelFrame i listIndent) (levelLine i ended) rest := by
  have hpipe : '|' ∉ (levelLine i ended).body := by
    simp [levelLine, not_mem_levelText (c := '|') (by decide) (by rfl)]
  have hindented : readIndented? (levelFrame i listIndent) (levelLine i ended) rest = none := by
    rw [readIndented?, isCode_levelLine]
    rfl
  have hfence : (levelLine i ended).fence? (levelFrame i listIndent) = none := by
    unfold Line.fence?
    simp [levelLine]
  have hfenced : readFenced? (levelFrame i listIndent) (levelLine i ended) rest = none := by
    rw [readFenced?, hfence]
    rfl
  have hquote : readQuote? inQuote (levelFrame i listIndent) (levelLine i ended) rest = none := by
    have hmark : (levelLine i ended).isQuote (levelFrame i listIndent) = false := by
      simp [Line.isQuote, levelLine]
    rw [readQuote?, hmark]
    rfl
  have hrule : readRule? (levelFrame i listIndent) (levelLine i ended) = none := by
    have hline : (levelLine i ended).isRule (levelFrame i listIndent) = false := by
      unfold Line.isRule
      simp [levelLine, levelText_eq, isSpace]
    rw [readRule?, hline]
    rfl
  rw [readBlock, readTable?_eq_none hpipe, hindented, hfenced, hquote, hrule]
  rw [readList?, listStart?_levelLine]
  rfl

/-- The text of an item is a paragraph, which the items inside it end. -/
theorem readBlock_itemLine (inQuote inItem : Reader) {rest : List Line}
    (hrest : ∀ l ∈ rest.head?, ∃ ended, l = levelLine (i + 1) ended) :
    readBlock inQuote inItem (levelFrame (i + 1) listIndent) (itemLine i ended) rest =
      .block (.paragraph (levelText i)) 1 := by
  have hstart : ∀ c ∈ (itemLine i ended).body.head?, isAsciiPunctuation c = true → c = '\\' := by
    rintro c ⟨⟩ hc
    cases hc
  have hpipe : '|' ∉ (itemLine i ended).body := not_mem_levelText (by decide) (by rfl) i
  have hunderlined : readUnderlined? (levelFrame (i + 1) listIndent) (itemLine i ended) rest =
      none := by
    have hnone : underlined? (levelFrame (i + 1) listIndent) rest = none := by
      cases rest with
      | nil => rfl
      | cons l more =>
        obtain ⟨ended', rfl⟩ := hrest l rfl
        have hempty : (levelLine (i + 1) ended').isEmpty = false := rfl
        rw [underlined?, hempty, underlineIn?_levelLine, isLazy_levelLine, endsParagraph_levelLine]
        rfl
    rw [readUnderlined?, isCode_itemLine, hnone]
    rfl
  have hcontinuing : continuing (levelFrame (i + 1) listIndent)
      (Line.endsParagraph (levelFrame (i + 1) listIndent)) rest = 0 := by
    cases rest with
    | nil => rfl
    | cons l more =>
      obtain ⟨ended', rfl⟩ := hrest l rfl
      have hempty : (levelLine (i + 1) ended').isEmpty = false := rfl
      rw [continuing, hempty, isLazy_levelLine, endsParagraph_levelLine]
      rfl
  rw [readBlock_eq_readParagraph (isCode_itemLine i ended listIndent) hstart rfl
    (readTable?_eq_none hpipe rest) hunderlined, readParagraph, hcontinuing]
  have htext : paragraphText (levelFrame (i + 1) listIndent) [itemLine i ended] = levelText i := by
    change trimBlank ((itemLine i ended).cut (2 * i + 2)) = levelText i
    rw [cut_itemLine, trimBlank_levelText]
  rw [List.take_zero, htext]

end Starts

/-! ## What is read -/

/-- The lines of `m` items, each inside the one before it. -/
def levelLines (ended : Nat → Bool) (i m : Nat) : List Line :=
  (List.range' i m).map fun j => levelLine j (ended j)

/-- What a reader for some lists inside one another makes of `m` such lines. The last list that it
may still read is left without content. -/
def levelBlocks : (lists m i : Nat) → List Block
  | 0, _, _ => []
  | _ + 1, 0, _ => []
  | lists + 1, m + 1, i =>
    [.list none [if lists = 0 then [] else .paragraph (levelText i) :: levelBlocks lists m (i + 1)]]

/-- A reading of `m` lines without definitions. -/
structure Reading.Makes (r : Reading) (blocks : List Block) (m : Nat) : Prop where
  blocks : r.blocks = blocks
  definitions : r.definitions = []
  used : r.used = m

theorem length_levelLines (ended : Nat → Bool) (i m : Nat) : (levelLines ended i m).length = m := by
  rw [levelLines, List.length_map, List.length_range']

theorem head?_levelLines (ended : Nat → Bool) (i m : Nat) :
    ∀ l ∈ (levelLines ended i m).head?, ∃ ended, l = levelLine i ended := by
  intro l hl
  cases m with
  | zero => cases hl
  | succ m =>
    cases hl
    exact ⟨_, rfl⟩

/-- What is read of a container: its first block, and the blocks of the lines after it. -/
theorem Reading.Makes.append {inQuote inItem : Reader} {f : Frame} {l : Line} {rest : List Line}
    {first more : List Block} {m k : Nat} (hempty : l.isEmpty = false)
    (hinside : l.isOutside f = false)
    (hfirst : (readBlock inQuote inItem f l rest).Makes first (m + 1))
    (hmore : (readBlocks inQuote inItem f (rest.drop m)).Makes more k) :
    (readBlocks inQuote inItem f (l :: rest)).Makes (first ++ more) (m + 1 + k) := by
  rw [readBlocks, if_neg (by simp [hempty]), if_neg (by simp [hinside])]
  dsimp only [Reading.append]
  rw [hfirst.used, Nat.max_eq_right (Nat.le_add_left 1 m), Nat.add_sub_cancel, hfirst.blocks,
    hfirst.definitions, hmore.blocks, hmore.definitions, hmore.used]
  exact ⟨rfl, rfl, rfl⟩

/-- An item that takes up all lines after its own is the only one of its list. -/
theorem readList?_levelLine {inItem : Reader} {i m : Nat} {ended : Bool} (listIndent : Option Nat)
    {rest : List Line} {content : List Block} (hrest : rest.length = m)
    (h : (inItem (levelFrame (i + 1) (some (2 * i))) (itemLine i ended :: rest)).Makes content
      (m + 1)) :
    readList? inItem (levelFrame i listIndent) (levelLine i ended) rest =
      some ⟨[.list none [content]], [], m + 1⟩ := by
  have hitem : readItem inItem (levelFrame i listIndent) ⟨'-', none, 1⟩ (levelLine i ended) rest =
      inItem (levelFrame (i + 1) (some (2 * i))) (itemLine i ended :: rest) := by
    have hempty : (itemLine i ended).isEmpty = false := rfl
    rw [readItem, item_levelLine]
    dsimp only
    rw [hempty]
    rfl
  have hitems : readItems inItem (levelFrame i listIndent) ⟨'-', none, 1⟩
      (levelLine i ended :: rest) = ([content], [], m + 1) := by
    rw [readItems, hitem, h.used, h.blocks, h.definitions, Nat.add_sub_cancel,
      List.drop_eq_nil_of_le hrest.le]
    simp
  rw [readList?, listStart?_levelLine, Option.map_some, hitems]

/-- Each list takes up two levels of a reader. -/
theorem reader_levelLines (ended : Nat → Bool) (lists m i : Nat) (listIndent : Option Nat) :
    (reader (2 * lists + 2) (levelFrame i listIndent) (levelLines ended i m)).Makes
      (levelBlocks (lists + 1) m i) m := by
  induction m generalizing lists i listIndent with
  | zero =>
    change (readBlocks _ _ _ []).Makes _ _
    rw [readBlocks]
    exact ⟨rfl, rfl, rfl⟩
  | succ m ih =>
    let rest := levelLines ended (i + 1) m
    have hlength : rest.length = m := length_levelLines ended (i + 1) m
    have hcontent : (reader (2 * lists) (levelFrame (i + 1) (some (2 * i)))
        (itemLine i (ended i) :: rest)).Makes
        (if lists = 0 then [] else .paragraph (levelText i) :: levelBlocks lists m (i + 1))
        (m + 1) := by
      have hinside := isOutside_itemLine i (ended i) (some (2 * i))
      cases lists with
      | zero =>
        change (dropDeep _ _).Makes _ _
        rw [dropDeep_of_inside rfl hinside, hlength]
        exact ⟨rfl, rfl, rfl⟩
      | succ lists =>
        have hread := readBlock_itemLine i (ended i) (some (2 * i)) (reader (2 * lists + 1))
          (reader (2 * lists)) (head?_levelLines ended (i + 1) m)
        have hfirst : (readBlock (reader (2 * lists + 1)) (reader (2 * lists))
            (levelFrame (i + 1) (some (2 * i))) (itemLine i (ended i)) rest).Makes
              [.paragraph (levelText i)] (0 + 1) := by
          rw [hread]
          exact ⟨rfl, rfl, rfl⟩
        rw [Nat.add_comm m 1]
        exact hfirst.append rfl hinside (ih lists (i + 1) (some (2 * i)))
    have hlist := readList?_levelLine listIndent hlength hcontent
    have hfirst : (readBlock (reader (2 * lists + 1)) (reader (2 * lists)) (levelFrame i listIndent)
        (levelLine i (ended i)) rest).Makes (levelBlocks (lists + 1) (m + 1) i) (m + 1) := by
      rw [Option.some_inj.mp ((readBlock_levelLine i (ended i) listIndent _ _ rest).trans hlist)]
      exact ⟨rfl, rfl, rfl⟩
    have hmore : (readBlocks (reader (2 * lists + 1)) (reader (2 * lists)) (levelFrame i listIndent)
        (rest.drop m)).Makes [] 0 := by
      rw [List.drop_eq_nil_of_le hlength.le, readBlocks]
      exact ⟨rfl, rfl, rfl⟩
    have hall := hfirst.append rfl (isOutside_levelLine i (ended i) listIndent) hmore
    rwa [List.append_nil] at hall

end MarkdownWord.Markdown
