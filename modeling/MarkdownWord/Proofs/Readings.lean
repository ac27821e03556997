import MarkdownWord.Markdown.Block
import MarkdownWord.Proofs.Destinations

/-!
# What is read from lines

Whatever the lines of a document are, the headings among its blocks have a depth from one to six and
its tables are full grids, however deep they are nested, and its definitions lead to where XML can
hold.
-/

namespace MarkdownWord.Markdown
open Text Word

mutual
/-- A block in which all headings have a depth from one to six, and all rows of a table have a cell
for each of its columns. -/
def Block.Sound : Block → Prop
  | .heading depth _ => 1 ≤ depth ∧ depth ≤ 6
  | .table align header rows => align ≠ [] ∧ ∀ row ∈ header :: rows, row.length = align.length
  | .quote blocks => AllSound blocks
  | .list _ items => ItemsSound items
  | _ => True

/-- Blocks that are all sound. -/
def Block.AllSound : List Block → Prop
  | [] => True
  | b :: rest => b.Sound ∧ AllSound rest

/-- Items whose blocks are all sound. -/
def Block.ItemsSound : List (List Block) → Prop
  | [] => True
  | item :: rest => AllSound item ∧ ItemsSound rest
end

theorem Block.allSound_append {as bs : List Block} (ha : AllSound as) (hb : AllSound bs) :
    AllSound (as ++ bs) := by
  induction as with
  | nil => exact hb
  | cons a as ih => exact ⟨ha.1, ih ha.2⟩

/-- A reading with sound blocks, and legal destinations. -/
structure Reading.Sound (r : Reading) : Prop where
  blocks : Block.AllSound r.blocks
  definitions : ∀ d ∈ r.definitions, LegalDestination d.destination

namespace Reading

theorem sound_blank (n : Nat) : (blank n).Sound :=
  ⟨trivial, fun _ hd => absurd hd List.not_mem_nil⟩

theorem sound_block {b : Block} (h : b.Sound) (n : Nat) : (block b n).Sound :=
  ⟨⟨h, trivial⟩, fun _ hd => absurd hd List.not_mem_nil⟩

theorem Sound.append {a b : Reading} (ha : a.Sound) (hb : b.Sound) : (a.append b).Sound := by
  refine ⟨Block.allSound_append ha.blocks hb.blocks, fun d hd => ?_⟩
  exact (List.mem_append.mp hd).elim (ha.definitions d) (hb.definitions d)

end Reading

/-! ## Blocks without content of their own -/

theorem Line.heading?_depth {f : Frame} {l : Line} {depth : Nat} {text : List Char}
    (h : l.heading? f = some (depth, text)) : 1 ≤ depth ∧ depth ≤ 6 := by
  unfold Line.heading? at h
  dsimp only at h
  split at h
  · cases h
  · next hbounds =>
    cases h
    simp only [Bool.or_eq_true, decide_eq_true_eq, not_or] at hbounds
    omega

theorem Line.underline?_depth {l : Line} {depth : Nat} (h : l.underline? = some depth) :
    1 ≤ depth ∧ depth ≤ 6 := by
  unfold Line.underline? at h
  split at h
  · split at h
    · have hdepth := Option.some.inj h
      split at hdepth <;> omega
    · cases h
  · cases h

theorem underlined?_depth {f : Frame} {ls : List Line} {n depth : Nat}
    (h : underlined? f ls = some (n, depth)) : 1 ≤ depth ∧ depth ≤ 6 := by
  induction ls generalizing n with
  | nil => cases h
  | cons l rest ih =>
    unfold underlined? at h
    split at h
    · cases h
    split at h
    · next depth' hunder =>
      cases h
      unfold Line.underlineIn? at hunder
      split at hunder
      · cases hunder
      · exact Line.underline?_depth hunder
    split at h
    · cases h
    · obtain ⟨⟨n', depth'⟩, hrest, heq⟩ := Option.map_eq_some_iff.mp h
      cases heq
      exact ih hrest

/-! ## Tables -/

theorem tableColumns?_grid {header delimiters : List Char} {align : List (Option TextAlignment)}
    {cells : List (List Char)} (h : tableColumns? header delimiters = some (align, cells)) :
    align ≠ [] ∧ cells.length = align.length := by
  unfold tableColumns? at h
  split at h
  · dsimp only at h
    split at h
    · next hcells =>
      cases h
      simp only [Bool.and_eq_true, decide_eq_true_eq, Bool.not_eq_true', List.isEmpty_eq_false_iff]
        at hcells
      obtain ⟨⟨-, hsome⟩, hlength⟩ := hcells
      refine ⟨fun hnone => hsome (List.length_eq_zero_iff.mp ?_), hlength⟩
      rw [hlength, hnone, List.length_nil]
    · cases h
  · cases h

theorem tableStart?_grid {f : Frame} {l : Line} {rest : List Line}
    {align : List (Option TextAlignment)} {cells : List (List Char)}
    (h : l.tableStart? f rest = some (align, cells)) :
    align ≠ [] ∧ cells.length = align.length := by
  unfold Line.tableStart? at h
  split at h
  · split at h
    · cases h
    · exact tableColumns?_grid h
  · cases h

/-- A line without a pipe is not the header of a table. -/
theorem readTable?_eq_none {f : Frame} {l : Line} (h : '|' ∉ l.body) (rest : List Line) :
    readTable? f l rest = none := by
  have hcolumns (delimiters : List Char) : tableColumns? l.body delimiters = none := by
    unfold tableColumns?
    split
    · simp [h]
    · rfl
  have hstart : l.tableStart? f rest = none := by
    unfold Line.tableStart?
    split
    · rw [hcolumns, ite_self]
    · rfl
  rw [readTable?, hstart]
  rfl

theorem length_of_mem_tableRows {f : Frame} {n : Nat} {padding : Int} {ls : List Line}
    {row : List (List Char)} (h : row ∈ tableRows f n padding ls) : row.length = n := by
  fun_induction tableRows f n padding ls with
  | case1 => cases h
  | case2 => cases h
  | case3 => cases h
  | case4 padding l rest _ cells padding' _ ih =>
    rcases List.mem_cons.mp h with rfl | h
    · exact length_fitRow n cells
    · exact ih h

/-! ## Definitions -/

/-- A definition, if there is one, has a legal destination. -/
def FoundLeads (found : Option (Definition × Nat)) : Prop :=
  ∀ d ∈ found, LegalDestination d.1.destination

theorem foundLeads_bind {α : Type} {o : Option α} {next : α → Option (Definition × Nat)}
    (h : ∀ a, FoundLeads (next a)) : FoundLeads (o >>= next) := by
  intro d hd
  obtain ⟨a, -, ha⟩ := Option.bind_eq_some_iff.mp hd
  exact h a d ha

theorem definition?_leads (s : List Char) : FoundLeads (definition? s) := by
  have hnone : FoundLeads none := fun _ hd => by cases hd
  have hsome (label raw title : List Char) (n : Nat) :
      FoundLeads (some (⟨label, normalDestination raw, title⟩, n)) := by
    rintro d ⟨⟩
    exact legal_normalDestination raw
  unfold definition?
  extract_lets afterLabel
  have hlabel (x : List Char × List Char) : FoundLeads (afterLabel x) := by
    obtain ⟨label, rest⟩ := x
    dsimp -zeta only [afterLabel]
    extract_lets afterColon
    have hcolon (rest : List Char) : FoundLeads (afterColon rest) := by
      dsimp -zeta only [afterColon]
      extract_lets gap before
      refine foundLeads_bind fun x => ?_
      extract_lets destination untitled afterCheck
      have hcheck (u : PUnit) : FoundLeads (afterCheck u) := by
        dsimp only [afterCheck]
        split
        · exact hsome _ _ _ _
        split
        · exact hsome _ _ _ _
        split
        · exact hsome _ _ _ _
        · exact hnone
      split
      · exact foundLeads_bind hcheck
      · exact hcheck ⟨⟩
    split
    · exact foundLeads_bind hcolon
    · exact foundLeads_bind hcolon
  split
  · exact foundLeads_bind hlabel
  · exact foundLeads_bind hlabel

/-! ## Containers -/

/-- A reader whose readings are sound. -/
def Reader.Sound (r : Reader) : Prop := ∀ f ls, (r f ls).Sound

theorem holds_of_map {α : Type} {P : Reading → Prop} {o : Option α} {read : α → Reading}
    (h : ∀ a ∈ o, P (read a)) : ∀ r ∈ o.map read, P r := by
  intro r hr
  obtain ⟨a, ha, rfl⟩ := Option.map_eq_some_iff.mp hr
  exact h a ha

theorem readTable?_sound (f : Frame) (l : Line) (rest : List Line) :
    ∀ r ∈ readTable? f l rest, r.Sound := by
  refine holds_of_map fun found hfound => ?_
  obtain ⟨align, header⟩ := found
  obtain ⟨hcolumns, hheader⟩ := tableStart?_grid hfound
  let rows := tableRows f align.length maxPaddedCells (rest.drop 1)
  have hrows : ∀ row ∈ header :: rows, row.length = align.length :=
    List.forall_mem_cons.mpr ⟨hheader, fun _ hrow => length_of_mem_tableRows hrow⟩
  have hsound : (Block.table align header rows).Sound := ⟨hcolumns, hrows⟩
  exact Reading.sound_block hsound _

theorem readQuote?_sound {inner : Reader} (h : inner.Sound) (f : Frame) (l : Line)
    (rest : List Line) : ∀ r ∈ readQuote? inner f l rest, r.Sound := by
  unfold readQuote?
  split
  · refine holds_of_map fun first _ => ?_
    have hcontent := h ⟨0, f.listIndent⟩ (first :: quoteLines f first.isEmpty rest)
    exact ⟨⟨hcontent.blocks, trivial⟩, hcontent.definitions⟩
  · intro r hr
    cases hr

theorem readItem_sound {inner : Reader} (h : inner.Sound) (f : Frame) (m : ListMarker) (l : Line)
    (rest : List Line) : (readItem inner f m l rest).Sound := by
  unfold readItem
  dsimp only
  split
  · exact Reading.sound_blank _
  · exact h _ _

theorem readItems_sound {inner : Reader} (h : inner.Sound) (f : Frame) (m : ListMarker)
    (ls : List Line) : Block.ItemsSound (readItems inner f m ls).1 ∧
      ∀ d ∈ (readItems inner f m ls).2.1, LegalDestination d.destination := by
  fun_induction readItems inner f m ls with
  | case1 m => exact ⟨trivial, fun _ hd => absurd hd List.not_mem_nil⟩
  | case2 m l rest item rest' m' _ items definitions used hrest ih =>
    have hitem : item.Sound := readItem_sound h f m l rest
    rw [hrest] at ih
    refine ⟨⟨hitem.blocks, ih.1⟩, fun d hd => ?_⟩
    exact (List.mem_append.mp hd).elim (hitem.definitions d) (ih.2 d)
  | case3 m l rest item rest' _ =>
    have hitem : item.Sound := readItem_sound h f m l rest
    exact ⟨⟨hitem.blocks, trivial⟩, hitem.definitions⟩

theorem readList?_sound {inner : Reader} (h : inner.Sound) (f : Frame) (l : Line)
    (rest : List Line) : ∀ r ∈ readList? inner f l rest, r.Sound :=
  holds_of_map fun m _ =>
    have hitems := readItems_sound h f m (l :: rest)
    ⟨⟨hitems.1, trivial⟩, hitems.2⟩

/-! ## Documents -/

theorem holds_orElse {P : Reading → Prop} {a b : Option Reading} (ha : ∀ r ∈ a, P r)
    (hb : ∀ r ∈ b, P r) : ∀ r ∈ a <|> b, P r := by
  cases a with
  | none => exact hb
  | some r => exact ha

/-- What is read at a line has a property that every kind of block has if it is read there. -/
theorem readBlock_of_kinds {P : Reading → Prop} {inQuote inItem : Reader} {f : Frame} {l : Line}
    {rest : List Line} (htable : ∀ r ∈ readTable? f l rest, P r)
    (hindented : ∀ r ∈ readIndented? f l rest, P r) (hfenced : ∀ r ∈ readFenced? f l rest, P r)
    (hquote : ∀ r ∈ readQuote? inQuote f l rest, P r) (hrule : ∀ r ∈ readRule? f l, P r)
    (hlist : ∀ r ∈ readList? inItem f l rest, P r)
    (hdefinition : ∀ r ∈ readDefinition? f l rest, P r) (hhtml : ∀ r ∈ readHtml? f l rest, P r)
    (hheading : ∀ r ∈ readHeading? f l, P r) (hunderlined : ∀ r ∈ readUnderlined? f l rest, P r)
    (hparagraph : P (readParagraph f l rest)) : P (readBlock inQuote inItem f l rest) := by
  have hstart := holds_orElse htable <| holds_orElse hindented <| holds_orElse hfenced <|
    holds_orElse hquote <| holds_orElse hrule <| holds_orElse hlist <| holds_orElse hdefinition <|
    holds_orElse hhtml <| holds_orElse hheading hunderlined
  unfold readBlock
  generalize (readTable? f l rest <|> _) = start at hstart ⊢
  cases start with
  | none => exact hparagraph
  | some r => exact hstart r rfl

theorem readBlock_sound {inQuote inItem : Reader} (hquote : inQuote.Sound) (hitem : inItem.Sound)
    (f : Frame) (l : Line) (rest : List Line) : (readBlock inQuote inItem f l rest).Sound := by
  have hindented : ∀ r ∈ readIndented? f l rest, r.Sound := by
    unfold readIndented?
    split
    · rintro r ⟨⟩
      exact Reading.sound_block (by trivial) _
    · rintro r ⟨⟩
  have hfenced : ∀ r ∈ readFenced? f l rest, r.Sound :=
    holds_of_map fun _ _ => Reading.sound_block (by trivial) _
  have hrule : ∀ r ∈ readRule? f l, r.Sound := by
    unfold readRule?
    split
    · rintro r ⟨⟩
      exact Reading.sound_block (by trivial) _
    · rintro r ⟨⟩
  have hdefinition : ∀ r ∈ readDefinition? f l rest, r.Sound := by
    unfold readDefinition?
    split
    · rintro r ⟨⟩
    · refine holds_of_map fun found hfound => ⟨trivial, fun d hd => ?_⟩
      rw [List.mem_singleton.mp hd]
      exact definition?_leads _ found hfound
  have hhtml : ∀ r ∈ readHtml? f l rest, r.Sound :=
    holds_of_map fun _ _ => Reading.sound_block (by trivial) _
  have hheading : ∀ r ∈ readHeading? f l, r.Sound :=
    holds_of_map fun _ hfound => Reading.sound_block (by exact Line.heading?_depth hfound) _
  have hunderlined : ∀ r ∈ readUnderlined? f l rest, r.Sound := by
    unfold readUnderlined?
    split
    · rintro r ⟨⟩
    · exact holds_of_map fun _ hfound => Reading.sound_block (by exact underlined?_depth hfound) _
  exact readBlock_of_kinds (readTable?_sound f l rest) hindented hfenced
    (readQuote?_sound hquote f l rest) hrule (readList?_sound hitem f l rest) hdefinition hhtml
    hheading hunderlined (Reading.sound_block (by trivial) _)

theorem readBlocks_sound {inQuote inItem : Reader} (hquote : inQuote.Sound) (hitem : inItem.Sound) :
    Reader.Sound (readBlocks inQuote inItem) := by
  intro f ls
  fun_induction readBlocks inQuote inItem f ls with
  | case1 => exact Reading.sound_blank 0
  | case2 l rest _ ih => exact (Reading.sound_blank 1).append ih
  | case3 l rest _ _ => exact Reading.sound_blank 0
  | case4 l rest _ _ first first' ih =>
    have hfirst : first.Sound := readBlock_sound hquote hitem f l rest
    exact Reading.Sound.append ⟨hfirst.blocks, hfirst.definitions⟩ ih

theorem dropDeep_sound : Reader.Sound dropDeep := by
  intro f ls
  unfold dropDeep
  dsimp only
  split
  · exact Reading.sound_blank _
  · exact Reading.sound_blank _

/-- The readers of all depths are sound, two of them at a time. -/
theorem reader_sound (depth : Nat) : (reader depth).Sound ∧ (reader (depth + 1)).Sound := by
  induction depth with
  | zero => exact ⟨dropDeep_sound, readBlocks_sound dropDeep_sound dropDeep_sound⟩
  | succ depth ih => exact ⟨ih.2, readBlocks_sound ih.2 ih.1⟩

theorem readDocument_sound (s : List Char) : (readDocument s).Sound :=
  (reader_sound maxNesting).1 _ _

end MarkdownWord.Markdown
