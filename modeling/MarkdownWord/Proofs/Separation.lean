import MarkdownWord.Proofs.BlockLooks
import MarkdownWord.Proofs.ListReferences
import MarkdownWord.Proofs.PropertyOrder
import MarkdownWord.Proofs.SeveralLines

/-!
# What keeps blocks apart

Two tables without anything between them would be read as one, and so would the lines of two pieces
of code. Therefore an empty paragraph comes after each of them. However the nodes of a tree are
nested, it is still right after them among the blocks of the tree and in the body of its document
(`Node.separated_blocksAll`).
-/

namespace MarkdownWord
namespace Word

/-! ## Pieces -/

/-- A block as far as it can run together with its neighbours: a table, a shaded paragraph with its
text, a paragraph without shading and contents, or any other. -/
inductive Piece where
  | table
  | code (text : String)
  | blank
  | other
  deriving DecidableEq, Repr

namespace Piece

def text? : Piece → Option String
  | .code text => some text
  | _ => none

def isCode (a : Piece) : Bool := a.text?.isSome

@[simp] theorem isCode_table : isCode .table = false := rfl
@[simp] theorem isCode_code (text : String) : isCode (.code text) = true := rfl
@[simp] theorem isCode_blank : isCode .blank = false := rfl
@[simp] theorem isCode_other : isCode .other = false := rfl

/-- The texts of the stretches of code among some pieces, each taken as far as it goes. -/
def stretches (ps : List Piece) : List (List String) :=
  ((ps.splitBy fun a b => a.isCode && b.isCode).map (List.filterMap text?)).filter (!·.isEmpty)

/-- Each piece of one kind has a piece of another kind right after it. -/
def FollowedBy (first second : Piece → Prop) (ps : List Piece) : Prop :=
  ∀ i a, ps[i]? = some a → first a → ∃ b, ps[i + 1]? = some b ∧ second b

/-- Nothing runs together in some pieces with the given codes, each in lines. -/
structure Separated (codes : List (List String)) (ps : List Piece) : Prop where
  tables : FollowedBy (· = .table) (· = .blank) ps
  /-- Each stretch of code is one whole code. -/
  stretches : stretches ps = codes
  /-- What comes after a line of code is another line, or the end of the stretch. -/
  lines : FollowedBy (·.isCode) (fun b => b.isCode ∨ b = .blank) ps

@[simp] theorem followedBy_nil (first second : Piece → Prop) : FollowedBy first second [] := nofun

@[simp] theorem followedBy_cons {first second : Piece → Prop} {a : Piece} {ps : List Piece} :
    FollowedBy first second (a :: ps) ↔
      (first a → ∃ b, ps.head? = some b ∧ second b) ∧ FollowedBy first second ps := by
  constructor
  · intro h
    exact ⟨fun ha => by simpa [List.head?_eq_getElem?] using h 0 a rfl ha,
      fun i b hb => h (i + 1) b hb⟩
  · rintro ⟨hhead, hrest⟩ i b hb hfirst
    cases i with
    | zero =>
      obtain rfl := Option.some.inj hb
      simpa [List.head?_eq_getElem?] using hhead hfirst
    | succ i => exact hrest i b hb hfirst

theorem FollowedBy.append {first second : Piece → Prop} {ps qs : List Piece}
    (hps : FollowedBy first second ps) (hqs : FollowedBy first second qs) :
    FollowedBy first second (ps ++ qs) := by
  intro i a ha hfirst
  rcases Nat.lt_or_ge i ps.length with hi | hi
  · rw [List.getElem?_append_left hi] at ha
    obtain ⟨b, hb, hsecond⟩ := hps i a ha hfirst
    refine ⟨b, ?_, hsecond⟩
    have hnext := (List.getElem?_eq_some_iff.mp hb).1
    rwa [List.getElem?_append_left hnext]
  · rw [List.getElem?_append_right hi] at ha
    obtain ⟨b, hb, hsecond⟩ := hqs _ a ha hfirst
    refine ⟨b, ?_, hsecond⟩
    rwa [List.getElem?_append_right (Nat.le_succ_of_le hi), Nat.succ_sub hi]

/-- The last piece is not one that must have another after it. -/
theorem FollowedBy.getLast? {first second : Piece → Prop} {ps : List Piece}
    (h : FollowedBy first second ps) {a : Piece} (ha : a ∈ ps.getLast?) : ¬ first a := by
  intro hfirst
  rw [List.getLast?_eq_getElem?] at ha
  obtain ⟨b, hb, -⟩ := h _ a ha hfirst
  have hbound := (List.getElem?_eq_some_iff.mp hb).1
  omega

theorem stretches_append {ps qs : List Piece} (h : ∀ a ∈ ps.getLast?, a.isCode = false) :
    stretches (ps ++ qs) = stretches ps ++ stretches qs := by
  have hcut : ∀ a ∈ ps.getLast?, ∀ b ∈ qs.head?, (a.isCode && b.isCode) = false :=
    fun a ha b _ => by rw [h a ha, Bool.false_and]
  rw [stretches, List.splitBy_append hcut, List.map_append, List.filter_append]
  rfl

namespace Separated

variable {codes more : List (List String)} {ps qs : List Piece}

theorem nil : Separated [] [] := ⟨nofun, rfl, nofun⟩

/-- Neither a table nor a line of code comes last, so more can be put after them. -/
theorem append (hps : Separated codes ps) (hqs : Separated more qs) :
    Separated (codes ++ more) (ps ++ qs) where
  tables := hps.tables.append hqs.tables
  stretches := by
    have hlast : ∀ a ∈ ps.getLast?, a.isCode = false := fun a ha => by
      simpa using hps.lines.getLast? ha
    rw [stretches_append hlast, hps.stretches, hqs.stretches]
  lines := hps.lines.append hqs.lines

end Separated

/-! ## Groups -/

/-- The pieces of one node, with its lines if it is code. -/
inductive Group : Option (List String) → List Piece → Prop
  | code {texts : List String} (hne : texts ≠ []) (hlines : ∀ t ∈ texts, lineEnded t = t) :
    Group (some texts) (texts.map .code ++ [.blank])
  | table : Group none [.table, .blank]
  | blank : Group none [.blank]
  | other : Group none [.other]
  | nothing : Group none []

theorem tables_code (texts : List String) :
    FollowedBy (· = .table) (· = .blank) (texts.map .code ++ [.blank]) := by
  induction texts with
  | nil => simp
  | cons t texts ih => simpa using ih

theorem lines_code (texts : List String) :
    FollowedBy (·.isCode) (fun b => b.isCode ∨ b = .blank) (texts.map .code ++ [.blank]) := by
  induction texts with
  | nil => simp
  | cons t texts ih =>
    cases texts with
    | nil => simp
    | cons u texts => simpa using ih

theorem stretches_code {texts : List String} (h : texts ≠ []) :
    stretches (texts.map .code ++ [.blank]) = [texts] := by
  have hchain : (texts.map code).IsChain fun a b => (a.isCode && b.isCode) = true :=
    (List.isChain_map code).mpr (List.pairwise_of_forall fun _ _ => rfl).isChain
  have hcut : ∀ a ∈ (texts.map code).getLast?, ∀ b ∈ [blank].head?,
      (a.isCode && b.isCode) = false := by simp
  have htexts : (texts.map code).filterMap text? = texts := by
    simp [List.filterMap_map, Function.comp_def, text?]
  have hne : texts.map code ≠ [] := by simpa using h
  rw [stretches, List.splitBy_append hcut, List.splitBy_of_isChain hne hchain]
  simp [htexts, h, List.splitBy, List.splitBy.loop, text?]

theorem Group.separated {code : Option (List String)} {group : List Piece}
    (h : Group code group) : Separated code.toList group := by
  cases h with
  | @code texts hne _ => exact ⟨tables_code texts, stretches_code hne, lines_code texts⟩
  | table => exact ⟨by simp, rfl, by simp⟩
  | blank => exact ⟨by simp, rfl, by simp⟩
  | other => exact ⟨by simp, rfl, by simp⟩
  | nothing => exact .nil

theorem separated_flatten {codes : List (Option (List String))} {groups : List (List Piece)}
    (h : List.Forall₂ Group codes groups) : Separated (codes.filterMap id) groups.flatten := by
  induction h with
  | nil => exact .nil
  | @cons code group codes groups hfirst _ ih =>
    have hall := hfirst.separated.append ih
    cases code <;> exact hall

/-- The pieces that a piece can become when it is written to a document file: a table without cells
is left out, and contents that leave no elements leave a blank piece. -/
inductive ShownAs : Piece → List Piece → Prop
  | table : ShownAs .table [.table]
  | dropped : ShownAs .table []
  | code (text : String) : ShownAs (.code text) [.code (lineEnded text)]
  | blank : ShownAs .blank [.blank]
  | other : ShownAs .other [.other]
  | emptied : ShownAs .other [.blank]
  | foreign : ShownAs .other []

theorem shownAs_code {texts : List String} {parts : List (List Piece)}
    (hlines : ∀ t ∈ texts, lineEnded t = t)
    (hshown : List.Forall₂ ShownAs (texts.map .code ++ [.blank]) parts) :
    parts = (texts.map Piece.code ++ [Piece.blank]).map ([·]) := by
  induction texts generalizing parts with
  | nil =>
    obtain ⟨first, none, hblank, hnone, rfl⟩ := List.forall₂_cons_left_iff.mp hshown
    cases hnone
    cases hblank
    rfl
  | cons t texts ih =>
    obtain ⟨first, rest, ht, hrest, rfl⟩ := List.forall₂_cons_left_iff.mp hshown
    obtain ⟨hline, hlines⟩ := List.forall_mem_cons.mp hlines
    cases ht
    rw [hline, ih hlines hrest]
    rfl

/-- What a group becomes is a group with the same code. -/
theorem Group.shown {code : Option (List String)} {group : List Piece} {parts : List (List Piece)}
    (h : Group code group) (hshown : List.Forall₂ ShownAs group parts) :
    Group code parts.flatten := by
  cases h with
  | @code texts hne hlines =>
    rw [shownAs_code hlines hshown, ← List.flatMap_def, List.flatMap_singleton']
    exact .code hne hlines
  | table =>
    obtain ⟨first, rest, htable, hrest, rfl⟩ := List.forall₂_cons_left_iff.mp hshown
    obtain ⟨second, none, hblank, hnone, rfl⟩ := List.forall₂_cons_left_iff.mp hrest
    cases hnone
    cases hblank
    cases htable with
    | table => exact .table
    | dropped => exact .blank
  | blank =>
    obtain ⟨first, none, hblank, hnone, rfl⟩ := List.forall₂_cons_left_iff.mp hshown
    cases hnone
    cases hblank
    exact .blank
  | other =>
    obtain ⟨first, none, hother, hnone, rfl⟩ := List.forall₂_cons_left_iff.mp hshown
    cases hnone
    cases hother with
    | other => exact .other
    | emptied => exact .blank
    | foreign => exact .nothing
  | nothing =>
    cases hshown
    exact .nothing

end Piece

/-! ## Blocks -/

/-- A block of a document as a piece. A paragraph is shaded when it has a fill. -/
def Block.piece : Block → Piece
  | .table _ => .table
  | .paragraph p =>
    if (given? p.shading).isSome then .code p.plainText
    else if p.members.isEmpty then .blank
    else .other
  | .foreign _ => .other

theorem Block.piece_quoted (b : Block) : b.quoted.piece = b.piece := by
  cases b <;> rfl

theorem map_piece_decorate (q : Bool) (bs : List Block) :
    (decorate q bs).map Block.piece = bs.map Block.piece := by
  cases q with
  | false => rfl
  | true => simp [decorate, Block.piece_quoted, Function.comp_def]

theorem Paragraph.group_piece {p : Paragraph} (h : p.shading = none) :
    Piece.Group none [(Block.paragraph p).piece] := by
  have hpiece : (Block.paragraph p).piece = if p.members.isEmpty then .blank else .other := by
    rw [Block.piece, h]
    rfl
  rw [hpiece]
  split
  · exact .blank
  · exact .other

/-- A line of code as it is shown. An empty line holds a blank. -/
def lineText (line : List Char) : String := if line.isEmpty then " " else String.ofList line

theorem piece_codeLine (line : List Char) :
    (Block.paragraph (codeLine line)).piece = .code (lineText line) := by
  have htext : (codeLine line).plainText = lineText line := by
    simp [codeLine, Paragraph.plainText, Member.plainText, Member.runs, Run.plainText, lineText,
      String.join]
  rw [Block.piece, htext]
  rfl

theorem lineEnded_lineText {line : List Char} (h : '\r' ∉ line) :
    lineEnded (lineText line) = lineText line := by
  unfold lineText
  split
  · rfl
  · have hsame : line.map (fun c => if c = '\r' then '\n' else c) = line.map id :=
      List.map_congr_left fun c hc => if_neg (ne_of_mem_of_not_mem hc h)
    rw [lineEnded, String.toList_ofList, hsame, List.map_id]

end Word
open Word

/-- The lines of a node that is code, as they are shown. -/
def Node.codeLines? : Node → Option (List String)
  | .code v _ => some ((Text.lines v.toList).map lineText)
  | _ => none

/-- The codes among some nodes and those below them that blocks are made from. -/
def Node.codes (ns : List Node) : List (List String) := (reached ns).filterMap codeLines?

theorem Site.group_blocks (o : Overflow) (t : Site) :
    Piece.Group t.node.codeLines? ((t.blocks o).map Block.piece) := by
  rw [Site.blocks, map_piece_decorate]
  unfold plainBlocks
  split
  · next hnode =>
    rw [hnode]
    exact Paragraph.group_piece rfl
  · next hnode _ =>
    rw [hnode]
    exact Paragraph.group_piece rfl
  · next hnode _ =>
    rw [hnode]
    exact Paragraph.group_piece rfl
  · next v lang hnode =>
    rw [hnode]
    have hpieces : (codeBlocks v).map Block.piece =
        ((Text.lines v.toList).map lineText).map .code ++ [.blank] := by
      simp [codeBlocks, piece_codeLine, Function.comp_def]
      rfl
    rw [hpieces]
    refine .code (by simpa using Text.lines_ne_nil _) (List.forall_mem_map.mpr fun line hline => ?_)
    exact lineEnded_lineText (Text.notMem_of_mem_lines hline).1
  · next hnode =>
    rw [hnode]
    exact .table
  · next hnode =>
    rw [hnode]
    exact Paragraph.group_piece rfl
  · next hcode _ _ _ =>
    have hcode : t.node.codeLines? = none := by
      unfold Node.codeLines?
      split
      · next v lang hnode => exact absurd hnode (hcode v lang)
      · rfl
    rw [hcode]
    exact .nothing

namespace Word

/-! ## Elements of the body -/

/-- Whether an element of a paragraph has a fill among its properties. -/
def Xml.isShaded (x : Xml) : Bool :=
  (child? "w:pPr" x.children).any fun properties => (child? "w:shd" properties.children).isSome

/-- The text that a reader finds in an element of a paragraph. Styles do not matter for it. -/
def Xml.shownText (x : Xml) : String := String.join ((x.seenRuns []).map SeenRun.text)

/-- An element of the body as a piece. -/
def Xml.piece (x : Xml) : Piece :=
  if x.tag = "w:tbl" then .table
  else if x.tag ≠ "w:p" then .other
  else if x.isShaded then .code x.shownText
  else if x.children.all (·.tag == "w:pPr") then .blank
  else .other

theorem lineEnded_join (ss : List String) :
    lineEnded (String.join ss) = String.join (ss.map lineEnded) := by
  induction ss with
  | nil => rfl
  | cons s ss ih =>
    rw [List.map_cons, String.join_cons, String.join_cons, ← ih]
    simp [lineEnded]

theorem Xml.shownText_eq {x : Xml} {styles : List StyleEntry} {p : Paragraph}
    (h : x.seenRuns styles = p.seen) : x.shownText = lineEnded p.plainText := by
  have hstyles : (x.seenRuns []).map SeenRun.text = (x.seenRuns styles).map SeenRun.text := by
    simp [seenRuns, seenRun, Function.comp_def]
  rw [shownText, hstyles, h, p.plainText_eq_runs, lineEnded_join]
  simp [Paragraph.seen, Run.seen, Function.comp_def]

theorem Xml.IsLaidOut.isShaded {numbers : ListNumbers} {p : Paragraph} {x : Xml}
    (h : x.IsLaidOut numbers p) : x.isShaded = (given? p.shading).isSome := by
  obtain ⟨ps, members, rfl, hmembers, hps⟩ := h
  have hnone : child? "w:pPr" members = none :=
    List.find?_eq_none.mpr fun x hx => by simpa using hmembers x hx
  have hfill : (given? p.shading).isSome = true ↔ ∃ fill ∈ p.shading, fill ≠ "" := by
    simp [given?, Option.isSome_filter, Option.any_eq_true]
  have hown : (child? "w:shd" ps).isSome = (given? p.shading).isSome := by
    rw [Bool.eq_iff_iff, hfill, ← hps.shading, child?, List.find?_isSome]
    simp
  rw [← hown]
  cases ps with
  | nil => simp [Xml.isShaded, group, children, hnone]
  | cons x ps => simp [Xml.isShaded, group, children, Xml.tag]

/-- A paragraph without members has no elements but its properties. -/
theorem Paragraph.markup_of_members_eq_nil {p : Paragraph} (h : p.members = []) (s : Surroundings)
    (style : Option String) (t : Targets) :
    Leaves (p.markup s style) t fun x _ => x.children.all (·.tag == "w:pPr") = true := by
  unfold markup
  rw [h, List.mapM_nil]
  refine Leaves.bind_any fun ps u => ?_
  rw [pure_bind]
  refine Leaves.pure ?_
  cases ps with
  | nil => rfl
  | cons x ps => rfl

theorem Paragraph.Writable.shownAs_markup {p : Paragraph} (h : p.Writable) (numbers : ListNumbers)
    {style : Option String} (hstyle : style.isSome = p.isHeading) (t : Targets) :
    Leaves (p.markup ⟨numbers, true⟩ style) t fun x _ =>
      (Block.paragraph p).piece.ShownAs [x.piece] := by
  have hlaid := isLaidOut_markup hstyle numbers true t
  have hseen := h.seen_markup numbers style t
  have hblank : Leaves (p.markup ⟨numbers, true⟩ style) t fun x _ =>
      p.members = [] → x.children.all (·.tag == "w:pPr") = true := by
    by_cases hnone : p.members = []
    · exact (markup_of_members_eq_nil hnone _ style t).mono fun x _ hx _ => hx
    · exact hseen.mono fun x _ _ hmembers => absurd hmembers hnone
  refine (hlaid.and (hseen.and hblank)).mono fun x _ ⟨hlaid, ⟨htag, hruns⟩, hblank⟩ => ?_
  have htable : x.tag ≠ "w:tbl" := by rw [htag]; decide
  rw [Block.piece, Xml.piece, if_neg htable, if_neg (not_not_intro htag), hlaid.isShaded,
    Xml.shownText_eq hruns]
  cases (given? p.shading).isSome with
  | true => exact .code p.plainText
  | false =>
    rw [if_neg Bool.false_ne_true, if_neg Bool.false_ne_true]
    cases hmembers : p.members with
    | nil =>
      rw [if_pos (hblank hmembers)]
      exact .blank
    | cons m ms =>
      rw [List.isEmpty_cons, if_neg Bool.false_ne_true]
      split
      · exact .emptied
      · exact .other

theorem Table.shownAs_markup (t : Table) (s : Surroundings) (u : Targets) :
    Leaves (t.markup s) u fun xs _ => Piece.table.ShownAs (xs.map Xml.piece) := by
  unfold markup
  dsimp only
  split
  · exact Leaves.pure .dropped
  · exact Leaves.bind_any fun rows v => Leaves.pure .table

theorem Block.Writable.shownAs_markup {b : Block} (h : b.Writable) (numbers : ListNumbers)
    (t : Targets) :
    Leaves (b.markup ⟨numbers, true⟩) t fun xs _ => b.piece.ShownAs (xs.map Xml.piece) := by
  cases b with
  | paragraph p =>
    refine (Leaves.of_yields p.isSome_style? t).bind fun style u hstyle => ?_
    refine (Paragraph.Writable.shownAs_markup h numbers hstyle u).bind fun x v hx => ?_
    exact Leaves.pure hx
  | table t => exact t.shownAs_markup _ _
  | foreign kind => exact Leaves.pure .foreign

end Word

/-! ## Documents -/

theorem Node.group_sitesOf (o : Overflow) (depth : Int) (nodes : List Node) :
    ∃ codes groups, List.Forall₂ Piece.Group codes groups ∧
      codes.filterMap id = Node.codes nodes ∧
      groups.flatten = (blocksAll o depth nodes).map Block.piece := by
  refine ⟨(sitesOf { depth } nodes).map fun t => t.node.codeLines?,
    (sitesOf { depth } nodes).map fun t => (t.blocks o).map Block.piece, ?_, ?_, ?_⟩
  · exact List.forall₂_map_left_iff.mpr <| List.forall₂_map_right_iff.mpr <|
      List.forall₂_same.mpr fun t _ => t.group_blocks o
  · have hopen (n : Node) (hn : n.isOpen = true) : n.codeLines? = none := by
      cases n <;> first | rfl | cases hn
    rw [codes, ← filterMap_sitesOf hopen nodes { depth }, List.filterMap_map]
    rfl
  · rw [blocksAll_eq_sites, List.map_flatMap, List.flatMap_def]

/-- Among the blocks of some nodes, and in the body of each document with these blocks, an empty
paragraph comes right after each table, and the shaded stretches are the codes of the nodes, each
followed by an empty paragraph. -/
theorem Node.separated_blocksAll (o : Overflow) (depth : Int) (nodes : List Node) :
    Piece.Separated (codes nodes) ((blocksAll o depth nodes).map Block.piece) ∧
    ∀ (d : Document) p ws, d.blocks = blocksAll o depth nodes → d.render = .ok (p, ws) →
      Piece.Separated (codes nodes) (p.body.map Xml.piece) := by
  obtain ⟨cs, groups, hgroups, hcodes, hblocks⟩ := group_sitesOf o depth nodes
  rw [← hcodes, ← hblocks]
  refine ⟨Piece.separated_flatten hgroups, fun d p ws hd hrender => ?_⟩
  have hmarkup : ∀ numbers, ∀ b ∈ d.blocks, ∀ t, Leaves (b.markup ⟨numbers, true⟩) t
      fun xs _ => b.piece.ShownAs (xs.map Xml.piece) := fun numbers b hb t =>
    Block.Writable.shownAs_markup (writable_blocksAll (hd ▸ hb)) numbers t
  obtain ⟨parts, hparts, hbody⟩ := Document.body_of_markup hmarkup _ hrender
  have hpieces : List.Forall₂ Piece.ShownAs groups.flatten (parts.map (List.map Xml.piece)) := by
    rw [hblocks, ← hd]
    exact List.forall₂_map_left_iff.mpr (List.forall₂_map_right_iff.mpr hparts)
  obtain ⟨shown, hflatten, hshown⟩ := exists_forall₂_flatten hpieces
  have hkept : List.Forall₂ Piece.Group cs (shown.map List.flatten) :=
    List.forall₂_map_right_iff.mpr <| (forall₂_comp hgroups hshown).imp
      fun _ _ ⟨_, hgroup, hparts⟩ => hgroup.shown hparts
  have hall := Piece.separated_flatten hkept
  rwa [← List.flatten_flatten, hflatten, ← List.map_flatten, ← hbody] at hall

/-- Codes and tables next to each other, one of the tables without cells. -/
theorem Node.separated_blocksAll_adjacent :
    let table : Node := .table [] [.row [.cell []]]
    let nodes : List Node := [
      .list false none [.item none [.code "a\r\n\n\tb" none, .code "" none]],
      .quote [.code "c" none, .table [] [], table, table]]
    ∃ p ws, (Document.ofNodes nodes none .clamp).render = .ok (p, ws) ∧
      Piece.Separated [["a", " ", "\tb"], [" "], ["c"]] (p.body.map Xml.piece) := by
  intro table nodes
  have hwritable : Node.Writable .clamp nodes := by decide
  obtain ⟨p, ws, hrender⟩ := Document.exists_render_ofNodes hwritable
  have hcodes : codes nodes = [["a", " ", "\tb"], [" "], ["c"]] := by decide
  refine ⟨p, ws, hrender, ?_⟩
  rw [← hcodes]
  exact (separated_blocksAll .clamp 0 nodes).2 _ p ws rfl hrender

end MarkdownWord
