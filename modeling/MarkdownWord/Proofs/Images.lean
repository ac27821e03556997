import MarkdownWord.Node.OfMarkdown
import MarkdownWord.Proofs.NodeTexts
import MarkdownWord.Proofs.UnmarkedTexts

/-!
# Images and their descriptions

The description of an image is known in two forms, as it is written and as it is read. The images of
a tree are those of the text, in its order, and carry the written form. The two forms are the same
where nothing but text starts in the description (`Node.images_ofMarkdown`).
-/

namespace MarkdownWord

/-! ## Images in a text -/

namespace Markdown

/-- An image as it stands in a text. -/
structure Picture where
  destination : List Char
  /-- The description as it is written. -/
  label : List Char
  /-- The description as it is read. -/
  spans : List Span

mutual
/-- The images in a span. Those in the description of an image are part of that description. -/
def Span.pictures : Span → List Picture
  | .emphasis spans | .strong spans | .strike spans | .link _ _ spans => picturesAll spans
  | .image destination _ label spans => [⟨destination, label, spans⟩]
  | .text _ | .code _ | .softBreak | .hardBreak | .html _ => []

def picturesAll : List Span → List Picture
  | [] => []
  | s :: rest => s.pictures ++ picturesAll rest
end

mutual
/-- The texts under a block that are read for their inline content, in reading order. -/
def Block.texts : Block → List (List Char)
  | .heading _ text | .paragraph text => [text]
  | .quote blocks => textsAll blocks
  | .list _ items => textsItems items
  | .table _ header rows => (header :: rows).flatten
  | .indented _ | .fenced _ _ | .rule | .html _ => []

def textsAll : List Block → List (List Char)
  | [] => []
  | b :: rest => b.texts ++ textsAll rest

def textsItems : List (List Block) → List (List Char)
  | [] => []
  | item :: rest => textsAll item ++ textsItems rest
end

def textPictures (definitions : List Definition) (text : List Char) : List Picture :=
  picturesAll (readSpans definitions text)

/-- The images of a text that has been read into blocks. -/
def Reading.pictures (r : Reading) : List Picture :=
  (textsAll r.blocks).flatMap (textPictures r.definitions)

theorem mem_picturesAll {p : Picture} {spans : List Span} :
    p ∈ picturesAll spans ↔ ∃ s ∈ spans, p ∈ s.pictures := by
  induction spans with
  | nil => simp [picturesAll]
  | cons s spans ih => simp [picturesAll, ih]

/-- A span with descriptions that are read from what is written. -/
def Span.Describes (definitions : List Definition) (s : Span) : Prop :=
  ∀ p ∈ s.pictures, p.spans = readSpans definitions p.label

theorem made_describes (definitions : List Definition) :
    Made definitions (fun _ => True) (Span.Describes definitions) := by
  have hall {spans : List Span} (h : ∀ s ∈ spans, s.Describes definitions) :
      ∀ p ∈ picturesAll spans, p.spans = readSpans definitions p.label := fun p hp =>
    have ⟨s, hs, hmem⟩ := mem_picturesAll.mp hp
    h s hs p hmem
  have hnone {s : Span} (h : s.pictures = []) : s.Describes definitions := fun p hp => by
    rw [h] at hp
    cases hp
  have hshown (shown : List Char) : picturesAll (joinTexts ([shown].map .text)) = [] := by
    rw [joinTexts_of_texts]
    split <;> rfl
  refine
    { text := fun _ => hnone (by rw [Span.pictures])
      enclosure := fun e spans h => ?_
      target := fun _ _ _ _ _ _ _ => trivial
      code := fun _ => hnone (by rw [Span.pictures])
      softBreak := hnone (by rw [Span.pictures])
      hardBreak := hnone (by rw [Span.pictures])
      html := fun _ => hnone (by rw [Span.pictures])
      address := fun {_ _ shown _} _ => hnone (hshown shown)
      link := fun _ h => ?_
      image := fun _ _ _ p hp => ?_ }
  · cases e <;> exact hall h
  · exact hall h
  · rw [Span.pictures, List.mem_singleton] at hp
    rw [hp]

/-- The description of each image is read from what is written of it. -/
theorem Reading.describes (r : Reading) :
    ∀ p ∈ r.pictures, p.spans = readSpans r.definitions p.label := by
  intro p hp
  obtain ⟨text, -, hp⟩ := List.mem_flatMap.mp hp
  obtain ⟨s, hs, hp⟩ := mem_picturesAll.mp hp
  exact readSpans_have (made_describes r.definitions) text s hs p hp

end Markdown

/-! ## Images in a tree -/

namespace Node

/-- Where an image leads, and its description. -/
def image? : Node → Option (String × Option String)
  | .image url alt _ => some (url, alt)
  | _ => none

/-- The images under some nodes, in reading order. -/
def images (ns : List Node) : List (String × Option String) :=
  (leavesOf [] ns).filterMap fun l => l.node.image?

theorem images_eq (path : List Node) (ns : List Node) :
    images ns = (leavesOf path ns).filterMap fun l => l.node.image? := by
  have h := congrArg (List.filterMap image?) (leavesOf_congr [] path ns)
  rwa [List.filterMap_map, List.filterMap_map] at h

theorem images_nil : images [] = [] := by simp [images, leavesOf]

theorem images_cons (n : Node) (ns : List Node) : images (n :: ns) = images [n] ++ images ns := by
  simp [images, leavesOf]

theorem images_append (ms ns : List Node) : images (ms ++ ns) = images ms ++ images ns := by
  induction ms with
  | nil => simp [images_nil]
  | cons m ms ih => rw [List.cons_append, images_cons, ih, images_cons m ms, List.append_assoc]

theorem images_of_children? {n : Node} {cs : List Node} (h : n.children? = some cs) :
    images [n] = images cs := by
  obtain ⟨path, hpath⟩ := (leaves_of_children? h).2
  rw [images, leavesOf_singleton, hpath, ← images_eq]

theorem images_leaf {n : Node} (h : n.children? = none) : images [n] = n.image?.toList := by
  rw [images, leavesOf_singleton, (leaves_of_leaf h).2]
  cases himage : n.image? <;> simp [himage]

/-- A task marker is no image. -/
theorem images_itemOf (content : List Node) : images [itemOf content] = images content := by
  rcases itemOf_cases content with ⟨⟨checked, hitem⟩, -⟩ |
    ⟨v, checked, left, more, rest, rfl, -, hitem⟩
  · rw [hitem, images_of_children? rfl]
  · have htext (v : String) (ns : List Node) : images (.text v :: ns) = images ns := by
      rw [images_cons, images_leaf rfl]
      rfl
    rw [hitem, images_of_children? rfl, images_cons, images_of_children? rfl, images_cons _ rest,
      images_of_children? rfl, htext]
    split
    · rfl
    · rw [htext]

end Node

namespace Markdown

/-- Where an image leads, with a text as its description. An empty text describes nothing. -/
def Picture.describedBy (p : Picture) (text : List Char) : String × Option String :=
  (String.ofList p.destination, if text.isEmpty then none else some (String.ofList text))

/-- An image described as it is written. -/
def Picture.asWritten (p : Picture) : String × Option String := p.describedBy p.label

/-- An image described by the text of what is read. -/
def Picture.asRead (p : Picture) : String × Option String :=
  p.describedBy (Node.textAll (spansToNodes p.spans))

mutual
theorem images_toNodes : ∀ s : Span, Node.images s.toNodes = s.pictures.map Picture.asWritten
  | .text s => by
    unfold Span.toNodes
    split
    · exact Node.images_nil
    · exact Node.images_leaf rfl
  | .code _ | .softBreak | .hardBreak | .html _ => Node.images_leaf rfl
  | .image _ _ _ _ => Node.images_leaf rfl
  | .emphasis spans | .strong spans | .strike spans | .link _ _ spans =>
    (Node.images_of_children? rfl).trans (images_spansToNodes spans)

theorem images_spansToNodes : ∀ spans : List Span,
    Node.images (spansToNodes spans) = (picturesAll spans).map Picture.asWritten
  | [] => Node.images_nil
  | s :: rest => by
    rw [spansToNodes, Node.images_append, images_toNodes s, images_spansToNodes rest, picturesAll,
      List.map_append]
end

section Blocks

variable (definitions : List Definition)

theorem images_inlineNodes (text : List Char) : Node.images (inlineNodes definitions text) =
    (textPictures definitions text).map Picture.asWritten :=
  images_spansToNodes _

theorem images_rowNode (cells : List (List Char)) : Node.images [rowNode definitions cells] =
    (cells.flatMap (textPictures definitions)).map Picture.asWritten := by
  rw [rowNode, Node.images_of_children? rfl]
  induction cells with
  | nil => exact Node.images_nil
  | cons c cells ih =>
    rw [List.map_cons, Node.images_cons, ih, Node.images_of_children? rfl, images_inlineNodes,
      List.flatMap_cons, List.map_append]

theorem images_rows (rows : List (List (List Char))) :
    Node.images (rows.map (rowNode definitions)) =
      (rows.flatten.flatMap (textPictures definitions)).map Picture.asWritten := by
  induction rows with
  | nil => exact Node.images_nil
  | cons row rows ih =>
    rw [List.map_cons, Node.images_cons, ih, images_rowNode, List.flatten_cons, List.flatMap_append,
      List.map_append]

mutual
theorem images_toNode : ∀ b : Block, Node.images [b.toNode definitions] =
    (b.texts.flatMap (textPictures definitions)).map Picture.asWritten
  | .heading _ text | .paragraph text => by
    rw [Block.toNode, Node.images_of_children? rfl, images_inlineNodes, Block.texts,
      List.flatMap_singleton]
  | .quote blocks => by
    rw [Block.toNode, Node.images_of_children? rfl, images_blocksToNodes blocks, Block.texts]
  | .list _ items => by
    rw [Block.toNode, Node.images_of_children? rfl, images_itemsToNodes items, Block.texts]
  | .table _ header rows => by
    rw [Block.toNode, Node.images_of_children? rfl, images_rows, Block.texts]
  | .indented _ | .fenced _ _ | .rule | .html _ => by
    rw [Block.toNode, Block.texts]
    exact Node.images_leaf rfl

theorem images_blocksToNodes : ∀ bs : List Block, Node.images (blocksToNodes definitions bs) =
    ((textsAll bs).flatMap (textPictures definitions)).map Picture.asWritten
  | [] => Node.images_nil
  | b :: rest => by
    rw [blocksToNodes, Node.images_cons, images_toNode b, images_blocksToNodes rest, textsAll,
      List.flatMap_append, List.map_append]

theorem images_itemsToNodes : ∀ items : List (List Block),
    Node.images (itemsToNodes definitions items) =
      ((textsItems items).flatMap (textPictures definitions)).map Picture.asWritten
  | [] => Node.images_nil
  | item :: rest => by
    rw [itemsToNodes, Node.images_cons, Node.images_itemOf, images_blocksToNodes item,
      images_itemsToNodes rest, textsItems, List.flatMap_append, List.map_append]
end

end Blocks

/-- Where nothing but text starts in a description, the two forms of it are the same. -/
theorem Picture.asWritten_eq_asRead {definitions : List Definition} {p : Picture}
    (hspans : p.spans = readSpans definitions p.label) (h : isUnmarked ' ' p.label = true) :
    p.asWritten = p.asRead := by
  have htext : Node.textAll (spansToNodes p.spans) = p.label := by
    rw [hspans, readSpans_unmarked h]
    cases hlabel : p.label with
    | nil => exact Node.textAll_nil
    | cons c rest => simp [spansToNodes, Span.toNodes, Node.textAll_text]
  rw [asRead, htext, asWritten]

end Markdown

namespace Node
open Markdown

/-- The images of a tree are those of its text, each described as it is written. -/
theorem images_eq_pictures (s : String) :
    images [ofMarkdown s] = (readDocument s.toList).pictures.map Picture.asWritten := by
  rw [ofMarkdown, images_of_children? rfl]
  exact images_blocksToNodes _ _

/-- A paragraph that is nothing but an image with a flat description. -/
theorem pictures_paragraph {s label rest : List Char} {target : Target}
    (hs : readDocument s = ⟨[.paragraph ('!' :: '[' :: (label ++ ']' :: '(' :: rest))], [], 1⟩)
    (hflat : label.all isFlat = true) (htarget : scanTarget rest = .found target []) :
    (readDocument s).pictures = [⟨target.destination, label, readSpans [] label⟩] := by
  rw [hs]
  simp [Reading.pictures, textsAll, Block.texts, textPictures, readSpans_image [] hflat htarget,
    picturesAll, Span.pictures]

/-- The images of the tree of a text are those of the text in reading order. Each carries its
description as it is written, where the text of what is read from it would be due. The two are the
same if nothing but text starts in the description. -/
theorem images_ofMarkdown (s : String) :
    let document := readDocument s.toList
    images [ofMarkdown s] = document.pictures.map Picture.asWritten ∧
      ∀ p ∈ document.pictures, p.spans = readSpans document.definitions p.label ∧
        (isUnmarked ' ' p.label = true → p.asWritten = p.asRead) := by
  intro document
  refine ⟨images_eq_pictures s, fun p hp => ?_⟩
  have hspans := document.describes p hp
  exact ⟨hspans, p.asWritten_eq_asRead hspans⟩

/-- Underscores inside a word and a star between blanks are no markup. -/
theorem images_ofMarkdown_plain :
    let s := "![snake_case, 2 * 3](/a)"
    let document := readDocument s.toList
    let picture : Picture :=
      ⟨"/a".toList, "snake_case, 2 * 3".toList, readSpans [] "snake_case, 2 * 3".toList⟩
    document.pictures = [picture] ∧ isUnmarked ' ' picture.label = true ∧
      images [ofMarkdown s] = [picture.asRead] ∧
      picture.asRead = ("/a", some "snake_case, 2 * 3") := by
  have hread : readDocument "![snake_case, 2 * 3](/a)".toList =
      ⟨[.paragraph "![snake_case, 2 * 3](/a)".toList], [], 1⟩ := by with_unfolding_all rfl
  have hflat : "snake_case, 2 * 3".toList.all isFlat = true := by decide
  have htarget : scanTarget "/a)".toList = .found ⟨"/a".toList, []⟩ [] := by with_unfolding_all rfl
  have hunmarked : isUnmarked ' ' "snake_case, 2 * 3".toList = true := by decide +kernel
  intro s document picture
  have hpictures : document.pictures = [picture] := pictures_paragraph hread hflat htarget
  obtain ⟨himages, hall⟩ := images_ofMarkdown s
  have hsame := (hall picture (hpictures ▸ List.mem_cons_self)).2 hunmarked
  refine ⟨hpictures, hunmarked, ?_, ?_⟩
  · rw [himages, hpictures, List.map_singleton, hsame]
  · rw [← hsame]
    decide

/-- The stars around an emphasized word are shown with it. -/
theorem images_not_as_read :
    ¬ ∀ s : String, images [ofMarkdown s] = (readDocument s.toList).pictures.map Picture.asRead := by
  have hread : readDocument "![a *b*](u)".toList =
      ⟨[.paragraph "![a *b*](u)".toList], [], 1⟩ := by with_unfolding_all rfl
  have hflat : "a *b*".toList.all isFlat = true := by decide
  have htarget : scanTarget "u)".toList = .found ⟨"u".toList, []⟩ [] := by with_unfolding_all rfl
  have hpictures := pictures_paragraph hread hflat htarget
  have hdiffer : Picture.asWritten ⟨"u".toList, "a *b*".toList, readSpans [] "a *b*".toList⟩ ≠
      Picture.asRead ⟨"u".toList, "a *b*".toList, readSpans [] "a *b*".toList⟩ := by
    decide +kernel
  intro hall
  have himages := hall "![a *b*](u)"
  rw [images_eq_pictures, hpictures, List.map_singleton, List.map_singleton] at himages
  exact hdiffer (List.singleton_inj.mp himages)

end Node
end MarkdownWord
