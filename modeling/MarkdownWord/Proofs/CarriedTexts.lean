import MarkdownWord.Proofs.EscapedTexts
import MarkdownWord.Proofs.Hyperlinks
import MarkdownWord.Proofs.Packing

/-!
# Texts that are carried through

A paragraph that holds one text is written as one run without properties, and the pieces of the run
make up the text. With what is known of escaped texts, any line can be carried into a document file
unchanged (`Document.carries_escaped`).
-/

namespace MarkdownWord.Word
open Markdown Text

/-! ## Pieces of text -/

/-- An element of a text without line ends: a stretch of the text, or a tab. Its white space is kept
for a reader that drops it elsewhere. -/
structure Xml.IsPiece (x : Xml) : Prop where
  tag : x.tag = "w:t" ∨ x.tag = "w:tab"
  kept : x.seenText = x.runText

theorem TextPiece.isPiece_markup {piece : TextPiece} (h : piece ≠ .lineBreak) :
    Yields piece.markup Xml.IsPiece := by
  cases piece with
  | lineBreak => exact absurd rfl h
  | tab => exact Yields.pure ⟨.inr rfl, rfl⟩
  | plain cs =>
    refine (legalText_same (String.ofList cs)).bind fun s hs => Yields.pure ⟨.inl rfl, ?_⟩
    subst hs
    by_cases htrim : trimBlank cs = cs
    · simp [htrim, Xml.seenText, Xml.tag, Xml.attribute?, Xml.children, Xml.textOfAll, stripped,
        Xml.runText]
    · simp [htrim, Xml.seenText, Xml.tag, Xml.attribute?, Xml.children, Xml.runText]

theorem lineBreak_not_mem_textPiecesFrom {cs : List Char} (hline : '\n' ∉ cs) (hreturn : '\r' ∉ cs)
    (pending : List Char) : TextPiece.lineBreak ∉ textPiecesFrom pending cs := by
  have hclose (pending : List Char) {rest : List TextPiece} (h : TextPiece.lineBreak ∉ rest) :
      TextPiece.lineBreak ∉ textPiecesFrom.close pending rest := by
    unfold textPiecesFrom.close
    split
    · exact h
    · simpa using h
  induction cs generalizing pending with
  | nil => exact hclose pending List.not_mem_nil
  | cons c cs ih =>
    have ih := ih (fun h => hline (List.mem_cons_of_mem c h))
      fun h => hreturn (List.mem_cons_of_mem c h)
    have hc : ¬ (c = '\n' || c = '\r') = true := by
      rw [Bool.or_eq_true, decide_eq_true_eq, decide_eq_true_eq]
      rintro (rfl | rfl)
      · exact hline List.mem_cons_self
      · exact hreturn List.mem_cons_self
    rw [textPiecesFrom]
    split
    · exact hclose pending (by simpa using ih [])
    · exact ih (c :: pending)

/-- A text without line ends and format is written as a run that has its pieces and nothing else. -/
theorem Run.plain_markup {t : String} (hline : '\n' ∉ t.toList) (hreturn : '\r' ∉ t.toList)
    (withLinks : Bool) :
    Yields ((Run.text t {}).markup withLinks) fun x => ∃ content, x = .group "w:r" content ∧
      (∀ y ∈ content, y.IsPiece) ∧ String.join (content.map Xml.runText) = t := by
  have hpieces : Yields ((textPieces t).mapM TextPiece.markup) fun content =>
      List.Forall₂ (fun piece x =>
        x.IsPiece ∧ x.tag ≠ "w:rPr" ∧ x.seenText.toList = piece.text) (textPieces t) content := by
    refine Yields.mapM fun piece hpiece x hx => ⟨?_, piece.seenText_markup x hx⟩
    refine TextPiece.isPiece_markup (fun heq => ?_) x hx
    exact lineBreak_not_mem_textPiecesFrom hline hreturn [] (heq ▸ hpiece)
  have hproperties : Format.properties withLinks {} = .ok [] := rfl
  rw [Run.markup, hproperties]
  refine hpieces.bind fun content hcontent => Yields.pure ?_
  have hpiece : ∀ x ∈ content, x.IsPiece :=
    forall_mem_of_forall₂ (hcontent.imp fun _ _ hx => hx.1)
  refine ⟨content, rfl, hpiece, ?_⟩
  have hsame : content.map Xml.runText = content.map Xml.seenText :=
    List.map_congr_left fun x hx => (hpiece x hx).kept.symm
  have hkept : (t.toList.map fun c => if c = '\r' then '\n' else c) = t.toList := by
    have hid : ∀ c ∈ t.toList, (if c = '\r' then '\n' else c) = c := fun c hc =>
      if_neg fun heq : c = '\r' => hreturn (heq ▸ hc)
    rw [List.map_congr_left hid, List.map_id']
  rw [hsame, String.ext_iff, (seenText_content (hcontent.imp fun _ _ hx => hx.2)).2, textPieces,
    text_textPiecesFrom, hkept]
  rfl

/-! ## Paragraphs and documents -/

/-- The paragraph of a text without format. -/
def textParagraph (t : String) : Paragraph := paragraphOf [.run (.text t {})]

/-- The element of the paragraph of a text: one run with the pieces of the text, and no properties
but the space after the paragraph. -/
def Xml.IsTextOf (t : String) (x : Xml) : Prop :=
  ∃ content, x = .group "w:p" [.group "w:pPr" [.leaf "w:spacing" [("w:after", "160")]],
      .group "w:r" content] ∧
    (∀ y ∈ content, y.IsPiece) ∧ String.join (content.map Xml.runText) = t

theorem textParagraph_markup {t : String} (hline : '\n' ∉ t.toList) (hreturn : '\r' ∉ t.toList)
    (s : Surroundings) (u : Targets) :
    Leaves ((textParagraph t).markup s none) u fun x _ => x.IsTextOf t := by
  have hproperties : Leaves
      (liftM ((textParagraph t).properties s.numbers none) : Render (List Xml)) u
      fun properties _ => properties = [.leaf "w:spacing" [("w:after", "160")]] := by
    rw [Paragraph.properties_eq]
    exact Leaves.lift fun _ h => (Except.ok.inj h).symm
  have hmember : ∀ m ∈ (textParagraph t).members, ∀ u, Leaves (m.markup s.withLinks) u
      fun xs _ => ∃ content, xs = [.group "w:r" content] ∧ (∀ y ∈ content, y.IsPiece) ∧
        String.join (content.map Xml.runText) = t := by
    intro m hm u
    rw [List.mem_singleton.mp hm]
    refine (Leaves.of_yields (Run.plain_markup hline hreturn s.withLinks) u).bind
      fun x u hx => Leaves.pure ?_
    obtain ⟨content, rfl, hcontent⟩ := hx
    exact ⟨content, rfl, hcontent⟩
  unfold Paragraph.markup
  refine hproperties.bind fun properties u hproperties => ?_
  subst hproperties
  refine (Leaves.mapM hmember u).bind fun parts v hparts => Leaves.pure ?_
  cases hparts with
  | cons hm hrest =>
    cases hrest
    obtain ⟨content, rfl, hpieces, hjoin⟩ := hm
    exact ⟨content, rfl, hpieces, hjoin⟩

theorem textBlock_markup {t : String} (hline : '\n' ∉ t.toList) (hreturn : '\r' ∉ t.toList)
    (s : Surroundings) (u : Targets) :
    Leaves ((Block.paragraph (textParagraph t)).markup s) u fun xs _ =>
      ∃ x, xs = [x] ∧ x.IsTextOf t := by
  have hstyle : Leaves (liftM (textParagraph t).style?) u fun style _ => style = none :=
    Leaves.lift fun _ h => (Except.ok.inj h).symm
  unfold Block.markup
  refine hstyle.bind fun style u hstyle => ?_
  subst hstyle
  exact (textParagraph_markup hline hreturn s u).bind fun x v hx => Leaves.pure ⟨x, rfl, hx⟩

theorem Document.title_of_render (d : Document) :
    Yields d.render fun out => out.1.title = (given? d.title).getD "" := by
  have hrendered := Document.rendered_of_step (d := d)
    (fun _ _ p => p.title = (given? d.title).getD "") (fun numbers p hp => hp.title)
    fun b _ numbers done p hp => Package.addBlock_leaves fun _ _ => hp
  exact fun out hout => (hrendered out hout).elim fun _ h => h.1

/-- Any line without blanks at its ends is carried into a document file unchanged when each of its
ASCII punctuation characters is escaped. -/
theorem Document.carries_escaped {t : String} (hne : t ≠ "") (hxml : isXmlText t = true)
    (hline : '\n' ∉ t.toList) (hreturn : '\r' ∉ t.toList) (htrim : stripped t = t)
    {size : Option Number} (hsize : ∀ n ∈ size, n.isBetween 8 20 = true) (o : Overflow) :
    ∃ p x, (ofNodes (Node.ofMarkdown (String.ofList (escaped t.toList))).children size o).render =
        .ok (p, []) ∧
      p.title = "" ∧ p.links = [] ∧ p.body = [x] ∧ x.IsTextOf t := by
  have htree : (Node.ofMarkdown (String.ofList (escaped t.toList))).children =
      [.paragraph [.text t]] := by
    have hnull : '\x00' ∉ t.toList := fun hmem => by
      have hlegal := List.all_eq_true.mp hxml _ hmem
      exact absurd hlegal (by decide)
    rw [Node.ofMarkdown_escaped (by simpa using hne) hreturn hline hnull ?_, String.ofList_toList]
    · rfl
    · simpa [stripped] using congrArg String.toList htrim
  rw [htree]
  have hwritable : Node.Writable o [.paragraph [.text t]] := by
    refine ⟨by rintro title ⟨⟩, fun depth cs hcs => ?_, fun b hb r hr v hv => ?_⟩
    · simp [Node.reached, Node.beneath] at hcs
    · obtain rfl : b = .paragraph (textParagraph t) := List.mem_singleton.mp hb
      obtain rfl : r = .text t {} := List.mem_singleton.mp hr
      obtain rfl : t = v := Option.some_inj.mp hv
      exact hxml
  obtain ⟨⟨p, ws⟩, hrender⟩ := (Document.render_ofNodes_iff hsize).mpr hwritable
  have hmarkup : ∀ b ∈ (ofNodes [.paragraph [.text t]] size o).blocks, ∀ u,
      Leaves (b.markup ⟨.standard, true⟩) u fun xs _ => ∃ x, xs = [x] ∧ x.IsTextOf t := by
    intro b hb u
    rw [List.mem_singleton.mp hb]
    exact textBlock_markup hline hreturn _ u
  obtain ⟨hholds, hwarnings⟩ := Document.rendered_of_markup rfl hmarkup _ hrender
  obtain ⟨parts, hparts, hbody⟩ := hholds.body
  have htargets : p.targets = [] := (Document.carries_of_render _ _ hrender).targets
  have htitle : p.title = "" := Document.title_of_render _ _ hrender
  cases hparts with
  | cons hx hrest =>
    cases hrest
    obtain ⟨x, rfl, hx⟩ := hx
    obtain rfl : ws = [] := hwarnings
    have hlinks : p.links = [] := by
      unfold Package.links
      rw [htargets]
      rfl
    exact ⟨p, x, hrender, htitle, hlinks, hbody, hx⟩

theorem Document.carries_escaped_marks :
    ∃ p x, (ofNodes (Node.ofMarkdown "\\# 1\\. \\[a\\]\\(\\&amp\\;\\)\t\\*é\\*  \\\\").children
        none .clamp).render = .ok (p, []) ∧
      p.title = "" ∧ p.links = [] ∧ p.body = [x] ∧ x.IsTextOf "# 1. [a](&amp;)\t*é*  \\" :=
  carries_escaped (t := "# 1. [a](&amp;)\t*é*  \\") (by decide) (by decide) (by decide) (by decide)
    (by decide) (by rintro n ⟨⟩) _

end MarkdownWord.Word
