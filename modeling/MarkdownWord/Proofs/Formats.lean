import MarkdownWord.Proofs.Contents
import MarkdownWord.Proofs.Leaves
import MarkdownWord.Proofs.Sizes
import MarkdownWord.Word.Markup.Block

/-!
# What can be written

A run can fail to be written because of its text and of every property of its format. Only the text
is left when the format looks as formats in trees do (`Run.Writable.markup_succeeds`).
-/

namespace MarkdownWord
open Word

namespace Word

/-! ## Texts -/

/-- A run whose text XML can hold. -/
def Run.isLegal (r : Run) : Prop := ∀ v ∈ r.text?, isXmlText v = true

instance (r : Run) : Decidable r.isLegal :=
  inferInstanceAs (Decidable (∀ v ∈ r.text?, isXmlText v = true))

theorem legalText_succeeds {s : String} : Succeeds (legalText s) ↔ isXmlText s = true := by
  unfold legalText illegalUnless
  cases isXmlText s with
  | true => exact iff_of_true (Succeeds.pure s) rfl
  | false => exact iff_of_false (Succeeds.not_error _) Bool.false_ne_true

theorem markup_plain_succeeds {cs : List Char} :
    Succeeds (TextPiece.plain cs).markup ↔ ∀ c ∈ cs, isXmlChar c = true := by
  rw [TextPiece.markup, Succeeds.bind_iff (p := True) fun _ _ => iff_of_true (Succeeds.pure _) trivial,
    legalText_succeeds]
  simp [isXmlText]

theorem markup_pieces_succeed (pending cs : List Char) :
    (∀ piece ∈ textPiecesFrom pending cs, Succeeds piece.markup) ↔
      ∀ c ∈ pending ++ cs, isXmlChar c = true := by
  have hclose (pending : List Char) (rest : List TextPiece) :
      (∀ piece ∈ textPiecesFrom.close pending rest, Succeeds piece.markup) ↔
        (∀ c ∈ pending, isXmlChar c = true) ∧ ∀ piece ∈ rest, Succeeds piece.markup := by
    cases pending with
    | nil => simp [textPiecesFrom.close]
    | cons c pending =>
      simp only [textPiecesFrom.close, List.isEmpty_cons, Bool.false_eq_true, if_false,
        List.forall_mem_cons, markup_plain_succeeds, List.mem_reverse]
  induction cs generalizing pending with
  | nil => simp [textPiecesFrom, hclose]
  | cons c cs ih =>
    rw [textPiecesFrom]
    by_cases htab : c = '\t'
    · have hmark : Succeeds TextPiece.tab.markup := Succeeds.pure _
      have hc : isXmlChar '\t' = true := by decide
      rw [if_pos htab, hclose, List.forall_mem_cons]
      simp [ih, htab, hmark, hc, or_imp, forall_and]
    · rw [if_neg htab]
      by_cases hline : (c = '\n' || c = '\r') = true
      · have hmark : Succeeds TextPiece.lineBreak.markup := Succeeds.pure _
        have hc : isXmlChar c = true := by
          rcases (by simpa using hline : c = '\n' ∨ c = '\r') with rfl | rfl <;> decide
        rw [if_pos hline, hclose, List.forall_mem_cons]
        simp [ih, hmark, hc, or_imp, forall_and]
      · rw [if_neg hline]
        simp [ih, or_imp, forall_and, and_left_comm]

/-! ## Runs -/

/-- A format whose properties are among those that runs of a tree ask for. -/
structure Format.Writable (f : Format) : Prop where
  charStyle : f.charStyle = none ∨ f.charStyle = some linkStyle
  font : f.font = none ∨ f.font = some codeFont
  color : f.color = none ∨ f.color = some "888888" ∨ f.color = some linkColor
  size : f.size = none ∨ f.size = some (.int 20)

theorem property_succeeds {α : Type} {x : Option α} {write : α → Except RenderError (List Xml)}
    (h : ∀ a ∈ x, Succeeds (write a)) : Succeeds (property x write) := by
  cases x with
  | none => exact Succeeds.pure []
  | some a => exact h a rfl

theorem runStyle_linkStyle : runStyle? true linkStyle = .ok (some "Hyperlink") := by
  decide

theorem colorText_image : colorText "888888" = .ok "888888" := by decide

theorem colorText_link : colorText linkColor = .ok "0563C1" := by decide

theorem isBetween_codeSize : (halfOf (.int 20)).isBetween 8 20 = true := by decide +kernel

theorem Format.Writable.properties {f : Format} (h : f.Writable) :
    Succeeds (f.properties true) := by
  have hstyle : ∀ name ∈ given? f.charStyle, Succeeds (runStyle? true name) := by
    intro name hname
    have hmem := (Option.mem_filter_iff.mp hname).1
    rcases h.charStyle with hf | hf <;> rw [hf] at hmem <;> cases hmem
    exact ⟨_, runStyle_linkStyle⟩
  have hfont : ∀ name ∈ given? f.font, Succeeds (legalText name) := by
    intro name hname
    have hmem := (Option.mem_filter_iff.mp hname).1
    rcases h.font with hf | hf <;> rw [hf] at hmem <;> cases hmem
    exact legalText_succeeds.mpr (by decide)
  have hsize : ∀ n ∈ f.size.filter (!·.isZero), Succeeds (sizeText (halfOf n)) := by
    intro n hn
    have hmem := (Option.mem_filter_iff.mp hn).1
    rcases h.size with hf | hf <;> rw [hf] at hmem <;> cases hmem
    exact sizeText_succeeds isBetween_codeSize
  have hcolor : ∀ c ∈ given? f.color, Succeeds (colorText c) := by
    intro c hc
    have hmem := (Option.mem_filter_iff.mp hc).1
    rcases h.color with hf | hf | hf <;> rw [hf] at hmem <;> cases hmem
    · exact ⟨_, colorText_image⟩
    · exact ⟨_, colorText_link⟩
  unfold Format.properties
  refine (property_succeeds fun name hname => (hstyle name hname).bind fun _ => ?_).bind fun _ => ?_
  · exact Succeeds.pure _
  refine (property_succeeds fun name hname => (hfont name hname).bind fun _ => ?_).bind fun _ => ?_
  · exact Succeeds.pure _
  refine (property_succeeds fun n hn => (hsize n hn).bind fun _ => ?_).bind fun _ => ?_
  · exact Succeeds.pure _
  refine (property_succeeds fun c hc => (hcolor c hc).bind fun _ => ?_).bind fun _ => ?_
  · exact Succeeds.pure _
  exact Succeeds.pure _

/-- A run that looks as runs of a tree do. -/
def Run.Writable : Run → Prop
  | .text _ f => f.Writable
  | .lineBreak => True

theorem Run.Writable.markup_succeeds {r : Run} (h : r.Writable) :
    Succeeds (r.markup true) ↔ r.isLegal := by
  cases r with
  | lineBreak => exact iff_of_true (Succeeds.pure _) (fun _ h => by cases h)
  | text v f =>
    have hpieces : Succeeds ((textPieces v).mapM TextPiece.markup) ↔ isXmlText v = true := by
      rw [Succeeds.mapM_iff, textPieces, markup_pieces_succeed]
      simp [isXmlText]
    have hrest (content : List Xml) : Succeeds (do
        let properties ← f.properties true
        let head := if f.hasProperties properties then [Xml.group "w:rPr" properties] else []
        return Xml.group "w:r" (head ++ content)) :=
      h.properties.bind fun _ => Succeeds.pure _
    rw [Run.markup, Succeeds.bind_iff fun content _ => iff_of_true (hrest content) trivial, hpieces]
    simp [Run.isLegal, Run.text?]

end Word

/-! ### Runs of a tree -/

namespace Node

theorem writable_leafRuns {f : Flags} {n : Node} {r : Run} (h : r ∈ n.leafRuns f) :
    r.Writable := by
  unfold leafRuns at h
  split at h
  · obtain rfl := List.mem_singleton.mp h
    exact ⟨.inl rfl, .inl rfl, .inl rfl, .inl rfl⟩
  · obtain rfl := List.mem_singleton.mp h
    exact ⟨.inl rfl, .inr rfl, .inl rfl, .inl rfl⟩
  · obtain rfl := List.mem_singleton.mp h
    trivial
  · obtain rfl := List.mem_singleton.mp h
    exact ⟨.inl rfl, .inl rfl, .inr (.inl rfl), .inl rfl⟩
  · split at h
    · cases h
    · obtain rfl := List.mem_singleton.mp h
      exact ⟨.inl rfl, .inl rfl, .inl rfl, .inl rfl⟩

theorem writable_runsAll {f : Flags} {ns : List Node} {r : Run} (h : r ∈ runsAll f ns) :
    r.Writable := by
  have hleaves := runsAll_along f [] ns
  rw [Flags.along_nil] at hleaves
  rw [hleaves] at h
  obtain ⟨l, -, hr⟩ := List.mem_flatMap.mp h
  exact writable_leafRuns hr

end Node

theorem Word.Run.Writable.linked {r : Run} (h : r.Writable) : r.linked.Writable := by
  cases r with
  | lineBreak => trivial
  | text v f => exact ⟨.inr rfl, h.font, .inr (.inr rfl), h.size⟩

theorem Node.writable_members {f : Flags} {n : Node} {m : Member} {r : Run} (hm : m ∈ n.members f)
    (hr : r ∈ m.runs) : r.Writable := by
  have hruns {r : Run} (h : r ∈ n.runs f) : r.Writable :=
    writable_runsAll (by simpa [runsAll] using h : r ∈ runsAll f [n])
  cases n with
  | link url title cs =>
    obtain rfl := List.mem_singleton.mp hm
    obtain ⟨a, ha, rfl⟩ := List.mem_map.mp hr
    exact (writable_runsAll ha).linked
  | _ =>
    obtain ⟨a, ha, rfl⟩ := List.mem_map.mp hm
    obtain rfl := List.mem_singleton.mp hr
    exact hruns ha

theorem Node.writable_membersAll {f : Flags} {ns : List Node} {m : Member} {r : Run}
    (hm : m ∈ membersAll f ns) (hr : r ∈ m.runs) : r.Writable := by
  obtain ⟨n, -, hn⟩ := List.mem_flatMap.mp hm
  exact writable_members hn hr

end MarkdownWord
