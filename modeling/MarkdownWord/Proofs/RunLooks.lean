import Mathlib
import MarkdownWord.Proofs.Formats
import MarkdownWord.Proofs.Results
import MarkdownWord.Word.Reading

/-!
# How runs look to a reader

A reader of a document file finds the text of a run in its pieces and the look of the run in its
properties. Both are read here from the markup alone, and what is read is what was written
(`Run.Writable.seen_markup`): the text with each CR as a line end, and the properties that are set.
-/

namespace MarkdownWord.Word
open Text

/-! ## Text -/

/-- The text of an element of a run. White space at its ends is dropped unless it is marked to be
kept, and a tab and a line break stand for themselves. -/
def Xml.seenText (x : Xml) : String :=
  if x.tag = "w:t" then
    if x.attribute? "xml:space" = some "preserve" then Xml.textOfAll x.children
    else stripped (Xml.textOfAll x.children)
  else x.runText

/-- A text with each CR as a line end of its own. -/
def lineEnded (s : String) : String :=
  String.ofList (s.toList.map fun c => if c = '\r' then '\n' else c)

/-- The text that a piece stands for. -/
def TextPiece.text : TextPiece → List Char
  | .plain cs => cs
  | .tab => ['\t']
  | .lineBreak => ['\n']

theorem legalText_same (s : String) : Yields (legalText s) fun t => t = s := by
  unfold legalText illegalUnless
  split
  · exact Yields.pure rfl
  · exact Yields.error _

theorem TextPiece.seenText_markup (piece : TextPiece) :
    Yields piece.markup fun x => x.tag ≠ "w:rPr" ∧ x.seenText.toList = piece.text := by
  cases piece with
  | tab => exact Yields.pure ⟨by decide, rfl⟩
  | lineBreak => exact Yields.pure ⟨by decide, rfl⟩
  | plain cs =>
    refine (legalText_same (String.ofList cs)).bind fun s hs => Yields.pure ⟨by simp [Xml.tag], ?_⟩
    subst hs
    by_cases htrim : trimBlank cs = cs
    · simp [htrim, Xml.seenText, Xml.tag, Xml.attribute?, Xml.children, Xml.textOfAll, stripped,
        text]
    · simp [htrim, Xml.seenText, Xml.tag, Xml.attribute?, Xml.children, Xml.textOfAll, text]

private theorem text_close (pending : List Char) (rest : List TextPiece) :
    (textPiecesFrom.close pending rest).flatMap TextPiece.text =
      pending.reverse ++ rest.flatMap TextPiece.text := by
  cases pending with
  | nil => rfl
  | cons c pending => simp [textPiecesFrom.close, TextPiece.text]

/-- The pieces of a text make up the text again, but for the CRs. -/
theorem text_textPiecesFrom (pending cs : List Char) :
    (textPiecesFrom pending cs).flatMap TextPiece.text =
      pending.reverse ++ cs.map fun c => if c = '\r' then '\n' else c := by
  -- A tab or a line end closes what is pending; any other character joins it.
  induction cs generalizing pending with
  | nil => simp [textPiecesFrom, text_close]
  | cons c cs ih =>
    rw [textPiecesFrom]
    by_cases htab : c = '\t'
    · simp [htab, text_close, ih, TextPiece.text]
    · rw [if_neg htab]
      by_cases hline : (c = '\n' || c = '\r') = true
      · rw [if_pos hline, text_close]
        rcases (by simpa using hline : c = '\n' ∨ c = '\r') with rfl | rfl <;>
          simp [ih, TextPiece.text]
      · have hcr : c ≠ '\r' := fun h => hline (by simp [h])
        rw [if_neg hline, ih]
        simp [hcr]

/-! ## Properties -/

namespace Xml

/-- The first of some elements with a tag. -/
def child? (tag : String) (xs : List Xml) : Option Xml := xs.find? (·.tag == tag)

/-- The value of the first of some elements with a tag. -/
def value? (tag : String) (xs : List Xml) : Option String :=
  (child? tag xs).bind (attribute? "w:val")

/-- Whether a property is switched on. -/
def isOn (tag : String) (xs : List Xml) : Bool :=
  (child? tag xs).any fun x =>
    x.attribute? "w:val" != some "0" && x.attribute? "w:val" != some "false"

@[simp] theorem child?_nil (tag : String) : child? tag [] = none := rfl

@[simp] theorem child?_cons (tag : String) (x : Xml) (xs : List Xml) :
    child? tag (x :: xs) = if x.tag = tag then some x else child? tag xs := by
  by_cases h : x.tag = tag <;> simp [child?, h]

@[simp] theorem child?_append (tag : String) (xs ys : List Xml) :
    child? tag (xs ++ ys) = (child? tag xs).or (child? tag ys) := by
  simp [child?]

theorem child?_toList {α : Type} {tag name : String} {write : α → Xml} (o : Option α)
    (h : ∀ a, (write a).tag = name) :
    child? tag (o.toList.map write) = if name = tag then o.map write else none := by
  cases o <;> simp [child?, h]

@[simp] theorem child?_valued (tag name : String) (value : Option String) :
    child? tag (value.toList.map (valued name)) =
      if name = tag then value.map (valued name) else none :=
  child?_toList value fun _ => rfl

@[simp] theorem child?_toggle (tag name : String) (on : Bool) :
    child? tag (toggle name on) = if on && name = tag then some (leaf name []) else none := by
  cases on <;> simp [child?, toggle, leaf, Xml.tag]

@[simp] theorem bind_valued (name : String) (value : Option String) :
    (value.map (valued name)).bind (attribute? "w:val") = value := by
  cases value <;> rfl

end Xml

/-- How a run looks. What is not given is left to the style of its paragraph. -/
structure Look where
  bold : Bool := false
  italic : Bool := false
  strike : Bool := false
  underline : Bool := false
  font : Option String := none
  size : Option Number := none
  color : Option String := none
  charStyle : Option String := none
  /-- Whether the run is raised or lowered. -/
  position : Option Style := none
  deriving DecidableEq, Repr

/-- The look that a format asks for; superscript goes before subscript. -/
def Format.look (f : Format) : Look where
  bold := f.flags.bold
  italic := f.flags.italic
  strike := f.flags.strike
  underline := f.underline
  font := f.font
  size := f.size
  color := f.color
  charStyle := f.charStyle
  position :=
    if f.flags.superscript then some .superscript
    else if f.flags.subscript then some .subscript
    else none

/-- The look that some properties give a run, where `styles` are those of the file. -/
def Xml.look (styles : List StyleEntry) (properties : List Xml) : Look where
  bold := isOn "w:b" properties
  italic := isOn "w:i" properties
  strike := isOn "w:strike" properties
  underline := value? "w:u" properties = some "single"
  font := (child? "w:rFonts" properties).bind (attribute? "w:ascii")
  size := ((value? "w:sz" properties).bind String.toNat?).map fun (n : Nat) => .int n
  color := value? "w:color" properties
  charStyle := (value? "w:rStyle" properties).bind fun id =>
    (styles.find? (·.id == id)).map (·.name)
  position := (value? "w:vertAlign" properties).bind fun v =>
    if v = "superscript" then some .superscript
    else if v = "subscript" then some .subscript
    else none

/-- The styles of a file with the style for links. -/
def linkStyles : List StyleEntry := styleEntries ++ [linkStyleEntry]

/-- The element for a font. -/
def fontMarkup (name : String) : Xml := .leaf "w:rFonts" [("w:ascii", name), ("w:hAnsi", name)]

theorem sizeText_codeSize : sizeText (halfOf (.int 20)) = .ok "20" := by decide +kernel

theorem Format.Writable.properties_eq {f : Format} (h : f.Writable) : f.properties true = .ok
    (f.charStyle.toList.map (Xml.valued "w:rStyle") ++ f.font.toList.map fontMarkup ++
      toggle "w:b" f.flags.bold ++ toggle "w:i" f.flags.italic ++
      toggle "w:strike" f.flags.strike ++ f.color.toList.map (Xml.valued "w:color") ++
      (f.size.map Number.text).toList.map (Xml.valued "w:sz") ++
      (if f.underline then [.valued "w:u" "single"] else []) ++ verticalAlignment f.flags) := by
  have hstyle : (property (given? f.charStyle) fun name => do
      return (← runStyle? true name).toList.map (Xml.valued "w:rStyle")) =
      .ok (f.charStyle.toList.map (Xml.valued "w:rStyle")) := by
    rcases h.charStyle with hf | hf <;> rw [hf] <;> rfl
  have hfont : (property (given? f.font) fun name => do
      let name ← legalText name
      return [.leaf "w:rFonts" [("w:ascii", name), ("w:hAnsi", name)]]) =
      .ok (f.font.toList.map fontMarkup) := by
    rcases h.font with hf | hf <;> rw [hf] <;> rfl
  have hsize : (property (f.size.filter (!·.isZero)) fun n => do
      return [.valued "w:sz" (← sizeText (halfOf n))]) =
      .ok ((f.size.map Number.text).toList.map (Xml.valued "w:sz")) := by
    rcases h.size with hf | hf <;> rw [hf]
    · rfl
    · change (sizeText (halfOf (.int 20)) >>= fun s => pure [Xml.valued "w:sz" s]) = _
      rw [sizeText_codeSize]
      rfl
  have hcolor : (property (given? f.color) fun c => do
      return [.valued "w:color" (← colorText c)]) =
      .ok (f.color.toList.map (Xml.valued "w:color")) := by
    rcases h.color with hf | hf | hf <;> rw [hf] <;> rfl
  unfold Format.properties
  rw [hstyle, hfont, hsize, hcolor]
  rfl

theorem styleName_link :
    (linkStyles.find? (·.id == linkStyle)).map (·.name) = some linkStyle := by
  decide +kernel

@[simp] theorem child?_fonts (tag : String) (font : Option String) :
    Xml.child? tag (font.toList.map fontMarkup) =
      if "w:rFonts" = tag then font.map fontMarkup else none :=
  Xml.child?_toList font fun _ => rfl

@[simp] theorem child?_underline (tag : String) (on : Bool) :
    Xml.child? tag (if on then [.valued "w:u" "single"] else []) =
      if on && "w:u" = tag then some (.valued "w:u" "single") else none := by
  cases on <;> simp [Xml.child?, Xml.valued, Xml.leaf, Xml.tag]

@[simp] theorem child?_verticalAlignment (tag : String) (f : Flags) :
    Xml.child? tag (verticalAlignment f) =
      if "w:vertAlign" = tag then (verticalAlignment f).head? else none := by
  unfold verticalAlignment
  split
  · simp [Xml.child?, Xml.valued, Xml.leaf, Xml.tag]
  · split <;> simp [Xml.child?, Xml.valued, Xml.leaf, Xml.tag]

@[simp] theorem any_toggle (name : String) (on : Bool) :
    Option.any (fun x => x.attribute? "w:val" != some "0" && x.attribute? "w:val" != some "false")
      (if on then some (Xml.leaf name []) else none) = on := by
  cases on <;> rfl

theorem Format.Writable.look_properties {f : Format} (h : f.Writable) :
    Yields (f.properties true) fun ps => Xml.look linkStyles ps = f.look := by
  rw [h.properties_eq]
  refine Yields.pure ?_
  have hsize : ((f.size.map Number.text).bind String.toNat?).map
      (fun (n : Nat) => Number.int n) = f.size := by
    have hread : "20".toNat? = some 20 := Nat.toNat?_repr 20
    rcases h.size with hf | hf <;> rw [hf]
    · rfl
    · exact congrArg (Option.map fun (n : Nat) => Number.int n) hread
  have hstyle : (f.charStyle.bind fun id => (linkStyles.find? (·.id == id)).map (·.name)) =
      f.charStyle := by
    rcases h.charStyle with hf | hf <;> rw [hf]
    · rfl
    · rw [Option.bind_some]
      exact styleName_link
  have hfont : (f.font.map fontMarkup).bind (Xml.attribute? "w:ascii") = f.font := by
    cases f.font <;> rfl
  have hunderline : decide ((if f.underline then some (Xml.valued "w:u" "single") else none).bind
      (Xml.attribute? "w:val") = some "single") = f.underline := by
    cases f.underline <;> rfl
  have hposition : (((verticalAlignment f.flags).head?.bind (Xml.attribute? "w:val")).bind fun v =>
      if v = "superscript" then some Style.superscript
      else if v = "subscript" then some Style.subscript
      else none) = f.look.position := by
    cases hsup : f.flags.superscript <;> cases hsub : f.flags.subscript <;>
      simp [verticalAlignment, Format.look, hsup, hsub] <;> rfl
  simp only [Xml.look, Xml.isOn, Xml.value?, Xml.child?_append, Xml.child?_valued, child?_fonts,
    Xml.child?_toggle, child?_underline, child?_verticalAlignment, String.reduceEq, Bool.and_true,
    Bool.and_false, Bool.false_eq_true, decide_true, decide_false, if_true, if_false,
    Option.none_or, Option.or_none, any_toggle, Xml.bind_valued, hfont, hsize, hunderline,
    hposition, hstyle]
  rfl

/-! ## Runs -/

/-- A run as a reader finds it. -/
structure SeenRun where
  text : String
  look : Look
  deriving DecidableEq, Repr

/-- What a reader should find of a run. A line break looks like nothing. -/
def Run.seen (r : Run) : SeenRun where
  text := lineEnded r.plainText
  look := match r with
    | .text _ f => f.look
    | .lineBreak => {}

/-- What a reader finds of the element of a run. -/
def Xml.seenRun (styles : List StyleEntry) (x : Xml) : SeenRun where
  text := String.join (x.children.map seenText)
  look := look styles ((child? "w:rPr" x.children).elim [] children)

theorem seenText_content {pieces : List TextPiece} {content : List Xml}
    (h : List.Forall₂ (fun piece x => x.tag ≠ "w:rPr" ∧ x.seenText.toList = piece.text)
      pieces content) :
    Xml.child? "w:rPr" content = none ∧
      (String.join (content.map Xml.seenText)).toList = pieces.flatMap TextPiece.text := by
  induction h with
  | nil => exact ⟨rfl, rfl⟩
  | cons hx _ ih =>
    refine ⟨?_, ?_⟩
    · simpa [Xml.child?, hx.1] using ih.1
    · rw [List.map_cons, String.join_cons, String.toList_append, hx.2, ih.2, List.flatMap_cons]

/-- A run is read as it was written. -/
theorem Run.Writable.seen_markup {r : Run} (h : r.Writable) :
    Yields (r.markup true) fun x => x.tag = "w:r" ∧ x.seenRun linkStyles = r.seen := by
  cases r with
  | lineBreak => exact Yields.pure ⟨rfl, by decide⟩
  | text v f =>
    refine (Yields.mapM fun piece _ => piece.seenText_markup).bind fun content hcontent => ?_
    refine (Format.Writable.look_properties h).bind fun properties hlook => ?_
    refine Yields.pure ⟨rfl, ?_⟩
    obtain ⟨hnone, htext⟩ := seenText_content hcontent
    have hseen : String.join (content.map Xml.seenText) = lineEnded v := by
      rw [String.ext_iff, htext, textPieces, text_textPiecesFrom, lineEnded, String.toList_ofList]
      rfl
    cases hhead : f.hasProperties properties with
    | true =>
      simp [Xml.seenRun, Run.seen, Xml.group, Xml.children, Xml.tag, Xml.seenText, Xml.runText,
        Run.plainText, hseen, hlook]
    | false =>
      have hempty : properties = [] := by simp_all [Format.hasProperties]
      simp [Xml.seenRun, Run.seen, Xml.group, Xml.children, Run.plainText, hseen, hnone, ← hlook,
        hempty]

end MarkdownWord.Word
