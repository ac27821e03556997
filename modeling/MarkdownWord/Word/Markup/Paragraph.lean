import MarkdownWord.Word.Markup.Run

/-! # The markup of paragraphs

A paragraph as an element: its style and properties in the order of the schema, and then its
members. Links are written by the number of their target, so the targets met so far are the
state. -/

namespace MarkdownWord.Word

/-! ## Links -/

/-- The targets of links met so far, the first one first. -/
abbrev Targets := List String

/-- Writing with the targets of links; what has been met stays when an error occurs. -/
abbrev Render := ExceptT RenderError (StateM Targets)

/-- How many relationships a document has before its first link. -/
def firstRelationships : Nat := 8

/-- The identifier of the relationship for the target at some place. -/
def relationshipId (i : Nat) : String := s!"rId{firstRelationships + i + 1}"

/-- The identifier of the relationship for a target, which is added if it is new. -/
def relate (url : String) : Render String := do
  let targets ← get
  match targets.idxOf? url with
  | some i => return relationshipId i
  | none =>
    set (targets ++ [url])
    return relationshipId targets.length

/-- The elements of a member. A link without an address is just its runs. -/
def Member.markup (withLinks : Bool) : Member → Render (List Xml)
  | .run r => do return [← r.markup withLinks]
  | .link url runs => do
    if url.isEmpty then runs.mapM fun r => (r.markup withLinks : Except RenderError Xml)
    else
      let id ← relate url
      let runs ← runs.mapM fun r => (r.markup withLinks : Except RenderError Xml)
      return [.element "w:hyperlink" [("r:id", id)] runs]

/-! ## Properties -/

/-- The numbers by which paragraphs refer to list schemes; of two for one name the later counts. -/
abbrev ListNumbers := List (String × Nat)

def ListNumbers.find? (numbers : ListNumbers) (reference : String) : Option Nat :=
  (numbers.reverse.find? (·.1 == reference)).map (·.2)

def ListNumbers.insert (numbers : ListNumbers) (reference : String) (n : Nat) : ListNumbers :=
  numbers.filter (·.1 != reference) ++ [(reference, n)]

def Border.markup (tag : String) (b : Border) : Except RenderError Xml := do
  let style ← legalText b.style
  let color ← legalText b.color
  return .leaf tag
    [("w:val", style), ("w:sz", toString b.size), ("w:space", toString b.space),
      ("w:color", color)]

def bordersMarkup (left bottom : Option Border) : Except RenderError (List Xml) := do
  let left ← property left fun b => do return [← b.markup "w:left"]
  let bottom ← property bottom fun b => do return [← b.markup "w:bottom"]
  let edges := left ++ bottom
  return if edges.isEmpty then [] else [.group "w:pBdr" edges]

def fillMarkup (fill : String) : Except RenderError Xml := do
  return .leaf "w:shd" [("w:val", "clear"), ("w:color", "auto"), ("w:fill", ← legalText fill)]

def alignmentWord : Markdown.TextAlignment → String
  | .left => "left"
  | .center => "center"
  | .right => "right"

/-- A tab stop put where its position belongs, after others at that position. -/
def insertTab (t : TabStop) : List TabStop → List TabStop
  | [] => [t]
  | u :: rest => if t.position < u.position then t :: u :: rest else u :: insertTab t rest

/-- Tab stops by position, those of one position in the given order. -/
def sortTabs (ts : List TabStop) : List TabStop := ts.foldl (fun sorted t => insertTab t sorted) []

def TabStop.markup (t : TabStop) : Except RenderError Xml := do
  return .leaf "w:tab"
    [("w:val", alignmentWord t.alignment), ("w:pos", ← positionText t.position)]

def tabsMarkup (ts : List TabStop) : Except RenderError (List Xml) := do
  let stops ← (sortTabs ts).mapM TabStop.markup
  return if stops.isEmpty then [] else [.group "w:tabs" stops]

/-- An attribute that is left out when there is no value for it. -/
def lengthAttribute (name : String) (twips : Option Int) (write : Int → Except RenderError String) :
    Except RenderError (List (String × String)) :=
  match twips with
  | some n => do return [(name, ← write n)]
  | none => pure []

def spacingMarkup (before after : Option Int) : Except RenderError (List Xml) := do
  let before ← lengthAttribute "w:before" before spacingText
  let after ← lengthAttribute "w:after" after spacingText
  let both := before ++ after
  return if both.isEmpty then [] else [.leaf "w:spacing" both]

def indentMarkup (left : Option Int) : Except RenderError (List Xml) := do
  let left ← lengthAttribute "w:left" left positionText
  return if left.isEmpty then [] else [.leaf "w:ind" left]

/-- Membership in a list whose scheme has a number. -/
def listMembership (numbers : ListNumbers) (r : ListReference) : List Xml :=
  match numbers.find? r.reference with
  | some n =>
    [.group "w:numPr" [.valued "w:ilvl" (toString r.level), .valued "w:numId" (toString n)]]
  | none => []

/-- The style of a paragraph: that of its level for a heading. -/
def Paragraph.style? (p : Paragraph) : Except RenderError (Option String) :=
  match p.headingLevel with
  | some n => if n = 0 then pure none else some <$> headingStyle? n
  | none => pure none

/-! ### Places of properties

The schema fixes the order of properties, but they are written in another one: each is put before
those that have to come after it. -/

/-- The tags of the properties after the shading of a paragraph, in the order of the schema. -/
def afterShading : List String := [
  "w:tabs", "w:suppressAutoHyphens", "w:kinsoku", "w:wordWrap", "w:overflowPunct",
  "w:topLinePunct", "w:autoSpaceDE", "w:autoSpaceDN", "w:bidi", "w:adjustRightInd",
  "w:snapToGrid", "w:spacing", "w:ind", "w:contextualSpacing", "w:mirrorIndents",
  "w:suppressOverlap", "w:jc", "w:textDirection", "w:textAlignment", "w:textboxTightWrap",
  "w:outlineLvl", "w:divId", "w:cnfStyle", "w:rPr", "w:sectPr", "w:pPrChange"]

def afterBorders : List String := "w:shd" :: afterShading

def afterMembership : List String := "w:suppressLineNumbers" :: "w:pBdr" :: afterBorders

/-- What comes after one of the properties after the shading. -/
def afterTag (tag : String) : List String := (afterShading.dropWhile (· != tag)).drop 1

/-- Elements with one more: before the first element with the first of some tags that is there, or
at the end if there is none. -/
def Xml.putBeforeAny (tags : List String) (x : Xml) (xs : List Xml) : List Xml :=
  match tags.find? fun tag => xs.any (·.tag == tag) with
  | some tag => xs.takeWhile (·.tag != tag) ++ x :: xs.dropWhile (·.tag != tag)
  | none => xs ++ [x]

/-- Elements with some more, which are put there one after another. -/
def Xml.putAllBefore (tags : List String) (new xs : List Xml) : List Xml :=
  new.foldl (fun xs x => putBeforeAny tags x xs) xs

/-- The properties of a paragraph, its style first. Spaces, indent and tab stops are written before
the membership in a list, the borders and the shading. -/
def Paragraph.properties (numbers : ListNumbers) (style : Option String) (p : Paragraph) :
    Except RenderError (List Xml) := do
  let start := style.toList.map (Xml.valued "w:pStyle")
  let spacing ← spacingMarkup p.spacingBefore p.spacingAfter
  let indent ← indentMarkup p.indentLeft
  let tabs ← tabsMarkup p.tabStops
  let numbering := p.numbering.toList.flatMap (listMembership numbers)
  let borders ← bordersMarkup p.borderLeft p.borderBottom
  let shading ← property (given? p.shading) fun fill => do return [← fillMarkup fill]
  return start
    |> Xml.putAllBefore (afterTag "w:spacing") spacing
    |> Xml.putAllBefore (afterTag "w:ind") indent
    |> Xml.putAllBefore (afterTag "w:tabs") tabs
    |> Xml.putAllBefore afterMembership numbering
    |> Xml.putAllBefore afterBorders borders
    |> Xml.putAllBefore afterShading shading

/-- What is written besides the contents of the document: the numbers of the list schemes, and
whether there is a style for links. -/
structure Surroundings where
  numbers : ListNumbers := []
  withLinks : Bool := true
  deriving Inhabited

def Paragraph.markup (s : Surroundings) (style : Option String) (p : Paragraph) : Render Xml := do
  let properties ← (p.properties s.numbers style : Except RenderError (List Xml))
  let members ← p.members.mapM (Member.markup s.withLinks)
  let head := if properties.isEmpty then [] else [.group "w:pPr" properties]
  return .group "w:p" (head ++ members.flatten)

end MarkdownWord.Word
