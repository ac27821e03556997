import MarkdownWord.Word.RenderError

/-! # Style sheets

The styles that every document starts with, and how a run finds one by name. -/

namespace MarkdownWord.Word

/-- What a style is for. -/
inductive StyleKind where
  | paragraph | run | table | list
  deriving DecidableEq, Repr

/-- A style of the style sheet. -/
structure StyleEntry where
  name : String
  id : String
  kind : StyleKind

/-- A style whose identifier is its name without the spaces. -/
def StyleEntry.ofName (kind : StyleKind) (name : String) : StyleEntry :=
  ⟨name, String.ofList (name.toList.filter (· != ' ')), kind⟩

def headingStyleOf (level : Int) : String := s!"Heading{level}"

/-- The identifier of the style for headings at a level. Only the levels one to nine have one. -/
def headingStyle? (level : Int) : Except RenderError String :=
  if 1 ≤ level && level ≤ 9 then pure (headingStyleOf level)
  else throw (.noStyle s!"Heading {level}")

/-- The paragraph styles with regular identifiers. -/
def paragraphStyleNames : List String := [
  "Normal", "No Spacing", "Title", "Subtitle", "List Paragraph", "Body Text", "Body Text 2",
  "Body Text 3", "List", "List 2", "List 3", "List Bullet", "List Bullet 2", "List Bullet 3",
  "List Number", "List Number 2", "List Number 3", "List Continue", "List Continue 2",
  "List Continue 3", "Quote", "Intense Quote", "TOC Heading"]

/-- The run styles. The first one is the default. -/
def runStyleNames : List String := [
  "Default Paragraph Font", "Header Char", "Footer Char", "Heading 1 Char", "Heading 2 Char",
  "Heading 3 Char", "Heading 4 Char", "Heading 5 Char", "Heading 6 Char", "Heading 7 Char",
  "Heading 8 Char", "Heading 9 Char", "Title Char", "Subtitle Char", "Body Text Char",
  "Body Text 2 Char", "Body Text 3 Char", "Macro Text Char", "Quote Char", "Strong", "Emphasis",
  "Intense Quote Char", "Subtle Emphasis", "Intense Emphasis", "Subtle Reference",
  "Intense Reference", "Book Title"]

/-- The families of table styles, each with six accents. -/
def tableStyleNames : List String := [
  "Light Shading", "Light List", "Light Grid", "Medium Shading 1", "Medium Shading 2",
  "Medium List 1", "Medium List 2", "Medium Grid 1", "Medium Grid 2", "Medium Grid 3",
  "Dark List", "Colorful Shading", "Colorful List", "Colorful Grid"]

def styleEntries : List StyleEntry :=
  [⟨"header", "Header", .paragraph⟩, ⟨"footer", "Footer", .paragraph⟩,
    ⟨"caption", "Caption", .paragraph⟩, ⟨"macro", "MacroText", .paragraph⟩,
    ⟨"Normal Table", "TableNormal", .table⟩] ++
  [StyleEntry.ofName .list "No List", StyleEntry.ofName .table "Table Grid"] ++
  (List.range 9).map (fun i => ⟨s!"heading {i + 1}", headingStyleOf (i + 1), .paragraph⟩) ++
  paragraphStyleNames.map (.ofName .paragraph) ++ runStyleNames.map (.ofName .run) ++
  tableStyleNames.flatMap fun n => StyleEntry.ofName .table n ::
    (List.range 6).map fun i =>
      ⟨s!"{n} Accent {i + 1}", s!"{(StyleEntry.ofName .table n).id}-Accent{i + 1}", .table⟩

def keptName (name : String) : String :=
  if name.startsWith "Heading " && name.length = 9 then s!"h{name.drop 1}"
  else if name = "Header" then "header"
  else if name = "Footer" then "footer"
  else if name = "Caption" then "caption"
  else name

/-- The style for links, which is added to the style sheet when a document is written. -/
def linkStyleEntry : StyleEntry := .ofName .run "Hyperlink"

/-- The style that a run asks for, by its name or else by its identifier. -/
def findStyle? (entries : List StyleEntry) (name : String) : Option StyleEntry :=
  (entries.find? (·.name == keptName name)).or (entries.find? (·.id == name))

/-- The identifier of the style that a run asks for, or nothing for the default style. -/
def runStyle? (withLinks : Bool) (name : String) : Except RenderError (Option String) :=
  if withLinks && name == linkStyleEntry.name then pure (some linkStyleEntry.id)
  else match findStyle? styleEntries name with
    | none => throw (.noStyle name)
    | some e =>
      if e.kind ≠ .run then throw (.notRunStyle name)
      else if e.name == "Default Paragraph Font" then pure none
      else pure (some e.id)

end MarkdownWord.Word
