import MarkdownWord.Word.ListPart
import MarkdownWord.Word.Markup.Block

/-! # Document files

A document file is built up from the empty one: its title, its styles, its list schemes, and then
its blocks one after another. -/

namespace MarkdownWord.Word

/-- A document file. -/
structure Package where
  title : String := ""
  /-- The size of the running text in half-points, as an attribute. -/
  normalSize : Option String := none
  withLinks : Bool := false
  lists : ListPart := .initial
  /-- The targets of links, the first one first. -/
  targets : Targets := []
  body : List Xml := []
  deriving Inhabited

/-- Building a document file; what has been done stays when an error occurs. -/
abbrev Packing := ExceptT RenderError (StateM Package)

namespace Package

def maxTitleLength : Nat := 255

/-- Sets the title, unless it is missing or empty. A title that XML cannot hold leaves none. -/
def setTitle (title : Option String) : Packing Unit := do
  match given? title with
  | none => return
  | some t =>
    if maxTitleLength < t.length then throw (.titleTooLong t.length)
    else if isXmlText t then modify ({ · with title := t })
    else
      modify ({ · with title := "" })
      throw (.illegalText t)

/-- Sets the size of the running text, unless it is missing or zero, and adds the style for
links. -/
def setStyles (fontSize : Option Number) : Packing Unit := do
  match fontSize.filter (!·.isZero) with
  | none => pure ()
  | some n =>
    let size ← (sizeText n : Except RenderError String)
    modify ({ · with normalSize := some size })
  modify ({ · with withLinks := true })

def registerLists (schemes : List ListScheme) : Packing ListNumbers := do
  let package ← get
  let (result, lists) := (register schemes).run.run package.lists
  set { package with lists }
  result

def addBlock (numbers : ListNumbers) (b : Block) : Packing Unit := do
  let package ← get
  let (result, targets) := (b.markup ⟨numbers, package.withLinks⟩).run.run package.targets
  set { package with targets }
  let elements ← (result : Except RenderError (List Xml))
  modify fun package => { package with body := package.body ++ elements }

def clearLists (package : Package) : Package := { package with lists := {} }

/-- The relationships of a document file to the targets of its links. -/
def links (package : Package) : List (String × String) :=
  package.targets.zipIdx.map fun (url, i) => (relationshipId i, url)

def linkStyleMarkup : Xml :=
  .element "w:style" [("w:type", "character"), ("w:customStyle", "1"),
      ("w:styleId", linkStyleEntry.id)] [
    .valued "w:name" linkStyleEntry.name,
    .group "w:rPr" [.valued "w:color" "0563C1", .valued "w:u" "single"]]

def checkTargets (package : Package) : Except RenderError Package :=
  match package.targets.find? (!isXmlText ·) with
  | some url => throw (.illegalText url)
  | none => pure package

end Package

namespace Document

/-- Builds a document into an empty file; gives the numbers of its list schemes. -/
def build (d : Document) : Packing ListNumbers := do
  Package.setTitle d.title
  Package.setStyles d.fontSize
  let numbers ← Package.registerLists d.schemes
  d.blocks.forM (Package.addBlock numbers)
  return numbers

/-- The file of a document, with the warnings about its blocks. -/
def render (d : Document) : Except RenderError (Package × List Warning) := do
  let (result, package) := d.build.run.run {}
  let numbers ← result
  return (package, d.blocks.flatMap (Block.warnings numbers))

def pack (d : Document) : Except RenderError Package := do (← d.render).1.checkTargets

end Document
end MarkdownWord.Word
