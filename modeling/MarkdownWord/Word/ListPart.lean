import MarkdownWord.Word.Markup.Paragraph

/-! # The list part

The part of a document file that holds its list schemes. A scheme is entered as an abstract list
with the levels and as an instance by whose number paragraphs refer to it; all abstract lists come
before all instances. -/

namespace MarkdownWord.Word

/-- A list scheme as entered, by its number. -/
structure AbstractList where
  id : Nat
  levels : List ListLevel := []
  deriving DecidableEq, Repr, Inhabited

/-- What paragraphs refer to: a number, and the number of the abstract list behind it. -/
structure ListInstance where
  id : Nat
  abstractId : Nat
  deriving DecidableEq, Repr, Inhabited

/-- The abstract lists and the instances of a document file, in their order. -/
structure ListPart where
  abstracts : List AbstractList := []
  instances : List ListInstance := []
  deriving DecidableEq, Repr, Inhabited

namespace ListPart

/-- How many abstract lists, and instances, every document starts with. -/
def builtIn : Nat := 9

/-- The list part that every document starts with. It stands in for the one of the template, in which
the abstract lists have levels and the instances are assigned to them in another order; what is
entered after them depends on their numbers alone. -/
def initial : ListPart where
  abstracts := (List.range builtIn).map fun i => { id := i }
  instances := (List.range builtIn).map fun i => ⟨i + 1, i⟩

/-- The number after the greatest of some, and not below a least one. -/
def nextNumber (least : Nat) (numbers : List Nat) : Nat :=
  numbers.foldl (fun n k => max n (k + 1)) least

def nextAbstract (p : ListPart) : Nat := nextNumber 0 (p.abstracts.map (·.id))

def nextInstance (p : ListPart) : Nat := nextNumber 1 (p.instances.map (·.id))

/-- The part with one more scheme, under the next numbers. -/
def add (p : ListPart) (levels : List ListLevel) : ListPart where
  abstracts := p.abstracts ++ [⟨p.nextAbstract, levels⟩]
  instances := p.instances ++ [⟨p.nextInstance, p.nextAbstract⟩]

end ListPart

def ListLevel.isLegal (l : ListLevel) : Bool :=
  isXmlText l.format && isXmlText l.text && isXmlText l.alignment

def ListScheme.isLegal (s : ListScheme) : Bool := s.levels.all ListLevel.isLegal

/-- Entering schemes into a list part; what has been entered stays when an error occurs. -/
abbrev Registration := ExceptT RenderError (StateM ListPart)

/-- Enters schemes one after another and gives their numbers. -/
def registerFrom (numbers : ListNumbers) : List ListScheme → Registration ListNumbers
  | [] => pure numbers
  | s :: rest => do
    if !s.isLegal then throw (.illegalText s.reference)
    let part ← get
    set (part.add s.levels)
    registerFrom (numbers.insert s.reference part.nextInstance) rest

/-- Enters schemes one after another and gives their numbers. -/
def register (schemes : List ListScheme) : Registration ListNumbers := registerFrom [] schemes

/-! ## Markup -/

def ListLevel.markup (l : ListLevel) : Xml :=
  .element "w:lvl" [("w:ilvl", toString l.level)] [
    .valued "w:start" (toString l.start), .valued "w:numFmt" l.format,
    .valued "w:lvlText" l.text, .valued "w:lvlJc" l.alignment,
    .group "w:pPr" [.leaf "w:ind"
      [("w:left", toString l.indentLeft), ("w:hanging", toString l.hanging)]]]

def AbstractList.markup (a : AbstractList) : Xml :=
  .element "w:abstractNum" [("w:abstractNumId", toString a.id)]
    (.valued "w:multiLevelType" "multilevel" :: a.levels.map ListLevel.markup)

def ListInstance.markup (i : ListInstance) : Xml :=
  .element "w:num" [("w:numId", toString i.id)] [.valued "w:abstractNumId" (toString i.abstractId)]

def ListPart.markup (p : ListPart) : List Xml :=
  p.abstracts.map AbstractList.markup ++ p.instances.map ListInstance.markup

end MarkdownWord.Word
