/-! # XML elements

Elements with their attributes and children, and the texts that XML can hold at all. -/

namespace MarkdownWord.Word

/-- An element, or text between elements. -/
inductive Xml where
  | element (tag : String) (attributes : List (String × String)) (children : List Xml)
  | text (value : String)
  deriving Inhabited

namespace Xml

def leaf (tag : String) (attributes : List (String × String)) : Xml := .element tag attributes []

/-- An element whose only content is the value of its attribute `w:val`. -/
def valued (tag value : String) : Xml := leaf tag [("w:val", value)]

def group (tag : String) (children : List Xml) : Xml := .element tag [] children

/-- The tag of an element, the empty text for text. -/
def tag : Xml → String
  | .element t _ _ => t
  | .text _ => ""

def attribute? (name : String) : Xml → Option String
  | .element _ as _ => (as.find? (·.1 == name)).map (·.2)
  | .text _ => none

def children : Xml → List Xml
  | .element _ _ cs => cs
  | .text _ => []

end Xml

/-- The characters that XML 1.0 can hold: of the controls only tab and the line ends, and not the
last two code points of the basic plane. -/
def isXmlChar (c : Char) : Bool :=
  (32 ≤ c.toNat || c = '\t' || c = '\n' || c = '\r') && c.toNat != 0xFFFE && c.toNat != 0xFFFF

def isXmlText (s : String) : Bool := s.toList.all isXmlChar

end MarkdownWord.Word
