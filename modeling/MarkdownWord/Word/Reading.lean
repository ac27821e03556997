import MarkdownWord.Word.Package

/-! # Reading a document file

The text of a document as a reader finds it in the body of its file. -/

namespace MarkdownWord.Word

mutual
/-- The text of an element of a run: a tab and a line break stand for themselves. -/
def Xml.runText : Xml → String
  | .element "w:t" _ children => textOfAll children
  | .element "w:tab" _ _ => "\t"
  | .element "w:br" _ _ => "\n"
  | .element _ _ _ => ""
  | .text _ => ""

def Xml.textOfAll : List Xml → String
  | [] => ""
  | .text s :: rest => s ++ textOfAll rest
  | .element _ _ _ :: rest => textOfAll rest
end

mutual
/-- The runs of an element of a paragraph, those inside links included. -/
def Xml.runElements : Xml → List Xml
  | .element tag attributes children =>
    if tag = "w:r" then [.element tag attributes children]
    else if tag = "w:hyperlink" then runElementsAll children
    else []
  | .text _ => []

def Xml.runElementsAll : List Xml → List Xml
  | [] => []
  | x :: rest => x.runElements ++ runElementsAll rest
end

def Xml.paragraphText (x : Xml) : String :=
  String.join ((Xml.runElementsAll x.children).flatMap fun r => r.children.map Xml.runText)

/-- The texts of the paragraphs of a document file, tables left out. -/
def Package.paragraphTexts (p : Package) : List String :=
  (p.body.filter (·.tag == "w:p")).map Xml.paragraphText

end MarkdownWord.Word
