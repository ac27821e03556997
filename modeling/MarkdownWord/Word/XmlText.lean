import MarkdownWord.Word.Xml

/-! # The written form of XML

Elements as text. Characters that would be taken for markup, or that a reader would change, are
written as references. -/

namespace MarkdownWord.Word

/-- A character in running text or in the value of an attribute. -/
def escapeChar (inAttribute : Bool) (c : Char) : String :=
  if c = '&' then "&amp;"
  else if c = '<' then "&lt;"
  else if c = '>' then "&gt;"
  else if c = '\r' then "&#13;"
  else if inAttribute then
    if c = '"' then "&quot;"
    else if c = '\n' then "&#10;"
    else if c = '\t' then "&#9;"
    else c.toString
  else c.toString

def escape (inAttribute : Bool) (s : String) : String :=
  s.foldl (fun out c => out ++ escapeChar inAttribute c) ""

/-- The attributes of an element, each after a space. -/
def attributesText (attributes : List (String × String)) : String :=
  attributes.foldl (fun out (name, value) =>
    out ++ " " ++ name ++ "=\"" ++ escape true value ++ "\"") ""

mutual
def Xml.write : Xml → String
  | .text s => escape false s
  | .element tag attributes [] => "<" ++ tag ++ attributesText attributes ++ "/>"
  | .element tag attributes (c :: cs) =>
    "<" ++ tag ++ attributesText attributes ++ ">" ++ c.write ++ writeAll cs ++ "</" ++ tag ++ ">"

def Xml.writeAll : List Xml → String
  | [] => ""
  | x :: rest => x.write ++ writeAll rest
end

def Xml.fileText (x : Xml) : String :=
  "<?xml version=\"1.0\" encoding=\"UTF-8\" standalone=\"yes\"?>\n" ++ x.write

end MarkdownWord.Word
