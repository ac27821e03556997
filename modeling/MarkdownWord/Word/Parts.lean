import MarkdownWord.Archive
import MarkdownWord.Word.Package
import MarkdownWord.Word.XmlText

/-! # The parts of a document file

A document file is an archive of XML files: the body, the styles, the list schemes, the properties,
and the relationships between them. -/

namespace MarkdownWord.Word

/-! ## Vocabularies -/

/-- The name of a vocabulary: an address below the authority that keeps it. -/
def vocabulary (authority : String) (path : List String) : String :=
  "http:" ++ "//" ++ authority ++ "/" ++ "/".intercalate path

def packageVocabulary (purpose : List String) : String :=
  vocabulary "schemas.openxmlformats.org" ("package" :: "2006" :: purpose)

/-- The vocabulary of relationships from documents. -/
def relationVocabulary : String :=
  vocabulary "schemas.openxmlformats.org" ["officeDocument", "2006", "relationships"]

/-- The vocabularies that the markup of a document uses, by their abbreviations. -/
def documentVocabularies : List (String × String) := [
  ("xmlns:w", vocabulary "schemas.openxmlformats.org" ["wordprocessingml", "2006", "main"]),
  ("xmlns:r", relationVocabulary)]

/-! ## Styles -/

def StyleKind.word : StyleKind → String
  | paragraph => "paragraph"
  | run => "character"
  | table => "table"
  | list => "numbering"

/-- The styles that hold where nothing else is said. -/
def defaultStyleNames : List String :=
  ["Normal", "Default Paragraph Font", "Normal Table", "No List"]

/-- The look of a style, where it has one of its own. -/
def StyleEntry.look (e : StyleEntry) (normalSize : Option String) : List Xml :=
  if e.name = "Normal" then
    match normalSize with
    | some size => [.group "w:rPr" [.valued "w:sz" size]]
    | none => []
  else if e.name.startsWith "heading " then
    [.group "w:pPr" [.leaf "w:keepNext" [], .leaf "w:spacing" [("w:before", "240")]],
      .group "w:rPr" [.leaf "w:b" []]]
  else if e.name = "Strong" then [.group "w:rPr" [.leaf "w:b" []]]
  else if e.name = "Emphasis" then [.group "w:rPr" [.leaf "w:i" []]]
  else if e.name = "Table Grid" then
    [.group "w:tblPr" [.group "w:tblBorders" <|
      ["w:top", "w:left", "w:bottom", "w:right", "w:insideH", "w:insideV"].map fun edge =>
        .leaf edge [("w:val", "single"), ("w:sz", "4"), ("w:space", "0"), ("w:color", "auto")]]]
  else []

def StyleEntry.markup (e : StyleEntry) (normalSize : Option String) : Xml :=
  .element "w:style"
    ([("w:type", e.kind.word)] ++
      (if defaultStyleNames.contains e.name then [("w:default", "1")] else []) ++
      [("w:styleId", e.id)])
    (.valued "w:name" e.name :: e.look normalSize)

namespace Package

def styleMarkup (p : Package) : Xml :=
  .element "w:styles" documentVocabularies
    (styleEntries.map (·.markup p.normalSize) ++
      if p.withLinks then [linkStyleMarkup] else [])

/-! ## Parts -/

def pageMarkup : Xml :=
  .group "w:sectPr" [
    .leaf "w:pgSz" [("w:w", "12240"), ("w:h", "15840")],
    .leaf "w:pgMar" [("w:top", "1440"), ("w:right", "1800"), ("w:bottom", "1440"),
      ("w:left", "1800"), ("w:header", "720"), ("w:footer", "720"), ("w:gutter", "0")]]

def bodyMarkup (p : Package) : Xml :=
  .element "w:document" documentVocabularies [.group "w:body" (p.body ++ [pageMarkup])]

def listMarkup (p : Package) : Xml :=
  .element "w:numbering" documentVocabularies p.lists.markup

def propertyMarkup (p : Package) : Xml :=
  .element "cp:coreProperties" [
      ("xmlns:cp", packageVocabulary ["metadata", "core-properties"]),
      ("xmlns:dc", vocabulary "purl.org" ["dc", "elements", "1.1", ""])]
    [.group "dc:title" [.text p.title]]

/-- A relationship by its identifier, the vocabulary of its type, and its target. -/
def relationship (id type target : String) (more : List (String × String) := []) : Xml :=
  .leaf "Relationship" ([("Id", id), ("Type", type), ("Target", target)] ++ more)

def relationships (rs : List Xml) : Xml :=
  .element "Relationships" [("xmlns", packageVocabulary ["relationships"])] rs

def rootRelations : Xml := relationships [
  relationship "rId1" (relationVocabulary ++ "/officeDocument") "word/document.xml",
  relationship "rId2" (packageVocabulary ["relationships", "metadata", "core-properties"])
    "docProps/core.xml"]

/-- The relationships of the body, those to the targets of links included. -/
def bodyRelations (p : Package) : Xml := relationships <|
  [relationship "rId1" (relationVocabulary ++ "/styles") "styles.xml",
    relationship "rId2" (relationVocabulary ++ "/numbering") "numbering.xml"] ++
  p.links.map fun (id, url) =>
    relationship id (relationVocabulary ++ "/hyperlink") url [("TargetMode", "External")]

def partKind (part : String) : String :=
  "application/vnd.openxmlformats-officedocument.wordprocessingml." ++ part ++ "+xml"

def contentKinds : Xml :=
  .element "Types" [("xmlns", packageVocabulary ["content-types"])] <|
    [("rels", "application/vnd.openxmlformats-package.relationships+xml"),
      ("xml", "application/xml")].map (fun (extension, kind) =>
        .leaf "Default" [("Extension", extension), ("ContentType", kind)]) ++
    [("/word/document.xml", partKind "document.main"), ("/word/styles.xml", partKind "styles"),
      ("/word/numbering.xml", partKind "numbering"),
      ("/docProps/core.xml", "application/vnd.openxmlformats-package.core-properties+xml")].map
      (fun (name, kind) => .leaf "Override" [("PartName", name), ("ContentType", kind)])

/-- The files that a document file is made of, by name. -/
def parts (p : Package) : List (String × Xml) := [
  ("[Content_Types].xml", contentKinds), ("_rels/.rels", rootRelations),
  ("docProps/core.xml", p.propertyMarkup), ("word/document.xml", p.bodyMarkup),
  ("word/_rels/document.xml.rels", p.bodyRelations), ("word/styles.xml", p.styleMarkup),
  ("word/numbering.xml", p.listMarkup)]

def octets (p : Package) : ByteArray :=
  Archive.encode (p.parts.map fun (name, x) => ⟨name, x.fileText.toUTF8⟩)

end Package
end MarkdownWord.Word
