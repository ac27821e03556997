import MarkdownWord.Text.CodePoint
import MarkdownWord.Text.Digit
import MarkdownWord.Text.Printable

/-! # Quoted text

A text between quotes, with escapes for whatever a terminal would not show as itself. -/

namespace MarkdownWord.Text

def quotedChar (quote c : Char) : List Char :=
  if c = quote || c = '\\' then ['\\', c]
  else if c = '\n' then ['\\', 'n']
  else if c = '\r' then ['\\', 'r']
  else if c = '\t' then ['\\', 't']
  else if isPrintable c then [c]
  else if c.toNat < 0x100 then '\\' :: 'x' :: (hexText 2 c.toNat).map Char.toLower
  else if c.toNat < 0x10000 then '\\' :: 'u' :: (hexText 4 c.toNat).map Char.toLower
  else '\\' :: 'U' :: (hexText 8 c.toNat).map Char.toLower

def quotedPoint (quote : Char) : CodePoint → List Char
  | .char c => quotedChar quote c
  | s => '\\' :: 'u' :: (hexText 4 s.toNat).map Char.toLower

/-- Code points in single quotes, or in double quotes where they hold single quotes and no double
ones. -/
def quotedPoints (s : List CodePoint) : String :=
  let quote := if s.contains (.char '\'') && !s.contains (.char '"') then '"' else '\''
  String.ofList (quote :: s.flatMap (quotedPoint quote) ++ [quote])

def quoted (s : String) : String := quotedPoints (s.toList.map .char)

end MarkdownWord.Text
