import MarkdownWord.Number.Decimal
import MarkdownWord.Word.RenderError

/-! # Colors

A color is written as three bytes in hexadecimal. -/

namespace MarkdownWord.Word
open Number Text

def colorByte? (s : List Char) : Option Nat :=
  (readHex? (String.ofList s)).bind fun n => if 0 ≤ n && n ≤ 255 then some n.toNat else none

/-- The attribute for a color. The first two characters give the red, the next two the green, and
the rest the blue part. -/
def colorText (s : String) : Except RenderError String :=
  let cs := s.toList
  match colorByte? (cs.take 2), colorByte? (cs.drop 2 |>.take 2), colorByte? (cs.drop 4) with
  | some r, some g, some b => pure (String.ofList (hexText 2 r ++ hexText 2 g ++ hexText 2 b))
  | _, _, _ => throw (.color s)

end MarkdownWord.Word
