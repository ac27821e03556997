import MarkdownWord.Value

/-! # What a document file cannot hold -/

namespace MarkdownWord.Word

/-- Why a document cannot be written. -/
inductive RenderError where
  | illegalText (text : String)
  /-- The title of a document has more than 255 characters. -/
  | titleTooLong (length : Nat)
  /-- A space before or after a paragraph is negative or far too large. -/
  | spacing (twips : Int)
  | position (twips : Int)
  /-- A size is negative, far too large, or no number. -/
  | size (points : Number)
  | infiniteSize (points : Number)
  | color (text : String)
  | noStyle (name : String)
  | notRunStyle (name : String)
  deriving DecidableEq, Repr, Inhabited

def illegalUnless (legal : Bool) (text : String) : Except RenderError String :=
  if legal then pure text else throw (.illegalText text)

end MarkdownWord.Word
