/-! # Line ends

A line ends at CR LF, at CR or at LF. -/

namespace MarkdownWord.Text

def unifyLineEnds : List Char → List Char
  | '\r' :: '\n' :: rest => '\n' :: unifyLineEnds rest
  | '\r' :: rest => '\n' :: unifyLineEnds rest
  | c :: rest => c :: unifyLineEnds rest
  | [] => []

/-- The pieces of a text between the occurrences of `sep`. -/
def splitAt {α : Type} [DecidableEq α] (sep : α) : List α → List (List α)
  | [] => [[]]
  | c :: rest =>
    match splitAt sep rest with
    | line :: lines => if c = sep then [] :: line :: lines else (c :: line) :: lines
    | [] => [[c]]

/-- The lines of a text, without their line ends. A text has one line more than line ends. -/
def lines (s : List Char) : List (List Char) := splitAt '\n' (unifyLineEnds s)

end MarkdownWord.Text
