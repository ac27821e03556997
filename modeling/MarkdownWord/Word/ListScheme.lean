/-! # List schemes

How the items of a list are marked at each of nine levels of nesting. Three kinds of marks follow
one another and repeat; each level is indented by half an inch more than the one before. -/

namespace MarkdownWord.Word

/-- How the items at one level of a list are marked and indented. -/
structure ListLevel where
  level : Int
  format : String
  /-- The mark; `%1` to `%9` stand for the numbers at the levels. -/
  text : String
  alignment : String := "left"
  indentLeft : Int := 0
  hanging : Int := 0
  start : Int := 1
  deriving DecidableEq, Repr, Inhabited

/-- A list scheme by its name and its levels. -/
structure ListScheme where
  reference : String
  levels : List ListLevel
  deriving DecidableEq, Repr, Inhabited

namespace ListScheme

def levelCount : Nat := 9

/-- What each level is indented by, in twentieths of a point. -/
def indentStep : Nat := 720

/-- How far the mark hangs out to the left of the text. -/
def hangingIndent : Nat := 360

/-- The scheme of a name whose level `i` has the format and text `mark i`. -/
def ofMarks (reference : String) (mark : Nat → String × String) : ListScheme where
  reference
  levels := (List.range levelCount).map fun (i : Nat) =>
    { level := i, format := (mark i).1, text := (mark i).2
      indentLeft := indentStep * (i + 1), hanging := hangingIndent }

/-- The name of the scheme for lists without numbers. -/
def bulletReference : String := "bullet-list"

def numberReference : String := "ordered-list"

/-- The mark of a list without numbers at a level. -/
def bulletMark (i : Nat) : String × String :=
  match i % 3 with
  | 0 => ("bullet", "•")
  | 1 => ("bullet", "◦")
  | _ => ("bullet", "–")

/-- The mark of a numbered list at a level: a digit, a letter, a roman numeral. -/
def numberMark (i : Nat) : String × String :=
  match i % 3 with
  | 0 => ("decimal", s!"%{i + 1}.")
  | 1 => ("lowerLetter", s!"%{i + 1})")
  | _ => ("lowerRoman", s!"%{i + 1}.")

def bullets : ListScheme := ofMarks bulletReference bulletMark

def numbers : ListScheme := ofMarks numberReference numberMark

def standard : List ListScheme := [bullets, numbers]

def referenceFor (ordered : Bool) : String := if ordered then numberReference else bulletReference

end ListScheme

/-- What becomes of lists nested deeper than the levels of a scheme: they stay on the last level, or
begin again with the first. -/
inductive Overflow where
  | clamp
  | cycle
  deriving DecidableEq, Repr, Inhabited

namespace Overflow

/-- The policy of a name; an unknown name means staying on the last level. -/
def ofName (name : String) : Overflow := if name = "cycle" then .cycle else .clamp

/-- The level of a scheme for a depth of nesting, the outermost lists having depth zero. -/
def level (o : Overflow) (depth : Int) : Int :=
  if depth < 0 then 0
  else if depth < ListScheme.levelCount then depth
  else match o with
    | .cycle => depth % ListScheme.levelCount
    | .clamp => (ListScheme.levelCount : Int) - 1

theorem level_nonneg (o : Overflow) (depth : Int) : 0 ≤ o.level depth := by
  unfold level ListScheme.levelCount
  split
  · omega
  · split
    · omega
    · cases o with
      | clamp => dsimp only; omega
      | cycle => dsimp only; omega

theorem level_lt (o : Overflow) (depth : Int) : o.level depth < ListScheme.levelCount := by
  unfold level ListScheme.levelCount
  split
  · omega
  · split
    · omega
    · cases o with
      | clamp => dsimp only; omega
      | cycle => dsimp only; omega

end Overflow
end MarkdownWord.Word
