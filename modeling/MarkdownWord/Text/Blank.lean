/-! # White space

The characters that count as white space in running text, and trimming by them. -/

namespace MarkdownWord.Text

/-- White space: the ASCII blanks and the separators 1C to 1F, NEL, and the spaces and
separators of Unicode. -/
def isBlank (c : Char) : Bool :=
  let n := c.toNat
  (9 ≤ n && n ≤ 13) || (28 ≤ n && n ≤ 32) || n = 0x85 || n = 0xA0 || n = 0x1680 ||
  (0x2000 ≤ n && n ≤ 0x200A) || n = 0x2028 || n = 0x2029 || n = 0x202F || n = 0x205F ||
  n = 0x3000

/-- A text without the characters of class `p` at its right end. -/
def trimRight (p : Char → Bool) (s : List Char) : List Char :=
  (s.reverse.dropWhile p).reverse

/-- A text without the characters of class `p` at its two ends. -/
def trim (p : Char → Bool) (s : List Char) : List Char :=
  trimRight p (s.dropWhile p)

def trimBlank (s : List Char) : List Char := trim isBlank s

def stripped (s : String) : String := String.ofList (trimBlank s.toList)

/-- Each maximal run of white space written as one space. -/
def squeeze : List Char → List Char
  | [] => []
  | c :: rest =>
    if isBlank c then
      match rest with
      | d :: _ => if isBlank d then squeeze rest else ' ' :: squeeze rest
      | [] => [' ']
    else c :: squeeze rest

/-- The words of a text: its maximal pieces without white space. -/
def words (s : List Char) : List (List Char) :=
  go s []
where
  go : List Char → List Char → List (List Char)
    | [], word => close word []
    | c :: rest, word => if isBlank c then close word (go rest []) else go rest (c :: word)
  close (word : List Char) (rest : List (List Char)) : List (List Char) :=
    if word.isEmpty then rest else word.reverse :: rest

end MarkdownWord.Text
