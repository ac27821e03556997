import MarkdownWord.Text.LineEnd

/-! # Paths

Slash-separated paths. Empty components and single dots do not count, `..` stays; the suffix of a
name starts at its last dot, unless that is the first or the last character. -/

namespace MarkdownWord

/-- A path: the slashes at its front, at most two, and its components. -/
structure Path where
  root : Nat := 0
  components : List (List Char) := []
  deriving DecidableEq, Repr, Inhabited

namespace Path
open Text

def isComponent (s : List Char) : Bool := !s.isEmpty && s != ['.']

/-- The path that a text stands for. Two slashes at the front are kept, more are one. -/
def read (s : List Char) : Path :=
  let slashes := (s.takeWhile (· == '/')).length
  { root := if 2 < slashes then 1 else slashes
    components := (splitAt '/' s).filter isComponent }

/-- A path as text; the empty one is a dot. -/
def text (p : Path) : List Char :=
  if p.root = 0 && p.components.isEmpty then ['.']
  else List.replicate p.root '/' ++ ['/'].intercalate p.components

def name (p : Path) : List Char := p.components.getLast?.getD []

def parent (p : Path) : Path := { p with components := p.components.dropLast }

/-- A name cut at its last dot into the text before it and the rest; a dot at either end of the
name does not count. -/
def splitName (name : List Char) : List Char × List Char :=
  let tail := (name.reverse.takeWhile (· != '.')).length
  let stem := name.length - tail - 1
  if 0 < tail && 0 < stem && tail < name.length then (name.take stem, name.drop stem)
  else (name, [])

def stem (p : Path) : List Char := (splitName p.name).1

/-- The suffix of the name, with its dot; empty if there is none. -/
def suffix (p : Path) : List Char := (splitName p.name).2

/-- The path with another name. A path without a name has none. -/
def withName? (p : Path) (name : List Char) : Option Path :=
  if p.components.isEmpty then none
  else some { p with components := p.components.dropLast ++ [name] }

end Path
end MarkdownWord
