/-! # Code points

A text that comes from outside can hold surrogates: code points that are halves of a pair and no
characters. Such a text has no UTF-8 form. -/

namespace MarkdownWord.Text

inductive CodePoint where
  | char (c : Char)
  /-- The surrogate that lies `n` after the first one. -/
  | surrogate (n : Fin 0x800)
  deriving DecidableEq, Repr, Inhabited

namespace CodePoint

def ofNat? (n : Nat) : Option CodePoint :=
  if n.isValidChar then some (.char (Char.ofNat n))
  else if h : n - 0xD800 < 0x800 then some (.surrogate ⟨n - 0xD800, h⟩)
  else none

def isSurrogate : CodePoint → Bool
  | .char _ => false
  | .surrogate _ => true

def toNat : CodePoint → Nat
  | .char c => c.toNat
  | .surrogate n => 0xD800 + n

/-- What is put for a code point where a text holds characters only. U+FFFF is like a surrogate in
that it is no letter, white space or punctuation, and that no XML can hold it. -/
def standIn : CodePoint → Char
  | .char c => c
  | .surrogate _ => '\uFFFF'

end CodePoint

/-- A text with a surrogate in it: the characters before the first one, and what follows. -/
structure BrokenText where
  before : List Char
  surrogate : Fin 0x800
  after : List CodePoint
  deriving DecidableEq, Repr, Inhabited

namespace BrokenText

def codePoints (t : BrokenText) : List CodePoint :=
  t.before.map .char ++ .surrogate t.surrogate :: t.after

/-- The text with characters put for its surrogates. -/
def standIn (t : BrokenText) : String := String.ofList (t.codePoints.map CodePoint.standIn)

end BrokenText

/-- A text from outside: with characters only, or with surrogates among them. -/
inductive AnyText where
  | whole (s : String)
  | broken (t : BrokenText)
  deriving DecidableEq, Repr, Inhabited

/-- A text with characters put for its surrogates. -/
def AnyText.standIn : AnyText → String
  | .whole s => s
  | .broken t => t.standIn

/-- The text of some code points. `before` are the characters in front of them. -/
def AnyText.ofCodePoints (before : List Char) : List CodePoint → AnyText
  | [] => .whole (String.ofList before.reverse)
  | .char c :: rest => ofCodePoints (c :: before) rest
  | .surrogate n :: rest => .broken ⟨before.reverse, n, rest⟩

end MarkdownWord.Text
