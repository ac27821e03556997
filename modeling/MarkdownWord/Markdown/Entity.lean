import MarkdownWord.Markdown.NamedCharacters
import MarkdownWord.Text.Digit
import MarkdownWord.Text.CaseFold
import MarkdownWord.Text.Punctuation

/-! # Character references and escapes

A reference `&#number;` stands for a character, `&name;` for one or two, and a backslash before
ASCII punctuation for that character itself. -/

namespace MarkdownWord.Markdown
open Text

/-- A code point that a numeric reference may stand for: no surrogate, no noncharacter and no
control other than white space. -/
def isReferable (n : Nat) : Bool :=
  !((0xD800 ≤ n && n ≤ 0xDFFF) || (0xFDD0 ≤ n && n ≤ 0xFDEF) || n % 0x10000 == 0xFFFF ||
    n % 0x10000 == 0xFFFE || n ≤ 8 || n == 11 || (14 ≤ n && n ≤ 31) || (0x7F ≤ n && n ≤ 0x9F) ||
    0x10FFFF < n)

/-- The code point written after `#`: decimal digits, or `x` and hexadecimal digits, the number of
digits within bounds. -/
def codePoint? (maxDecimal maxHex : Nat) : List Char → Option Nat
  | [] => none
  | x :: digits =>
    if x = 'x' || x = 'X' then
      if digits.isEmpty || maxHex < digits.length then none
      else digits.foldlM (fun v c => (hexValue? c).map (v * 16 + ·)) 0
    else if maxDecimal < digits.length + 1 || !(x :: digits).all Char.isDigit then none
    else some ((x :: digits).foldl (fun v c => v * 10 + (c.toNat - 48)) 0)

/-- The body of a reference, between the ampersand and the semicolon: a letter or `#`, then one to
31 letters or digits. The rest starts after the semicolon. -/
def referenceBody? : List Char → Option (List Char × List Char)
  | [] => none
  | c :: rest =>
    let name := rest.takeWhile Char.isAlphanum
    match rest.dropWhile Char.isAlphanum with
    | ';' :: rest' =>
      if (c.isAlpha || c = '#') && 1 ≤ name.length && name.length ≤ 31 then
        some (c :: name, rest')
      else none
    | _ => none

/-- A reference in running text, after its ampersand: its characters and the rest. A number that is
not a referable code point gives the replacement character. -/
def reference? (s : List Char) : Option (List Char × List Char) :=
  match referenceBody? s with
  | some ('#' :: number, rest) =>
    (codePoint? 7 6 number).map fun n => ([if isReferable n then Char.ofNat n else '\uFFFD'], rest)
  | some (name, rest) => (named? (String.ofList name)).map (·, rest)
  | none => none

/-- A reference inside a destination or title. A number that is not a referable code point is no
reference there. -/
def innerReference? (s : List Char) : Option (List Char × List Char) :=
  match referenceBody? s with
  | some ('#' :: number, rest) =>
    match codePoint? 8 8 number with
    | some n => if isReferable n then some ([Char.ofNat n], rest) else none
    | none => none
  | some (name, rest) => (named? (String.ofList name)).map (·, rest)
  | none => none

theorem referenceBody?_length {s name rest : List Char}
    (h : referenceBody? s = some (name, rest)) : rest.length < s.length := by
  cases s with
  | nil => simp [referenceBody?] at h
  | cons c s =>
    simp only [referenceBody?] at h
    split at h
    · rename_i rest' hd
      split at h
      · simp only [Option.some.injEq, Prod.mk.injEq] at h
        obtain ⟨-, rfl⟩ := h
        have := (List.dropWhile_suffix Char.isAlphanum (l := s)).length_le
        simp only [hd, List.length_cons] at this ⊢
        omega
      · simp at h
    · simp at h

theorem innerReference?_length {s cs rest : List Char}
    (h : innerReference? s = some (cs, rest)) : rest.length < s.length := by
  simp only [innerReference?] at h
  split at h
  · rename_i number rest' hb
    have := referenceBody?_length hb
    split at h
    · split at h
      · simp_all
      · simp at h
    · simp at h
  · rename_i name rest' _ hb
    have := referenceBody?_length hb
    simp only [Option.map_eq_some_iff, Prod.mk.injEq] at h
    obtain ⟨_, _, _, rfl⟩ := h
    exact this
  · simp at h

/-- A destination or title with its escapes and references resolved. -/
def unescape : List Char → List Char
  | [] => []
  | '\\' :: c :: rest =>
    if isAsciiPunctuation c then c :: unescape rest else '\\' :: unescape (c :: rest)
  | '&' :: rest =>
    match h : innerReference? rest with
    | some (cs, rest') =>
      have := innerReference?_length h
      cs ++ unescape rest'
    | none => '&' :: unescape rest
  | c :: rest => c :: unescape rest
termination_by s => s.length

end MarkdownWord.Markdown
