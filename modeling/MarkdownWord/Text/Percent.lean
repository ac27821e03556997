import MarkdownWord.Text.Digit

/-! # Percent-encoding

Octets of a text's UTF-8 form written as `%` with two hexadecimal digits, and read back. -/

namespace MarkdownWord.Text

def percentByte (n : Nat) : List Char := ['%', hexDigit (n / 16 % 16), hexDigit (n % 16)]

/-- Every octet of a character's UTF-8 form as `%XX`. -/
def percentChar (c : Char) : List Char :=
  (String.utf8EncodeChar c).flatMap fun b => percentByte b.toNat

/-- A text in which the characters outside the class `keep` are percent-encoded. -/
def percentEncode (keep : Char → Bool) (s : List Char) : List Char :=
  s.flatMap fun c => if keep c then [c] else percentChar c

/-- Percent-encoding that leaves complete `%XX` groups as they are. -/
def percentComplete (keep : Char → Bool) : List Char → List Char
  | '%' :: a :: b :: rest =>
    if (hexValue? a).isSome && (hexValue? b).isSome then
      '%' :: a :: b :: percentComplete keep rest
    else percentChar '%' ++ percentComplete keep (a :: b :: rest)
  | c :: rest => (if keep c then [c] else percentChar c) ++ percentComplete keep rest
  | [] => []

/-- An octet that continues a character. -/
def isContinuation (b : Nat) : Bool := b / 64 == 2

/-- The character of a code point above `least`, or one replacement character for each of its
`count` octets where there is no such character. -/
def charOr (least count code : Nat) : List Char :=
  if least ≤ code && code.isValidChar then [Char.ofNat code] else List.replicate count '\uFFFD'

/-- The text of a row of octets. Those of the class `keep` stay percent-encoded; an octet that
starts no complete sequence becomes a replacement character. -/
def decodeOctets (keep : Char → Bool) : List Nat → List Char
  | [] => []
  | b :: rest =>
    if b < 0x80 then
      (if keep (Char.ofNat b) then percentByte b else [Char.ofNat b]) ++ decodeOctets keep rest
    else
      match b / 32 == 6, b / 16 == 14, b / 8 == 30, rest with
      | true, _, _, c :: rest' =>
        if isContinuation c then
          charOr 0x80 2 (b % 32 * 64 + c % 64) ++ decodeOctets keep rest'
        else '\uFFFD' :: decodeOctets keep (c :: rest')
      | _, true, _, c :: d :: rest' =>
        if isContinuation c && isContinuation d then
          charOr 0x800 3 ((b % 16 * 64 + c % 64) * 64 + d % 64) ++ decodeOctets keep rest'
        else '\uFFFD' :: decodeOctets keep (c :: d :: rest')
      | _, _, true, c :: d :: e :: rest' =>
        if isContinuation c && isContinuation d && isContinuation e then
          charOr 0x10000 4 (((b % 8 * 64 + c % 64) * 64 + d % 64) * 64 + e % 64) ++
            decodeOctets keep rest'
        else '\uFFFD' :: decodeOctets keep (c :: d :: e :: rest')
      | _, _, _, rest' => '\uFFFD' :: decodeOctets keep rest'

/-- A text with its `%XX` groups decoded as UTF-8, those of the class `keep` excepted. `octets`
are those just read, the last one first. -/
def decodeFrom (keep : Char → Bool) (octets : List Nat) : List Char → List Char
  | [] => decodeOctets keep octets.reverse
  | '%' :: a :: b :: rest =>
    match hexValue? a, hexValue? b with
    | some x, some y => decodeFrom keep ((x * 16 + y) :: octets) rest
    | _, _ => decodeOctets keep octets.reverse ++ '%' :: decodeFrom keep [] (a :: b :: rest)
  | c :: rest => decodeOctets keep octets.reverse ++ c :: decodeFrom keep [] rest

/-- A text with its `%XX` groups decoded as UTF-8, those of the class `keep` excepted. -/
def percentDecode (keep : Char → Bool) (s : List Char) : List Char := decodeFrom keep [] s

end MarkdownWord.Text
