import MarkdownWord.Value
import MarkdownWord.Text.Affix

/-! # JSON

Reading a value from JSON text and writing it again. Beside the standard the reader knows `NaN`,
`Infinity` and `-Infinity`. -/

namespace MarkdownWord.Json
open Number Text

def isSpace (c : Char) : Bool := c = ' ' || c = '\t' || c = '\n' || c = '\r'

def skipSpace (s : List Char) : List Char := s.dropWhile isSpace

/-- The value of four hexadecimal digits at the front of a text, and the rest. -/
def hex4? : List Char → Option (Nat × List Char)
  | a :: b :: c :: d :: rest => do
    let a ← hexValue? a
    let b ← hexValue? b
    let c ← hexValue? c
    let d ← hexValue? d
    return (((a * 16 + b) * 16 + c) * 16 + d, rest)
  | _ => none

/-- The low surrogate of an escape at the front of a text, and the rest. -/
def lowSurrogate? : List Char → Option (Nat × List Char)
  | '\\' :: 'u' :: s => (hex4? s).filter fun (low, _) => 0xDC00 ≤ low && low ≤ 0xDFFF
  | _ => none

/-- The code point of an escape that starts with `u`, a surrogate pair joined, and the rest. A
surrogate without its other half stays as it is. -/
def unicodeEscape? (s : List Char) : Option (CodePoint × List Char) := do
  let (code, rest) ← hex4? s
  match if 0xD800 ≤ code && code ≤ 0xDBFF then lowSurrogate? rest else none with
  | some (low, rest) =>
    return (← CodePoint.ofNat? (0x10000 + (code - 0xD800) * 0x400 + (low - 0xDC00)), rest)
  | none => return (← CodePoint.ofNat? code, rest)

/-- The rest of a string after its opening quote: the text, and what follows the closing quote. -/
def stringBody? : Nat → List CodePoint → List Char → Option (AnyText × List Char)
  | 0, _, _ => none
  | fuel + 1, acc, s =>
    match s with
    | '"' :: rest => some (.ofCodePoints [] acc.reverse, rest)
    | '\\' :: 'u' :: rest =>
      match unicodeEscape? rest with
      | some (c, rest) => stringBody? fuel (c :: acc) rest
      | none => none
    | '\\' :: c :: rest =>
      let escaped := match c with
        | '"' => some '"' | '\\' => some '\\' | '/' => some '/' | 'b' => some '\x08'
        | 'f' => some '\x0c' | 'n' => some '\n' | 'r' => some '\r' | 't' => some '\t'
        | _ => none
      match escaped with
      | some d => stringBody? fuel (.char d :: acc) rest
      | none => none
    | c :: rest => if c.toNat < 32 then none else stringBody? fuel (.char c :: acc) rest
    | [] => none

/-- A number at the front of a text: digits without a leading zero, then an optional fraction and
an optional exponent. Without both of these it is an integer. -/
def number? (s : List Char) : Option (Number × List Char) :=
  let (negative, body) := match s with
    | '-' :: rest => (true, rest)
    | rest => (false, rest)
  let (whole, rest) := match body with
    | '0' :: rest => (['0'], rest)
    | rest => rest.span Char.isDigit
  if whole.isEmpty then none
  else
    let (fraction, rest) := match rest with
      | '.' :: more =>
        let (digits, more) := more.span Char.isDigit
        if digits.isEmpty then ([], rest) else (digits, more)
      | rest => ([], rest)
    let (power, rest) := match rest with
      | e :: more =>
        if e = 'e' || e = 'E' then
          let (digits, after) := (takeSign more).2.span Char.isDigit
          if digits.isEmpty then (none, rest)
          else
            let n : Nat := digitsValue 0 digits
            (some (if (takeSign more).1 then -(n : Int) else n), after)
        else (none, rest)
      | [] => (none, rest)
    let digits := digitsValue 0 (whole ++ fraction)
    if fraction.isEmpty && power.isNone then
      some (.int (if negative then -(digits : Int) else digits), rest)
    else
      some (.real (.ofDecimal negative digits (power.getD 0 - fraction.length)), rest)

mutual
/-- A value at the front of a text, and the rest. `fuel` bounds the length of the text. -/
def value? : Nat → List Char → Option (Value × List Char)
  | 0, _ => none
  | fuel + 1, s =>
    match skipSpace s with
    | '"' :: rest => (stringBody? (rest.length + 1) [] rest).map fun (t, r) => (.ofText t, r)
    | '[' :: rest =>
      match skipSpace rest with
      | ']' :: rest => some (.array [], rest)
      | rest => (items? fuel rest).map fun (vs, r) => (.array vs, r)
    | '\x7b' :: rest =>
      match skipSpace rest with
      | '\x7d' :: rest => some (.object [], rest)
      | rest => (fields? fuel rest).map fun (fs, r) => (.object fs, r)
    | s =>
      if let some r := after? ['n', 'u', 'l', 'l'] s then some (.null, r)
      else if let some r := after? ['t', 'r', 'u', 'e'] s then some (.bool true, r)
      else if let some r := after? ['f', 'a', 'l', 's', 'e'] s then some (.bool false, r)
      else if let some r := after? ['N', 'a', 'N'] s then some (.number (.real .nan), r)
      else if let some r := after? "Infinity".toList s then
        some (.number (.real (.infinite false)), r)
      else if let some r := after? "-Infinity".toList s then
        some (.number (.real (.infinite true)), r)
      else (number? s).map fun (n, r) => (.number n, r)

/-- The items of an array up to its closing bracket. -/
def items? : Nat → List Char → Option (List Value × List Char)
  | 0, _ => none
  | fuel + 1, s =>
    match value? fuel s with
    | some (v, rest) =>
      match skipSpace rest with
      | ',' :: rest => (items? fuel rest).map fun (vs, r) => (v :: vs, r)
      | ']' :: rest => some ([v], rest)
      | _ => none
    | none => none

/-- The fields of an object up to its closing brace. -/
def fields? : Nat → List Char → Option (List (String × Value) × List Char)
  | 0, _ => none
  | fuel + 1, s =>
    match skipSpace s with
    | '"' :: rest =>
      match stringBody? (rest.length + 1) [] rest with
      | some (name, rest) =>
        match skipSpace rest with
        | ':' :: rest =>
          match value? fuel rest with
          | some (v, rest) =>
            match skipSpace rest with
            | ',' :: rest => (fields? fuel rest).map fun (fs, r) => ((name.standIn, v) :: fs, r)
            | '\x7d' :: rest => some ([(name.standIn, v)], rest)
            | _ => none
          | none => none
        | _ => none
      | none => none
    | _ => none
end

def read? (s : String) : Option Value :=
  let chars := s.toList
  match value? (2 * chars.length + 2) chars with
  | some (v, rest) => if (skipSpace rest).isEmpty then some v else none
  | none => none

/-! ## Writing -/

/-- A code point inside a JSON string; controls and surrogates as escapes. -/
def pointText (p : CodePoint) : List Char :=
  match p with
  | .char c =>
    if c = '"' || c = '\\' then ['\\', c]
    else if c.toNat < 32 then '\\' :: 'u' :: hexText 4 c.toNat
    else [c]
  | .surrogate _ => '\\' :: 'u' :: hexText 4 p.toNat

def pointsText (s : List CodePoint) : String :=
  String.ofList ('"' :: s.flatMap pointText ++ ['"'])

def stringText (s : String) : String := pointsText (s.toList.map .char)

/-- A number: a whole one without fraction, any other as the shortest decimal that reads back. -/
def numberText : Number → String
  | .int n => toString n
  | .real x => match x.toInt? with
    | some n => toString n
    | none => x.text

mutual
def write : Value → String
  | .null => "null"
  | .bool b => if b then "true" else "false"
  | .number n => numberText n
  | .string s => stringText s
  | .broken t => pointsText t.codePoints
  | .array items => "[" ++ ",".intercalate (writeAll items) ++ "]"
  | .object fields => "\x7b" ++ ",".intercalate (writeFields fields) ++ "\x7d"

def writeAll : List Value → List String
  | [] => []
  | v :: rest => write v :: writeAll rest

def writeFields : List (String × Value) → List String
  | [] => []
  | (name, v) :: rest => (stringText name ++ ":" ++ write v) :: writeFields rest
end

end MarkdownWord.Json
