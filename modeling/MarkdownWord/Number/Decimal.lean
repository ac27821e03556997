import MarkdownWord.Number.Binary64
import MarkdownWord.Text.Blank
import MarkdownWord.Text.Digit

/-! # Numbers in decimal

The numerals that are read as integers and as binary64 numbers, and the shortest decimal that reads
back to a number. -/

namespace MarkdownWord.Number
open MarkdownWord.Text

/-- The number nearest to `± digits * 10 ^ exponent`. Exponents far outside the range of the format
give zero or an infinity at once. -/
def Binary64.ofDecimal (negative : Bool) (digits : Nat) (exponent : Int) : Binary64 :=
  if digits = 0 then zero negative
  else
    let top : Int := exponent + (Nat.toDigits 10 digits).length
    if 400 < top then .infinite negative
    else if top < -400 then zero negative
    else if 0 ≤ exponent then ofRatio negative (digits * Nat.pow 10 exponent.toNat) 1
    else ofRatio negative digits (Nat.pow 10 (-exponent).toNat)

/-! ## Reading -/

/-- White space around a numeral: the separators 1C to 1F do not belong to it. -/
def isNumeralBlank (c : Char) : Bool := isBlank c && !(28 ≤ c.toNat && c.toNat ≤ 31)

/-- A text without the white space around it, every decimal digit being an ASCII digit. -/
def numeralText (s : String) : List Char :=
  (trim isNumeralBlank s.toList).map fun c => match digitValue? c with
    | some v => Char.ofNat (48 + v)
    | none => c

/-- A sign at the front of a numeral: whether it is negative, and the rest. -/
def takeSign : List Char → Bool × List Char
  | '-' :: rest => (true, rest)
  | '+' :: rest => (false, rest)
  | rest => (false, rest)

/-- The value of a row of ASCII digits continuing a numeral. -/
def digitsValue (value : Nat) (s : List Char) : Nat :=
  s.foldl (fun v c => v * 10 + (c.toNat - 48)) value

/-- A numeral without its underscores, each of which has to stand between two digits. -/
def dropUnderscores? (isDigit : Char → Bool) : List Char → Option (List Char)
  | [] => some []
  | ['_'] => none
  | c :: '_' :: d :: rest =>
    if isDigit c && isDigit d then (dropUnderscores? isDigit (d :: rest)).map (c :: ·) else none
  | c :: rest => if c = '_' then none else (dropUnderscores? isDigit rest).map (c :: ·)

/-- How many digits an integer numeral has at most. -/
def maxDigits : Nat := 4300

def withSign (negative : Bool) (n : Nat) : Int := if negative then -(n : Int) else n

/-- An integer numeral: white space around it, a sign, digits of any script, and underscores
between digits. -/
def readInt? (s : String) : Option Int :=
  let (negative, body) := takeSign (numeralText s)
  (dropUnderscores? Char.isDigit body).bind fun digits =>
    if digits.isEmpty || maxDigits < digits.length || !digits.all Char.isDigit then none
    else some (withSign negative (digitsValue 0 digits))

/-- The digits of a hexadecimal numeral after an optional `0x`, which an underscore may follow. -/
def hexBody : List Char → List Char
  | '0' :: 'x' :: '_' :: rest | '0' :: 'X' :: '_' :: rest => rest
  | '0' :: 'x' :: rest | '0' :: 'X' :: rest => rest
  | rest => rest

/-- A hexadecimal integer numeral, by the same rules as a decimal one. -/
def readHex? (s : String) : Option Int :=
  let (negative, body) := takeSign (numeralText s)
  (dropUnderscores? (hexValue? · |>.isSome) (hexBody body)).bind fun digits =>
    if digits.isEmpty then none
    else (digits.mapM hexValue?).map fun values =>
      withSign negative (values.foldl (fun n v => n * 16 + v) 0)

/-- An exponent part: nothing, or `e` with an integer of at least one digit. -/
def readExponent? : List Char → Option Int
  | [] => some 0
  | c :: rest =>
    if c = 'e' || c = 'E' then
      let (negative, digits) := takeSign rest
      if digits.isEmpty || !digits.all Char.isDigit then none
      else some (withSign negative (digitsValue 0 digits))
    else none

/-- An unsigned decimal numeral with optional fraction and exponent. -/
def readDecimal? (negative : Bool) (s : List Char) : Option Binary64 :=
  let (whole, rest) := s.span Char.isDigit
  let (fraction, rest) := match rest with
    | '.' :: rest => rest.span Char.isDigit
    | rest => ([], rest)
  if whole.isEmpty && fraction.isEmpty then none
  else (readExponent? rest).map fun e =>
    .ofDecimal negative (digitsValue 0 (whole ++ fraction)) (e - fraction.length)

/-- The names `inf`, `infinity` and `nan` in any case. -/
def readNamed? (negative : Bool) (s : List Char) : Option Binary64 :=
  let name := String.ofList (s.map Char.toLower)
  if name = "inf" || name = "infinity" then some (.infinite negative)
  else if name = "nan" then some .nan
  else none

/-- A numeral for a binary64 number: white space around it, a sign, a decimal with digits of any
script and underscores between digits, or one of the names. -/
def readBinary64? (s : String) : Option Binary64 :=
  let (negative, body) := takeSign (numeralText s)
  (readNamed? negative body).or
    ((dropUnderscores? Char.isDigit body).bind (readDecimal? negative))

/-! ## Reading plain numerals

In configurations and requests the digits are those of ASCII, and underscores may stand anywhere
but at the ends and in pairs. -/

/-- A text without its underscores, none of which stands at an end or next to another one. -/
def removeUnderscores? (s : List Char) : Option (List Char) :=
  if s.head? = some '_' || s.getLast? = some '_' || hasPair s then none
  else some (s.filter (· != '_'))
where
  hasPair : List Char → Bool
    | '_' :: '_' :: _ => true
    | _ :: rest => hasPair rest
    | [] => false

/-- A numeral without underscores for a binary64 number. -/
def readUnmarked? (s : List Char) : Option Binary64 :=
  let (negative, body) := takeSign (trim isNumeralBlank s)
  (readNamed? negative body).or (readDecimal? negative body)

def readPlainBinary64? (s : String) : Option Binary64 :=
  (readUnmarked? s.toList).or ((removeUnderscores? s.toList).bind readUnmarked?)

/-- A numeral without the zeros at its front, which underscores may part. -/
def dropZeros? : List Char → Option (List Char)
  | '0' :: rest =>
    match rest.dropWhile fun c => c = '0' || c = '_' with
    | [] => some [rest.getLast?.getD '0']
    | c :: more => if c.isDigit then some (c :: more) else if c = '.' then some ('0' :: c :: more)
      else none
  | c :: rest => if c.isDigit || c = '-' then some (c :: rest) else none
  | [] => none

/-- A numeral without a point that only zeros follow. -/
def dropZeroFraction (s : List Char) : List Char :=
  match s.span (· != '.') with
  | (whole, '.' :: rest) => if rest.all (· == '0') then whole else s
  | _ => s

/-- A plain integer numeral. It may have a fraction of zeros. -/
def readPlainInt? (s : String) : Option Int := do
  let body := trim isNumeralBlank s.toList
  let body ← match body with
    | '+' :: '-' :: _ => none
    | '+' :: rest => some rest
    | rest => some rest
  let body ← dropZeros? body
  let body ← removeUnderscores? (dropZeroFraction body)
  let (negative, digits) := match body with
    | '-' :: rest => (true, rest)
    | rest => (false, rest)
  if digits.isEmpty || maxDigits < digits.length || !digits.all Char.isDigit then none
  else some (withSign negative (digitsValue 0 digits))

/-! ## Writing -/

/-- Where the decimal point of `num / den` stands: the value lies in `[10 ^ (k-1), 10 ^ k)`. -/
def pointOf (num den : Nat) : Int :=
  if den ≤ num then (Nat.toDigits 10 (num / den)).length
  else
    match (List.range 400).find? fun j => den ≤ num * Nat.pow 10 (j + 1) with
    | some j => -(j : Int)
    | none => 0

/-- The nearer of the two neighbours of `num / den` on the grid of step `10 ^ e`, among those that
read back to `x`. -/
def nearestOnGrid? (x : Binary64) (num den : Nat) (e : Int) : Option Nat :=
  let (n, d) := if 0 ≤ e then (num, den * Nat.pow 10 e.toNat)
    else (num * Nat.pow 10 (-e).toNat, den)
  let low := n / d
  let reads (m : Nat) : Bool := Binary64.ofDecimal false m e == x
  if 2 * (n % d) ≤ d then
    if reads low then some low else if reads (low + 1) then some (low + 1) else none
  else
    if reads (low + 1) then some (low + 1) else if reads low then some low else none

/-- The shortest decimal `digits * 10 ^ e` that reads back to the positive number of the given
mantissa and exponent. -/
def shortest (mantissa : Nat) (exponent : Int) : Nat × Int :=
  let x := Binary64.finite false mantissa exponent
  let (num, den) := Binary64.ratio mantissa exponent
  let point := pointOf num den
  let found := (List.range 17).findSome? fun (i : Nat) =>
    let e := point - (i + 1)
    (nearestOnGrid? x num den e).map (·, e)
  found.getD (num / den, 0)

/-- How the digits of a decimal are laid out. -/
structure Layout where
  /-- The least position of the decimal point that is still written without an exponent. -/
  leastPoint : Int
  /-- The greatest such position. -/
  greatestPoint : Int
  wholeSuffix : String

/-- Digits with the decimal point at position `point`, by a layout. -/
def Layout.digits (layout : Layout) (digits : List Char) (point : Int) : String :=
  let digits := trimRight (· == '0') digits
  if layout.leastPoint ≤ point && point ≤ layout.greatestPoint then
    if point ≤ 0 then
      "0." ++ String.ofList (List.replicate (-point).toNat '0' ++ digits)
    else if digits.length ≤ point.toNat then
      String.ofList (digits ++ List.replicate (point.toNat - digits.length) '0') ++
        layout.wholeSuffix
    else
      String.ofList (digits.take point.toNat) ++ "." ++ String.ofList (digits.drop point.toNat)
  else
    let e := point - 1
    let mark := if e < 0 then "e-" else "e+"
    let power := (Nat.toDigits 10 e.natAbs)
    let power := if power.length < 2 then '0' :: power else power
    let head := String.ofList (digits.take 1)
    let tail := if digits.length ≤ 1 then "" else "." ++ String.ofList (digits.drop 1)
    head ++ tail ++ mark ++ String.ofList power

/-- A number by a layout, with the fewest digits that read back to it. -/
def Layout.text (layout : Layout) : Binary64 → String
  | .nan => "nan"
  | .infinite s => if s then "-inf" else "inf"
  | .finite s m e =>
    let sign := if s then "-" else ""
    if m = 0 then sign ++ "0" ++ layout.wholeSuffix
    else
      let (digits, power) := shortest m e
      let digits := Nat.toDigits 10 digits
      sign ++ layout.digits digits (digits.length + power)

/-- The text of a number in running output: positional from `1e-04` up to below `1e+16`, a whole
number with `.0`. -/
def plain : Layout := ⟨-3, 16, ".0"⟩

def Binary64.text (x : Binary64) : String := plain.text x

end MarkdownWord.Number
