import MarkdownWord.Text.CodePoint

/-! # Punycode

Texts written with the characters of ASCII that they hold, and the places of all others in a row of
numbers. The digits of a number are the letters and then the decimal digits, the least one first; a
digit below the threshold of its position is the last one. The thresholds follow the numbers before
it. -/

namespace MarkdownWord.Text.Punycode

/-- The bias before the first number. -/
def initialBias : Nat := 72

/-- The least code point that is not written as it is. -/
def firstCode : Nat := 0x80

def threshold (bias position : Nat) : Nat := max 1 (min 26 (36 * (position + 1) - bias))

theorem threshold_bounds (bias position : Nat) :
    1 ≤ threshold bias position ∧ threshold bias position ≤ 26 := by
  unfold threshold
  omega

def digit (n : Nat) : Char := if n < 26 then Char.ofNat (0x61 + n) else Char.ofNat (22 + n)

/-- The value of a digit, letters in either case. -/
def digitValue? (c : Char) : Option Nat :=
  if c.isAlpha then some (c.toLower.toNat - 0x61)
  else if c.isDigit then some (c.toNat - 22)
  else none

/-- A number brought down to 455 at most by divisions through 35, and 36 for each of them. -/
def shrink (n : Nat) : Nat × Nat :=
  if 455 < n then
    let (n, divisions) := shrink (n / 35)
    (n, divisions + 36)
  else (n, 0)
termination_by n

/-- The bias after a number, which is the first one or not, when `count` characters have a place. -/
def adapt (n : Nat) (isFirst : Bool) (count : Nat) : Nat :=
  let n := if isFirst then n / 700 else n / 2
  let (n, divisions) := shrink (n + n / count)
  divisions + 36 * n / (n + 38)

/-! ## Writing -/

def numberDigits (bias position n : Nat) : List Char :=
  let t := threshold bias position
  if n < t then [digit n]
  else digit (t + (n - t) % (36 - t)) :: numberDigits bias (position + 1) ((n - t) / (36 - t))
termination_by n
decreasing_by
  have hbounds := threshold_bounds bias position
  have hle := Nat.div_le_self (n - threshold bias position) (36 - threshold bias position)
  omega

/-- What is written so far: the digits, the number that is pending, the bias for it, and how many
characters have a place. -/
structure Writer where
  digits : List Char := []
  pending : Nat := 0
  bias : Nat := initialBias
  count : Nat
  isFirst : Bool := true

/-- Passes a character while those of code point `code` get their places. -/
def Writer.pass (code : Nat) (w : Writer) (c : Char) : Writer :=
  if c.toNat < code then { w with pending := w.pending + 1 }
  else if c.toNat = code then
    { digits := w.digits ++ numberDigits w.bias 0 w.pending
      pending := 0
      bias := adapt w.pending w.isFirst (w.count + 1)
      count := w.count + 1
      isFirst := false }
  else w

/-- Writes the places of the characters of some code points, the least one first. `least` is the
least code point that may come. -/
def Writer.passAll (s : List Char) (least : Nat) (w : Writer) : List Nat → Writer
  | [] => w
  | code :: codes =>
    let w := { w with pending := w.pending + (code - least) * (w.count + 1) }
    let w := s.foldl (pass code) w
    passAll s (code + 1) { w with pending := w.pending + 1 } codes

def encode (s : List Char) : List Char :=
  let (basic, others) := s.partition (·.toNat < firstCode)
  let codes := ((others.map Char.toNat).mergeSort (· ≤ ·)).eraseReps
  (if basic.isEmpty then [] else basic ++ ['-']) ++
    (Writer.passAll s firstCode { count := basic.length } codes).digits

/-! ## Reading -/

/-- The number at the front of a row of digits, times the weight of its first digit, and what
follows it. -/
def number? (bias : Nat) : (position weight : Nat) → List Char → Option (Nat × List Char)
  | _, _, [] => none
  | position, weight, c :: rest =>
    (digitValue? c).bind fun d =>
      let t := threshold bias position
      if d < t then some (d * weight, rest)
      else (number? bias (position + 1) (weight * (36 - t)) rest).map fun (n, rest) =>
        (d * weight + n, rest)

theorem number?_length {bias position weight n : Nat} {s rest : List Char}
    (h : number? bias position weight s = some (n, rest)) : rest.length < s.length := by
  induction s generalizing position weight n with
  | nil => cases h
  | cons c s ih =>
    rw [number?] at h
    obtain ⟨d, -, h⟩ := Option.bind_eq_some_iff.mp h
    dsimp only at h
    split at h
    · cases h
      exact Nat.lt_succ_self _
    · obtain ⟨⟨m, rest'⟩, hm, h⟩ := Option.map_eq_some_iff.mp h
      cases h
      exact Nat.lt_succ_of_lt (ih hm)

/-- A text with its other characters put in their places. `code` and `place` are those of the
character before. -/
def insertAll? (text : List CodePoint) (code place bias : Nat) (isFirst : Bool) (s : List Char) :
    Option (List CodePoint) :=
  if s.isEmpty then some text
  else
    match h : number? bias 0 1 s with
    | none => none
    | some (n, rest) =>
      have := number?_length h
      let count := text.length + 1
      let code := code + (place + n) / count
      let place := (place + n) % count
      (CodePoint.ofNat? code).bind fun point =>
        insertAll? (text.insertIdx place point) code (place + 1) (adapt n isFirst count) false rest
termination_by s.length

/-- The text that is written so, if one is. -/
def decode? (s : List Char) : Option (List CodePoint) :=
  if s.all (·.toNat < firstCode) then
    match s.reverse.span (· != '-') with
    | (digits, '-' :: basic) =>
      insertAll? (basic.reverse.map .char) firstCode 0 initialBias true digits.reverse
    | _ => insertAll? [] firstCode 0 initialBias true s
  else none

end MarkdownWord.Text.Punycode
