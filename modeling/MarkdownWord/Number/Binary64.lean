/-! # Binary64 numbers

Floating-point numbers of 64 bits with exact integer arithmetic behind them. `ofRatio` rounds a
quotient to the nearest number, a tie to the even mantissa; every operation is the exact one
followed by that rounding. -/

namespace MarkdownWord.Number

/-- A number `± mantissa * 2 ^ exponent`, an infinity, or not a number. -/
inductive Binary64 where
  | finite (negative : Bool) (mantissa : Nat) (exponent : Int)
  | infinite (negative : Bool)
  | nan
  deriving DecidableEq, Repr, Inhabited

/-- The quotient `num / den` to the nearest whole number, a tie to the even one. -/
def roundDiv (num den : Nat) : Nat :=
  let q := num / den
  let twice := 2 * (num % den)
  if twice < den || (twice == den && q % 2 == 0) then q else q + 1

namespace Binary64

def zero (negative : Bool) : Binary64 := .finite negative 0 (-1074)

/-- The quotient `num / den` in units of `2 ^ e`, again as a quotient. -/
def inUnits (num den : Nat) (e : Int) : Nat × Nat :=
  if 0 ≤ e then (num, den * Nat.pow 2 e.toNat) else (num * Nat.pow 2 (-e).toNat, den)

/-- The exponent at which `num / den` has a mantissa of 53 bits, or the least exponent. -/
def exponentOf (num den : Nat) : Int :=
  let e := max (-1074) ((num.log2 : Int) - den.log2 - 53)
  let (n, d) := inUnits num den e
  if Nat.pow 2 53 ≤ n / d then e + 1 else e

/-- The number nearest to `num / den` with the given sign. -/
def ofRatio (negative : Bool) (num den : Nat) : Binary64 :=
  if num = 0 then zero negative
  else
    let e := exponentOf num den
    let (n, d) := inUnits num den e
    let m := roundDiv n d
    let (m, e) := if m = Nat.pow 2 53 then (Nat.pow 2 52, e + 1) else (m, e)
    if 971 < e then .infinite negative else .finite negative m e

def ofInt (n : Int) : Binary64 := ofRatio (decide (n < 0)) n.natAbs 1

/-- The magnitude of a finite number as a quotient. -/
def ratio (mantissa : Nat) (exponent : Int) : Nat × Nat :=
  if 0 ≤ exponent then (mantissa * Nat.pow 2 exponent.toNat, 1)
  else (mantissa, Nat.pow 2 (-exponent).toNat)

def mulNat (x : Binary64) (k : Nat) : Binary64 :=
  match x with
  | .finite s m e => let (n, d) := ratio m e; ofRatio s (n * k) d
  | other => other

def divNat (x : Binary64) (k : Nat) : Binary64 :=
  match x with
  | .finite s m e => let (n, d) := ratio m e; ofRatio s n (d * k)
  | other => other

/-- The whole part of a finite number, toward zero. -/
def truncate? : Binary64 → Option Int
  | .finite s m e =>
    let (n, d) := ratio m e
    some (if s then -((n / d : Nat) : Int) else ((n / d : Nat) : Int))
  | _ => none

/-- The whole number nearest to a finite number, a tie going to the even one, and zero for the
others. -/
def nearest : Binary64 → Int
  | .finite s m e =>
    let (n, d) := ratio m e
    if s then -(roundDiv n d : Int) else (roundDiv n d : Int)
  | _ => 0

def toInt? : Binary64 → Option Int
  | .finite s m e =>
    let (n, d) := ratio m e
    if n % d = 0 then some (if s then -((n / d : Nat) : Int) else ((n / d : Nat) : Int)) else none
  | _ => none

def isZero : Binary64 → Bool
  | .finite _ m _ => m == 0
  | _ => false

/-- A number between two whole numbers, the bounds included. -/
def isBetween (low high : Nat) : Binary64 → Bool
  | .finite s m e =>
    let (n, d) := ratio m e
    if s && m != 0 then false else low * d ≤ n && n ≤ high * d
  | _ => false

end Binary64
end MarkdownWord.Number
