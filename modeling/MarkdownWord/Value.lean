import MarkdownWord.Number.Decimal
import MarkdownWord.Text.Quoted

/-! # Loosely typed values

Attribute values, request bodies and configuration arrive as values whose type is known only when
they are looked at. -/

namespace MarkdownWord
open Number

/-- A number as written: an integer, or a binary64 number. -/
inductive Number where
  | int (n : Int)
  | real (x : Binary64)
  deriving DecidableEq, Repr, Inhabited

/-- A value of any type. -/
inductive Value where
  | null
  | bool (b : Bool)
  | number (n : Number)
  | string (s : String)
  /-- A string with surrogates in it. -/
  | broken (t : Text.BrokenText)
  | array (items : List Value)
  | object (fields : List (String × Value))
  deriving Inhabited

namespace Number

def toBinary64 : Number → Binary64
  | .int n => .ofInt n
  | .real x => x

def isZero : Number → Bool
  | .int n => n == 0
  | .real x => x.isZero

/-- A number between two whole numbers, the bounds included. -/
def isBetween (low high : Nat) : Number → Bool
  | .int n => (low : Int) ≤ n && n ≤ (high : Int)
  | .real x => x.isBetween low high

def text : Number → String
  | .int n => toString n
  | .real x => x.text

end Number

namespace Value

def ofText : Text.AnyText → Value
  | .whole s => .string s
  | .broken t => .broken t

/-- The field of an object; the last of several with one name. -/
def field? (name : String) : Value → Option Value
  | .object fields => (fields.reverse.find? (·.1 == name)).map (·.2)
  | _ => none

mutual
/-- A value inside another one, as it is shown to a reader. -/
def inner : Value → String
  | .null => "None"
  | .bool b => if b then "True" else "False"
  | .number n => n.text
  | .string s => Text.quoted s
  | .broken t => Text.quotedPoints t.codePoints
  | .array items => "[" ++ ", ".intercalate (innerAll items) ++ "]"
  | .object fields => "\x7b" ++ ", ".intercalate (innerFields fields) ++ "\x7d"

def innerAll : List Value → List String
  | [] => []
  | v :: rest => inner v :: innerAll rest

def innerFields : List (String × Value) → List String
  | [] => []
  | (name, v) :: rest => (Text.quoted name ++ ": " ++ inner v) :: innerFields rest
end

def text : Value → String
  | .string s => s
  | .broken t => t.standIn
  | v => inner v

end Value
end MarkdownWord
