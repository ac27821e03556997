import MarkdownWord.Text.Blank
import MarkdownWord.Text.Punctuation
import MarkdownWord.Markdown.Span

/-! # Delimiters

Stars, underscores and pairs of tildes mark emphasis and deletion where an opening and a closing
delimiter can be paired. `resolve` pairs the delimiters of a row of pieces and nests the spans
between them. -/

namespace MarkdownWord.Markdown
open Text

def isFlankBlank (c : Char) : Bool :=
  let n := c.toNat
  (9 ≤ n && n ≤ 13) || n = 32 || n = 0xA0 || n = 0x1680 || (0x2000 ≤ n && n ≤ 0x200A) ||
  n = 0x202F || n = 0x205F || n = 0x3000

/-- A delimiter: one star or underscore of a run, or a pair of tildes. -/
structure Delimiter where
  mark : Char
  /-- The length of the run that it belongs to; zero for tildes, whose runs are not compared. -/
  run : Nat
  opens : Bool
  closes : Bool
  deriving Repr, Inhabited

def Delimiter.text (d : Delimiter) : List Char :=
  if d.mark = '~' then ['~', '~'] else [d.mark]

/-- Whether a run of marks between two characters can open and can close. A run of underscores does
neither inside a word. -/
def flanking (mark before after : Char) : Bool × Bool :=
  let blankBefore := isFlankBlank before
  let blankAfter := isFlankBlank after
  let punctBefore := isPunctuation before
  let punctAfter := isPunctuation after
  let left := !(blankAfter || (punctAfter && !(blankBefore || punctBefore)))
  let right := !(blankBefore || (punctBefore && !(blankAfter || punctAfter)))
  if mark = '_' then (left && (!right || punctBefore), right && (!left || punctAfter))
  else (left, right)

/-- A piece of a text that is being read: a span, a delimiter, or the odd tilde in front of pairs
of tildes. -/
inductive Piece where
  | span (s : Span)
  | delimiter (d : Delimiter)
  | oddTilde
  deriving Inhabited

/-! ## Pairing -/

/-- A delimiter in a row of pieces: where it stands, and which later one closes it. -/
structure Entry extends Delimiter where
  place : Nat
  partner : Option Nat := none
  deriving Inhabited

def entries (pieces : List Piece) : Array Entry :=
  pieces.zipIdx.foldl (fun es (p, i) => match p with
    | .delimiter d => es.push { d with place := i }
    | _ => es) #[]

/-- What the pairing has found out so far. -/
structure Pairing where
  entries : Array Entry
  /-- How many delimiters to pass over to the left of each one. -/
  jumps : Array Nat := #[]
  /-- Below which delimiter no partner is left, for each kind of closing delimiter. -/
  bottoms : List ((Char × Nat) × Nat) := []
  /-- The first delimiter of the current run. -/
  head : Nat := 0
  /-- The place after the last delimiter, while it may go on with the run. -/
  next : Option Nat := none

namespace Pairing

/-- Whether two delimiters may be paired as far as run lengths go: where one of them could do both,
the sum of the lengths is no multiple of three, unless both are. -/
def lengthsAgree (opener closer : Entry) : Bool :=
  !((opener.closes || closer.opens) && (opener.run + closer.run) % 3 == 0 &&
    (opener.run % 3 != 0 || closer.run % 3 != 0))

/-- The nearest delimiter below position `n` and not below `bottom` that `closer` can be paired
with. -/
def findOpener? (p : Pairing) (closer : Entry) (bottom : Nat) : Nat → Option Nat
  | 0 => none
  | n + 1 =>
    if n < bottom then none
    else
      let opener := p.entries.getD n default
      if opener.mark == closer.mark && opener.opens && opener.partner.isNone &&
          lengthsAgree opener closer then some n
      else findOpener? p closer bottom (n - p.jumps.getD n 0)
termination_by n => n
decreasing_by omega

/-- The kind of a closing delimiter, for which lower bounds are kept. -/
def kind (closer : Entry) : Char × Nat :=
  (closer.mark, (if closer.opens then 3 else 0) + closer.run % 3)

/-- Delimiter `i` closes delimiter `o`. -/
def pair (p : Pairing) (o i : Nat) : Pairing :=
  let passed := if 0 < o && !(p.entries.getD (o - 1) default).opens then p.jumps.getD (o - 1) 0 + 1
    else 0
  { p with
    jumps := (p.jumps.setIfInBounds i (i - o + passed)).setIfInBounds o passed
    entries := (p.entries.modify i fun e => { e with opens := false }).modify o fun e =>
      { e with partner := some i, closes := false }
    next := none }

def step (p : Pairing) (i : Nat) : Pairing :=
  let closer := p.entries.getD i default
  let head := if (p.entries.getD p.head default).mark != closer.mark || p.next != some closer.place
    then i else p.head
  let p := { p with head, jumps := p.jumps.push 0, next := some (closer.place + 1) }
  if !closer.closes then p
  else
    let bottom := (p.bottoms.lookup (kind closer)).getD 0
    let top := head - p.jumps.getD head 0
    match p.findOpener? closer bottom top with
    | some o => p.pair o i
    | none => if top = 0 then p else { p with bottoms := (kind closer, top) :: p.bottoms }

/-- The delimiters of a row of pieces, each opening one with its partner. -/
def run (pieces : List Piece) : Array Entry :=
  let es := MarkdownWord.Markdown.entries pieces
  ((List.range es.size).foldl step { entries := es }).entries

end Pairing

/-! ## Nesting -/

/-- What a pair of delimiters encloses. -/
inductive Enclosure where
  | emphasis | strong | strike
  deriving DecidableEq, Repr, Inhabited

def Enclosure.span : Enclosure → List Span → Span
  | .emphasis => .emphasis
  | .strong => .strong
  | .strike => .strike

/-- A piece once the delimiters are paired. -/
inductive Mark where
  | span (s : Span)
  | oddTilde
  | opening (e : Enclosure)
  | closing (e : Enclosure)
  deriving Inhabited

def Mark.ofPiece : Piece → Mark
  | .span s => .span s
  | .delimiter d => .span (.text d.text)
  | .oddTilde => .oddTilde

/-- Marks the paired tildes, and collects the odd tildes that stand before a closing pair. -/
def markStrikes (es : Array Entry) (marks : Array Mark) : Array Mark × List Nat :=
  es.foldl (fun (marks, odd) e =>
    match e.mark == '~', e.partner with
    | true, some j =>
      let place := (es.getD j default).place
      let marks := (marks.setIfInBounds e.place (.opening .strike)).setIfInBounds place
        (.closing .strike)
      match marks.getD (place - 1) default with
      | .oddTilde => (marks, (place - 1) :: odd)
      | _ => (marks, odd)
    | _, _ => (marks, odd)) (marks, [])

/-- The number of closing pairs of tildes at the front of some marks. -/
def closingStrikes : List Mark → Nat
  | .closing .strike :: rest => closingStrikes rest + 1
  | _ => 0

/-- Moves the odd tilde at a place behind the closing pairs that follow it. -/
def moveOddTilde (marks : Array Mark) (i : Nat) : Array Mark :=
  let j := i + closingStrikes (marks.toList.drop (i + 1))
  (marks.setIfInBounds i (marks.getD j default)).setIfInBounds j (marks.getD i default)

/-- Marks the paired stars and underscores, from the last delimiter to the first. Two pairs right
inside one another make strong emphasis. -/
def markEmphasis (es : Array Entry) : Nat → Array Mark → Array Mark
  | 0, marks => marks
  | n + 1, marks =>
    let e := es.getD n default
    match e.mark == '*' || e.mark == '_', e.partner with
    | true, some j =>
      let close := es.getD j default
      let outer := es.getD (n - 1) default
      let outerClose := es.getD (j + 1) default
      if 0 < n && outer.partner == some (j + 1) && outer.mark == e.mark &&
          outer.place + 1 == e.place && outerClose.place == close.place + 1 then
        let marks := (marks.setIfInBounds e.place (.opening .strong)).setIfInBounds close.place
          (.closing .strong)
        let marks := (marks.setIfInBounds outer.place (.span (.text []))).setIfInBounds
          outerClose.place (.span (.text []))
        markEmphasis es (n - 1) marks
      else
        markEmphasis es n ((marks.setIfInBounds e.place (.opening .emphasis)).setIfInBounds
          close.place (.closing .emphasis))
    | _, _ => markEmphasis es n marks

/-- The spans of some marks. `outer` holds what is open, each with the spans before it, and
`spans` the spans since, all of them last one first. -/
def nest (outer : List (Enclosure × List Span)) (spans : List Span) : List Mark → List Span
  | [] => joinTexts (outer.foldl (fun spans (e, before) =>
      e.span (joinTexts spans.reverse) :: before) spans).reverse
  | .span s :: rest => nest outer (s :: spans) rest
  | .oddTilde :: rest => nest outer (.text ['~'] :: spans) rest
  | .opening e :: rest => nest ((e, spans) :: outer) [] rest
  | .closing _ :: rest =>
    match outer with
    | (e, before) :: outer => nest outer (e.span (joinTexts spans.reverse) :: before) rest
    | [] => nest [] spans rest

def resolve (pieces : List Piece) : List Span :=
  let es := Pairing.run pieces
  let (marks, odd) := markStrikes es (pieces.map Mark.ofPiece).toArray
  let marks := odd.foldl moveOddTilde marks
  nest [] [] (markEmphasis es es.size marks).toList

end MarkdownWord.Markdown
