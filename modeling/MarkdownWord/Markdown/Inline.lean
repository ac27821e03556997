import MarkdownWord.Markdown.Block
import MarkdownWord.Markdown.Delimiter
import Std.Data.HashMap

/-! # Inline content

How the text of a heading, paragraph or cell is read into spans. A text is read from left to right;
before a link or image is read, its label is measured by skipping over the tokens inside it. The
lengths of skipped tokens are kept, since every bracket would otherwise start the search again. -/

namespace MarkdownWord.Markdown
open Text

/-- The lengths of the tokens of a text that have been skipped, by position. -/
abbrev Survey := Std.HashMap Nat Nat

def blanks (s : List Char) : Nat := (s.takeWhile isSpace).length

/-! ## Code -/

/-- The length of a text up to the end of the next run of exactly `n` backticks. `run` backticks
stand before the text and belong to its first run. -/
def closingRun? (n run : Nat) : List Char → Option Nat
  | '`' :: rest => (closingRun? n (run + 1) rest).map (· + 1)
  | [] => if run = n then some 0 else none
  | _ :: rest => if run = n then some 0 else (closingRun? n 0 rest).map (· + 1)

/-- Code between runs of backticks: line ends are spaces, and one space goes at either end of a text
that is not all spaces. -/
def codeText (s : List Char) : List Char :=
  let s := s.map fun c => if c = '\n' then ' ' else c
  if s.head? = some ' ' && s.getLast? = some ' ' && !s.all (· == ' ') then s.drop 1 |>.dropLast
  else s

/-- The code that starts with the run of backticks at the front of a text, and its length with the
two runs around it. -/
def codeSpan? (s : List Char) : Option (List Char × Nat) :=
  let n := (s.takeWhile (· == '`')).length
  let inner := s.drop n
  (closingRun? n 0 inner).map fun length => (codeText (inner.take (length - n)), length + n)

/-! ## Links -/

/-- How many characters the token at a position takes up. -/
abbrev Skip := Nat → List Char → StateM Survey Nat

/-- The length of the label up to its closing bracket. `depth` brackets are open. Inside the label
of a link no other link may stand. -/
def labelLength? (skip : Skip) (inLink : Bool) (depth pos : Nat) :
    List Char → StateM Survey (Option Nat)
  | [] => pure none
  | c :: rest =>
    let depth := if c = ']' then depth - 1 else depth
    if depth = 0 then pure (some 0)
    else do
      let n ← skip pos (c :: rest)
      if c = '[' && n != 1 && inLink then return none
      let depth := if c = '[' && n = 1 then depth + 1 else depth
      let later ← labelLength? skip inLink depth (pos + max 1 n) (rest.drop (n - 1))
      return later.map (max 1 n + ·)
termination_by s => s.length
decreasing_by simp only [List.length_drop, List.length_cons]; omega

/-- Where a link leads. An empty title is none. -/
structure Target where
  destination : List Char
  title : List Char

/-- The outcome of reading a target in parentheses: the target and what follows it, the text from
which to look for a label instead, or a text that ends too early for either. -/
inductive TargetScan where
  | found (target : Target) (rest : List Char)
  | missing (rest : List Char)
  | cut

/-- A target after its opening parenthesis: a destination, and a title after a gap. -/
def scanTarget (s : List Char) : TargetScan :=
  let s := s.dropWhile isGap
  if s.isEmpty then .cut
  else
    let (target, rest) : Target × List Char := match destination? s with
      | none => (⟨[], []⟩, s)
      | some (raw, rest) =>
        let destination := normalDestination raw
        let (destination, rest) :=
          if isSafeDestination destination then (destination, rest) else ([], s)
        let gap := rest.takeWhile isGap
        let inner := rest.dropWhile isGap
        match if gap.isEmpty then none else title? inner with
        | some (title, rest) => (⟨destination, title⟩, rest.dropWhile isGap)
        | none => (⟨destination, []⟩, inner)
    match rest with
    | ')' :: rest => .found target rest
    | rest => .missing (rest.drop 1)

/-- A link or image: its label, where it leads, and its length from the opening bracket on. -/
structure LinkScan where
  label : List Char
  target : Target
  length : Nat

/-- The target that the label of a link names, with a second label in brackets where there is one.
`here` is the text to look for it, `after` the text after the link's own label. -/
def namedTarget? (skip : Skip) (definitions : List Definition) (pos : Nat) (label : List Char)
    (total : Nat) (here after : List Char) : StateM Survey (Option (Target × List Char)) := do
  if definitions.isEmpty then return none
  let (name, rest) ← match here with
    | '[' :: inner => do
      match ← labelLength? skip false 1 (pos + (total - inner.length)) inner with
      | some n => pure (inner.take n, inner.drop (n + 1))
      | none => pure ([], after)
    | _ => pure ([], after)
  let name := if name.isEmpty then label else name
  return (findDefinition? definitions name).map fun d => (⟨d.destination, d.title⟩, rest)

/-- The link or image whose text starts with the bracket at position `pos`. Only a link may take
its target from a label when the parentheses after it hold none. -/
def linkScan? (skip : Skip) (definitions : List Definition) (isLink : Bool) (pos : Nat)
    (s : List Char) : StateM Survey (Option LinkScan) := do
  match s with
  | '[' :: inner =>
    match ← labelLength? skip isLink 1 (pos + 1) inner with
    | none => return none
    | some n =>
      let label := inner.take n
      let after := inner.drop (n + 1)
      let found ← match after with
        | '(' :: rest =>
          match scanTarget rest with
          | .found target rest => pure (some (target, rest))
          | .cut => pure none
          | .missing here =>
            if isLink then namedTarget? skip definitions pos label s.length here after
            else pure none
        | _ => namedTarget? skip definitions pos label s.length after after
      return found.map fun (target, rest) => ⟨label, target, s.length - rest.length⟩
  | _ => return none

/-! ## Addresses in angle brackets -/

/-- The scheme of an address: a letter, then one to 31 letters, digits, or `+`, `-`, `.`. -/
def isScheme (s : List Char) : Bool :=
  match s with
  | c :: rest =>
    c.isAlpha && 1 ≤ rest.length && rest.length ≤ 31 &&
      rest.all fun d => d.isAlphanum || d = '+' || d = '-' || d = '.'
  | [] => false

def isAddress (s : List Char) : Bool :=
  match s.span (· != ':') with
  | (scheme, ':' :: rest) =>
    isScheme scheme && rest.all fun c => 32 < c.toNat && c != '<' && c != '>'
  | _ => false

/-- A part of a mail host: up to 63 letters, digits or hyphens, none of the latter at the ends. -/
def isHostLabel (s : List Char) : Bool :=
  1 ≤ s.length && s.length ≤ 63 && s.all (fun c => c.isAlphanum || c = '-') &&
    s.head?.all Char.isAlphanum && s.getLast?.all Char.isAlphanum

/-- A character of the user part of a mail address. -/
def isUserChar (c : Char) : Bool :=
  c.isAlphanum || ".!#$%&'*+/=?^_`\x7b|\x7d~-".toList.contains c

def isMailAddress (s : List Char) : Bool :=
  match s.span (· != '@') with
  | (user, '@' :: host) =>
    !user.isEmpty && user.all isUserChar && (splitAt '.' host).all isHostLabel
  | _ => false

/-- An address in angle brackets, after the opening one: the destination, what is shown of it, and
the length up to the closing bracket. A line end right before that bracket does not count. -/
def autolink? (s : List Char) : Option (List Char × List Char × Nat) :=
  let address := s.takeWhile fun c => c != '<' && c != '>'
  match s.drop address.length with
  | '>' :: _ =>
    let trimmed := if address.getLast? = some '\n' then address.dropLast else address
    let link (s : List Char) : Option (List Char × List Char × Nat) :=
      let destination := normalDestination s
      if isSafeDestination destination then
        some (destination, shownDestination address, address.length)
      else none
    if isAddress trimmed then link address
    else if isMailAddress trimmed then link ("mailto:".toList ++ address)
    else none
  | _ => none

/-! ## Skipping -/

/-- A character at which something other than plain text may start. -/
def isSpecial (c : Char) : Bool := "\n!#$%&*+-:<=>@[\\]^_`\x7b\x7d~".toList.contains c

/-- The length of the token at the front of a text, labels being measured by `skip`. -/
def tokenLength (skip : Skip) (definitions : List Definition) (pos : Nat) (s : List Char) :
    StateM Survey Nat := do
  match s with
  | '\n' :: rest => return 1 + blanks rest
  | '\\' :: '\n' :: rest => return 2 + blanks rest
  | '\\' :: _ :: _ => return 2
  | '`' :: _ =>
    match codeSpan? s with
    | some (_, n) => return n
    | none => return (s.takeWhile (· == '`')).length
  | '[' :: _ =>
    match ← linkScan? skip definitions true pos s with
    | some link => return link.length
    | none => return 1
  | '!' :: rest =>
    match ← linkScan? skip definitions false (pos + 1) rest with
    | some image => return image.length + 1
    | none => return 1
  | '<' :: rest =>
    match autolink? rest with
    | some (_, _, n) => return n + 2
    | none =>
      match Html.afterTag? s with
      | some after => return s.length - after.length
      | none => return 1
  | '&' :: rest =>
    match reference? rest with
    | some (_, after) => return s.length - after.length
    | none => return 1
  | c :: _ => if isSpecial c then return 1 else return (s.takeWhile (!isSpecial ·)).length
  | [] => return 0

/-- The length of the token at a position, looked up or found out. With no level left the token is
taken to reach past the end of the text. -/
def skipToken (definitions : List Definition) : (depth : Nat) → Skip
  | depth, pos, s => do
    match (← get)[pos]? with
    | some n => return n
    | none =>
      let n ← match depth with
        | 0 => pure (s.length + 1)
        | depth + 1 => tokenLength (skipToken definitions depth) definitions pos s
      modify (·.insert pos n)
      return n

/-! ## Reading -/

/-- Some pieces after the plain text that was pending, which is given last character first. -/
def flush (pending : List Char) (pieces : List Piece) : List Piece :=
  if pending.isEmpty then pieces else .span (.text pending.reverse) :: pieces

/-- The delimiters of a run of stars, underscores or tildes; none for a single tilde. -/
def delimiters (mark before after : Char) (n : Nat) : List Piece :=
  let (opens, closes) := flanking mark before after
  if mark = '~' then
    (if n % 2 = 1 then [.oddTilde] else []) ++
      List.replicate (n / 2) (.delimiter ⟨mark, 0, opens, closes⟩)
  else List.replicate n (.delimiter ⟨mark, n, opens, closes⟩)

/-- A mark whose runs are delimiters when they have at least the length that goes with it. -/
def isDelimiterRun (c : Char) (n : Nat) : Bool := c = '*' || c = '_' || (c = '~' && 2 ≤ n)

def linkSpan (target : Target) (pieces : List Piece) : Span :=
  .link target.destination target.title (resolve pieces)

/-- The pieces of a text. `depth` levels are left for labels, `before` is the character before the
text, `pos` its position, and `pending` the plain text before it, last character first. -/
def readPieces (definitions : List Definition) (depth : Nat) (before : Char) (pos : Nat)
    (pending : List Char) : List Char → StateM Survey (List Piece)
  | [] => pure (flush pending [])
  | c :: rest => do
    let plain (n : Nat) (text : List Char) (last : Char) : StateM Survey (List Piece) :=
      readPieces definitions depth last (pos + (n + 1)) (text ++ pending) (rest.drop n)
    let piece (n : Nat) (last : Char) (pending : List Char) (new : List Piece) :
        StateM Survey (List Piece) := do
      let later ← readPieces definitions depth last (pos + (n + 1)) [] (rest.drop n)
      return flush pending (new ++ later)
    if c = '\n' then
      let kept := pending.dropWhile (· == ' ')
      let hard := kept.length + 2 ≤ pending.length
      piece (blanks rest) ' ' kept [.span (if hard then .hardBreak else .softBreak)]
    else if c = '\\' then
      match rest with
      | [] => plain 0 [c] c
      | d :: more =>
        if d = '\n' then piece (1 + blanks more) ' ' pending [.span .hardBreak]
        else
          piece 1 d pending [.span (.text (if isAsciiPunctuation d then [d] else [c, d]))]
    else if c = '`' then
      match codeSpan? (c :: rest) with
      | some (code, n) => piece (n - 1) c pending [.span (.code code)]
      | none =>
        let n := (rest.takeWhile (· == '`')).length
        plain n (List.replicate (n + 1) c) c
    else if c = '*' || c = '_' || c = '~' then
      let n := (rest.takeWhile (· == c)).length
      if isDelimiterRun c (n + 1) then
        let after := (rest.drop n).head?.getD ' '
        piece n c pending (delimiters c before after (n + 1))
      else plain 0 [c] c
    else if c = '[' then
      match ← linkScan? (skipToken definitions depth) definitions true pos (c :: rest) with
      | some link =>
        let label ← readPieces definitions (depth - 1) c (pos + 1) []
          (rest.take link.label.length)
        piece (link.length - 1) ')' pending [.span (linkSpan link.target label)]
      | none => plain 0 [c] c
    else if c = '!' then
      match ← linkScan? (skipToken definitions depth) definitions false (pos + 1) rest with
      | some image =>
        let label := (rest.drop 1).take image.label.length
        let (pieces, _) := (readPieces definitions maxNesting ' ' 0 [] label).run {}
        piece image.length ')' pending [.span (.image image.target.destination
          image.target.title label (resolve pieces))]
      | none => plain 0 [c] c
    else if c = '<' then
      match autolink? rest with
      | some (destination, shown, n) =>
        piece (n + 1) '>' pending [.span (.link destination [] (joinTexts [.text shown]))]
      | none =>
        match Html.afterTag? (c :: rest) with
        | some after =>
          let n := rest.length - after.length
          piece n '>' pending [.span (.html (c :: rest.take n))]
        | none => plain 0 [c] c
    else if c = '&' then
      match reference? rest with
      | some (cs, after) =>
        piece (rest.length - after.length) ';' pending [.span (.text cs)]
      | none => plain 0 [c] c
    else plain 0 [c] c
termination_by s => s.length
decreasing_by
  all_goals simp only [List.length_drop, List.length_take, List.length_cons]; omega

def readSpans (definitions : List Definition) (s : List Char) : List Span :=
  resolve ((readPieces definitions maxNesting ' ' 0 [] s).run {}).1

end MarkdownWord.Markdown
