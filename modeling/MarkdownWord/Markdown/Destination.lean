import MarkdownWord.Text.Affix
import MarkdownWord.Text.Blank
import MarkdownWord.Text.LineEnd
import MarkdownWord.Text.Percent
import MarkdownWord.Text.Punycode
import MarkdownWord.Markdown.Entity

/-! # Link destinations

A destination is taken apart like an address of the web, put together again and percent-encoded. Its
host is recoded in between: in Punycode where it leads, in characters where it is shown. Addresses
of schemes that run code or read local files are refused. -/

namespace MarkdownWord.Markdown
open Text

/-- The parts of an address. `tail` is whatever follows host and port. -/
structure Address where
  scheme : List Char := []
  slashes : Bool := false
  user : List Char := []
  host : List Char := []
  port : List Char := []
  tail : List Char := []

namespace Address

/-- The schemes whose addresses name a host only after two slashes. -/
def slashedSchemes : List String := ["http:", "https:", "ftp:", "gopher:", "file:"]

/-- The scheme at the front of an address, with its colon, and the rest. -/
def takeScheme (s : List Char) : List Char × List Char :=
  let isSchemeChar (c : Char) : Bool :=
    (asciiCaseless c).isAlphanum || c = '.' || c = '+' || c = '-'
  match s.span isSchemeChar with
  | (c :: name, ':' :: rest) => (c :: name ++ [':'], rest)
  | _ => ([], s)

def endsHost (c : Char) : Bool := "%/?;#'\x7b\x7d|\\^`<>\" \r\n\t".toList.contains c

/-- A character that may stand in a part of a host name. Those beyond ASCII count. -/
def isHostChar (c : Char) : Bool := c.isAlphanum || c = '+' || c = '_' || c = '-'

/-- The user part of an address, up to the last `@` before the path. -/
def takeUser (s : List Char) : List Char × List Char :=
  let authority := s.takeWhile fun c => !(c = '/' || c = '?' || c = '#')
  match authority.reverse.span (· != '@') with
  | (host, '@' :: user) => (user.reverse, host.reverse ++ s.drop authority.length)
  | _ => ([], s)

/-- A port at the end of a host: a colon and digits. -/
def takePort (host : List Char) : List Char × List Char :=
  match host.reverse.span Char.isDigit with
  | (digits, ':' :: name) => (name.reverse, digits.reverse)
  | _ => (host, [])

/-- The parts of a host name up to the first that is not well formed, cut there, and what was cut
off. A part has at most 63 characters; those beyond ASCII pass when the whole part does. -/
def checkParts : List (List Char) → List (List Char) × List Char
  | [] => ([], [])
  | part :: rest =>
    let passes (p : List Char) : Bool :=
      p.length ≤ 63 && p.all fun c => isHostChar c || 127 < c.toNat
    if passes part then
      let (good, cut) := checkParts rest
      (part :: good, cut)
    else
      let good := (part.takeWhile isHostChar).take 63
      ([good], ['.'].intercalate (part.drop good.length :: rest))

def withHost (a : Address) (s : List Char) : Address :=
  let (user, s) := takeUser s
  let name := s.takeWhile (!endsHost ·)
  let name := if name.getLast? = some ':' then name.dropLast else name
  let tail := s.drop name.length
  let (host, port) := takePort name
  if host.head? = some '[' && host.getLast? = some ']' then
    let host := if 255 < host.length then [] else host
    { a with user, host := host.drop 1 |>.dropLast, port, tail }
  else
    let (good, cut) := checkParts (splitAt '.' host)
    let host := ['.'].intercalate good
    let host := if 255 < host.length then [] else host
    { a with user, host, port, tail := cut ++ tail }

/-- The parts of an address. White space around it does not count. -/
def ofText (s : List Char) : Address :=
  let (scheme, rest) := takeScheme (trimBlank s)
  let hostless := String.ofList scheme = "javascript:"
  match rest with
  | '/' :: '/' :: more =>
    if hostless then { scheme, tail := rest } else withHost { scheme, slashes := true } more
  | _ =>
    if hostless || scheme.isEmpty || slashedSchemes.contains (String.ofList scheme) then
      { scheme, tail := rest }
    else withHost { scheme } rest

def text (a : Address) : List Char :=
  a.scheme ++ (if a.slashes then ['/', '/'] else []) ++
  (if a.user.isEmpty then [] else a.user ++ ['@']) ++
  (if a.host.contains ':' then '[' :: a.host ++ [']'] else a.host) ++
  (if a.port.isEmpty then [] else ':' :: a.port) ++ a.tail

/-! ### Hosts -/

/-- The schemes whose hosts are recoded, beside addresses without a scheme. -/
def recodedSchemes : List String := ["http:", "https:", "mailto:"]

/-- A character that separates the labels of a host: a full stop of some script. -/
def isSeparator (c : Char) : Bool := c = '.' || c = '\u3002' || c = '\uFF0E' || c = '\uFF61'

def hostLabels (host : List Char) : List (List Char) :=
  splitAt '.' (host.map fun c => if isSeparator c then '.' else c)

/-- What a label in Punycode starts with. -/
def codedMark : List Char := ['x', 'n', '-', '-']

/-- A label as it stands in a destination: in Punycode where it has other characters than ASCII. -/
def codedLabel (label : List Char) : List Char :=
  if label.all (·.toNat ≤ 0x7E) then label else codedMark ++ Punycode.encode label

/-- A label as a reader sees it. A label in Punycode may turn out to be none. -/
def shownLabel? (label : List Char) : Option (List Char) :=
  match after? codedMark label with
  | some coded => (Punycode.decode? (coded.map lowerAscii)).map (·.map CodePoint.standIn)
  | none => some label

/-- The address with each label of its host recoded. One that cannot be recoded leaves the host as
it is. -/
def recode (label? : List Char → Option (List Char)) (a : Address) : Address :=
  if a.scheme.isEmpty || recodedSchemes.contains (String.ofList a.scheme) then
    match (hostLabels a.host).mapM label? with
    | some labels => { a with host := ['.'].intercalate labels }
    | none => a
  else a

end Address

/-- The characters of a destination that stay as they are. -/
def isPlainInDestination (c : Char) : Bool :=
  c.isAlphanum || ";/?:@&=+$,-_.!~*'()#".toList.contains c

/-- A destination in its written form: its parts put together and percent-encoded. -/
def normalDestination (s : List Char) : List Char :=
  percentComplete isPlainInDestination
    ((Address.ofText s).recode fun l => some (Address.codedLabel l)).text

/-- An address as a reader sees it: decoded, reserved characters and the percent sign excepted. -/
def shownDestination (s : List Char) : List Char :=
  percentDecode (fun c => ";/?:@&=+$,#%".toList.contains c)
    ((Address.ofText s).recode Address.shownLabel?).text

/-- A destination that may be linked to: none of a scheme that runs code or reads local files, but
for images given as data. -/
def isSafeDestination (s : List Char) : Bool :=
  let s := (trimBlank s).map Char.toLower
  let starts (w : String) : Bool := w.toList.isPrefixOf s
  if ["vbscript:", "javascript:", "file:", "data:"].any starts then
    ["data:image/gif;", "data:image/png;", "data:image/jpeg;", "data:image/webp;"].any starts
  else true

/-! ## Scanning -/

/-- The inside of a destination in angle brackets, after the opening one: the text, and what
follows the closing bracket. -/
def bracketed? : List Char → Option (List Char × List Char)
  | [] => none
  | '>' :: rest => some ([], rest)
  | '\\' :: c :: rest => (bracketed? rest).map fun (t, r) => ('\\' :: c :: t, r)
  | c :: rest =>
    if c = '\n' || c = '<' then none else (bracketed? rest).map fun (t, r) => (c :: t, r)

/-- A destination without brackets, up to a blank, a control or an unmatched parenthesis. `depth`
counts the parentheses that are open, 32 at most. -/
def bare? (depth : Nat) : List Char → Option (List Char × List Char)
  | [] => if depth = 0 then some ([], []) else none
  | '\\' :: c :: rest =>
    if c = ' ' then
      if depth = 0 then some ([], '\\' :: c :: rest) else none
    else (bare? depth rest).map fun (t, r) => ('\\' :: c :: t, r)
  | c :: rest =>
    if c.toNat ≤ 32 || c.toNat = 127 then
      if depth = 0 then some ([], c :: rest) else none
    else if c = '(' then
      if 32 ≤ depth then none else (bare? (depth + 1) rest).map fun (t, r) => (c :: t, r)
    else if c = ')' then
      match depth with
      | 0 => some ([], c :: rest)
      | depth + 1 => (bare? depth rest).map fun (t, r) => (c :: t, r)
    else (bare? depth rest).map fun (t, r) => (c :: t, r)

/-- A destination at the front of a text, its escapes resolved, and the rest. -/
def destination? : List Char → Option (List Char × List Char)
  | '<' :: rest => (bracketed? rest).map fun (t, r) => (unescape t, r)
  | s =>
    match bare? 0 s with
    | some (t, r) => if t.isEmpty then none else some (unescape t, r)
    | none => none

/-- How the scan of a title ends: at its closing mark, at the end of the text, or at a character
that no title may hold. -/
inductive TitleScan where
  | closed (title rest : List Char)
  | unclosed (title : List Char)
  | broken

def titleBody (mark : Char) : List Char → TitleScan
  | [] => .unclosed []
  | '\\' :: c :: rest =>
    match titleBody mark rest with
    | .closed t r => .closed ('\\' :: c :: t) r
    | .unclosed t => .unclosed ('\\' :: c :: t)
    | .broken => .broken
  | c :: rest =>
    if c = mark then .closed [] rest
    else if c = '(' && mark = ')' then .broken
    else match titleBody mark rest with
      | .closed t r => .closed (c :: t) r
      | .unclosed t => .unclosed (c :: t)
      | .broken => .broken

/-- The closing mark of a title, by its opening one. -/
def titleMark? : Char → Option Char
  | '"' => some '"'
  | '\'' => some '\''
  | '(' => some ')'
  | _ => none

/-- A title on one line at the front of a text, its escapes resolved, and the rest. -/
def title? : List Char → Option (List Char × List Char)
  | [] => none
  | c :: rest =>
    match titleMark? c with
    | some mark =>
      match titleBody mark rest with
      | .closed t r => some (unescape t, r)
      | _ => none
    | none => none

end MarkdownWord.Markdown
