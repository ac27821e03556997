import MarkdownWord.Path
import MarkdownWord.Text.Quoted
import MarkdownWord.Word.Package

/-! # File trees

Files and directories below a working directory, and what can go wrong when a path is followed. A
directory is there as soon as something is in it. There are no links, every name is a Unicode text,
and a file that can be opened for writing takes all that is written: none is left empty or half
written by a full disk. -/

namespace MarkdownWord
open Word

/-- Where a path starts: some levels above the working directory, or at the root. -/
inductive Base where
  | working (up : Nat)
  | root
  deriving DecidableEq, Repr, Inhabited

/-- A place in a file tree. -/
structure Location where
  base : Base
  below : List (List Char) := []
  deriving DecidableEq, Repr, Inhabited

namespace Location

def above (l : Location) : Location :=
  if l.below.isEmpty then
    match l.base with
    | .working n => ⟨.working (n + 1), []⟩
    | .root => l
  else { l with below := l.below.dropLast }

def child (l : Location) (name : List Char) : Location := { l with below := l.below ++ [name] }

/-- The directory of a place, however many levels above it. -/
def isAbove (l m : Location) : Bool :=
  l.base == m.base && l.below.isPrefixOf m.below && l.below.length < m.below.length

end Location

/-- The contents of a file: octets, or a document. -/
inductive Contents where
  | octets (bytes : ByteArray)
  | document (package : Package)
  deriving Inhabited

/-- What is at a place. -/
inductive Entry where
  | file (contents : Contents)
  | directory
  deriving Inhabited

/-- A file tree. -/
structure FileTree where
  entries : List (Location × Entry) := []
  deriving Inhabited

/-- What can go wrong with a path. -/
inductive FileProblem where
  | notFound
  | alreadyThere
  | notDirectory
  | isDirectory
  | nameTooLong
  | nul
  /-- Anything else, with its number and words. No file tree in memory has such problems. -/
  | other (code : Nat) (text : String)
  deriving DecidableEq, Repr, Inhabited

/-- A problem with the path that it arose for. -/
structure FileError where
  problem : FileProblem
  path : Path
  deriving DecidableEq, Repr, Inhabited

namespace FileProblem

def code : FileProblem → Nat
  | notFound => 2
  | alreadyThere => 17
  | notDirectory => 20
  | isDirectory => 21
  | nul => 22
  | nameTooLong => 36
  | other code _ => code

def text : FileProblem → String
  | notFound => "No such file or directory"
  | alreadyThere => "File exists"
  | notDirectory => "Not a directory"
  | isDirectory => "Is a directory"
  | nul => "Invalid argument"
  | nameTooLong => "File name too long"
  | other _ text => text

end FileProblem

def FileError.message (e : FileError) : String :=
  "[Errno " ++ toString e.problem.code ++ "] " ++ e.problem.text ++ ": " ++
    Text.quoted (String.ofList e.path.text)

namespace FileTree

def at? (t : FileTree) (l : Location) : Option Entry :=
  if l.below.isEmpty then some .directory
  else match t.entries.find? (·.1 == l) with
    | some e => some e.2
    | none => if t.entries.any fun e => l.isAbove e.1 then some .directory else none

def put (t : FileTree) (l : Location) (e : Entry) : FileTree :=
  { entries := t.entries.filter (·.1 != l) ++ [(l, e)] }

def maxName : Nat := 255

def maxPath : Nat := 4095

def size (s : List Char) : Nat := (String.ofList s).utf8ByteSize

/-- Follows some components from a place. All but the last have to lead to directories. -/
def walk (t : FileTree) (l : Location) : List (List Char) → Except FileProblem Location
  | [] => pure l
  | c :: rest =>
    match t.at? l with
    | none => throw .notFound
    | some (.file _) => throw .notDirectory
    | some .directory =>
      if c = ['.', '.'] then t.walk l.above rest
      else if maxName < size c then throw .nameTooLong
      else t.walk (l.child c) rest

def locate (t : FileTree) (p : Path) : Except FileProblem Location :=
  if p.text.contains '\x00' then throw .nul
  else if maxPath < size p.text then throw .nameTooLong
  else t.walk ⟨if p.root = 0 then .working 0 else .root, []⟩ p.components

def entry (t : FileTree) (p : Path) : Except FileProblem Entry := do
  match t.at? (← t.locate p) with
  | some e => return e
  | none => throw .notFound

def isDirectory (t : FileTree) (p : Path) : Bool :=
  match t.entry p with
  | .ok .directory => true
  | _ => false

def makeDirectory (t : FileTree) (p : Path) : Except FileProblem FileTree := do
  let l ← t.locate p
  match t.at? l with
  | some _ => throw .alreadyThere
  | none => match t.at? l.above with
    | some .directory => return t.put l .directory
    | some (.file _) => throw .notDirectory
    | none => throw .notFound

def writeDocument (t : FileTree) (p : Path) (package : Package) : Except FileProblem FileTree := do
  let l ← t.locate p
  match t.at? l with
  | some .directory => throw .isDirectory
  | _ => return t.put l (.file (.document package))

end FileTree
end MarkdownWord
