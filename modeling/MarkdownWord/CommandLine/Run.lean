import MarkdownWord.CommandLine.Arguments
import MarkdownWord.Disk

/-! # Running a command

What the program does for its arguments: it reads one file, converts its text, and writes one
document. -/

namespace MarkdownWord.CommandLine
open Number Text Word

/-- Why a command fails. -/
inductive Failure where
  | inputNotFound (path : String)
  | notUtf8 (path : String)
  | file (error : FileError)
  | conversion (error : ConversionError)
  deriving DecidableEq, Repr

def Failure.message : Failure → String
  | .inputNotFound path => "Input file not found: " ++ path
  | .notUtf8 path => path ++ " is not valid UTF-8"
  | .file e => e.message
  | .conversion e => e.message

/-- The path of the document for an input file, beside it; none for a path without a name. -/
def defaultOutput? (input : Path) : Option Path :=
  input.withName? (input.stem ++ Download.documentSuffix.toList)

/-- The text of a file, with its line ends unified. -/
def decodeText? (contents : ByteArray) : Option String :=
  (String.fromUTF8? contents).map fun s => String.ofList (unifyLineEnds s.toList)

/-- Converts the file that the options name, and gives the path of the document. -/
def convertFile {m : Type → Type} [Monad m] (disk : Disk m) (p : Pipeline) (c : Configuration)
    (o : Options) : ExceptT Failure m Path := do
  let source := Path.read o.input.toList
  let isThere ← ExceptT.adapt Failure.file (Disk.attempt source (disk.isThere source))
  if !isThere then throw (.inputNotFound o.input)
  let contents ← ExceptT.adapt Failure.file (Disk.attempt source (disk.read source))
  let some text := decodeText? contents | throw (.notUtf8 o.input)
  let package ← ExceptT.mk (pure ((p.convert c (.string text) (o.fontSize.map .real)).mapError
    Failure.conversion))
  let output := match o.output.filter (!·.isEmpty) with
    | some path => Path.read path.toList
    | none => (defaultOutput? source).getD source
  ExceptT.adapt Failure.file (disk.makeDirectories output.parent)
  ExceptT.adapt Failure.file (Disk.attempt output (disk.write output package))
  return output

/-- How a run ends: with a code given back, at once with a code, or by a fault that nothing
reports. -/
inductive Ending where
  | returned (code : Nat)
  | exited (code : Nat)
  | broken
  deriving DecidableEq, Repr

/-- The end of a run and what it has printed. -/
structure Outcome where
  ending : Ending
  stdout : String := ""
  stderr : String := ""
  deriving DecidableEq, Repr

/-- What is printed and how the run ends. Printing never fails. What is logged is left out, both on
the error stream and in the file `logs/md2docx.log`, which every run opens or makes. -/
def outcomeOf : Except Failure Path → Outcome
  | .ok output =>
    { ending := .returned 0, stdout := "✅ Saved: " ++ String.ofList output.text ++ "\n" }
  | .error (.file ⟨.nul, _⟩) => { ending := .broken }
  | .error failure =>
    { ending := .returned 1, stderr := "\n❌ Error: " ++ failure.message ++ "\n" }

def run {m : Type → Type} [Monad m] (disk : Disk m) (p : Pipeline) (c : Configuration)
    (arguments : List String) : m Outcome :=
  match read arguments with
  | .error .dashesAsValue => pure { ending := .broken }
  | .error e =>
    pure { ending := .exited 2, stderr := usage ++ program ++ ": error: " ++ e.message ++ "\n" }
  | .ok .help => pure { ending := .exited 0, stdout := helpText }
  | .ok (.convert o) => outcomeOf <$> (convertFile disk p c o).run

def runInTree (t : FileTree) (p : Pipeline) (c : Configuration) (arguments : List String) :
    Outcome × FileTree :=
  Id.run ((run FileTree.disk p c arguments).run t)

end MarkdownWord.CommandLine
