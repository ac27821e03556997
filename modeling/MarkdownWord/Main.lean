import MarkdownWord.CommandLine.Run

/-! # The program

The command line on real files. -/

namespace MarkdownWord
open CommandLine

/-- The number and the words of a failed operation on files. -/
def failureDetails : IO.Error → Nat × String
  | .alreadyExists _ code words | .noFileOrDirectory _ code words | .inappropriateType _ code words
  | .invalidArgument _ code words | .permissionDenied _ code words
  | .resourceExhausted _ code words | .noSuchThing _ code words | .interrupted _ code words
  | .otherError code words | .resourceBusy code words | .resourceVanished code words
  | .unsupportedOperation code words | .hardwareFault code words
  | .unsatisfiedConstraints code words | .illegalOperation code words
  | .protocolError code words | .timeExpired code words => (code.toNat, words)
  | .unexpectedEof => (0, "end of file")
  | .userError words => (0, words)

def problemOf (e : IO.Error) : FileProblem :=
  let (code, words) := failureDetails e
  [.notFound, .alreadyThere, .notDirectory, .isDirectory, .nameTooLong].find? (·.code == code)
    |>.getD (.other code words)

def onFile {α : Type} (path : Path) (action : String → IO α) : IO (Except FileProblem α) :=
  if path.text.contains '\x00' then return .error .nul
  else try
    return .ok (← action (String.ofList path.text))
  catch e => return .error (problemOf e)

/-- Access to real files. A path that can be opened is there, and it leads to a directory if its
own dot can be opened. -/
def fileDisk : Disk IO where
  isThere path := do
    match ← onFile path fun p => IO.FS.Handle.mk p .read with
    | .ok _ => return .ok true
    | .error .notFound | .error .notDirectory | .error .nul => return .ok false
    | .error problem => return .error problem
  isDirectory path := do
    match ← onFile path fun p => IO.FS.Handle.mk (p ++ "/.") .read with
    | .ok _ => return true
    | .error _ => return false
  read path := onFile path fun p => IO.FS.readBinFile p
  makeDirectory path := onFile path fun p => IO.FS.createDir p
  write path package := onFile path fun p => IO.FS.writeBinFile p package.octets

end MarkdownWord

def main (arguments : List String) : IO UInt32 := do
  let outcome ← MarkdownWord.CommandLine.run MarkdownWord.fileDisk {} {} arguments
  IO.print outcome.stdout
  IO.eprint outcome.stderr
  match outcome.ending with
  | .returned code | .exited code => return code.toUInt32
  | .broken => return 1
