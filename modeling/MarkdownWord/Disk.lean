import MarkdownWord.FileTree
import MarkdownWord.Word.Parts

/-! # Disks

Access to files, apart from where they are kept: what is written in terms of a `Disk` runs on a file
tree held in memory and on real files alike. -/

namespace MarkdownWord
open Word

/-- Access to files. -/
structure Disk (m : Type → Type) where
  isThere : Path → m (Except FileProblem Bool)
  isDirectory : Path → m Bool
  read : Path → m (Except FileProblem ByteArray)
  /-- Makes one directory in a directory that is there. -/
  makeDirectory : Path → m (Except FileProblem Unit)
  write : Path → Package → m (Except FileProblem Unit)

namespace Disk

/-- A step on a path; what goes wrong is reported together with the path. -/
def attempt {m : Type → Type} [Monad m] {α : Type} (path : Path)
    (step : m (Except FileProblem α)) : ExceptT FileError m α :=
  ExceptT.mk (Except.mapError (⟨·, path⟩) <$> step)

/-- Passes over a problem with making a directory that is there. -/
def acceptDirectory {m : Type → Type} [Monad m] (disk : Disk m) (path : Path)
    (problem : FileProblem) : ExceptT FileError m Unit := do
  if !(← disk.isDirectory path) then throw ⟨problem, path⟩

/-- Makes a directory and those above it. `names` are the components of the path, the last one
first. What has been made stays when an error occurs. -/
def makeAll {m : Type → Type} [Monad m] (disk : Disk m) (root : Nat) :
    List (List Char) → ExceptT FileError m Unit
  | [] => do
    match (← disk.makeDirectory ⟨root, []⟩) with
    | .ok _ => return
    | .error problem => disk.acceptDirectory ⟨root, []⟩ problem
  | name :: above => do
    let path : Path := ⟨root, (name :: above).reverse⟩
    match (← disk.makeDirectory path) with
    | .ok _ => return
    | .error .notFound =>
      disk.makeAll root above
      match (← disk.makeDirectory path) with
      | .ok _ => return
      | .error problem => disk.acceptDirectory path problem
    | .error problem => disk.acceptDirectory path problem

/-- Makes a directory and those above it, as far as they are missing. -/
def makeDirectories {m : Type → Type} [Monad m] (disk : Disk m) (path : Path) :
    ExceptT FileError m Unit :=
  disk.makeAll path.root path.components.reverse

end Disk

def FileTree.disk : Disk (StateM FileTree) where
  isThere path := do
    match (← get).entry path with
    | .ok _ => return .ok true
    | .error .nameTooLong => return .error .nameTooLong
    | .error _ => return .ok false
  isDirectory path := do return (← get).isDirectory path
  read path := do
    match (← get).entry path with
    | .ok (.file (.octets bytes)) => return .ok bytes
    | .ok (.file (.document package)) => return .ok package.octets
    | .ok .directory => return .error .isDirectory
    | .error problem => return .error problem
  makeDirectory path := do
    match (← get).makeDirectory path with
    | .ok t =>
      set t
      return .ok ()
    | .error problem => return .error problem
  write path package := do
    match (← get).writeDocument path package with
    | .ok t =>
      set t
      return .ok ()
    | .error problem => return .error problem

end MarkdownWord
