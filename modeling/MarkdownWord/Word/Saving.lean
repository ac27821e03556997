import MarkdownWord.Disk

/-! # Saving documents

A document is written to a path, in a directory that is made if it is missing. -/

namespace MarkdownWord.Word

/-- Why a document is not saved. -/
inductive SaveError where
  | file (error : FileError)
  | render (error : RenderError)
  deriving DecidableEq, Repr

/-- Writes a document to a path and gives its file. That the path leads to a directory is noticed
before the targets of links are looked at. -/
def Document.save {m : Type → Type} [Monad m] (disk : Disk m) (d : Document) (path : Path) :
    ExceptT SaveError m Package := do
  ExceptT.adapt SaveError.file (disk.makeDirectories path.parent)
  let (package, _) ← ExceptT.mk (pure (d.render.mapError SaveError.render))
  if ← disk.isDirectory path then throw (.file ⟨.isDirectory, path⟩)
  let package ← ExceptT.mk (pure (package.checkTargets.mapError SaveError.render))
  ExceptT.adapt SaveError.file (Disk.attempt path (disk.write path package))
  return package

end MarkdownWord.Word
