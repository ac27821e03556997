import MarkdownWord.Disk
import MarkdownWord.Proofs.FileFrames

/-!
# What operations on files do to a tree

The operations of a disk that is a file tree, each as a function of the tree. Asking and reading
leave the tree as it is, and making directories lets it grow at most. So a path accepts a document
or not before anything is written to it.
-/

namespace MarkdownWord
open FileTree

/-- Whatever comes of a computation, it does nothing to a file tree but let it grow. -/
def Harmless {ε α : Type} (m : ExceptT ε (StateM FileTree) α) : Prop :=
  ∀ t : FileTree, t.Grows (m.run.run t).2

namespace Harmless

variable {ε α β : Type} {m : ExceptT ε (StateM FileTree) α}

theorem of_lift {x : StateM FileTree α} (h : ∀ t : FileTree, t.Grows (x.run t).2) :
    Harmless (liftM x : ExceptT ε (StateM FileTree) α) := h

theorem pure (a : α) : Harmless (pure a : ExceptT ε (StateM FileTree) α) := Grows.refl

theorem throw (e : ε) : Harmless (throw e : ExceptT ε (StateM FileTree) α) := Grows.refl

theorem bind {f : α → ExceptT ε (StateM FileTree) β} (hm : Harmless m) (hf : ∀ a, Harmless (f a)) :
    Harmless (m >>= f) := by
  intro t
  rw [Ends.run_bind]
  split
  · next a _ => exact (hm t).trans (hf a _)
  · exact hm t

end Harmless

namespace Contents

/-- The octets that are read of a file. -/
def bytes : Contents → ByteArray
  | .octets bytes => bytes
  | .document package => package.octets

def isDocument : Contents → Bool
  | .octets _ => false
  | .document _ => true

end Contents

namespace FileTree

variable {t u : FileTree} {l : Location} (p : Path) (package : Word.Package)

section Operations

variable (t)

theorem run_get_bind {α : Type} (f : FileTree → StateM FileTree α) :
    (get >>= f).run t = (f t).run t := rfl

theorem run_isThere : (disk.isThere p).run t = (match t.entry p with
    | .ok _ => .ok true
    | .error .nameTooLong => .error .nameTooLong
    | .error _ => .ok false, t) := by
  rw [disk]
  dsimp only
  rw [run_get_bind]
  cases t.entry p with
  | ok e => rfl
  | error problem => cases problem <;> rfl

theorem run_read : (disk.read p).run t = (match t.entry p with
    | .ok (.file contents) => .ok contents.bytes
    | .ok .directory => .error .isDirectory
    | .error problem => .error problem, t) := by
  rw [disk]
  dsimp only
  rw [run_get_bind]
  cases t.entry p with
  | error problem => rfl
  | ok e =>
    cases e with
    | directory => rfl
    | file contents => cases contents <;> rfl

theorem run_makeDirectory : (disk.makeDirectory p).run t = match t.makeDirectory p with
    | .ok u => (.ok (), u)
    | .error problem => (.error problem, t) := by
  rw [disk]
  dsimp only
  rw [run_get_bind]
  cases t.makeDirectory p <;> rfl

theorem run_write : (disk.write p package).run t = match t.writeDocument p package with
    | .ok u => (.ok (), u)
    | .error problem => (.error problem, t) := by
  rw [disk]
  dsimp only
  rw [run_get_bind]
  cases t.writeDocument p package <;> rfl

end Operations

theorem grows_run_makeDirectory (t : FileTree) : t.Grows ((disk.makeDirectory p).run t).2 := by
  rw [run_makeDirectory]
  split
  · next u hu => exact .of_makeDirectory hu
  · exact .refl t

end FileTree

namespace Disk

theorem harmless_acceptDirectory (p : Path) (problem : FileProblem) :
    Harmless (FileTree.disk.acceptDirectory p problem) := by
  have hask : Harmless (liftM (FileTree.disk.isDirectory p) : ExceptT FileError (StateM FileTree) Bool) :=
    .of_lift fun t => .refl t
  refine hask.bind fun b => ?_
  split
  · exact .throw _
  · exact .pure _

theorem harmless_makeAll (root : Nat) (names : List (List Char)) :
    Harmless (FileTree.disk.makeAll root names) := by
  have hmake (p : Path) : Harmless
      (liftM (FileTree.disk.makeDirectory p) : ExceptT FileError (StateM FileTree) _) :=
    .of_lift (FileTree.grows_run_makeDirectory p)
  induction names with
  | nil =>
    rw [makeAll]
    refine (hmake _).bind fun r => ?_
    split
    · exact .pure _
    · exact harmless_acceptDirectory _ _
  | cons name above ih =>
    rw [makeAll]
    refine (hmake _).bind fun r => ?_
    split
    · exact .pure _
    · refine ih.bind fun _ => (hmake _).bind fun r => ?_
      split
      · exact .pure _
      · exact harmless_acceptDirectory _ _
    · exact harmless_acceptDirectory _ _

end Disk

namespace FileTree

variable {t : FileTree} {p : Path} {l : Location}

/-- A document can be put at a path once its directories are made. -/
def Accepts (t : FileTree) (p : Path) : Prop :=
  ∃ u l, (disk.makeDirectories p.parent).run.run t = (.ok (), u) ∧ u.locate p = .ok l ∧
    u.at? l ≠ some .directory

theorem run_acceptDirectory (h : t.entry p = .ok .directory) (problem : FileProblem) :
    (disk.acceptDirectory p problem).run.run t = (.ok (), t) := by
  have hdirectory : t.isDirectory p = true := by
    rw [isDirectory, h]
  have hask : (liftM (disk.isDirectory p) : ExceptT FileError (StateM FileTree) Bool).run.run t =
      (.ok true, t) :=
    congrArg (fun b => (Except.ok b, t)) hdirectory
  rw [Disk.acceptDirectory, Ends.run_bind, hask]
  rfl

/-- Directories that are there are not made again. -/
theorem run_makeDirectories (h : t.entry p = .ok .directory) :
    (disk.makeDirectories p).run.run t = (.ok (), t) := by
  have hthere : t.makeDirectory p = .error .alreadyThere := by
    obtain ⟨l, hlocate, hplace⟩ := entry_eq_ok_iff.mp h
    rw [makeDirectory, hlocate, ok_bind, hplace]
    rfl
  have hmake : (liftM (disk.makeDirectory p) :
      ExceptT FileError (StateM FileTree) (Except FileProblem Unit)).run.run t =
        (.ok (.error .alreadyThere), t) := by
    have hrun : (disk.makeDirectory p).run t = (.error .alreadyThere, t) := by
      rw [run_makeDirectory, hthere]
    exact congrArg (Prod.map Except.ok id) hrun
  have hpath {names : List (List Char)} (hnames : p.components.reverse = names) :
      (⟨p.root, names.reverse⟩ : Path) = p := by
    rw [← hnames, List.reverse_reverse]
  rw [Disk.makeDirectories]
  cases hnames : p.components.reverse with
  | nil =>
    have hroot : (⟨p.root, []⟩ : Path) = p := hpath hnames
    rw [Disk.makeAll, hroot, Ends.run_bind, hmake]
    exact run_acceptDirectory h _
  | cons name above =>
    rw [Disk.makeAll, hpath hnames, Ends.run_bind, hmake]
    exact run_acceptDirectory h _

/-- Beside a file a document can be put wherever no directory is, if its path is not too long. -/
theorem accepts_beside {root : Nat} {before : List (List Char)} {a b : List Char}
    (h : t.locate ⟨root, before ++ [a]⟩ = .ok l) :
    t.Accepts ⟨root, before ++ [b]⟩ ↔
      ∃ m, t.locate ⟨root, before ++ [b]⟩ = .ok m ∧ t.at? m ≠ some .directory := by
  have hparent : (⟨root, before ++ [b]⟩ : Path).parent = ⟨root, before⟩ := by
    rw [Path.parent, List.dropLast_concat]
  have hmade := run_makeDirectories (entry_parent h)
  rw [Accepts, hparent, hmade]
  constructor
  · rintro ⟨u, m, ⟨⟩, hplace, hfree⟩
    exact ⟨m, hplace, hfree⟩
  · rintro ⟨m, hplace, hfree⟩
    exact ⟨t, m, rfl, hplace, hfree⟩

end FileTree
end MarkdownWord
