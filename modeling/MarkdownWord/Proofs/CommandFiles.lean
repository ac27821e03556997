import MarkdownWord.CommandLine.Run
import MarkdownWord.Proofs.DiskFrames
import MarkdownWord.Proofs.FileNames

/-!
# What a command does to files

A command reads its input and converts it before it touches the tree. Only then it makes the
directories of its output and writes the output, so that one file changes if the command succeeds
and none if it fails.
-/

namespace MarkdownWord.CommandLine
open Word FileTree

/-- The text of the input file. -/
def readInput (t : FileTree) (input : String) : Except Failure String :=
  let source := Path.read input.toList
  match t.entry source with
  | .ok (.file contents) =>
    match decodeText? contents.bytes with
    | some text => .ok text
    | none => .error (.notUtf8 input)
  | .ok .directory => .error (.file ⟨.isDirectory, source⟩)
  | .error .nameTooLong => .error (.file ⟨.nameTooLong, source⟩)
  | .error _ => .error (.inputNotFound input)

/-- What a command would write. -/
def packageOf (t : FileTree) (p : Pipeline) (c : Configuration) (o : Options) :
    Except Failure Package := do
  let text ← readInput t o.input
  (p.convert c (.string text) (o.fontSize.map .real)).mapError Failure.conversion

/-- The path that a command writes to. -/
def outputOf (o : Options) : Path :=
  match o.output.filter (!·.isEmpty) with
  | some path => Path.read path.toList
  | none => (defaultOutput? (Path.read o.input.toList)).getD (Path.read o.input.toList)

/-- Writes a document after making its directories. -/
def save (output : Path) (package : Package) : ExceptT Failure (StateM FileTree) Path := do
  ExceptT.adapt Failure.file (FileTree.disk.makeDirectories output.parent)
  ExceptT.adapt Failure.file (Disk.attempt output (FileTree.disk.write output package))
  return output

variable {t : FileTree} {p : Pipeline} {c : Configuration} {o : Options}

theorem run_adapt {ε ε' α : Type} (f : ε → ε') (m : ExceptT ε (StateM FileTree) α) :
    (ExceptT.adapt f m).run.run t = ((m.run.run t).1.mapError f, (m.run.run t).2) := rfl

/-- What goes wrong in a step is reported with its path. -/
theorem run_attempt {α : Type} (path : Path) (step : StateM FileTree (Except FileProblem α)) :
    (ExceptT.adapt Failure.file (Disk.attempt path step)).run.run t =
      ((step.run t).1.mapError fun problem => .file ⟨problem, path⟩, (step.run t).2) := by
  have hcomp (r : Except FileProblem α) :
      (r.mapError (⟨·, path⟩ : FileProblem → FileError)).mapError Failure.file =
        r.mapError fun problem => .file ⟨problem, path⟩ := by
    cases r <;> rfl
  rw [← hcomp]
  rfl

/-- A command leaves the tree alone until it has something to save. -/
theorem run_convertFile : (convertFile FileTree.disk p c o).run.run t =
    match packageOf t p c o with
    | .ok package => (save (outputOf o) package).run.run t
    | .error failure => (.error failure, t) := by
  rw [convertFile, Ends.run_bind, run_attempt, run_isThere, packageOf, readInput]
  cases hentry : t.entry (Path.read o.input.toList) with
  | error problem => cases problem <;> rfl
  | ok e =>
    dsimp only [mapError_ok]
    rw [if_neg (by decide), Ends.run_bind, run_attempt, run_read, hentry]
    cases e with
    | directory => rfl
    | file contents =>
      dsimp only [mapError_ok]
      cases decodeText? contents.bytes with
      | none => rfl
      | some text =>
        let converted := (p.convert c (.string text) (o.fontSize.map .real)).mapError
          Failure.conversion
        change (ExceptT.mk (pure converted) >>= save (outputOf o)).run.run t = match converted with
          | .ok package => (save (outputOf o) package).run.run t
          | .error failure => (.error failure, t)
        cases converted <;> rfl

theorem readInput_eq_ok_iff {input text : String} : readInput t input = .ok text ↔
    ∃ contents, t.entry (Path.read input.toList) = .ok (.file contents) ∧
      decodeText? contents.bytes = some text := by
  rw [readInput]
  cases t.entry (Path.read input.toList) with
  | error problem => cases problem <;> exact iff_of_false nofun (by rintro ⟨_, ⟨⟩, -⟩)
  | ok e =>
    cases e with
    | directory => exact iff_of_false nofun (by rintro ⟨_, ⟨⟩, -⟩)
    | file contents =>
      dsimp only
      constructor
      · intro h
        split at h
        · next hdecoded => exact ⟨contents, rfl, hdecoded.trans (congrArg some (Except.ok.inj h))⟩
        · cases h
      · rintro ⟨_, ⟨⟩, hdecoded⟩
        rw [hdecoded]

theorem packageOf_eq_ok_iff {package : Package} : packageOf t p c o = .ok package ↔
    ∃ contents text, t.entry (Path.read o.input.toList) = .ok (.file contents) ∧
      decodeText? contents.bytes = some text ∧
      p.convert c (.string text) (o.fontSize.map .real) = .ok package := by
  rw [packageOf]
  constructor
  · intro h
    cases hread : readInput t o.input with
    | error failure => rw [hread] at h; cases h
    | ok text =>
      rw [hread, ok_bind] at h
      obtain ⟨contents, hentry, hdecoded⟩ := readInput_eq_ok_iff.mp hread
      exact ⟨contents, text, hentry, hdecoded, mapError_eq_ok_iff.mp h⟩
  · rintro ⟨contents, text, hentry, hdecoded, hpackage⟩
    rw [readInput_eq_ok_iff.mpr ⟨contents, hentry, hdecoded⟩]
    exact mapError_eq_ok_iff.mpr hpackage

/-! ## Saving -/

/-- What comes of saving a document: nothing but new directories, or the document as well. -/
inductive Saves (t : FileTree) (output : Path) (package : Package) :
    Except Failure Path × FileTree → Prop where
  | failed (failure : Failure) {u : FileTree} (grows : t.Grows u) :
      Saves t output package (.error failure, u)
  | written {u : FileTree} {l : Location}
      (made : (FileTree.disk.makeDirectories output.parent).run.run t = (.ok (), u))
      (grows : t.Grows u) (place : u.locate output = .ok l) (free : u.at? l ≠ some .directory) :
      Saves t output package (.ok output, u.put l (.file (.document package)))

theorem saves_run_save (t : FileTree) (output : Path) (package : Package) :
    Saves t output package ((save output package).run.run t) := by
  have hgrows : t.Grows ((FileTree.disk.makeDirectories output.parent).run.run t).2 :=
    Disk.harmless_makeAll _ _ t
  rw [save, Ends.run_bind, run_adapt]
  cases hmade : (FileTree.disk.makeDirectories output.parent).run.run t with
  | mk result u =>
    rw [hmade] at hgrows
    cases result with
    | error e => exact .failed _ hgrows
    | ok _ =>
      dsimp only [mapError_ok]
      rw [Ends.run_bind, run_attempt, run_write]
      cases hwrite : u.writeDocument output package with
      | error problem => exact .failed _ hgrows
      | ok v =>
        obtain ⟨l, hplace, hfree, rfl⟩ := writeDocument_eq_ok_iff.mp hwrite
        exact .written hmade hgrows hplace hfree

/-! ## The place beside the input -/

theorem outputOf_beside {before : List (List Char)} {name : List Char}
    (hnone : o.output.filter (!·.isEmpty) = none)
    (hsource : (Path.read o.input.toList).components = before ++ [name]) :
    outputOf o = ⟨(Path.read o.input.toList).root,
      before ++ [(Path.splitName name).1 ++ Download.documentSuffix.toList]⟩ := by
  have hname : (Path.read o.input.toList).name = name := by
    rw [Path.name, hsource, List.getLast?_concat, Option.getD_some]
  rw [outputOf, hnone]
  dsimp only
  rw [defaultOutput?, Path.withName?, hsource, if_neg (by simp), Option.getD_some, Path.stem, hname,
    List.dropLast_concat]

section Beside

variable (hnone : o.output.filter (!·.isEmpty) = none) {u : FileTree} {l m : Location}
  {contents : Contents} (hinput : t.locate (Path.read o.input.toList) = .ok l)
  (hfile : t.contents? l = some contents)
include hnone hinput hfile

/-- The input and the output beside it are different files unless the input has the suffix of
documents. -/
theorem output_ne_input (hkept : ∀ l, t.at? l = some .directory → u.at? l = some .directory)
    (houtput : u.locate (outputOf o) = .ok m)
    (hsuffix : (Path.read o.input.toList).suffix ≠ Download.documentSuffix.toList) : l ≠ m := by
  obtain ⟨before, name, hsource⟩ := components_of_locate_file hinput hfile
  rw [Path.suffix, Path.name, hsource, List.getLast?_concat, Option.getD_some] at hsuffix
  rw [outputOf_beside hnone hsource] at houtput
  generalize Path.read o.input.toList = source at hinput hsource houtput
  obtain ⟨root, components⟩ := source
  obtain rfl : components = before ++ [name] := hsource
  refine locate_ne_of_name_ne hkept hinput houtput fun heq => hsuffix ?_
  exact List.append_cancel_left ((Path.splitName_append name).trans heq)

theorem output_eq_input
    (hsuffix : (Path.read o.input.toList).suffix = Download.documentSuffix.toList) :
    outputOf o = Path.read o.input.toList := by
  obtain ⟨before, name, hsource⟩ := components_of_locate_file hinput hfile
  rw [Path.suffix, Path.name, hsource, List.getLast?_concat, Option.getD_some] at hsuffix
  rw [outputOf_beside hnone hsource, ← hsuffix, Path.splitName_append, ← hsource]

end Beside

/-! ## Runs -/

/-- A single word that is no option is the input. -/
theorem read_input {name : String} (h : name.toList.head? ≠ some '-') :
    CommandLine.read [name] = .ok (.convert { input := name }) := by
  have hdashes : name ≠ "--" := by
    rintro rfl
    exact h rfl
  have hclassify : classify name = .ok (.plain name) := by
    rw [classify]
    dsimp only
    split
    · next second rest heq =>
      rw [heq] at h
      exact absurd rfl h
    · rfl
  have hall : classifyAll [name] = .ok [.plain name] := by
    rw [classifyAll, hclassify]
    · rfl
    · exact hdashes
  rw [CommandLine.read, hall]
  rfl

/-- What comes of a run: no change to a file, or a document at the output. -/
inductive Ran (t : FileTree) (p : Pipeline) (c : Configuration) (arguments : List String) :
    Outcome × FileTree → Prop where
  | failed {outcome : Outcome} {u : FileTree} (ending : outcome.ending ≠ .returned 0)
      (grows : t.Grows u) : Ran t p c arguments (outcome, u)
  | saved {o : Options} {package : Package} {u : FileTree} {l : Location}
      (command : read arguments = .ok (.convert o)) (content : packageOf t p c o = .ok package)
      (grows : t.Grows u) (place : u.locate (outputOf o) = .ok l)
      (free : u.at? l ≠ some .directory) :
      Ran t p c arguments (outcomeOf (.ok (outputOf o)), u.put l (.file (.document package)))

theorem ending_outcomeOf_error (failure : Failure) :
    (outcomeOf (.error failure)).ending ≠ .returned 0 := by
  unfold outcomeOf
  split
  · next h => cases h
  · nofun
  · nofun

theorem runInTree_convert {arguments : List String} (h : read arguments = .ok (.convert o)) :
    runInTree t p c arguments = match packageOf t p c o with
      | .ok package => Prod.map outcomeOf id ((save (outputOf o) package).run.run t)
      | .error failure => (outcomeOf (.error failure), t) := by
  have hrun : runInTree t p c arguments =
      Prod.map outcomeOf id ((convertFile FileTree.disk p c o).run.run t) := by
    rw [runInTree, run, h]
    rfl
  rw [hrun, run_convertFile]
  cases packageOf t p c o <;> rfl

theorem ran_runInTree (t : FileTree) (p : Pipeline) (c : Configuration) (arguments : List String) :
    Ran t p c arguments (runInTree t p c arguments) := by
  cases hread : read arguments with
  | error e =>
    rw [runInTree, run, hread]
    cases e <;> exact .failed nofun (.refl t)
  | ok command =>
    cases command with
    | help =>
      rw [runInTree, run, hread]
      exact .failed nofun (.refl t)
    | convert o =>
      rw [runInTree_convert hread]
      cases hpackage : packageOf t p c o with
      | error failure => exact .failed (ending_outcomeOf_error failure) (.refl t)
      | ok package =>
        dsimp only
        have hsaves := saves_run_save t (outputOf o) package
        generalize (save (outputOf o) package).run.run t = r at hsaves
        cases hsaves with
        | failed failure hgrows => exact .failed (ending_outcomeOf_error failure) hgrows
        | written _ hgrows hplace hfree => exact .saved hread hpackage hgrows hplace hfree

/-- A run changes a file only if it gives back zero, and then only the one that it reports, which
holds what its input is converted to. Without an output of its own it leaves its input as it was,
except that an input with the suffix of documents is what it writes to.

Not in a file tree, and so not counted here: the log file `logs/md2docx.log`, links, names that are
no Unicode text, an output that is emptied before writing it fails, and a run whose last line cannot
be printed, after its output is written. -/
theorem runInTree_files (t : FileTree) (p : Pipeline) (c : Configuration)
    (arguments : List String) :
    let ran := runInTree t p c arguments
    (ran.1.ending ≠ .returned 0 → t.SameFiles ran.2) ∧
    (ran.1.ending = .returned 0 → ∃ o contents text package l,
      read arguments = .ok (.convert o) ∧
      t.entry (Path.read o.input.toList) = .ok (.file contents) ∧
      decodeText? contents.bytes = some text ∧
      p.convert c (.string text) (o.fontSize.map .real) = .ok package ∧
      ran.1.stdout = "✅ Saved: " ++ String.ofList (outputOf o).text ++ "\n" ∧
      ran.2.locate (outputOf o) = .ok l ∧ t.Rewritten ran.2 l (.document package)) ∧
    ∀ o, read arguments = .ok (.convert o) → o.output.filter (!·.isEmpty) = none →
      ∀ l contents, t.locate (Path.read o.input.toList) = .ok l → t.contents? l = some contents →
        ((Path.read o.input.toList).suffix ≠ Download.documentSuffix.toList →
          ran.2.contents? l = some contents) ∧
        ((Path.read o.input.toList).suffix = Download.documentSuffix.toList →
          outputOf o = Path.read o.input.toList) := by
  intro ran
  have hran : Ran t p c arguments ran := ran_runInTree t p c arguments
  clear_value ran
  cases hran with
  | failed hending hgrows =>
    refine ⟨fun _ => hgrows.contents, fun h => absurd h hending, ?_⟩
    intro o _ hnone l contents hinput hfile
    exact ⟨fun _ => (hgrows.contents l).trans hfile, output_eq_input hnone hinput hfile⟩
  | @saved o package u m hread hpackage hgrows hplace hfree =>
    obtain ⟨contents, text, hentry, htext, hconverted⟩ := packageOf_eq_ok_iff.mp hpackage
    have hrewritten := rewritten_put hgrows hfree (.document package)
    refine ⟨fun h => absurd rfl h, fun _ => ?_, ?_⟩
    · exact ⟨o, contents, text, package, m, hread, hentry, htext, hconverted, rfl,
        locate_put hfree hplace, hrewritten⟩
    · intro o' hread' hnone l contents hinput hfile
      obtain rfl : o' = o := by
        rw [hread] at hread'
        cases hread'
        rfl
      refine ⟨fun hsuffix => ?_, output_eq_input hnone hinput hfile⟩
      have hother := output_ne_input hnone hinput hfile hgrows.directory hplace hsuffix
      exact (hrewritten.others l hother).trans hfile

theorem runInTree_files_note :
    let t := holding "notes.md" "# Hi"
    let ran := runInTree t {} {} ["notes.md"]
    let place (name : String) : Location := ⟨.working 0, [name.toList]⟩
    ran.1.ending = .returned 0 ∧
    (∃ package, t.Rewritten ran.2 (place "notes.docx") (.document package)) ∧
    ran.2.contents? (place "notes.md") = some (.octets "# Hi".toUTF8) := by
  intro t ran place
  have hending : ran.1.ending = .returned 0 := by decide +kernel
  have hread : read ["notes.md"] = .ok (.convert ⟨"notes.md", none, none⟩) := rfl
  obtain ⟨-, hsaved, hinput⟩ := runInTree_files t {} {} ["notes.md"]
  obtain ⟨o, _, _, package, l, hread', -, -, -, -, hplace, hrewritten⟩ := hsaved hending
  obtain rfl : ⟨"notes.md", none, none⟩ = o := by
    rw [hread] at hread'
    cases hread'
    rfl
  have hbeside : ran.2.locate (outputOf ⟨"notes.md", none, none⟩) = .ok (place "notes.docx") := rfl
  obtain rfl : place "notes.docx" = l := Except.ok.inj (hbeside.symm.trans hplace)
  refine ⟨hending, ⟨package, hrewritten⟩, ?_⟩
  exact (hinput _ hread rfl (place "notes.md") _ rfl rfl).1 (by decide)

/-- A command given only an input that is called like a document writes over it. -/
theorem input_written_over :
    ¬ ∀ (t : FileTree) (arguments : List String) (o : Options),
      read arguments = .ok (.convert o) → o.output = none →
      ∀ l contents, t.locate (Path.read o.input.toList) = .ok l → t.contents? l = some contents →
        (runInTree t {} {} arguments).2.contents? l = some contents := by
  intro hall
  let t := holding "notes.docx" "# Hi"
  let place : Location := ⟨.working 0, ["notes.docx".toList]⟩
  have hkept := hall t ["notes.docx"] ⟨"notes.docx", none, none⟩ rfl rfl place
    (.octets "# Hi".toUTF8) rfl rfl
  have hwritten : ((runInTree t {} {} ["notes.docx"]).2.contents? place).any
      Contents.isDocument = true := by decide +kernel
  rw [hkept] at hwritten
  cases hwritten

end MarkdownWord.CommandLine
