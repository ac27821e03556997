import MarkdownWord.Proofs.Answers
import MarkdownWord.Proofs.CommandFiles
import MarkdownWord.Proofs.Respellings
import Mathlib.Data.String.Basic

/-!
# The ways into the program

A text can come in a request, in an upload or in a file that a command names. All three convert it
alike. The command has one more thing to do, which is to write its output.
-/

namespace MarkdownWord
open Text Word

namespace CommandLine
open FileTree

variable {t : FileTree} {c : Configuration} {o : Options} {s : String}

/-- The text of a file differs from what its octets say in its line ends only. -/
theorem decodeText?_toUTF8 (s : String) :
    ∃ text, decodeText? s.toUTF8 = some text ∧ Respelled text.toList s.toList := by
  refine ⟨String.ofList (unifyLineEnds s.toList), ?_, ?_⟩
  · rw [decodeText?, Service.fromUTF8?_eq_some_iff.mpr rfl, Option.map_some]
  · rw [String.toList_ofList, respelled_iff, unifyLineEnds_unifyLineEnds]

theorem packageOf_text
    (hinput : t.entry (Path.read o.input.toList) = .ok (.file (.octets s.toUTF8))) :
    packageOf t {} c o =
      (Pipeline.convert {} c (.string s) (o.fontSize.map .real)).mapError .conversion := by
  obtain ⟨text, hdecoded, hrespelled⟩ := decodeText?_toUTF8 s
  have hread : readInput t o.input = .ok text :=
    readInput_eq_ok_iff.mpr ⟨_, hinput, hdecoded⟩
  rw [packageOf, hread, ← Pipeline.convert_of_respelled c hrespelled]
  rfl

/-- A path that accepts a document gets it. -/
theorem save_of_accepts {output : Path} (h : t.Accepts output) (package : Package) :
    ∃ u, (save output package).run.run t = (.ok output, u) ∧
      u.entry output = .ok (.file (.document package)) := by
  obtain ⟨u, l, hmade, hplace, hfree⟩ := h
  have hwrite : u.writeDocument output package = .ok (u.put l (.file (.document package))) :=
    writeDocument_eq_ok_iff.mpr ⟨l, hplace, hfree, rfl⟩
  refine ⟨u.put l (.file (.document package)), ?_, entry_put hplace hfree⟩
  rw [save, Ends.run_bind, run_adapt, hmade]
  dsimp only [mapError_ok]
  rw [Ends.run_bind, run_attempt, run_write, hwrite]
  rfl

theorem save_of_not_accepts {output : Path} (h : ¬ t.Accepts output) (package : Package) :
    ∃ failure u, (save output package).run.run t = (.error failure, u) := by
  have hsaves := saves_run_save t output package
  generalize (save output package).run.run t = r at hsaves
  cases hsaves with
  | failed failure => exact ⟨failure, _, rfl⟩
  | written hmade _ hplace hfree => exact absurd ⟨_, _, hmade, hplace, hfree⟩ h

/-- A command whose text can be converted fails only for its output. -/
theorem runInTree_of_package {arguments : List String} {package : Package}
    (hread : read arguments = .ok (.convert o)) (hpackage : packageOf t {} c o = .ok package) :
    let ran := runInTree t {} c arguments
    (ran.1.ending = .returned 0 ↔ t.Accepts (outputOf o)) ∧
      (ran.1.ending = .returned 0 →
        ran.2.entry (outputOf o) = .ok (.file (.document package))) := by
  rw [runInTree_convert hread, hpackage]
  dsimp only
  by_cases haccepts : t.Accepts (outputOf o)
  · obtain ⟨u, hsave, hentry⟩ := save_of_accepts haccepts package
    rw [hsave]
    exact ⟨iff_of_true rfl haccepts, fun _ => hentry⟩
  · obtain ⟨failure, u, hsave⟩ := save_of_not_accepts haccepts package
    rw [hsave]
    have hending := ending_outcomeOf_error failure
    exact ⟨iff_of_false hending haccepts, fun h => absurd h hending⟩

/-- The output beside an input accepts a document unless it is a directory or its path is too
long. -/
theorem accepts_outputOf (hnone : o.output.filter (!·.isEmpty) = none) {contents : Contents}
    (hinput : t.entry (Path.read o.input.toList) = .ok (.file contents)) :
    t.Accepts (outputOf o) ↔
      ∃ l, t.locate (outputOf o) = .ok l ∧ t.at? l ≠ some .directory := by
  obtain ⟨l, hlocate, hplace⟩ := entry_eq_ok_iff.mp hinput
  have hfile : t.contents? l = some contents := by
    rw [contents?, hplace]
  obtain ⟨before, name, hsource⟩ := components_of_locate_file hlocate hfile
  rw [outputOf_beside hnone hsource]
  generalize Path.read o.input.toList = source at hlocate hsource
  obtain ⟨root, components⟩ := source
  obtain rfl : components = before ++ [name] := hsource
  exact accepts_beside hlocate

end CommandLine

/-- Requests, uploads and commands agree on a text that is not too long: it is refused by all, or it
is made into one document by all. A command that is given its text in a file leaves the document at
its output if it can be put there. The line ends in the text make no difference. -/
theorem entryPoints_agree {c : Configuration} {t : FileTree} {s : String} {o : CommandLine.Options}
    {fileName otherName : Option String} {size : Option Number.Binary64} {body : Value}
    {arguments : List String} (hlength : ¬ Service.TooLong c s)
    (hfile : Download.NamesMarkdown fileName)
    (hbody : Service.Request.read body = .ok ⟨.string s, otherName.map .whole, size.map .real⟩)
    (hread : CommandLine.read arguments = .ok (.convert o)) (hsize : o.fontSize = size)
    (hinput : t.entry (Path.read o.input.toList) = .ok (.file (.octets s.toUTF8))) :
    let answer := Service.convertText {} c body
    let uploaded := Service.convertFile {} c fileName s.toUTF8 (size.map .real)
    let ran := CommandLine.runInTree t {} c arguments
    ((∃ status message, answer = .refused status message ∧ uploaded = .refused status message ∧
        ran.1.ending = .returned 1) ∨
      ∃ package disposition disposition', answer = .converted package disposition ∧
        uploaded = .converted package disposition' ∧
        (ran.1.ending = .returned 0 ↔ t.Accepts (CommandLine.outputOf o)) ∧
        (ran.1.ending = .returned 0 →
          ran.2.entry (CommandLine.outputOf o) = .ok (.file (.document package)))) ∧
    ∀ s' : String, Respelled s.toList s'.toList →
      Pipeline.convert {} c (.string s') (size.map .real) =
        Pipeline.convert {} c (.string s) (size.map .real) := by
  intro answer uploaded ran
  refine ⟨?_, fun s' h => (Pipeline.convert_of_respelled c h _).symm⟩
  have hpackage := CommandLine.packageOf_text (c := c) hinput
  have hanswer : answer = _ :=
    (Service.convertText_read hbody).trans (Service.convert_text hlength)
  have huploaded : uploaded = _ :=
    (Service.convertFile_text hfile).trans (Service.convert_text hlength)
  rw [hsize] at hpackage
  cases hresult : Pipeline.convert {} c (.string s) (size.map .real) with
  | ok package =>
    rw [hresult] at hanswer huploaded hpackage
    exact .inr ⟨package, _, _, hanswer, huploaded,
      CommandLine.runInTree_of_package hread hpackage⟩
  | error e =>
    rw [hresult] at hanswer huploaded hpackage
    have hran : ran = _ := CommandLine.runInTree_convert hread
    rw [hpackage] at hran
    refine .inl ?_
    rw [hran]
    cases e with
    | noText => exact ⟨_, _, hanswer, huploaded, rfl⟩
    | unreadable => exact ⟨_, _, hanswer, huploaded, rfl⟩
    | unwritable => exact ⟨_, _, hanswer, huploaded, rfl⟩

/-- A code block whose lines end in different ways, a hard break, and a line end at the end. -/
theorem entryPoints_agree_lines :
    let s := "```\r\na\rb\n```\n\nc\\\rd\r"
    let s' := "```\na\r\nb\r```\r\rc\\\nd\n"
    let body := Service.payload (.string s) none none
    let t := FileTree.holding "notes.md" s
    let ran := CommandLine.runInTree t {} {} ["notes.md"]
    Respelled s.toList s'.toList ∧
    Pipeline.convert {} {} (.string s') none = Pipeline.convert {} {} (.string s) none ∧
    ∃ package disposition disposition',
      Service.convertText {} {} body = .converted package disposition ∧
      Service.convertFile {} {} (some "notes.md") s.toUTF8 none =
        .converted package disposition' ∧
      ran.1.ending = .returned 0 ∧
      ran.2.entry ⟨0, ["notes.docx".toList]⟩ = .ok (.file (.document package)) := by
  intro s s' body t ran
  let o : CommandLine.Options := { input := "notes.md" }
  have hrespelled : Respelled s.toList s'.toList := by decide
  have hlength : ¬ Service.TooLong {} s := by decide
  have hfile : Download.NamesMarkdown (some "notes.md") := by decide
  have hbody : Service.Request.read body =
      .ok ⟨.string s, Option.map .whole none, o.fontSize.map .real⟩ := rfl
  have hread : CommandLine.read ["notes.md"] = .ok (.convert o) :=
    CommandLine.read_input (by decide)
  have hinput : t.entry (Path.read o.input.toList) = .ok (.file (.octets s.toUTF8)) :=
    FileTree.entry_holding (by decide) (by decide) (by decide) (by decide)
  have houtput : CommandLine.outputOf o = ⟨0, ["notes.docx".toList]⟩ := by decide
  have hending : ran.1.ending = .returned 0 := by decide +kernel
  obtain ⟨hagree, hlines⟩ := entryPoints_agree hlength hfile hbody hread rfl hinput
  refine ⟨hrespelled, hlines s' hrespelled, ?_⟩
  obtain ⟨_, _, -, -, hfailed⟩ | ⟨package, d, d', hanswer, huploaded, -, hentry⟩ := hagree
  · exact absurd (hending.symm.trans hfailed) (by decide)
  · rw [houtput] at hentry
    exact ⟨package, d, d', hanswer, huploaded, hending, hentry hending⟩

/-- A command fails for the name of its input alone, which leaves no room for a longer suffix. -/
theorem entryPoints_disagree :
    ¬ ∀ (c : Configuration) (t : FileTree) (s : String) (o : CommandLine.Options)
      (fileName otherName : Option String) (size : Option Number.Binary64) (body : Value)
      (arguments : List String), ¬ Service.TooLong c s → Download.NamesMarkdown fileName →
      Service.Request.read body = .ok ⟨.string s, otherName.map .whole, size.map .real⟩ →
      CommandLine.read arguments = .ok (.convert o) → o.fontSize = size →
      t.entry (Path.read o.input.toList) = .ok (.file (.octets s.toUTF8)) →
      ∀ package disposition, Service.convertText {} c body = .converted package disposition →
        (CommandLine.runInTree t {} c arguments).1.ending = .returned 0 := by
  intro hall
  let stem := List.replicate 252 'a'
  let name := String.ofList (stem ++ ".md".toList)
  let o : CommandLine.Options := { input := name }
  let t := FileTree.holding name "x"
  let body := Service.payload (.string "x") none none
  have hname : name.toList = stem ++ ".md".toList := String.toList_ofList
  have hpath : Path.read name.toList = ⟨0, [name.toList]⟩ := by
    rw [hname]
    decide +kernel
  have hlength : ¬ Service.TooLong {} "x" := by decide
  have hfile : Download.NamesMarkdown (some name) :=
    ⟨stem, ".md".toList, by rw [Option.getD_some, hpath, hname]; rfl, nofun, .inl (by decide)⟩
  have hbody : Service.Request.read body = .ok ⟨.string "x", Option.map .whole none, none⟩ := rfl
  have hread : CommandLine.read [name] = .ok (.convert o) :=
    CommandLine.read_input (by rw [hname]; decide +kernel)
  have hinput : t.entry (Path.read o.input.toList) = .ok (.file (.octets "x".toUTF8)) := by
    refine FileTree.entry_holding hpath ?_ ?_ ?_
    · rw [hname]; decide +kernel
    · rw [hname, FileTree.size, String.utf8ByteSize_ofList]; decide +kernel
    · rw [hname]; decide +kernel
  have hconverted : ∃ package, Pipeline.convert {} {} (.string "x") none = .ok package := by
    have hsome : (Pipeline.convert {} {} (.string "x") none).toOption.isSome = true := by
      decide +kernel
    cases hresult : Pipeline.convert {} {} (.string "x") none with
    | ok package => exact ⟨package, rfl⟩
    | error e => rw [hresult] at hsome; cases hsome
  obtain ⟨package, hpackage⟩ := hconverted
  have hanswer : Service.convertText {} {} body =
      .converted package (Download.disposition (Download.name none)) := by
    rw [Service.convertText_read hbody, Service.convert_text hlength, hpackage]
  have hended := hall {} t "x" o (some name) none none body [name] hlength hfile hbody hread rfl
    hinput package _ hanswer
  have houtput : CommandLine.outputOf o = ⟨0, [] ++ [stem ++ Download.documentSuffix.toList]⟩ := by
    have hsource : (Path.read o.input.toList).components = [] ++ [name.toList] := by
      rw [hpath]
      rfl
    have hcut : Path.splitName name.toList = (stem, ".md".toList) := by
      rw [hname]
      exact Path.splitName_dot nofun (by decide) (by decide)
    rw [CommandLine.outputOf_beside rfl hsource, hcut, hpath]
  have hsaved : t.Accepts (CommandLine.outputOf o) :=
    (CommandLine.runInTree_of_package hread
      ((CommandLine.packageOf_text hinput).trans (congrArg _ hpackage))).1.mp hended
  obtain ⟨l, hplace, -⟩ := (CommandLine.accepts_outputOf rfl hinput).mp hsaved
  rw [houtput] at hplace
  have hlong : FileTree.maxName < FileTree.size (stem ++ Download.documentSuffix.toList) := by
    rw [FileTree.size, String.utf8ByteSize_ofList]
    decide +kernel
  exact absurd (FileTree.size_le_of_locate hplace) (Nat.not_le_of_lt hlong)

end MarkdownWord
