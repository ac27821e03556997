import MarkdownWord.Proofs.DownloadHeaders
import MarkdownWord.Proofs.FileNames

/-!
# Names of downloads

Whatever a file is called, its download has the name of a document: no slashes, and a stem before the
suffix of documents. Such a name stays as it is when a name is made from it again, directories before
it do not count, and the suffix of a Markdown file is replaced (`Download.name_isDocumentName`).
-/

namespace MarkdownWord

namespace Path
open Text

theorem name_read_of_component {n : List Char} (hn : isComponent n = true) (hslash : '/' ∉ n) :
    (read n).name = n := by
  simp [name, read, Markdown.splitAt_of_not_mem hslash, hn]

/-- What stands before the last slash does not count for the name of a path. -/
theorem name_read_append {n : List Char} (hn : isComponent n = true) (hslash : '/' ∉ n)
    (directory : List Char) : (read (directory ++ '/' :: n)).name = n := by
  simp [name, read, splitAt_append_cons, Markdown.splitAt_of_not_mem hslash, hn]

end Path

namespace Download
open Text

/-- A name is made from the last component of a path, which may be missing. -/
theorem toList_name (fileName : Option String) :
    (name fileName).toList = nameOf (Path.read (fileName.getD "").toList).name := by
  have hdefault : defaultName.toList = nameOf (Path.read "".toList).name := by decide
  cases fileName with
  | none => exact hdefault
  | some s =>
    rw [name, Option.getD_some]
    split
    · next hempty => rw [String.isEmpty_iff.mp hempty, hdefault]
    · rw [String.toList_ofList]

/-! ## Names of documents -/

/-- A name of a document: without slashes, and with a stem before its suffix, which may be written
in any case. -/
def IsDocumentName (s : String) : Prop :=
  '/' ∉ s.toList ∧ ∃ stem suffix : List Char, s.toList = stem ++ suffix ∧ stem ≠ [] ∧
    suffix.map Char.toLower = ".docx".toList

theorem map_lowerAscii_iff {suffix : List Char} :
    suffix.map lowerAscii = ".docx".toList ↔ suffix.map Char.toLower = ".docx".toList := by
  have hsame (h : ∀ c ∈ suffix, c.toNat ≠ 0x212A) :
      suffix.map lowerAscii = suffix.map Char.toLower :=
    List.map_congr_left fun c hc => if_neg (h c hc)
  constructor
  · intro h
    rw [← hsame fun c hc hkelvin => ?_, h]
    have hmem := List.mem_map_of_mem (f := lowerAscii) hc
    rw [h, lowerAscii, if_pos hkelvin] at hmem
    exact absurd hmem (by decide)
  · intro h
    rw [hsame fun c hc hkelvin => ?_, h]
    have hmem := List.mem_map_of_mem (f := Char.toLower) hc
    obtain rfl : c = '\u212A' := Char.toNat_inj.mp hkelvin
    rw [h] at hmem
    exact absurd hmem (by decide)

theorem foldedSuffix_eq_iff {suffix : List Char} :
    foldedSuffix suffix = documentSuffix ↔ suffix.map lowerAscii = ".docx".toList := by
  rw [foldedSuffix, ← String.toList_inj, String.toList_ofList]
  rfl

/-- A name is cut before the suffix of documents. -/
theorem splitName_document {stem suffix : List Char} (hstem : stem ≠ [])
    (hsuffix : suffix.map lowerAscii = ".docx".toList) :
    Path.splitName (stem ++ suffix) = (stem, suffix) := by
  obtain ⟨rest, rfl, hrest, hdot⟩ :=
    eq_dot_cons_of_map (t := "docx".toList) (by decide) (by decide) hsuffix
  exact Path.splitName_dot hstem hrest hdot

/-- The suffix of a document is not replaced, nor is another one put after it. -/
theorem nameOf_document {stem suffix : List Char} (hstem : stem ≠ [])
    (hsuffix : suffix.map lowerAscii = ".docx".toList) : nameOf (stem ++ suffix) = stem ++ suffix := by
  have hmarkdown : ¬ isMarkdownSuffix suffix = true := by
    rw [isMarkdownSuffix_iff, hsuffix]
    decide
  rw [nameOf, splitName_document hstem hsuffix]
  dsimp only
  rw [if_neg hmarkdown, if_neg (by simpa using hstem), if_pos (foldedSuffix_eq_iff.mpr hsuffix)]

theorem exists_suffix_nameOf (s : List Char) : ∃ stem suffix, nameOf s = stem ++ suffix ∧
    stem ≠ [] ∧ suffix.map lowerAscii = ".docx".toList := by
  have hcut := Path.splitName_append s
  have hdocument : documentSuffix.toList.map lowerAscii = ".docx".toList := by decide
  rw [nameOf]
  dsimp only
  split
  · next hmarkdown =>
    refine ⟨_, _, rfl, Path.fst_splitName_ne_nil ?_, hdocument⟩
    intro hnil
    rw [hnil] at hmarkdown
    exact absurd hmarkdown (by decide)
  split
  · exact ⟨"converted".toList, documentSuffix.toList, by decide, by decide, hdocument⟩
  · next hstem =>
    have hstem : (Path.splitName s).1 ≠ [] := by simpa using hstem
    split
    · next hsuffix => exact ⟨_, _, hcut.symm, hstem, foldedSuffix_eq_iff.mp hsuffix⟩
    · refine ⟨s, _, rfl, ?_, hdocument⟩
      rintro rfl
      exact hstem (List.append_eq_nil_iff.mp hcut).1

theorem isDocumentName_name (fileName : Option String) : IsDocumentName (name fileName) := by
  obtain ⟨stem, suffix, hname, hstem, hsuffix⟩ :=
    exists_suffix_nameOf (Path.read (fileName.getD "").toList).name
  exact ⟨slash_notMem_name fileName, stem, suffix, (toList_name fileName).trans hname, hstem,
    map_lowerAscii_iff.mp hsuffix⟩

theorem isComponent_document {s : String} (h : IsDocumentName s) :
    Path.isComponent s.toList = true := by
  obtain ⟨-, stem, suffix, hname, -, hsuffix⟩ := h
  have hfive : suffix.length = 5 := by
    rw [← List.length_map Char.toLower, hsuffix]
    rfl
  have hlength : s.toList.length = stem.length + 5 := by
    rw [hname, List.length_append, hfive]
  have hnil : s.toList ≠ [] := fun h => by simp [h] at hlength
  have hdot : s.toList ≠ ['.'] := fun h => by simp [h] at hlength
  simp [Path.isComponent, hnil, hdot]

/-- A name of a document is the name of its own download. -/
theorem name_of_document {s : String} (h : IsDocumentName s) : name (some s) = s := by
  have hcomponent := isComponent_document h
  obtain ⟨hslash, stem, suffix, hname, hstem, hsuffix⟩ := h
  rw [← String.toList_inj, toList_name, Option.getD_some,
    Path.name_read_of_component hcomponent hslash, hname,
    nameOf_document hstem (map_lowerAscii_iff.mpr hsuffix)]

/-- The directory that a file is in does not count for the name of its download. -/
theorem name_append (directory : String) {n : String} (hne : n ≠ "") (hdot : n ≠ ".")
    (hslash : '/' ∉ n.toList) : name (some (directory ++ "/" ++ n)) = name (some n) := by
  have hcomponent : Path.isComponent n.toList = true := by
    have hdots : n.toList ≠ ['.'] := fun h => hdot (String.toList_inj.mp h)
    simp [Path.isComponent, hne, hdots]
  have htext : (directory ++ "/" ++ n).toList = directory.toList ++ '/' :: n.toList := by simp
  rw [← String.toList_inj, toList_name, toList_name, Option.getD_some, Option.getD_some, htext,
    Path.name_read_append hcomponent hslash, Path.name_read_of_component hcomponent hslash]

theorem toList_name_markdown {fileName : Option String} (h : isMarkdownFile fileName = true) :
    (name fileName).toList = (Path.read (fileName.getD "").toList).stem ++ ".docx".toList := by
  rw [toList_name, nameOf]
  exact if_pos h

/-- The download of every file has the name of a document, which is a name for its own download
too. The directories before a name do not count. The suffix of a Markdown file is replaced. -/
theorem name_isDocumentName :
    (∀ fileName, IsDocumentName (name fileName) ∧
      name (some (name fileName)) = name fileName) ∧
    (∀ directory n : String, n ≠ "" → n ≠ "." → '/' ∉ n.toList →
      name (some (directory ++ "/" ++ n)) = name (some n)) ∧
    ∀ fileName, isMarkdownFile fileName = true →
      (name fileName).toList =
        (Path.read (fileName.getD "").toList).stem ++ ".docx".toList := by
  refine ⟨?_, ?_, ?_⟩
  · intro fileName
    have hdocument := isDocumentName_name fileName
    exact ⟨hdocument, name_of_document hdocument⟩
  · intro directory n hne hdot hslash
    exact name_append directory hne hdot hslash
  · intro fileName hfile
    exact toList_name_markdown hfile

/-- A hidden file with several dots and its suffix in capitals, and a name that is all dots. -/
theorem name_isDocumentName_dots :
    isMarkdownFile (some "a/.b.c.MD") = true ∧
      (name (some "a/.b.c.MD")).toList = ".b.c.docx".toList ∧
      '/' ∉ "..".toList ∧ name (some ("a/b" ++ "/" ++ "..")) = "...docx" := by
  have hfile : isMarkdownFile (some "a/.b.c.MD") = true := by decide
  have hslash : '/' ∉ "..".toList := by decide
  obtain ⟨-, hdirectory, hmarkdown⟩ := name_isDocumentName
  refine ⟨hfile, hmarkdown _ hfile, hslash, ?_⟩
  rw [hdirectory "a/b" ".." (by decide) (by decide) hslash]
  decide

end Download
end MarkdownWord
