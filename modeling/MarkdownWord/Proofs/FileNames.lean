import MarkdownWord.Download

/-!
# Names of files

A name is its stem and its suffix. A file is one of Markdown if its name ends in one of the suffixes
of such files, in any case of the letters, and something stands before it.
-/

namespace MarkdownWord
open Text

namespace Path

theorem splitName_append (name : List Char) : (splitName name).1 ++ (splitName name).2 = name := by
  dsimp only [splitName]
  split
  · exact List.take_append_drop _ _
  · exact List.append_nil _

/-- A name without a stem before its suffix has no suffix. -/
theorem fst_splitName_ne_nil {name : List Char} (h : (splitName name).2 ≠ []) :
    (splitName name).1 ≠ [] := by
  dsimp only [splitName] at h ⊢
  split at h
  · next hsplit =>
    rw [if_pos hsplit]
    simp only [Bool.and_eq_true, decide_eq_true_eq] at hsplit
    intro hnil
    have hlength := congrArg List.length hnil
    rw [List.length_take, List.length_nil] at hlength
    omega
  · exact absurd rfl h

/-- The suffix starts at the last dot. -/
theorem splitName_dot {stem rest : List Char} (hstem : stem ≠ []) (hrest : rest ≠ [])
    (hdot : '.' ∉ rest) : splitName (stem ++ '.' :: rest) = (stem, '.' :: rest) := by
  have htail : ((stem ++ '.' :: rest).reverse.takeWhile (· != '.')).length = rest.length := by
    rw [List.reverse_append, List.reverse_cons, List.append_assoc, List.takeWhile_append_of_pos,
      List.singleton_append, List.takeWhile_cons_of_neg (by decide), List.append_nil,
      List.length_reverse]
    intro c hc
    exact bne_iff_ne.mpr fun heq => hdot (heq ▸ List.mem_reverse.mp hc)
  have hlength : (stem ++ '.' :: rest).length - rest.length - 1 = stem.length := by
    rw [List.length_append, List.length_cons]
    omega
  have hstem' := List.length_pos_iff.mpr hstem
  have hrest' := List.length_pos_iff.mpr hrest
  dsimp only [splitName]
  rw [htail, hlength, if_pos, List.take_left, List.drop_left]
  rw [List.length_append, List.length_cons]
  simp only [Bool.and_eq_true, decide_eq_true_eq]
  omega

end Path

namespace Download

theorem eq_dot_of_lowerAscii {c : Char} (h : lowerAscii c = '.') : c = '.' := by
  rw [lowerAscii] at h
  split at h
  · exact absurd h (by decide)
  · unfold Char.toLower at h
    split at h
    · next hupper =>
      have hval : (c.val + ('a'.val - 'A'.val)).toNat = '.'.val.toNat :=
        congrArg (fun d : Char => d.val.toNat) h
      have hlow : 'A'.val.toNat ≤ c.val.toNat := hupper.1
      have hhigh : c.val.toNat ≤ 'Z'.val.toNat := hupper.2
      rw [UInt32.toNat_add] at hval
      simp only [UInt32.reduceSub, UInt32.reduceToNat, Char.reduceVal] at hval hlow hhigh
      omega
    · exact h

theorem isMarkdownSuffix_iff {suffix : List Char} : isMarkdownSuffix suffix = true ↔
    suffix.map lowerAscii = ".md".toList ∨ suffix.map lowerAscii = ".markdown".toList := by
  have hfolded (s : String) : foldedSuffix suffix = s ↔ suffix.map lowerAscii = s.toList := by
    rw [foldedSuffix, ← String.toList_inj, String.toList_ofList]
  rw [isMarkdownSuffix, List.contains_iff_mem, markdownSuffixes, List.mem_cons,
    List.mem_singleton, hfolded, hfolded]

/-- What folds to a dot and some more without dots is a dot and some more without dots. -/
theorem eq_dot_cons_of_map {suffix t : List Char} (ht : t ≠ []) (hdot : '.' ∉ t)
    (hsuffix : suffix.map lowerAscii = '.' :: t) :
    ∃ rest, suffix = '.' :: rest ∧ rest ≠ [] ∧ '.' ∉ rest := by
  obtain ⟨c, rest, rfl, hc, rfl⟩ := List.map_eq_cons_iff.mp hsuffix
  rw [eq_dot_of_lowerAscii hc]
  exact ⟨rest, rfl, fun hnil => ht (congrArg _ hnil),
    fun hmem => hdot (List.mem_map_of_mem (f := lowerAscii) hmem)⟩

/-- A suffix of Markdown files is a dot and some more without dots. -/
theorem eq_dot_cons {suffix : List Char} (h : isMarkdownSuffix suffix = true) :
    ∃ rest, suffix = '.' :: rest ∧ rest ≠ [] ∧ '.' ∉ rest := by
  obtain hmd | hmarkdown := isMarkdownSuffix_iff.mp h
  · exact eq_dot_cons_of_map (t := "md".toList) (by decide) (by decide) hmd
  · exact eq_dot_cons_of_map (t := "markdown".toList) (by decide) (by decide) hmarkdown

/-- A file name ends in a suffix of Markdown files, in any case of its letters. -/
def NamesMarkdown (fileName : Option String) : Prop :=
  ∃ stem suffix : List Char, (Path.read (fileName.getD "").toList).name = stem ++ suffix ∧
    stem ≠ [] ∧
    (suffix.map lowerAscii = ".md".toList ∨ suffix.map lowerAscii = ".markdown".toList)

theorem isMarkdownFile_iff {fileName : Option String} :
    isMarkdownFile fileName = true ↔ NamesMarkdown fileName := by
  rw [isMarkdownFile, NamesMarkdown, Path.suffix]
  generalize (Path.read (fileName.getD "").toList).name = name
  constructor
  · intro h
    have hsuffix : (Path.splitName name).2 ≠ [] := by
      obtain ⟨rest, heq, -⟩ := eq_dot_cons h
      rw [heq]
      exact List.cons_ne_nil _ _
    exact ⟨_, _, (Path.splitName_append name).symm, Path.fst_splitName_ne_nil hsuffix,
      isMarkdownSuffix_iff.mp h⟩
  · rintro ⟨stem, suffix, rfl, hstem, hsuffix⟩
    have h := isMarkdownSuffix_iff.mpr hsuffix
    obtain ⟨rest, rfl, hrest, hdot⟩ := eq_dot_cons h
    rwa [Path.splitName_dot hstem hrest hdot]

instance (fileName : Option String) : Decidable (NamesMarkdown fileName) :=
  decidable_of_iff _ isMarkdownFile_iff

end Download
end MarkdownWord
