import MarkdownWord.Pipeline
import MarkdownWord.Proofs.Packing
import MarkdownWord.Proofs.ParsedTrees

/-!
# When a text is converted

Of all the reasons for which a document cannot be written, only two are left for a document that was
read from a text: its title is too long, or a run has a character that XML cannot hold.
A text of legal characters can still have such a run, as characters can be written by number.
-/

namespace MarkdownWord
open Word

/-! ## Addresses -/

theorem Word.isXmlText_stripped {s : String} (h : isXmlText s = true) :
    isXmlText (Text.stripped s) = true := by
  simp only [isXmlText, List.all_eq_true] at h ⊢
  intro c hc
  refine h c ?_
  simp only [Text.stripped, String.toList_ofList, Text.trimBlank, Text.trim, Text.trimRight,
    List.mem_reverse] at hc
  exact (List.dropWhile_suffix _).subset (List.mem_reverse.mp ((List.dropWhile_suffix _).subset hc))

theorem Word.isXmlText_join {vs : List String} (h : ∀ v ∈ vs, isXmlText v = true) :
    isXmlText (String.join vs) = true := by
  simp only [isXmlText, List.all_eq_true, String.toList_join, List.mem_flatMap] at h ⊢
  rintro c ⟨v, hv, hc⟩
  exact h v hv c hc

theorem Node.mem_reached {ns : List Node} {n : Node} (h : n ∈ ns) : n ∈ reached ns := by
  induction ns with
  | nil => cases h
  | cons m ns ih =>
    rw [reached]
    rcases List.mem_cons.mp h with rfl | h
    · exact List.mem_cons_self
    · exact List.mem_cons_of_mem m (List.mem_append_right _ (ih h))

/-- The title of a text can be written when its runs can. -/
theorem Node.legal_title? {ns : List Node} {o : Overflow} (h : ∀ n ∈ reached ns, n.Parsed)
    (hruns : ∀ b ∈ blocksAll o 0 ns, ∀ r ∈ b.runs, ∀ v ∈ r.text?, isXmlText v = true) :
    ∀ t ∈ title? ns, isXmlText t = true := by
  intro t ht
  obtain ⟨n, hn, htitle⟩ := List.exists_of_findSome?_eq_some (Option.mem_filter_iff.mp ht).1
  split at htitle
  · next cs =>
    cases htitle
    have hreached := mem_reached hn
    refine isXmlText_stripped (isXmlText_join fun v hv => ?_)
    obtain ⟨r, hr, hv⟩ := (h _ hreached).2.2 v hv
    have hmem : some v ∈ ((membersAll {} cs).flatMap Member.runs).map Run.text? := by
      rw [texts_membersAll, ← hv]
      exact List.mem_map_of_mem hr
    obtain ⟨r', hr', hv'⟩ := List.mem_map.mp hmem
    obtain ⟨b, hb, hab⟩ := exists_headingOf_of_reached o 0 hreached
    have hbruns : b.runs = (membersAll {} cs).flatMap Member.runs := by
      rcases hab with rfl | rfl
      · exact Block.runs_paragraph _
      · rw [Block.runs_quoted, Block.runs_paragraph]
        rfl
    exact hruns b hb r' (hbruns ▸ hr') v hv'
  · cases htitle

/-! ## Texts -/

namespace Pipeline

/-- What the nodes of a text must be like for a document file to hold them: the title is not too
long, and no run has a character that XML cannot hold. -/
structure Convertible (nodes : List Node) : Prop where
  title : ∀ t ∈ Node.title? nodes, t.length ≤ 255
  runs : ∀ b ∈ Node.blocksAll .clamp 0 nodes, ∀ r ∈ b.runs, ∀ v ∈ r.text?, isXmlText v = true

theorem Convertible.writable_iff {nodes : List Node} (h : ∀ n ∈ Node.reached nodes, n.Parsed) :
    Node.Writable .clamp nodes ↔ Convertible nodes := by
  constructor
  · intro hwritable
    exact ⟨fun t ht => (hwritable.title t ht).1, hwritable.runs⟩
  · intro hconvertible
    refine ⟨fun t ht => ?_, fun depth cs hcs => ?_, hconvertible.runs⟩
    · exact ⟨hconvertible.title t ht, Node.legal_title? h hconvertible.runs t ht⟩
    · have hheading := (h _ hcs).1
      omega

private theorem convert_string {s : String} (hs : s ≠ "") (size : Option Number) :
    convert {} {} (.string s) size =
      match (Document.ofNodes (Node.ofMarkdown s).children size .clamp).pack with
      | .ok package => .ok package
      | .error _ => .error .unwritable := by
  have hrequired : requireText (.string s) = .ok s := if_neg (by simpa using hs)
  have hsize : size.or ({} : Configuration).fontSize = size := Option.or_none
  have hdocument : document {} {} (.string s) size =
      .ok (.ofNodes (Node.ofMarkdown s).children size .clamp) := by
    unfold document
    rw [hrequired, hsize]
    rfl
  have hwrite (d : Document) : ({} : Pipeline).write d = d.pack.toOption := rfl
  have hbind (d : Document) (f : Document → Except ConversionError Package) :
      (Except.ok d >>= f) = f d := rfl
  unfold convert
  rw [hdocument, hbind, hwrite]
  cases (Document.ofNodes (Node.ofMarkdown s).children size .clamp).pack with
  | ok package => rfl
  | error e => rfl

end Pipeline

end MarkdownWord
