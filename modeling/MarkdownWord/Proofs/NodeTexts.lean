import Mathlib.Data.List.Basic
import MarkdownWord.Proofs.Leaves
import MarkdownWord.Text.Affix

/-!
# The text of nodes

The text of some nodes is that of their leaves, one after another. An item that is made of some
nodes has their text, apart from a task marker at the front (`Node.after?_frontMarker`).
-/

namespace MarkdownWord
open Text Markdown

/-! ## Task markers -/

/-- The task marker at the front of a text, with the blanks after it. Where no blank comes after the
brackets they end the text, or its last line. -/
def taskPrefix : List Char → List Char
  | '[' :: c :: ']' :: rest =>
    let blanks := rest.takeWhile isSpace
    if (c = ' ' ∨ c = 'x' ∨ c = 'X') ∧ (blanks ≠ [] ∨ rest = [] ∨ rest = ['\n']) then
      '[' :: c :: ']' :: blanks
    else []
  | _ => []

/-- A text is its task marker and what is left when the marker is taken off. -/
theorem taskMarker?_cases (v : List Char) :
    Node.taskMarker? v = none ∧ taskPrefix v = [] ∨
      ∃ checked left, Node.taskMarker? v = some (checked, left) ∧ v = taskPrefix v ++ left := by
  unfold Node.taskMarker?
  split
  · next c rest =>
    rw [taskPrefix]
    have hcut : rest.takeWhile isSpace ++ rest.dropWhile isSpace = rest :=
      List.takeWhile_append_dropWhile
    have hshorter :
        (rest.dropWhile isSpace).length < rest.length ↔ rest.takeWhile isSpace ≠ [] := by
      have hlength := congrArg List.length hcut
      rw [List.length_append] at hlength
      rw [← List.length_pos_iff]
      omega
    have hends : ((rest.dropWhile isSpace).length < rest.length || rest.isEmpty ||
        rest = ['\n']) = true ↔
          rest.takeWhile isSpace ≠ [] ∨ rest = [] ∨ rest = ['\n'] := by
      simp [← hshorter, or_assoc]
    have hbox : (c = ' ' || c = 'x' || c = 'X') = true ↔ c = ' ' ∨ c = 'x' ∨ c = 'X' := by
      simp [or_assoc]
    simp only [hbox, hends]
    by_cases hc : c = ' ' ∨ c = 'x' ∨ c = 'X'
    · by_cases hend : rest.takeWhile isSpace ≠ [] ∨ rest = [] ∨ rest = ['\n']
      · rw [if_pos hc, if_pos hend, if_pos ⟨hc, hend⟩]
        refine .inr ⟨_, _, rfl, ?_⟩
        simp [hcut]
      · rw [if_pos hc, if_neg hend, if_neg fun h => hend h.2]
        exact .inl ⟨rfl, rfl⟩
    · rw [if_neg hc, if_neg fun h => hc h.1]
      exact .inl ⟨rfl, rfl⟩
  · next hshape =>
    refine .inl ⟨rfl, ?_⟩
    rw [taskPrefix]
    exact hshape

/-! ## Texts -/

namespace Node

/-- The text of some nodes. -/
def textAll (ns : List Node) : List Char := (String.join (piecesAll ns)).toList

/-- None of the leaves of some nodes is an empty text. -/
def NoEmptyText (ns : List Node) : Prop := .text "" ∉ (leavesOf [] ns).map Leaf.node

mutual
private theorem leavesBelow_congr (p q : List Node) : ∀ n : Node,
    (n.leavesBelow p).map Leaf.node = (n.leavesBelow q).map Leaf.node
  | .root cs | .heading _ cs | .paragraph cs | .quote cs | .list _ _ cs | .item _ cs | .table _ cs
  | .row cs | .cell cs | .styled _ cs | .link _ _ cs | .parent _ cs => by
    rw [leavesBelow, leavesBelow]
    exact leavesOf_congr _ _ cs
  | .text _ | .inlineCode _ | .code _ _ | .rule | .lineBreak _ | .image _ _ _ | .literal _ _
  | .bare => by simp [leavesBelow]

/-- The nodes of the leaves do not depend on the way to them. -/
theorem leavesOf_congr (p q : List Node) : ∀ ns : List Node,
    (leavesOf p ns).map Leaf.node = (leavesOf q ns).map Leaf.node
  | [] => by simp [leavesOf]
  | n :: rest => by
    rw [leavesOf, leavesOf, List.map_append, List.map_append, leavesBelow_congr p q n,
      leavesOf_congr p q rest]
end

theorem leavesOf_singleton (n : Node) : leavesOf [] [n] = n.leaves := by
  rw [leavesOf, leavesOf, List.append_nil, leaves]

@[simp] theorem textAll_nil : textAll [] = [] := by simp [textAll, piecesAll]

theorem textAll_cons (n : Node) (ns : List Node) :
    textAll (n :: ns) = n.plainText.toList ++ textAll ns := by
  simp [textAll, piecesAll, plainText, String.join_append]

theorem textAll_append (ns ms : List Node) : textAll (ns ++ ms) = textAll ns ++ textAll ms := by
  induction ns with
  | nil => simp
  | cons n ns ih => simp [textAll_cons, ih]

theorem noEmptyText_nil : NoEmptyText [] := by simp [NoEmptyText, leavesOf]

theorem noEmptyText_cons (n : Node) (ns : List Node) :
    NoEmptyText (n :: ns) ↔ NoEmptyText [n] ∧ NoEmptyText ns := by
  simp [NoEmptyText, leavesOf]

theorem noEmptyText_append (ns ms : List Node) :
    NoEmptyText (ns ++ ms) ↔ NoEmptyText ns ∧ NoEmptyText ms := by
  induction ns with
  | nil => simp [NoEmptyText, leavesOf]
  | cons n ns ih => rw [List.cons_append, noEmptyText_cons, ih, noEmptyText_cons n ns, and_assoc]

/-- A node with children has the leaves of its children. -/
theorem leaves_of_children? {n : Node} {cs : List Node} (h : n.children? = some cs) :
    n.pieces = piecesAll cs ∧ ∃ path, n.leaves = leavesOf path cs := by
  cases n with
  | root ds | heading _ ds | paragraph ds | quote ds | list _ _ ds | item _ ds | table _ ds | row ds
  | cell ds | styled _ ds | link _ _ ds | parent _ ds =>
    obtain rfl := Option.some.inj h
    exact ⟨by rw [pieces], _, by rw [leaves, leavesBelow]⟩
  | text _ | inlineCode _ | code _ _ | rule | lineBreak _ | image _ _ _ | literal _ _ | bare =>
    cases h

theorem textAll_of_children? {n : Node} {cs : List Node} (h : n.children? = some cs) :
    textAll [n] = textAll cs := by
  simp [textAll, piecesAll, (leaves_of_children? h).1]

theorem noEmptyText_of_children? {n : Node} {cs : List Node} (h : n.children? = some cs) :
    NoEmptyText [n] ↔ NoEmptyText cs := by
  obtain ⟨path, hpath⟩ := (leaves_of_children? h).2
  rw [NoEmptyText, NoEmptyText, leavesOf_singleton, hpath, leavesOf_congr path [] cs]

/-- A node without children is a leaf itself. -/
theorem leaves_of_leaf {n : Node} (h : n.children? = none) :
    n.plainText = n.value ∧ n.leaves = [⟨[], n⟩] := by
  have hpiece (v : String) : String.join (if v.isEmpty then [] else [v]) = v := by
    split
    · next hv => exact (String.isEmpty_iff.mp hv).symm
    · simp [String.join_cons]
  cases n with
  | text _ | inlineCode _ | code _ _ | lineBreak _ | image _ _ _ | literal _ _ =>
    exact ⟨by rw [plainText, pieces, hpiece, value], rfl⟩
  | rule | bare => exact ⟨rfl, rfl⟩
  | root _ | heading _ _ | paragraph _ | quote _ | list _ _ _ | item _ _ | table _ _ | row _
  | cell _ | styled _ _ | link _ _ _ | parent _ _ => cases h

theorem textAll_leaf {n : Node} (h : n.children? = none) : textAll [n] = n.value.toList := by
  rw [textAll_cons, textAll_nil, List.append_nil, (leaves_of_leaf h).1]

theorem noEmptyText_leaf {n : Node} (h : n.children? = none) (hne : n ≠ .text "") :
    NoEmptyText [n] := by
  simpa [NoEmptyText, leavesOf_singleton, (leaves_of_leaf h).2] using hne.symm

theorem textAll_text (v : String) (ns : List Node) :
    textAll (.text v :: ns) = v.toList ++ textAll ns := by
  rw [textAll_cons, (leaves_of_leaf rfl).1, value]

theorem noEmptyText_text {v : String} (h : v ≠ "") (ns : List Node) :
    NoEmptyText (.text v :: ns) ↔ NoEmptyText ns := by
  rw [noEmptyText_cons]
  exact and_iff_right (noEmptyText_leaf rfl (by simpa using h))

/-! ## Items -/

/-- The task marker at the front of some nodes: that of the text which a first paragraph begins
with. -/
def frontMarker : List Node → List Char
  | .paragraph (.text v :: _) :: _ => taskPrefix v.toList
  | _ => []

/-- An item is its content, or what is left when a task marker is taken off its first text. -/
theorem itemOf_cases (content : List Node) :
    (∃ checked, itemOf content = .item checked content) ∧ frontMarker content = [] ∨
    ∃ v checked left more rest, content = .paragraph (.text v :: more) :: rest ∧
      v.toList = taskPrefix v.toList ++ left ∧
      itemOf content = .item checked (.paragraph
        (if left.isEmpty then more else .text (String.ofList left) :: more) :: rest) := by
  unfold itemOf
  split
  · next v more rest =>
    rcases taskMarker?_cases v.toList with ⟨hnone, hprefix⟩ | ⟨checked, left, hsome, hcut⟩
    · rw [hnone]
      exact .inl ⟨⟨none, rfl⟩, hprefix⟩
    · rw [hsome]
      exact .inr ⟨v, some checked, left, more, rest, rfl, hcut, rfl⟩
  · next hshape =>
    refine .inl ⟨⟨none, rfl⟩, ?_⟩
    rw [frontMarker]
    exact hshape

/-- An item has the text of its content without the task marker. -/
theorem after?_frontMarker (content : List Node) :
    after? (frontMarker content) (textAll content) = some (textAll [itemOf content]) := by
  rcases itemOf_cases content with ⟨⟨checked, hitem⟩, hmarker⟩ |
    ⟨v, checked, left, more, rest, rfl, hcut, hitem⟩
  · rw [hitem, hmarker, textAll_of_children? rfl]
    rfl
  · have hparagraph (cs : List Node) :
        textAll (.paragraph cs :: rest) = textAll cs ++ textAll rest := by
      rw [← List.singleton_append, textAll_append, textAll_of_children? rfl]
    have hleft : textAll (if left.isEmpty then more else .text (String.ofList left) :: more) =
        left ++ textAll more := by
      split
      · next hempty => rw [List.isEmpty_iff.mp hempty, List.nil_append]
      · rw [textAll_text, String.toList_ofList]
    have hall : v.toList ++ textAll more ++ textAll rest =
        taskPrefix v.toList ++ (left ++ textAll more ++ textAll rest) := by
      conv_lhs => rw [hcut]
      simp
    rw [hitem, textAll_of_children? rfl, hparagraph, hparagraph, hleft, textAll_text,
      frontMarker, hall, after?_append]

theorem NoEmptyText.itemOf {content : List Node} (h : NoEmptyText content) :
    NoEmptyText [itemOf content] := by
  rcases itemOf_cases content with ⟨⟨checked, hitem⟩, -⟩ |
    ⟨v, checked, left, more, rest, rfl, -, hitem⟩
  · rw [hitem, noEmptyText_of_children? rfl]
    exact h
  · rw [noEmptyText_cons, noEmptyText_of_children? rfl, noEmptyText_cons] at h
    obtain ⟨⟨-, hmore⟩, hrest⟩ := h
    rw [hitem, noEmptyText_of_children? rfl, noEmptyText_cons, noEmptyText_of_children? rfl]
    refine ⟨?_, hrest⟩
    split
    · exact hmore
    · next hleft =>
      have hne : String.ofList left ≠ "" := by simpa [String.ext_iff] using hleft
      exact (noEmptyText_text hne more).mpr hmore

end Node

end MarkdownWord
