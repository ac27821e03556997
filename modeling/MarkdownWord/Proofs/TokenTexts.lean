import MarkdownWord.Node.OfTokens
import MarkdownWord.Proofs.NodeTexts
import MarkdownWord.Proofs.Results

/-!
# The text of a token stream

The tree of a token stream has the text of the stream: no token of a known kind loses its text, and
none has it twice, however the elements are nested. Only the task markers at the front of items are
taken off (`Node.plainText_ofTokens`).
-/

namespace MarkdownWord
open Text Markdown

/-! ## Known kinds -/

/-- The kinds of tokens that stand for themselves. -/
def leafKinds : List String := [
  "text", "text_special", "code_inline", "softbreak", "hardbreak", "fence", "code_block", "hr",
  "html_inline", "html_block"]

/-- The kinds of elements with content. -/
def containerKinds : List String := [
  "heading", "paragraph", "blockquote", "bullet_list", "ordered_list", "list_item", "table", "tr",
  "th", "td", "em", "strong", "s", "link", "inline", "thead", "tbody"]

mutual
/-- A token is of a known kind: it opens or closes an element with content, is such an element by
itself, an image, or a leaf with nothing inside. -/
def Token.isKnown : Token → Bool
  | .opening m => containerKinds.contains (elementKind m.kind)
  | .closing => true
  | .single m inner =>
    leafKinds.contains m.kind && inner.isEmpty || m.kind == "image" ||
      containerKinds.contains m.kind && allKnown inner

def Token.allKnown : List Token → Bool
  | [] => true
  | t :: rest => t.isKnown && allKnown rest
end

/-! ## Texts -/

/-- The text that a token has of its own: a soft line break is a blank, and a last line end does not
belong to code. -/
def Details.ownText (m : Details) : List Char :=
  match m.kind with
  | "text" | "text_special" | "code_inline" | "html_inline" | "html_block" => m.content.toList
  | "softbreak" => [' ']
  | "fence" | "code_block" =>
    if m.content.toList.getLast? = some '\n' then m.content.toList.dropLast else m.content.toList
  | _ => []

mutual
/-- The text of a token and of the stream inside it, which has none for an image. -/
def Token.text : Token → List Char
  | .opening _ | .closing => []
  | .single m inner => if m.kind = "image" then [] else m.ownText ++ textAll inner

/-- The text of a stream. -/
def Token.textAll : List Token → List Char
  | [] => []
  | t :: rest => t.text ++ textAll rest
end

mutual
/-- The text of an element, if what is taken off is at the front of each item that it is taken from.
The children of an item say what is taken from it. -/
def Element.textWithout? (taken : List Element → List Char) : Element → Option (List Char)
  | .mk m children =>
    if m.kind = "image" then some []
    else do
      let inner ← textWithoutAll? taken children
      if m.kind = "list_item" then after? (taken children) inner
      else return m.ownText ++ inner

def Element.textWithoutAll? (taken : List Element → List Char) : List Element → Option (List Char)
  | [] => some []
  | e :: rest => do
    let text ← e.textWithout? taken
    return text ++ (← textWithoutAll? taken rest)
end

/-- The task marker at the front of the nodes that some elements are made into. -/
def Element.frontMarker (children : List Element) : List Char :=
  match elementsToNodes? children with
  | .ok nodes => Node.frontMarker nodes
  | .error _ => []

namespace Node

theorem textAll_textOf (s : String) : textAll (textOf s) = s.toList := by
  unfold textOf
  split
  · next hs => simp [String.isEmpty_iff.mp hs]
  · simp [textAll_text]

theorem noEmptyText_textOf (s : String) : NoEmptyText (textOf s) := by
  unfold textOf
  split
  · exact noEmptyText_nil
  · next hs => exact (noEmptyText_text (by simpa using hs) []).mpr noEmptyText_nil

end Node

/-! ## Elements of a stream -/

theorem ne_of_leaf {kind : String} (h : leafKinds.contains kind = true) :
    kind ≠ "image" ∧ kind ≠ "list_item" ∧ containerKinds.contains kind = false := by
  have hall : ∀ kind ∈ leafKinds,
      kind ≠ "image" ∧ kind ≠ "list_item" ∧ containerKinds.contains kind = false := by decide
  exact hall kind (List.contains_iff_mem.mp h)

theorem ownText_of_container {m : Details} (h : containerKinds.contains m.kind = true) :
    m.kind ≠ "image" ∧ m.ownText = [] := by
  refine ⟨fun hkind => ?_, ?_⟩
  · rw [hkind] at h
    exact absurd h (by decide)
  · unfold Details.ownText
    split <;> first | rfl | (next hkind => rw [hkind] at h; exact absurd h (by decide))

namespace Element

mutual
/-- An element is of a known kind: it has content, is an image, or is a leaf with nothing inside. -/
def isKnown : Element → Bool
  | .mk m children =>
    leafKinds.contains m.kind && children.isEmpty || m.kind == "image" ||
      containerKinds.contains m.kind && allKnown children

def allKnown : List Element → Bool
  | [] => true
  | e :: rest => e.isKnown && allKnown rest
end

theorem allKnown_append (es fs : List Element) :
    allKnown (es ++ fs) = (allKnown es && allKnown fs) := by
  induction es with
  | nil => simp [allKnown]
  | cons e es ih => simp [allKnown, ih, Bool.and_assoc]

theorem textWithoutAll?_append {taken : List Element → List Char} {es fs : List Element}
    {s t : List Char} (hes : textWithoutAll? taken es = some s)
    (hfs : textWithoutAll? taken fs = some t) :
    textWithoutAll? taken (es ++ fs) = some (s ++ t) := by
  induction es generalizing s with
  | nil =>
    cases hes
    exact hfs
  | cons e es ih =>
    rw [textWithoutAll?] at hes
    obtain ⟨first, hfirst, hes⟩ := Option.bind_eq_some_iff.mp hes
    obtain ⟨rest, hrest, hes⟩ := Option.bind_eq_some_iff.mp hes
    cases hes
    rw [List.cons_append, textWithoutAll?, hfirst, ih hrest]
    simp

/-- Some elements are of known kinds and have a text. -/
structure Reads (es : List Element) (s : List Char) : Prop where
  known : allKnown es = true
  text : textWithoutAll? (fun _ => []) es = some s

namespace Reads

theorem nil : Reads [] [] := ⟨rfl, rfl⟩

theorem append {es fs : List Element} {s t : List Char} (hes : Reads es s) (hfs : Reads fs t) :
    Reads (es ++ fs) (s ++ t) where
  known := by rw [allKnown_append, hes.known, hfs.known]; rfl
  text := textWithoutAll?_append hes.text hfs.text

/-- An element with content has the text of its content. -/
theorem container {m : Details} {children : List Element} {s : List Char}
    (hm : containerKinds.contains m.kind = true) (h : Reads children s) :
    Reads [.mk m children] s where
  known := by simp only [allKnown, isKnown, hm, h.known, Bool.and_self, Bool.or_true]
  text := by
    obtain ⟨himage, hown⟩ := ownText_of_container hm
    simp [textWithoutAll?, textWithout?, himage, hown, h.text, after?]

/-- A single token of a known kind becomes an element with its text. -/
theorem single {m : Details} {inner : List Token} {children : List Element}
    (hm : (Token.single m inner).isKnown = true)
    (hnone : inner = [] → children = [])
    (h : Token.allKnown inner = true → Reads children (Token.textAll inner)) :
    Reads [.mk m children] (Token.single m inner).text := by
  rw [Token.isKnown, Bool.or_eq_true, Bool.or_eq_true, Bool.and_eq_true, Bool.and_eq_true,
    beq_iff_eq] at hm
  rcases hm with (⟨hleaf, hempty⟩ | himage) | ⟨hcontainer, hinner⟩
  · obtain ⟨himage, hitem, -⟩ := ne_of_leaf hleaf
    obtain rfl := List.isEmpty_iff.mp hempty
    rw [hnone rfl, Token.text, if_neg himage, Token.textAll]
    refine ⟨?_, by simp [textWithoutAll?, textWithout?, himage, hitem]⟩
    simp only [allKnown, isKnown, hleaf, List.isEmpty_nil, Bool.and_self, Bool.true_or]
  · rw [Token.text, if_pos himage]
    exact ⟨by simp [allKnown, isKnown, himage], by simp [textWithoutAll?, textWithout?, himage]⟩
  · obtain ⟨himage, hown⟩ := ownText_of_container hcontainer
    rw [Token.text, if_neg himage, hown]
    exact container hcontainer (h hinner)

end Reads

/-- What has been read of the open elements, the outermost one first. -/
inductive PendingReads : List Pending → List Char → Prop
  | nil : PendingReads [] []
  | cons {m : Details} {before : List Element} {pending : List Pending} {s t : List Char}
    (hm : containerKinds.contains m.kind = true) (hbefore : Reads before.reverse s)
    (hpending : PendingReads pending t) : PendingReads ((m, before) :: pending) (t ++ s)

/-- The text of a stream comes after what has been read before it. -/
theorem reads_readFrom? {tokens : List Token} {done : List Element} {pending : List Pending}
    {elements : List Element} (h : readFrom? tokens done pending = some elements)
    (hknown : Token.allKnown tokens = true) {s t : List Char} (hdone : Reads done.reverse s)
    (hpending : PendingReads pending t) : Reads elements (t ++ s ++ Token.textAll tokens) := by
  fun_induction readFrom? tokens done pending generalizing elements s t with
  | case1 done =>
    cases h
    cases hpending
    simpa [Token.textAll] using hdone
  | case2 => cases h
  | case3 m rest done pending ih =>
    rw [Token.allKnown, Bool.and_eq_true] at hknown
    have hopen : PendingReads (({ m with kind := elementKind m.kind }, done) :: pending) (t ++ s) :=
      .cons (by simpa [Token.isKnown] using hknown.1) hdone hpending
    simpa [Token.textAll, Token.text] using ih h hknown.2 .nil hopen
  | case4 rest done m before pending ih =>
    rw [List.unattach_reverse, List.unattach_attach] at ih
    rw [Token.allKnown, Bool.and_eq_true] at hknown
    cases hpending with
    | @cons _ _ _ u t hm hbefore hpending =>
      have hclosed : Reads (mk m done.reverse :: before).reverse (u ++ s) := by
        rw [List.reverse_cons]
        exact hbefore.append (.container hm hdone)
      simpa [Token.textAll, Token.text] using ih h hknown.2 hclosed hpending
  | case5 => cases h
  | case6 m inner rest done pending children hinner ihinner ih =>
    rw [Token.allKnown, Bool.and_eq_true] at hknown
    have hone : Reads [mk m children] (Token.single m inner).text := by
      refine .single hknown.1 (fun hnone => ?_) fun hall => ?_
      · rw [hnone, readFrom?] at hinner
        exact (Option.some.inj hinner).symm
      · simpa using ihinner hinner hall .nil .nil
    have hmore : Reads (mk m children :: done).reverse (s ++ (Token.single m inner).text) := by
      rw [List.reverse_cons]
      exact hdone.append hone
    simpa [Token.textAll] using ih h hknown.2 hmore hpending
  | case7 => cases h

/-! ## Nodes of elements -/

theorem isKnown_iff {m : Details} {children : List Element} :
    (mk m children).isKnown = true ↔ leafKinds.contains m.kind = true ∧ children = [] ∨
      m.kind = "image" ∨ containerKinds.contains m.kind = true ∧ allKnown children = true := by
  simp [isKnown, or_assoc]

theorem known_leaf {m : Details} {children : List Element} (h : (mk m children).isKnown = true)
    (hkind : leafKinds.contains m.kind = true) : children = [] := by
  obtain ⟨himage, -, hcontainer⟩ := ne_of_leaf hkind
  rcases isKnown_iff.mp h with ⟨-, hnone⟩ | hkind | ⟨hkind, -⟩
  · exact hnone
  · exact absurd hkind himage
  · rw [hcontainer] at hkind
    cases hkind

/-- What the kind of an element says about its nodes. -/
inductive Gives (m : Details) (children : List Element) : List Node → Prop
  | container {n : Node} {cs : List Node} (hkind : containerKinds.contains m.kind = true)
    (hitem : m.kind ≠ "list_item") (hcs : elementsToNodes? children = .ok cs)
    (hn : n.children? = some cs) : Gives m children [n]
  | spliced {cs : List Node} (hkind : containerKinds.contains m.kind = true)
    (hitem : m.kind ≠ "list_item") (hcs : elementsToNodes? children = .ok cs) : Gives m children cs
  | item {cs : List Node} (hkind : m.kind = "list_item")
    (hcs : elementsToNodes? children = .ok cs) : Gives m children [.itemOf cs]
  | image (hkind : m.kind = "image") (url : String) (alt : Option String) :
    Gives m children [.image url alt ""]
  | leaf {ns : List Node} (hkind : leafKinds.contains m.kind = true)
    (htext : Node.textAll ns = m.ownText) (hne : Node.NoEmptyText ns) : Gives m children ns

namespace Gives

variable {m : Details} {children : List Element} {kind : String}

theorem yields_children (children : List Element) :
    Yields (elementsToNodes? children) fun cs => elementsToNodes? children = .ok cs :=
  fun _ hcs => hcs

/-- An element with content is made into a node with the nodes of the content. -/
theorem of_within {f : List Node → Node} (hf : ∀ cs, (f cs).children? = some cs)
    (hm : m.kind = kind) (hkind : containerKinds.contains kind = true ∧ kind ≠ "list_item") :
    Yields (do return [f (← elementsToNodes? children)] : Except TokenError (List Node))
      (Gives m children) := by
  rw [← hm] at hkind
  refine (yields_children children).bind fun cs hcs => Yields.pure ?_
  exact .container hkind.1 hkind.2 hcs (hf cs)

theorem of_item (hm : m.kind = "list_item") :
    Yields (do return [.itemOf (← elementsToNodes? children)] : Except TokenError (List Node))
      (Gives m children) :=
  (yields_children children).bind fun _ hcs => Yields.pure (.item hm hcs)

theorem of_spliced (hm : m.kind = kind)
    (hkind : containerKinds.contains kind = true ∧ kind ≠ "list_item") :
    Yields (elementsToNodes? children) (Gives m children) := by
  rw [← hm] at hkind
  exact fun cs hcs => .spliced hkind.1 hkind.2 hcs

theorem of_leaf {n : Node} (hm : m.kind = kind) (hkind : leafKinds.contains kind = true)
    (hn : n.children? = none) (htext : n.value.toList = m.ownText) (hne : n ≠ .text "") :
    Gives m children [n] := by
  rw [← hm] at hkind
  exact .leaf hkind ((Node.textAll_leaf hn).trans htext) (Node.noEmptyText_leaf hn hne)

theorem of_code (hm : m.kind = "fence" ∨ m.kind = "code_block") :
    Gives m children [.codeOf m.content.toList m.info.toList] := by
  have hkind : leafKinds.contains m.kind = true := by
    rcases hm with hm | hm <;> rw [hm] <;> decide
  have hvalue : (Node.codeOf m.content.toList m.info.toList).value.toList = m.ownText := by
    rcases hm with hm | hm <;> simp [Details.ownText, hm, Node.codeOf, Node.value]
  exact of_leaf rfl hkind rfl hvalue nofun

theorem of_text (hm : m.kind = "text" ∨ m.kind = "text_special") :
    Gives m children (textOf m.content) := by
  have hkind : leafKinds.contains m.kind = true := by
    rcases hm with hm | hm <;> rw [hm] <;> decide
  have hown : m.ownText = m.content.toList := by
    rcases hm with hm | hm <;> simp [Details.ownText, hm]
  refine .leaf hkind ?_ (Node.noEmptyText_textOf _)
  rw [Node.textAll_textOf, hown]

theorem of_markup (hm : m.kind = "html_inline" ∨ m.kind = "html_block") :
    Gives m children [.literal m.kind m.content] := by
  have hkind : leafKinds.contains m.kind = true := by
    rcases hm with hm | hm <;> rw [hm] <;> decide
  have hown : m.ownText = m.content.toList := by
    rcases hm with hm | hm <;> simp [Details.ownText, hm]
  exact of_leaf rfl hkind rfl hown.symm nofun

end Gives

/-- The nodes of an element of a known kind are as its kind says. -/
theorem yields_toNodes? {m : Details} {children : List Element}
    (h : (mk m children).isKnown = true) : Yields (mk m children).toNodes? (Gives m children) := by
  unfold toNodes?
  dsimp only
  split
  case h_2 hkind | h_3 hkind | h_4 hkind | h_10 hkind | h_11 hkind | h_12 hkind | h_13 hkind |
      h_14 hkind | h_15 hkind | h_16 hkind | h_17 hkind =>
    exact Gives.of_within (fun _ => rfl) hkind (by decide)
  case h_1 hkind | h_5 hkind =>
    exact Yields.bind_any fun _ => Gives.of_within (fun _ => rfl) hkind (by decide)
  case h_6 hkind => exact Gives.of_item hkind
  case h_24 hkind | h_25 hkind | h_26 hkind => exact Gives.of_spliced hkind (by decide)
  case h_18 hkind => exact Yields.pure (.image hkind _ _)
  case h_7 hkind => exact Yields.pure (.of_code (.inl hkind))
  case h_8 hkind => exact Yields.pure (.of_code (.inr hkind))
  case h_19 hkind => exact Yields.pure (.of_text (.inl hkind))
  case h_20 hkind => exact Yields.pure (.of_text (.inr hkind))
  case h_9 hkind | h_23 hkind =>
    have hown : m.ownText = [] := by simp [Details.ownText, hkind]
    exact Yields.pure (.of_leaf hkind (by decide) rfl hown.symm nofun)
  case h_21 hkind =>
    have hown : m.ownText = m.content.toList := by simp [Details.ownText, hkind]
    exact Yields.pure (.of_leaf hkind (by decide) rfl hown.symm nofun)
  case h_22 hkind =>
    have hown : m.ownText = [' '] := by simp [Details.ownText, hkind]
    exact Yields.pure (.of_leaf hkind (by decide) rfl hown.symm (by simp))
  case h_27 =>
    -- Of the known kinds only raw markup is left.
    have hmarkup : (m.kind = "html_inline" ∨ m.kind = "html_block") ∧ children = [] := by
      rcases isKnown_iff.mp h with ⟨hleaf, hnone⟩ | himage | ⟨hcontainer, -⟩
      · simp_all [leafKinds]
      · simp_all
      · simp_all [containerKinds]
    obtain ⟨hkind, rfl⟩ := hmarkup
    exact Yields.pure (.of_markup hkind)

theorem known_container {m : Details} {children : List Element}
    (h : (mk m children).isKnown = true) (hkind : containerKinds.contains m.kind = true) :
    allKnown children = true := by
  rcases isKnown_iff.mp h with ⟨-, rfl⟩ | himage | ⟨-, hall⟩
  · rfl
  · exact absurd himage (ownText_of_container hkind).1
  · exact hall

theorem textWithout?_container {taken : List Element → List Char} {m : Details}
    {children : List Element} {s : List Char} (hkind : containerKinds.contains m.kind = true)
    (hs : textWithoutAll? taken children = some s) : (mk m children).textWithout? taken =
      if m.kind = "list_item" then after? (taken children) s else some s := by
  obtain ⟨himage, hown⟩ := ownText_of_container hkind
  rw [textWithout?, if_neg himage, hs, hown]
  simp

mutual
private theorem keeps_toNodes? : ∀ e : Element, e.isKnown = true → Yields e.toNodes? fun ns =>
    e.textWithout? frontMarker = some (Node.textAll ns) ∧ Node.NoEmptyText ns
  | .mk m children, h => fun ns hns => by
    cases yields_toNodes? h ns hns with
    | container hkind hitem hcs hn =>
      obtain ⟨htext, hne⟩ := keeps_elementsToNodes? children (known_container h hkind) _ hcs
      rw [textWithout?_container hkind htext, if_neg hitem, Node.textAll_of_children? hn,
        Node.noEmptyText_of_children? hn]
      exact ⟨rfl, hne⟩
    | spliced hkind hitem hcs =>
      obtain ⟨htext, hne⟩ := keeps_elementsToNodes? children (known_container h hkind) _ hcs
      rw [textWithout?_container hkind htext, if_neg hitem]
      exact ⟨rfl, hne⟩
    | @item cs hitem hcs =>
      have hkind : containerKinds.contains m.kind = true := by rw [hitem]; decide
      obtain ⟨htext, hne⟩ := keeps_elementsToNodes? children (known_container h hkind) _ hcs
      have hmarker : frontMarker children = Node.frontMarker cs := by rw [frontMarker, hcs]
      rw [textWithout?_container hkind htext, if_pos hitem, hmarker, Node.after?_frontMarker]
      exact ⟨rfl, hne.itemOf⟩
    | image himage url alt =>
      rw [textWithout?, if_pos himage]
      exact ⟨rfl, Node.noEmptyText_leaf rfl nofun⟩
    | leaf hkind htext hne =>
      obtain rfl := known_leaf h hkind
      obtain ⟨himage, hitem, -⟩ := ne_of_leaf hkind
      refine ⟨?_, hne⟩
      rw [textWithout?, if_neg himage, htext]
      simp [textWithoutAll?, hitem]

/-- The nodes of some elements have the text of the elements without the task markers of items. -/
theorem keeps_elementsToNodes? : ∀ es : List Element, allKnown es = true →
    Yields (elementsToNodes? es) fun ns =>
      textWithoutAll? frontMarker es = some (Node.textAll ns) ∧ Node.NoEmptyText ns
  | [], _ => by
    rw [elementsToNodes?]
    exact Yields.pure ⟨by simp [textWithoutAll?], Node.noEmptyText_nil⟩
  | e :: rest, h => by
    rw [allKnown, Bool.and_eq_true] at h
    rw [elementsToNodes?]
    refine (keeps_toNodes? e h.1).bind fun ns ⟨htext, hne⟩ => ?_
    refine (keeps_elementsToNodes? rest h.2).bind fun ms ⟨hmore, hrest⟩ => Yields.pure ?_
    rw [textWithoutAll?, htext, hmore, Node.textAll_append, Node.noEmptyText_append]
    exact ⟨rfl, hne, hrest⟩
end

end Element

/-- The tree of a token stream with known kinds has the text of the stream, from which the task
markers at the front of items are taken off and nothing else. No text in it is empty. -/
theorem Node.plainText_ofTokens {tokens : List Token} {root : Node}
    (hknown : Token.allKnown tokens = true) (h : ofTokens? tokens = .ok root) :
    ∃ elements, Element.ofTokens? tokens = some elements ∧
      Element.textWithoutAll? (fun _ => []) elements = some (Token.textAll tokens) ∧
      Element.textWithoutAll? Element.frontMarker elements = some root.plainText.toList ∧
      ∀ l ∈ root.leaves, l.node ≠ .text "" := by
  unfold ofTokens? at h
  cases helements : Element.ofTokens? tokens with
  | none =>
    rw [helements] at h
    cases h
  | some elements =>
    have hread := Element.reads_readFrom? helements hknown .nil .nil
    rw [helements] at h
    dsimp only at h
    cases hnodes : elementsToNodes? elements with
    | error e =>
      rw [hnodes] at h
      cases h
    | ok cs =>
      rw [hnodes] at h
      obtain rfl : Node.root cs = root := Except.ok.inj h
      obtain ⟨htext, hne⟩ := Element.keeps_elementsToNodes? elements hread.known cs hnodes
      refine ⟨elements, rfl, by simpa using hread.text, ?_, ?_⟩
      · rw [htext, plainText, pieces, textAll]
      · have hroot : NoEmptyText [.root cs] := (noEmptyText_of_children? rfl).mpr hne
        intro l hl hempty
        refine hroot (List.mem_map.mpr ⟨l, ?_, hempty⟩)
        rwa [leavesOf_singleton]

/-- An item with a task marker, an empty text, an image and raw markup in it. -/
theorem Node.plainText_ofTokens_task :
    let tokens : List Token := [
      .opening { kind := "bullet_list_open" }, .opening { kind := "list_item_open" },
      .opening { kind := "paragraph_open" },
      .single { kind := "inline" } [
        .single { kind := "text", content := "[x] \ta" } [], .single { kind := "softbreak" } [],
        .opening { kind := "em_open" }, .single { kind := "text" } [],
        .single { kind := "code_inline", content := "b" } [], .closing,
        .single { kind := "image", content := "c" } [.single { kind := "text", content := "c" } []],
        .single { kind := "html_inline", content := "<br>" } []],
      .closing, .single { kind := "fence", content := "d\n\n" } [], .closing, .closing]
    ∃ elements root, Element.ofTokens? tokens = some elements ∧ ofTokens? tokens = .ok root ∧
      Element.textWithoutAll? (fun _ => []) elements = some "[x] \ta b<br>d\n".toList ∧
      Element.textWithoutAll? Element.frontMarker elements = some "a b<br>d\n".toList ∧
      root.plainText = "a b<br>d\n" ∧ ∀ l ∈ root.leaves, l.node ≠ .text "" := by
  intro tokens
  have hlist : elementKind "bullet_list_open" = "bullet_list" := by decide +kernel
  have hitem : elementKind "list_item_open" = "list_item" := by decide +kernel
  have hparagraph : elementKind "paragraph_open" = "paragraph" := by decide +kernel
  have hem : elementKind "em_open" = "em" := by decide +kernel
  have hknown : Token.allKnown tokens = true := by decide +kernel
  let root : Node := .root [.list false none [.item (some true) [
    .paragraph [.text "a", .text " ", .styled .italic [.inlineCode "b"], .image "" (some "c") "",
      .literal "html_inline" "<br>"],
    .code "d\n" none]]]
  have hroot : ofTokens? tokens = .ok root := by
    rw [ofTokens?]
    simp [tokens, Element.ofTokens?, Element.readFrom?, hlist, hitem, hparagraph, hem]
    rfl
  have htext : Token.textAll tokens = "[x] \ta b<br>d\n".toList := by decide +kernel
  have hplain : root.plainText = "a b<br>d\n" := by decide +kernel
  obtain ⟨elements, helements, hall, hleft, hne⟩ := plainText_ofTokens hknown hroot
  rw [htext] at hall
  rw [hplain] at hleft
  exact ⟨elements, root, helements, hroot, hall, hleft, hplain, hne⟩

end MarkdownWord
