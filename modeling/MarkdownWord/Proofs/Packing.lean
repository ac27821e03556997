import MarkdownWord.Proofs.ComposedLayout
import MarkdownWord.Word.Package

/-!
# When a document is packed

Writing a document made of nodes goes wrong for three reasons only: the title, the level of a
heading and the characters of a run. Nothing else that writing does can go wrong on the blocks that
nodes are made into; packing adds the addresses of the links.
-/

namespace MarkdownWord
open Word

namespace Word
namespace Package

theorem setTitle_ends (title : Option String) (package : Package) :
    Ends (setTitle title) package
      (∀ t ∈ given? title, t.length ≤ maxTitleLength ∧ isXmlText t = true)
      (fun p => p.targets = package.targets) := by
  unfold setTitle
  cases given? title with
  | none =>
    refine Ends.congr (Ends.pure () ?_) ?_
    · rfl
    · simp
  | some t =>
    dsimp only
    by_cases hlong : maxTitleLength < t.length
    · rw [if_pos hlong]
      exact (Ends.throw _).congr (by simp [Nat.not_le.mpr hlong])
    · rw [if_neg hlong]
      by_cases hlegal : isXmlText t = true
      · rw [if_pos hlegal]
        refine Ends.congr (Ends.modify _ ?_) ?_
        · rfl
        · simp [hlegal, Nat.le_of_not_lt hlong]
      · rw [if_neg hlegal]
        have hclear : Ends (modify ({ · with title := "" }) : Packing PUnit) package True
            (fun p => p.targets = package.targets) := Ends.modify _ rfl
        exact (hclear.bind fun _ _ _ => Ends.throw _).congr (by simp [hlegal])

theorem setStyles_ends {size : Option Number} (hsize : ∀ n ∈ size, n.isBetween 8 20 = true)
    (package : Package) :
    Ends (setStyles size) package True
      (fun p => p.withLinks = true ∧ p.targets = package.targets) := by
  have hlinks (p : Package) (hp : p.targets = package.targets) :
      Ends (modify ({ · with withLinks := true }) : Packing PUnit) p True
        (fun p => p.withLinks = true ∧ p.targets = package.targets) := Ends.modify _ ⟨rfl, hp⟩
  unfold setStyles
  cases hgiven : size.filter (!·.isZero) with
  | none => exact hlinks package rfl
  | some n =>
    have hn : Succeeds (sizeText n) :=
      sizeText_succeeds (hsize n (Option.mem_filter_iff.mp hgiven).1)
    have hwrite : Ends (liftM (sizeText n) : Packing String) package (Succeeds (sizeText n))
        (fun p => p.targets = package.targets) := Ends.lift _ fun _ => rfl
    refine Ends.congr (hwrite.bind fun text p hp => Ends.bind (Ends.modify _ ?_) fun _ => hlinks) ?_
    · exact hp
    · simp [hn]

theorem registerFrom_ends (schemes : List ListScheme) (numbers : ListNumbers) (part : ListPart) :
    Ends (registerFrom numbers schemes) part (∀ s ∈ schemes, s.isLegal = true) fun _ => True := by
  induction schemes generalizing numbers part with
  | nil => exact Ends.congr (Ends.pure numbers trivial) (by simp)
  | cons s schemes ih =>
    cases hlegal : s.isLegal with
    | false =>
      rw [registerFrom, hlegal]
      exact (Ends.throw _).congr (by simp [hlegal])
    | true =>
      have hrun : (registerFrom numbers (s :: schemes)).run.run part =
          (registerFrom (numbers.insert s.reference part.nextInstance) schemes).run.run
            (part.add s.levels) := by
        rw [registerFrom, hlegal]
        rfl
      exact ((ih _ _).of_run_eq hrun).congr (by simp [hlegal])

theorem registerLists_ends (package : Package) :
    Ends (registerLists ListScheme.standard) package True
      (fun p => p.withLinks = package.withLinks ∧ p.targets = package.targets) := by
  have hrun (schemes : List ListScheme) : (registerLists schemes).run.run package =
      (((register schemes).run.run package.lists).1,
        { package with lists := ((register schemes).run.run package.lists).2 }) := rfl
  have hlegal : ∀ s ∈ ListScheme.standard, s.isLegal = true := by decide
  refine ⟨?_, fun _ => ?_⟩
  · rw [hrun]
    exact (registerFrom_ends _ _ _).succeeds_iff.trans (iff_of_true hlegal trivial)
  · rw [hrun]
    exact ⟨rfl, rfl⟩

/-- A package that has the style for links, and the targets of another one and some more. -/
def Met (start : Package) (urls : List String) (p : Package) : Prop :=
  p.withLinks = true ∧ Targets.Joined start.targets urls p.targets

theorem addBlock_ends {b : Block} (h : b.Writable) (numbers : ListNumbers) {package : Package}
    (hlinks : package.withLinks = true) :
    Ends (addBlock numbers b) package
      ((∀ n ∈ b.level?, 0 ≤ n ∧ n ≤ 9) ∧ ∀ r ∈ b.runs, r.isLegal) (package.Met b.targets) := by
  have hmarkup := h.markup_collects numbers package.targets
  rw [← hlinks] at hmarkup
  obtain ⟨hsucceeds, hstate⟩ := hmarkup
  let after := (b.markup ⟨numbers, package.withLinks⟩).run.run package.targets
  let grow (elements : List Xml) (p : Package) : Package := { p with body := p.body ++ elements }
  have hrun : (addBlock numbers b).run.run package =
      (liftM after.1 >>= fun elements => modify (grow elements) : Packing PUnit).run.run
        { package with targets := after.2 } := rfl
  have hlift : Ends (liftM after.1 : Packing (List Xml)) { package with targets := after.2 }
      (Succeeds after.1) (package.Met b.targets) :=
    Ends.lift _ fun hok => ⟨hlinks, hstate (hsucceeds.mp hok)⟩
  have hgrow (elements : List Xml) (p : Package) (hp : package.Met b.targets p) :
      Ends (modify (grow elements) : Packing PUnit) p True (package.Met b.targets) :=
    Ends.modify (grow elements) hp
  exact ((hlift.bind hgrow).of_run_eq hrun).congr (by simpa using hsucceeds)

theorem addBlocks_ends {bs : List Block} (h : ∀ b ∈ bs, b.Writable) (numbers : ListNumbers)
    {package : Package} (hlinks : package.withLinks = true) :
    Ends (bs.forM (addBlock numbers)) package
      (∀ b ∈ bs, (∀ n ∈ b.level?, 0 ≤ n ∧ n ≤ 9) ∧ ∀ r ∈ b.runs, r.isLegal)
      (package.Met (bs.flatMap Block.targets)) := by
  have hstart : package.Met ([].flatMap Block.targets) package := ⟨hlinks, fun url => by simp⟩
  refine Ends.forM (fun done => package.Met (done.flatMap Block.targets)) ?_ hstart
  intro b hb before p hp
  refine (addBlock_ends (h b hb) numbers hp.1).mono fun p' hp' => ⟨hp'.1, fun url => ?_⟩
  rw [hp'.2 url, hp.2 url, List.flatMap_append, List.mem_append, or_assoc]
  simp

end Package

theorem Document.build_ends {d : Document} (hschemes : d.schemes = ListScheme.standard)
    (hblocks : ∀ b ∈ d.blocks, b.Writable) (hsize : ∀ n ∈ d.fontSize, n.isBetween 8 20 = true) :
    Ends d.build {}
      ((∀ t ∈ given? d.title, t.length ≤ Package.maxTitleLength ∧ isXmlText t = true) ∧
        ∀ b ∈ d.blocks, (∀ n ∈ b.level?, 0 ≤ n ∧ n ≤ 9) ∧ ∀ r ∈ b.runs, r.isLegal)
      (Package.Met {} (d.blocks.flatMap Block.targets)) := by
  unfold Document.build
  rw [hschemes]
  refine (Package.setTitle_ends d.title {}).bind fun _ p hp => ?_
  refine (Package.setStyles_ends hsize p).bind_of_true fun _ q hq => ?_
  refine (Package.registerLists_ends q).bind_of_true fun numbers r hr => ?_
  have htargets : r.targets = [] := (hr.2.trans hq.2).trans hp
  refine (Package.addBlocks_ends hblocks numbers (hr.1.trans hq.1)).bind_true fun _ t ht => ?_
  refine Ends.pure numbers ⟨ht.1, fun url => ?_⟩
  rw [ht.2 url, htargets]

private theorem Document.render_eq (d : Document) :
    d.render = (d.build.run.run {}).1 >>= fun numbers =>
      pure ((d.build.run.run {}).2, d.blocks.flatMap (Block.warnings numbers)) := rfl

theorem Document.render_succeeds (d : Document) :
    Succeeds d.render ↔ Succeeds (d.build.run.run {}).1 := by
  rw [d.render_eq, Succeeds.bind_iff fun numbers _ => iff_of_true (Succeeds.pure _) trivial]
  simp

theorem Package.checkTargets_succeeds (p : Package) :
    Succeeds p.checkTargets ↔ ∀ url ∈ p.targets, isXmlText url = true := by
  unfold checkTargets
  cases hfind : p.targets.find? (!isXmlText ·) with
  | none =>
    refine iff_of_true (Succeeds.pure p) fun url hurl => ?_
    simpa using List.find?_eq_none.mp hfind url hurl
  | some url =>
    refine iff_of_false (Succeeds.not_error _) fun hall => ?_
    have hurl := hall url (List.mem_of_find?_eq_some hfind)
    have hillegal := List.find?_some hfind
    simp [hurl] at hillegal

theorem Document.pack_succeeds (d : Document) :
    Succeeds d.pack ↔ Succeeds d.render ∧
      ∀ url ∈ (d.build.run.run {}).2.targets, isXmlText url = true := by
  unfold pack
  refine Succeeds.bind_iff fun result hresult => ?_
  have hpackage : result.1 = (d.build.run.run {}).2 := by
    rw [d.render_eq] at hresult
    cases hbuild : (d.build.run.run {}).1 with
    | error e => rw [hbuild] at hresult; cases hresult
    | ok numbers => rw [hbuild] at hresult; cases hresult; rfl
  rw [Package.checkTargets_succeeds, hpackage]

end Word

/-- What some nodes must be like for a document file to hold them. -/
structure Node.Writable (o : Overflow) (nodes : List Node) : Prop where
  title : ∀ t ∈ title? nodes, t.length ≤ 255 ∧ isXmlText t = true
  headings : ∀ depth cs, .heading depth cs ∈ reached nodes → 0 ≤ depth ∧ depth ≤ 9
  runs : ∀ b ∈ blocksAll o 0 nodes, ∀ r ∈ b.runs, ∀ v ∈ r.text?, isXmlText v = true

theorem Node.given?_title? (nodes : List Node) : given? (title? nodes) = title? nodes := by
  unfold given? title?
  rw [Option.filter_filter]
  simp

private theorem Node.writable_iff (o : Overflow) (nodes : List Node) :
    Node.Writable o nodes ↔
      (∀ t ∈ title? nodes, t.length ≤ Package.maxTitleLength ∧ isXmlText t = true) ∧
        ∀ b ∈ blocksAll o 0 nodes, (∀ n ∈ b.level?, 0 ≤ n ∧ n ≤ 9) ∧ ∀ r ∈ b.runs, r.isLegal := by
  constructor
  · intro h
    refine ⟨h.title, fun b hb => ⟨fun n hn => ?_, h.runs b hb⟩⟩
    obtain ⟨cs, hcs⟩ := level?_blocksAll.mp ⟨b, hb, hn⟩
    exact h.headings n cs hcs
  · rintro ⟨htitle, hblocks⟩
    refine ⟨htitle, fun depth cs hcs => ?_, fun b hb => (hblocks b hb).2⟩
    obtain ⟨b, hb, hlevel⟩ : ∃ b ∈ blocksAll o 0 nodes, b.level? = some depth :=
      level?_blocksAll.mpr ⟨cs, hcs⟩
    exact (hblocks b hb).1 depth hlevel

instance (o : Overflow) (nodes : List Node) : Decidable (Node.Writable o nodes) :=
  decidable_of_iff' _ (Node.writable_iff o nodes)

namespace Word
variable {nodes : List Node} {o : Overflow} {size : Option Number}

theorem Document.build_ofNodes_ends (hsize : ∀ n ∈ size, n.isBetween 8 20 = true) :
    Ends (ofNodes nodes size o).build {} (Node.Writable o nodes)
      (Package.Met {} ((Node.blocksAll o 0 nodes).flatMap Block.targets)) := by
  refine (Document.build_ends rfl (fun b hb => Node.writable_blocksAll hb) hsize).congr ?_
  rw [Node.writable_iff, ← Node.given?_title?]
  rfl

theorem Document.render_ofNodes_iff (hsize : ∀ n ∈ size, n.isBetween 8 20 = true) :
    Succeeds (ofNodes nodes size o).render ↔ Node.Writable o nodes :=
  (Document.render_succeeds _).trans (build_ofNodes_ends hsize).succeeds_iff

theorem Document.exists_render_ofNodes (h : Node.Writable o nodes) :
    ∃ p ws, (ofNodes nodes none o).render = .ok (p, ws) := by
  have hsize : ∀ n ∈ (none : Option Number), n.isBetween 8 20 = true := fun n hn => nomatch hn
  obtain ⟨⟨p, ws⟩, hrender⟩ := (render_ofNodes_iff hsize).mpr h
  exact ⟨p, ws, hrender⟩

theorem Document.pack_ofNodes_iff (hsize : ∀ n ∈ size, n.isBetween 8 20 = true) :
    Succeeds (ofNodes nodes size o).pack ↔ Node.Writable o nodes ∧
      ∀ b ∈ Node.blocksAll o 0 nodes, ∀ url ∈ b.targets, isXmlText url = true := by
  rw [Document.pack_succeeds, render_ofNodes_iff hsize]
  refine and_congr_right fun hwritable => ?_
  have htargets (url : String) : url ∈ ((ofNodes nodes size o).build.run.run {}).2.targets ↔
      ∃ b ∈ Node.blocksAll o 0 nodes, url ∈ b.targets := by
    rw [((build_ofNodes_ends hsize).state hwritable).2 url, List.mem_flatMap]
    exact or_iff_right List.not_mem_nil
  constructor
  · intro h b hb url hurl
    exact h url ((htargets url).mpr ⟨b, hb, hurl⟩)
  · intro h url hurl
    obtain ⟨b, hb, hmem⟩ := (htargets url).mp hurl
    exact h b hb url hmem

end Word

/-- A document made of some nodes is rendered exactly when a document file can hold them, and it is
packed exactly when XML can hold the addresses of its links besides. -/
theorem Word.Document.ofNodes_succeeds_iff (nodes : List Node) (o : Overflow)
    {size : Option Number} (hsize : ∀ n ∈ size, n.isBetween 8 20 = true) :
    ((∃ out, (Document.ofNodes nodes size o).render = .ok out) ↔ Node.Writable o nodes) ∧
    ((∃ package, (Document.ofNodes nodes size o).pack = .ok package) ↔
      Node.Writable o nodes ∧
        ∀ b ∈ Node.blocksAll o 0 nodes, ∀ url ∈ b.targets, isXmlText url = true) :=
  ⟨Document.render_ofNodes_iff hsize, Document.pack_ofNodes_iff hsize⟩

theorem Word.Document.ofNodes_succeeds_quoted :
    let size : Option Number := some (.int 12)
    let nodes : List Node :=
      [.heading 1 [.text "a"], .quote [.heading 0 [.link "u" .null [.text "b"]]]]
    (∀ n ∈ size, n.isBetween 8 20 = true) ∧
    (∃ package, (Document.ofNodes nodes size .clamp).pack = .ok package) ∧
    ¬ ∃ out, (Document.ofNodes [.parent "" [.heading 10 []]] size .clamp).render = .ok out := by
  refine ⟨by decide, ?_, ?_⟩
  · refine (Document.ofNodes_succeeds_iff _ _ (by decide)).2.mpr ⟨⟨?_, ?_, ?_⟩, ?_⟩
    · decide
    · intro depth cs h
      simp [Node.reached, Node.beneath] at h
      omega
    · decide
    · decide
  · intro h
    have hwritable := (Document.ofNodes_succeeds_iff _ _ (by decide)).1.mp h
    have hdepth := hwritable.headings 10 [] (by simp [Node.reached, Node.beneath])
    omega

end MarkdownWord
