import MarkdownWord.Proofs.Results
import MarkdownWord.Word.Package

/-!
# What a rendered document holds

The steps of building a document file are followed. What holds of the file before its first block,
and is kept by each block that is added, holds of the rendered file (`Document.rendered_of_step`).
With the standard list schemes, whatever is known of the elements of each block is known of the
parts of the body (`Document.rendered_of_markup`).
-/

namespace MarkdownWord.Word

/-- The list part of a document file with the standard schemes. -/
def ListPart.standard : ListPart :=
  (initial.add ListScheme.bullets.levels).add ListScheme.numbers.levels

/-- The numbers of the standard schemes. -/
def ListNumbers.standard : ListNumbers :=
  [(ListScheme.bulletReference, 10), (ListScheme.numberReference, 11)]

theorem run_registerFrom_cons {s : ListScheme} (h : s.isLegal = true) (schemes : List ListScheme)
    (numbers : ListNumbers) (part : ListPart) :
    (registerFrom numbers (s :: schemes)).run.run part =
      (registerFrom (numbers.insert s.reference part.nextInstance) schemes).run.run
        (part.add s.levels) := by
  rw [registerFrom, h]
  rfl

theorem register_standard : (register ListScheme.standard).run.run .initial =
    (.ok .standard, .standard) := by
  have hbullets : ListScheme.bullets.isLegal = true := by decide
  have hnumbers : ListScheme.numbers.isLegal = true := by decide
  rw [register, ListScheme.standard, run_registerFrom_cons hbullets,
    run_registerFrom_cons hnumbers]
  rfl

namespace Package

/-- The styles of a document file. -/
def styles (p : Package) : List StyleEntry :=
  styleEntries ++ if p.withLinks then [linkStyleEntry] else []

/-- A document file into which nothing but a title and styles has been entered. -/
structure Fresh (title : Option String) (p : Package) : Prop where
  title : p.title = (given? title).getD ""
  lists : p.lists = .initial
  targets : p.targets = []
  body : p.body = []

theorem setTitle_fresh (title : Option String) :
    Leaves (setTitle title) {} fun _ => Fresh title := by
  unfold setTitle
  cases hgiven : given? title with
  | none => exact Leaves.pure ⟨by rw [hgiven]; rfl, rfl, rfl, rfl⟩
  | some t =>
    dsimp only
    split
    · exact Leaves.throw _
    · split
      · exact Leaves.modify ⟨by rw [hgiven]; rfl, rfl, rfl, rfl⟩
      · exact Leaves.bind_any fun _ _ => Leaves.throw _

variable {title : Option String} {p : Package}

theorem setStyles_fresh (h : p.Fresh title) (size : Option Number) :
    Leaves (setStyles size) p fun _ p => p.Fresh title ∧ p.withLinks = true := by
  have hlinks (p : Package) (h : p.Fresh title) :
      Leaves (modify ({ · with withLinks := true }) : Packing PUnit) p
        fun _ p => p.Fresh title ∧ p.withLinks = true :=
    Leaves.modify ⟨⟨h.title, h.lists, h.targets, h.body⟩, rfl⟩
  unfold setStyles
  cases size.filter (!·.isZero) with
  | none => exact hlinks p h
  | some n =>
    have hsize : Leaves (liftM (sizeText n) : Packing String) p fun _ => Fresh title :=
      Leaves.lift fun _ _ => h
    have hset (text : String) (p : Package) (h : p.Fresh title) :
        Leaves (modify ({ · with normalSize := some text }) : Packing PUnit) p fun _ =>
          Fresh title :=
      Leaves.modify ⟨h.title, h.lists, h.targets, h.body⟩
    exact hsize.bind fun text p h => (hset text p h).bind fun _ p h => hlinks p h

/-- A document file that is ready for the first block of a document. -/
structure Prepared (d : Document) (numbers : ListNumbers) (p : Package) : Prop where
  title : p.title = (given? d.title).getD ""
  withLinks : p.withLinks = true
  lists : (register d.schemes).run.run .initial = (.ok numbers, p.lists)
  targets : p.targets = []
  body : p.body = []

theorem registerLists_prepared {d : Document} (h : p.Fresh d.title ∧ p.withLinks = true) :
    Leaves (registerLists d.schemes) p (Prepared d) := by
  have hrun : (registerLists d.schemes).run.run p =
      (((register d.schemes).run.run p.lists).1,
        { p with lists := ((register d.schemes).run.run p.lists).2 }) := rfl
  obtain ⟨hfresh, hlinks⟩ := h
  rw [hfresh.lists] at hrun
  intro numbers hnumbers
  rw [hrun] at hnumbers ⊢
  exact ⟨hfresh.title, hlinks, Prod.ext hnumbers rfl, hfresh.targets, hfresh.body⟩

/-- The elements of a block are made in a state of their own, the targets of links, which the file
takes over. -/
theorem run_addBlock (numbers : ListNumbers) (b : Block) (p : Package) {after}
    (h : (b.markup ⟨numbers, p.withLinks⟩).run.run p.targets = after) :
    (addBlock numbers b).run.run p =
      (liftM after.1 >>= fun xs => modify fun p => { p with body := p.body ++ xs } :
        Packing PUnit).run.run { p with targets := after.2 } := by
  rw [← h]
  rfl

theorem addBlock_leaves {numbers : ListNumbers} {b : Block} {post : Package → Prop}
    (h : Leaves (b.markup ⟨numbers, p.withLinks⟩) p.targets fun xs t =>
      post { p with targets := t, body := p.body ++ xs }) :
    Leaves (addBlock numbers b) p fun _ => post := by
  let after := (b.markup ⟨numbers, p.withLinks⟩).run.run p.targets
  have helements : Leaves (liftM after.1 : Packing (List Xml)) { p with targets := after.2 }
      fun xs q => post { q with body := q.body ++ xs } := Leaves.lift h
  unfold Leaves
  rw [run_addBlock numbers b p rfl]
  exact helements.bind fun xs q hxs => Leaves.modify hxs

end Package

/-- What holds of a file that is ready for the first block, and is kept by each block that is added,
holds of the rendered file. -/
theorem Document.rendered_of_step {d : Document} (inv : ListNumbers → List Block → Package → Prop)
    (hstart : ∀ numbers p, p.Prepared d numbers → inv numbers [] p)
    (hstep : ∀ b ∈ d.blocks, ∀ numbers done p, inv numbers done p →
      Leaves (Package.addBlock numbers b) p fun _ => inv numbers (done ++ [b])) :
    Yields d.render fun out =>
      ∃ numbers, inv numbers d.blocks out.1 ∧ out.2 = d.blocks.flatMap (Block.warnings numbers) := by
  have hbuild : Leaves d.build {} fun numbers => inv numbers d.blocks := by
    unfold build
    refine (Package.setTitle_fresh d.title).bind fun _ p hp => ?_
    refine (Package.setStyles_fresh hp d.fontSize).bind fun _ p hp => ?_
    refine (Package.registerLists_prepared hp).bind fun numbers p hp => ?_
    have hblocks := Leaves.forM (inv numbers) (fun b hb => hstep b hb numbers)
      (hstart numbers p hp)
    exact hblocks.bind fun _ p hp => Leaves.pure (by simpa using hp)
  change Yields ((d.build.run.run {}).1 >>= fun numbers =>
    pure ((d.build.run.run {}).2, d.blocks.flatMap (Block.warnings numbers))) _
  exact Yields.bind hbuild fun numbers h => Yields.pure ⟨numbers, h, rfl⟩

/-- What is known of the elements of each block, whatever the numbers of the list schemes, is known
of the parts of the body. -/
theorem Document.body_of_markup {d : Document} {post : Block → List Xml → Prop}
    (h : ∀ numbers, ∀ b ∈ d.blocks, ∀ t,
      Leaves (b.markup ⟨numbers, true⟩) t fun xs _ => post b xs) :
    Yields d.render fun out =>
      ∃ parts, List.Forall₂ post d.blocks parts ∧ out.1.body = parts.flatten := by
  have hrendered := Document.rendered_of_step (d := d)
    (fun _ bs p => p.withLinks = true ∧
      ∃ parts, List.Forall₂ post bs parts ∧ p.body = parts.flatten)
    (fun numbers p hp => ⟨hp.withLinks, [], .nil, hp.body⟩) fun b hb numbers done p hp => ?_
  · rintro out hout
    obtain ⟨numbers, ⟨-, hbody⟩, -⟩ := hrendered out hout
    exact hbody
  · obtain ⟨hlinks, parts, hparts, hbody⟩ := hp
    have hmarkup := h numbers b hb p.targets
    rw [← hlinks] at hmarkup
    refine Package.addBlock_leaves (hmarkup.mono fun xs t hxs => ⟨hlinks, parts ++ [xs], ?_, ?_⟩)
    · exact List.rel_append hparts (.cons hxs .nil)
    · simp [hbody]

/-! ## Documents with the standard list schemes -/

/-- The body of a document file has a part for each of some blocks, and the rest is as for every
document with the standard list schemes. -/
structure Package.Holds (post : Block → List Xml → Prop) (bs : List Block) (p : Package) :
    Prop where
  withLinks : p.withLinks = true
  lists : p.lists = .standard
  body : ∃ parts, List.Forall₂ post bs parts ∧ p.body = parts.flatten

namespace Package

variable {post : Block → List Xml → Prop} {p : Package}

theorem Prepared.standard {d : Document} {numbers : ListNumbers} (h : p.Prepared d numbers)
    (hschemes : d.schemes = ListScheme.standard) : numbers = .standard ∧ p.lists = .standard := by
  have hregister := h.lists
  rw [hschemes, register_standard] at hregister
  obtain ⟨hnumbers, hlists⟩ := Prod.mk.inj hregister
  exact ⟨(Except.ok.inj hnumbers).symm, hlists.symm⟩

theorem Holds.append {b : Block} {bs : List Block} {xs : List Xml} (hp : p.Holds post bs)
    (hxs : post b xs) (t : Targets) :
    Holds post (bs ++ [b]) { p with targets := t, body := p.body ++ xs } := by
  obtain ⟨parts, hparts, hbody⟩ := hp.body
  refine ⟨hp.withLinks, hp.lists, parts ++ [xs], List.rel_append hparts (.cons hxs .nil), ?_⟩
  simp [hbody]

end Package

/-- What is known of the elements of each block of a document is known of the parts of the body of
its file. The other contents of the file do not depend on the document. -/
theorem Document.rendered_of_markup {d : Document} {post : Block → List Xml → Prop}
    (hschemes : d.schemes = ListScheme.standard)
    (h : ∀ b ∈ d.blocks, ∀ t, Leaves (b.markup ⟨.standard, true⟩) t fun xs _ => post b xs) :
    Yields d.render fun out =>
      out.1.Holds post d.blocks ∧ out.2 = d.blocks.flatMap (Block.warnings .standard) := by
  have hrendered : Yields d.render fun out => ∃ numbers,
      (numbers = .standard ∧ out.1.Holds post d.blocks) ∧
        out.2 = d.blocks.flatMap (Block.warnings numbers) := by
    refine Document.rendered_of_step (fun numbers bs p => numbers = .standard ∧ p.Holds post bs)
      (fun numbers p hp => ?_) fun b hb numbers done p hp => ?_
    · obtain ⟨hnumbers, hlists⟩ := hp.standard hschemes
      exact ⟨hnumbers, hp.withLinks, hlists, [], .nil, hp.body⟩
    · obtain ⟨rfl, hp⟩ := hp
      have hmarkup := h b hb p.targets
      rw [← hp.withLinks] at hmarkup
      exact Package.addBlock_leaves (hmarkup.mono fun xs t hxs => ⟨rfl, hp.append hxs t⟩)
  rintro out hout
  obtain ⟨numbers, ⟨rfl, hholds⟩, hwarnings⟩ := hrendered out hout
  exact ⟨hholds, hwarnings⟩

end MarkdownWord.Word
