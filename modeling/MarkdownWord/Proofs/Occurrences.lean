import Mathlib.Data.List.Forall2
import Mathlib.Data.List.Infix
import MarkdownWord.Proofs.Sites

/-!
# Where nodes occur

The level of a list can be read off the containers around it: it counts the lists that are held by
an item of a list, up to the nearest quote. Composing does not look back at the containers. It
carries a setting along, and the two agree for every node that is reached (`Node.fits_sitesOf`).
-/

namespace MarkdownWord
open Word

namespace Node

def isQuote : Node → Bool
  | .quote _ => true
  | _ => false

def isList : Node → Bool
  | .list _ _ _ => true
  | _ => false

end Node

/-- The containers around a node, the nearest one first. -/
abbrev Ancestors := List Node

namespace Ancestors

/-- Whether a node with these containers stands in an item of a list, and is that list numbered. -/
def listKind? : Ancestors → Option Bool
  | .item _ _ :: .list ordered _ _ :: _ => some ordered
  | _ => none

/-- Whether the nearest container is a list that is held by an item of a list. -/
def startsNested : Ancestors → Bool
  | .list _ _ _ :: outer => (listKind? outer).isSome
  | _ => false

/-- The containers below the nearest quote. -/
def belowQuote (as : Ancestors) : Ancestors := as.takeWhile (!·.isQuote)

/-- How many lists below the nearest quote are held by an item of a list. -/
def nesting (as : Ancestors) : Nat := (as.belowQuote.tails).countP startsNested

/-- How many lists there are below the nearest quote. -/
def lists (as : Ancestors) : Nat := as.belowQuote.countP Node.isList

/-- The depth that is counted from: it starts afresh in a quote. -/
def base (start : Int) (as : Ancestors) : Int := if as.any Node.isQuote then 0 else start

/-- Below the nearest quote lists are nested through items only. -/
def Linked (as : Ancestors) : Prop :=
  ∀ n outer, n :: outer <:+ as.belowQuote → n.isList → outer.any Node.isList →
    startsNested (n :: outer)

theorem nesting_quote (cs : List Node) (as : Ancestors) : nesting (.quote cs :: as) = 0 := by
  simp [nesting, belowQuote, Node.isQuote, startsNested]

theorem nesting_cons {n : Node} (as : Ancestors) (hquote : n.isQuote = false)
    (hlist : n.isList = false) : nesting (n :: as) = as.nesting := by
  have hstarts (outer : Ancestors) : startsNested (n :: outer) = false := by
    unfold startsNested
    split <;> simp_all [Node.isList]
  simp [nesting, belowQuote, hquote, hstarts]

/-- A container that is not a quote is seen below the nearest quote as well. -/
theorem listKind?_belowQuote (as : Ancestors) : as.belowQuote.listKind? = as.listKind? := by
  cases as with
  | nil => rfl
  | cons n as =>
    cases as with
    | nil => cases n <;> rfl
    | cons m as => cases n <;> first | rfl | cases m <;> rfl

theorem nesting_list (ordered : Bool) (start : Option Int) (cs : List Node) (as : Ancestors) :
    nesting (.list ordered start cs :: as) =
      as.nesting + if as.listKind?.isSome then 1 else 0 := by
  have hstarts : startsNested (.list ordered start cs :: as.belowQuote) = as.listKind?.isSome := by
    rw [startsNested, listKind?_belowQuote]
  have hscope : belowQuote (.list ordered start cs :: as) =
      .list ordered start cs :: as.belowQuote := by
    simp [belowQuote, Node.isQuote]
  rw [nesting, hscope, List.tails, List.countP_cons, hstarts, nesting]

theorem any_isList_of_listKind? {as : Ancestors} (h : as.listKind?.isSome) :
    as.any Node.isList = true := by
  unfold listKind? at h
  split at h
  · simp [Node.isList]
  · cases h

theorem tails_countP_of_not_any {as : Ancestors} (h : as.any Node.isList = false) :
    as.tails.countP startsNested = 0 := by
  refine List.countP_eq_zero.mpr fun inner hinner hstarts => ?_
  have hlist : inner.any Node.isList = true := by
    unfold startsNested at hstarts
    split at hstarts
    · simp [Node.isList]
    · cases hstarts
  obtain ⟨n, hn, hkind⟩ := List.any_eq_true.mp hlist
  have hmem : n ∈ as := ((List.mem_tails _ _).mp hinner).subset hn
  have hany : as.any Node.isList = true := List.any_eq_true.mpr ⟨n, hmem, hkind⟩
  rw [h] at hany
  cases hany

/-- When lists are nested through items only, all of them but the outermost are counted. -/
theorem nesting_add_one {as : Ancestors} (hlinked : as.Linked) (hlist : as.belowQuote.any Node.isList) :
    as.nesting + 1 = as.lists := by
  unfold Linked at hlinked
  unfold nesting lists
  -- Both counts look only below the quote, and being linked passes on to what is further out there.
  generalize as.belowQuote = scope at hlinked hlist
  induction scope with
  | nil => simp at hlist
  | cons n outer ih =>
    have houter : ∀ m rest, m :: rest <:+ outer → m.isList → rest.any Node.isList →
        startsNested (m :: rest) :=
      fun m rest hsuffix => hlinked m rest (hsuffix.trans (List.suffix_cons n outer))
    rw [List.tails, List.countP_cons, List.countP_cons]
    cases hn : n.isList with
    | false =>
      have hstarts : startsNested (n :: outer) = false := by
        unfold startsNested
        split <;> simp_all [Node.isList]
      have hrest : outer.any Node.isList = true := by simpa [hn] using hlist
      have hcount := ih houter hrest
      simp [hstarts, hcount]
    | true =>
      cases hrest : outer.any Node.isList with
      | true =>
        have hstarts := hlinked n outer List.suffix_rfl hn hrest
        have hcount := ih houter hrest
        simp [hstarts, hcount]
      | false =>
        have hstarts : startsNested (n :: outer) = false := by
          rw [← Bool.not_eq_true]
          intro hstarts
          unfold startsNested at hstarts
          split at hstarts
          · next hnode =>
            cases hnode
            rw [any_isList_of_listKind? hstarts] at hrest
            cases hrest
          · cases hstarts
        have hnone : outer.countP Node.isList = 0 := by
          refine List.countP_eq_zero.mpr fun m hm hkind => ?_
          rw [List.any_eq_true.mpr ⟨m, hm, hkind⟩] at hrest
          cases hrest
        simp [hstarts, hnone, tails_countP_of_not_any hrest]

/-- What holds a node with these containers, when some mark is still to be set. -/
def holder (mark : Option String) : Ancestors → Holder
  | .item _ _ :: .list ordered _ _ :: _ => .item (ListScheme.referenceFor ordered) mark
  | .list ordered _ _ :: _ => .list (ListScheme.referenceFor ordered)
  | _ => .plain

/-- The nearest containers are an item in a list, a list, or none of these. -/
theorem shapes (as : Ancestors) :
    (∃ checked cs ordered first items outer,
      as = .item checked cs :: .list ordered first items :: outer) ∨
    (∃ ordered first items outer, as = .list ordered first items :: outer) ∨
    as.listKind? = none ∧ (∀ mark, as.holder mark = .plain) ∧
      ∀ mark checked cs, holder mark (.item checked cs :: as) = .plain := by
  cases as with
  | nil => exact .inr (.inr ⟨rfl, fun _ => rfl, fun _ _ _ => rfl⟩)
  | cons n outer =>
    cases n with
    | list ordered first items => exact .inr (.inl ⟨ordered, first, items, outer, rfl⟩)
    | item checked cs =>
      cases outer with
      | nil => exact .inr (.inr ⟨rfl, fun _ => rfl, fun _ _ _ => rfl⟩)
      | cons m outer =>
        cases m with
        | list ordered first items =>
          exact .inl ⟨checked, cs, ordered, first, items, outer, rfl⟩
        | _ => exact .inr (.inr ⟨rfl, fun _ => rfl, fun _ _ _ => rfl⟩)
    | _ => exact .inr (.inr ⟨rfl, fun _ => rfl, fun _ _ _ => rfl⟩)

theorem holder_of_listKind? {as : Ancestors} {ordered : Bool} (h : as.listKind? = some ordered)
    (mark : Option String) : as.holder mark = .item (ListScheme.referenceFor ordered) mark := by
  rcases as.shapes with ⟨_, _, _, _, _, _, rfl⟩ | ⟨_, _, _, _, rfl⟩ | ⟨hnone, -, -⟩
  · obtain rfl := Option.some.inj h
    rfl
  · cases h
  · rw [hnone] at h
    cases h

end Ancestors

/-- A node with the containers around it. -/
structure Occurrence where
  ancestors : Ancestors
  node : Node

/-- Of a paragraph that an item of a list holds, whether that list is numbered. -/
def Occurrence.listKind? (t : Occurrence) : Option Bool :=
  match t.node with
  | .paragraph _ => t.ancestors.listKind?
  | _ => none

theorem Occurrence.listKind?_eq_some {t : Occurrence} {ordered : Bool}
    (h : t.listKind? = some ordered) :
    ∃ cs, t.node = .paragraph cs ∧ t.ancestors.listKind? = some ordered := by
  unfold listKind? at h
  split at h
  · next cs hnode => exact ⟨cs, hnode, h⟩
  · cases h

mutual
/-- The nodes that are reached through open containers and are not open themselves, from a node with
some containers around it. -/
def Node.occurrences (as : Ancestors) : Node → List Occurrence
  | .root cs => occurrencesOf (.root cs :: as) cs
  | .quote cs => occurrencesOf (.quote cs :: as) cs
  | .list ordered start cs => occurrencesOf (.list ordered start cs :: as) cs
  | .item checked cs => occurrencesOf (.item checked cs :: as) cs
  | .row cs => occurrencesOf (.row cs :: as) cs
  | .cell cs => occurrencesOf (.cell cs :: as) cs
  | .styled style cs => occurrencesOf (.styled style cs :: as) cs
  | .link url title cs => occurrencesOf (.link url title cs :: as) cs
  | .parent name cs => occurrencesOf (.parent name cs :: as) cs
  | n => [⟨as, n⟩]

/-- The nodes that are reached through open containers and are not open themselves, in reading
order. -/
def Node.occurrencesOf (as : Ancestors) : List Node → List Occurrence
  | [] => []
  | n :: rest => n.occurrences as ++ occurrencesOf as rest
end

theorem Node.occurrencesOf_append (as : Ancestors) (ns ms : List Node) :
    occurrencesOf as (ns ++ ms) = occurrencesOf as ns ++ occurrencesOf as ms := by
  induction ns with
  | nil => simp [occurrencesOf]
  | cons n ns ih => simp [occurrencesOf, ih]

/-! ## Settings -/

/-- A setting is the one of a node with some containers around it, when depths are counted from a
starting one. -/
structure Setting.Fits (start : Int) (as : Ancestors) (s : Setting) : Prop where
  quoted : s.quoted = as.any Node.isQuote
  depth : s.depth = as.base start + as.nesting
  holder : ∃ mark, s.holder = as.holder mark

namespace Setting.Fits

variable {start : Int} {as : Ancestors} {s : Setting}

theorem initial (start : Int) : Fits start [] { depth := start } where
  quoted := rfl
  depth := by simp [Ancestors.base, Ancestors.nesting, Ancestors.belowQuote, Ancestors.startsNested]
  holder := ⟨none, rfl⟩

theorem after (h : s.Fits start as) : s.after.Fits start as where
  quoted := h.quoted
  depth := h.depth
  holder := by
    obtain ⟨mark, hholder⟩ := h.holder
    refine ⟨none, ?_⟩
    rw [Setting.after, hholder]
    rcases as.shapes with ⟨_, _, _, _, _, _, rfl⟩ | ⟨_, _, _, _, rfl⟩ | ⟨-, hplain, -⟩
    · rfl
    · rfl
    · simp [hplain]

theorem within (h : s.Fits start as) {n : Node} (hquote : n.isQuote = false)
    (hlist : n.isList = false) (hholder : ∀ mark, Ancestors.holder mark (n :: as) = .plain) :
    s.within.Fits start (n :: as) where
  quoted := by simp [Setting.within, h.quoted, hquote]
  depth := by
    rw [Ancestors.nesting_cons as hquote hlist]
    simp [Setting.within, h.depth, Ancestors.base, hquote]
  holder := ⟨none, (hholder none).symm⟩

theorem withinQuote (cs : List Node) : Fits start (.quote cs :: as) .withinQuote where
  quoted := by simp [Setting.withinQuote, Node.isQuote]
  depth := by simp [Setting.withinQuote, Ancestors.nesting_quote, Ancestors.base, Node.isQuote]
  holder := ⟨none, rfl⟩

theorem withinItem (h : s.Fits start as) (checked : Option Bool) (cs : List Node) :
    (s.withinItem checked).Fits start (.item checked cs :: as) where
  quoted := by simp [Setting.withinItem, h.quoted, Node.isQuote]
  depth := by
    rw [Ancestors.nesting_cons as rfl rfl]
    simp [Setting.withinItem, h.depth, Ancestors.base, Node.isQuote]
  holder := by
    obtain ⟨mark, hholder⟩ := h.holder
    refine ⟨checkbox checked, ?_⟩
    rw [Setting.withinItem, hholder]
    rcases as.shapes with ⟨_, _, _, _, _, _, rfl⟩ | ⟨_, _, _, _, rfl⟩ | ⟨-, hplain, hitem⟩
    · rfl
    · rfl
    · simp [hplain, hitem]

theorem withinList (h : s.Fits start as) (ordered : Bool) (first : Option Int) (cs : List Node) :
    (s.withinList ordered).Fits start (.list ordered first cs :: as) where
  quoted := by simp [Setting.withinList, h.quoted, Node.isQuote]
  depth := by
    obtain ⟨mark, hholder⟩ := h.holder
    have hdepth := h.depth
    rw [Ancestors.nesting_list]
    unfold Setting.withinList
    rw [hholder]
    rcases as.shapes with ⟨_, _, _, _, _, _, rfl⟩ | ⟨_, _, _, _, rfl⟩ | ⟨hkind, hplain, -⟩
    · simp [Ancestors.holder, Ancestors.listKind?, Ancestors.base, Node.isQuote] at hdepth ⊢
      omega
    · simp [Ancestors.holder, Ancestors.listKind?, Ancestors.base, Node.isQuote] at hdepth ⊢
      omega
    · simp [hplain, hkind, Ancestors.base, Node.isQuote] at hdepth ⊢
      omega
  holder := ⟨none, rfl⟩

end Setting.Fits

/-- A site is an occurrence in a setting that fits the containers around it. -/
structure Occurrence.IsAt (start : Int) (t : Occurrence) (site : Site) : Prop where
  node : site.node = t.node
  setting : site.setting.Fits start t.ancestors

namespace Node

mutual
private theorem fits_sites {start : Int} : ∀ (n : Node) {as : Ancestors} {s : Setting},
    s.Fits start as → List.Forall₂ (Occurrence.IsAt start) (n.occurrences as) (n.sites s)
  | .root cs, _, _, h | .row cs, _, _, h | .cell cs, _, _, h | .styled _ cs, _, _, h
  | .link _ _ cs, _, _, h | .parent _ cs, _, _, h => by
    rw [occurrences, sites]
    exact fits_sitesOf cs (h.within rfl rfl fun _ => rfl)
  | .quote cs, _, _, _ => by
    rw [occurrences, sites]
    exact fits_sitesOf cs (.withinQuote cs)
  | .list ordered first cs, _, _, h => by
    rw [occurrences, sites]
    exact fits_sitesOf cs (h.withinList ordered first cs)
  | .item checked cs, _, _, h => by
    rw [occurrences, sites]
    exact fits_sitesOf cs (h.withinItem checked cs)
  | .heading _ _, _, _, h | .paragraph _, _, _, h | .code _ _, _, _, h | .table _ _, _, _, h
  | .rule, _, _, h | .text _, _, _, h | .inlineCode _, _, _, h | .lineBreak _, _, _, h
  | .image _ _ _, _, _, h | .literal _ _, _, _, h | .bare, _, _, h => by
    simp only [occurrences, sites]
    exact .cons ⟨rfl, h⟩ .nil

/-- The sites of some nodes are their occurrences, each in a setting that fits. -/
theorem fits_sitesOf {start : Int} : ∀ (ns : List Node) {as : Ancestors} {s : Setting},
    s.Fits start as → List.Forall₂ (Occurrence.IsAt start) (occurrencesOf as ns) (sitesOf s ns)
  | [], _, _, _ => by
    rw [occurrencesOf, sitesOf]
    exact .nil
  | n :: rest, _, _, h => by
    rw [occurrencesOf, sitesOf]
    exact List.rel_append (fits_sites n h) (fits_sitesOf rest h.after)
end

end Node
end MarkdownWord
