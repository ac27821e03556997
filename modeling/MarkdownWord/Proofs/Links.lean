import MarkdownWord.Proofs.Destinations
import MarkdownWord.Proofs.ReadSpans

/-!
# Where links lead

A link takes its destination from parentheses, from a definition or from an address in angle
brackets. All of these are normal destinations, so that every link among the spans of a text leads
to where XML can hold (`readSpans_lead`), whatever the text is.
-/

namespace MarkdownWord.Markdown
open Text Word

/-- A span with a legal destination, if it is a link. -/
def Span.Leads : Span → Prop
  | .link destination _ _ => LegalDestination destination
  | _ => True

theorem scanTarget_isLegal {s rest : List Char} {target : Target}
    (h : scanTarget s = .found target rest) : LegalDestination target.destination := by
  have hsafe (raw rest s : List Char) : LegalDestination
      (if isSafeDestination (normalDestination raw) then (normalDestination raw, rest)
        else ([], s)).1 := by
    split
    · exact legal_normalDestination raw
    · exact legal_nil
  unfold scanTarget at h
  dsimp only at h
  split at h
  · cases h
  split at h
  · cases h
    split
    · exact legal_nil
    · split
      · dsimp only
        exact hsafe _ _ _
      · dsimp only
        exact hsafe _ _ _
  · cases h

variable {definitions : List Definition}

theorem namedTarget?_isLegal (h : ∀ d ∈ definitions, LegalDestination d.destination)
    (skip : Skip) (pos : Nat) (label : List Char) (total : Nat) (here after : List Char) :
    AlwaysGives (fun found => ∀ t ∈ found, LegalDestination t.1.destination)
      (namedTarget? skip definitions pos label total here after) := by
  have hdone (label rest : List Char) :
      AlwaysGives (fun found => ∀ t ∈ found, LegalDestination t.1.destination)
        (pure ((findDefinition? definitions label).map fun d =>
          (⟨d.destination, d.title⟩, rest)) : StateM Survey (Option (Target × List Char))) := by
    refine AlwaysGives.pure fun t ht => ?_
    obtain ⟨d, hd, rfl⟩ := Option.map_eq_some_iff.mp ht
    exact h d (List.mem_of_find?_eq_some hd)
  unfold namedTarget?
  dsimp only
  split
  · exact AlwaysGives.pure fun _ ht => by cases ht
  split
  · refine AlwaysGives.bind_any fun n => ?_
    split
    · exact AlwaysGives.bind_any fun _ => hdone _ _
    · exact AlwaysGives.bind_any fun _ => hdone _ _
  · exact AlwaysGives.bind_any fun _ => hdone _ _

theorem linkScan?_isLegal (h : ∀ d ∈ definitions, LegalDestination d.destination)
    (skip : Skip) (isLink : Bool) (pos : Nat) (s : List Char) :
    AlwaysGives (fun found => ∀ link ∈ found, LegalDestination link.target.destination)
      (linkScan? skip definitions isLink pos s) := by
  have hdone (scan : Target × List Char → LinkScan) (hscan : ∀ t, (scan t).target = t.1)
      (found : Option (Target × List Char)) (hfound : ∀ t ∈ found, LegalDestination t.1.destination) :
      AlwaysGives (fun found => ∀ link ∈ found, LegalDestination link.target.destination)
        (pure (found.map scan) : StateM Survey (Option LinkScan)) := by
    refine AlwaysGives.pure fun link hlink => ?_
    obtain ⟨t, ht, rfl⟩ := Option.map_eq_some_iff.mp hlink
    rw [hscan]
    exact hfound t ht
  have hnone : ∀ t ∈ (none : Option (Target × List Char)), LegalDestination t.1.destination :=
    fun _ ht => by cases ht
  unfold linkScan?
  split
  · refine AlwaysGives.bind_any fun n => ?_
    split
    · exact AlwaysGives.pure fun _ hlink => by cases hlink
    · dsimp only
      split
      · split
        · next target rest hscan =>
          refine AlwaysGives.bind (AlwaysGives.pure fun t ht => ?_) (hdone _ fun _ => rfl)
          cases ht
          exact scanTarget_isLegal hscan
        · exact AlwaysGives.bind (AlwaysGives.pure hnone) (hdone _ fun _ => rfl)
        · split
          · exact AlwaysGives.bind (namedTarget?_isLegal h _ _ _ _ _ _) (hdone _ fun _ => rfl)
          · exact AlwaysGives.bind (AlwaysGives.pure hnone) (hdone _ fun _ => rfl)
      · exact AlwaysGives.bind (namedTarget?_isLegal h _ _ _ _ _ _) (hdone _ fun _ => rfl)
  · exact AlwaysGives.pure fun _ hlink => by cases hlink

theorem inherited_leads : Inherited Span.Leads where
  text _ := trivial
  enclosure e _ _ := by cases e <;> trivial

theorem autolink?_leads {s destination shown : List Char} {n : Nat}
    (h : autolink? s = some (destination, shown, n)) : LegalDestination destination := by
  unfold autolink? at h
  extract_lets address trimmed link at h
  have hlink (raw : List Char) (h : link raw = some (destination, shown, n)) :
      LegalDestination destination := by
    simp only [link] at h
    by_cases hsafe : isSafeDestination (normalDestination raw) = true
    · rw [if_pos hsafe] at h
      rw [← (Prod.mk.inj (Option.some.inj h)).1]
      exact legal_normalDestination raw
    · rw [if_neg hsafe] at h
      cases h
  clear_value link trimmed
  split at h
  · split at h
    · exact hlink _ h
    split at h
    · exact hlink _ h
    · cases h
  · cases h

theorem made_leads (h : ∀ d ∈ definitions, LegalDestination d.destination) :
    Made definitions (fun target => LegalDestination target.destination) Span.Leads where
  toInherited := inherited_leads
  target := linkScan?_isLegal h
  code _ := trivial
  softBreak := trivial
  hardBreak := trivial
  html _ := trivial
  address := autolink?_leads
  link htarget _ := htarget
  image _ _ _ := trivial

/-- All links that are read from a text lead to where XML can hold. -/
theorem readSpans_lead (h : ∀ d ∈ definitions, LegalDestination d.destination)
    (s : List Char) : ∀ span ∈ readSpans definitions s, span.Leads :=
  readSpans_have (made_leads h) s

end MarkdownWord.Markdown
