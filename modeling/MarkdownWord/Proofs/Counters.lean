import Mathlib
import MarkdownWord.Proofs.ListReferences

/-!
# The numbers of paragraphs

A word processor numbers the paragraphs of lists by counters, one for each level of each list. A
paragraph counts on at its level, and the deeper levels of its list begin afresh. What a counter
has come to is told here by the paragraphs before (`Counters.Follows.numbers_getElem?`).
-/

namespace MarkdownWord.Word

/-- The place of a paragraph in lists: the list by its number, the level, and what this level begins
with. -/
structure ListPlace where
  list : String
  level : Nat
  start : Int
  deriving DecidableEq, Repr

/-- What each level of each list has counted up to, if it has not to begin afresh. -/
abbrev Counters := String → Nat → Option Int

namespace Counters

def initial : Counters := fun _ _ => none

/-- The number that a paragraph is shown with. -/
def next (c : Counters) (m : ListPlace) : Int :=
  match c m.list m.level with
  | some n => n + 1
  | none => m.start

/-- The counters after a paragraph. -/
def after (c : Counters) (m : ListPlace) : Counters := fun list level =>
  if list ≠ m.list ∨ level < m.level then c list level
  else if level = m.level then some (c.next m)
  else none

/-- The numbers of paragraphs, of which some are in lists. -/
def numbers (c : Counters) : List (Option ListPlace) → List (Option Int)
  | [] => []
  | none :: rest => none :: c.numbers rest
  | some m :: rest => some (c.next m) :: (c.after m).numbers rest

/-- How many of some paragraphs, the last one first, have counted at a level of a list since it had
to begin afresh. -/
def counted (list : String) (level : Nat) (history : List ListPlace) : Nat :=
  ((history.filter (·.list = list)).takeWhile (level ≤ ·.level)).countP (·.level = level)

section Counted

variable {list : String} {level : Nat} {m : ListPlace} {history : List ListPlace}

theorem counted_cons_of_ne (h : m.list ≠ list) :
    counted list level (m :: history) = counted list level history := by
  simp [counted, h]

theorem counted_cons_of_lt (hlist : m.list = list) (h : m.level < level) :
    counted list level (m :: history) = 0 := by
  simp [counted, hlist, h]

theorem counted_cons_self (hlist : m.list = list) (h : m.level = level) :
    counted list level (m :: history) = counted list level history + 1 := by
  simp [counted, hlist, h]

theorem counted_cons_of_gt (hlist : m.list = list) (h : level < m.level) :
    counted list level (m :: history) = counted list level history := by
  have hne : m.level ≠ level := Nat.ne_of_gt h
  simp [counted, hlist, h.le, hne]

end Counted

/-- The counters stand where some paragraphs, the last one first, have brought them, when all levels
begin with one number. -/
def Follows (start : Int) (history : List ListPlace) (c : Counters) : Prop :=
  ∀ list level, c list level =
    if counted list level history = 0 then none
    else some (start + counted list level history - 1)

namespace Follows

variable {start : Int} {history : List ListPlace} {c : Counters} {m : ListPlace}

theorem initial (start : Int) : Follows start [] initial := by
  intro list level
  simp [Counters.initial, counted]

theorem next (hc : c.Follows start history) (hm : m.start = start) :
    c.next m = start + counted m.list m.level history := by
  unfold Counters.next
  rw [hc m.list m.level]
  by_cases hzero : counted m.list m.level history = 0
  · simp [hzero, hm]
  · rw [if_neg hzero]
    dsimp only
    omega

theorem after (hc : c.Follows start history) (hm : m.start = start) :
    (c.after m).Follows start (m :: history) := by
  intro list level
  unfold Counters.after
  by_cases hlist : m.list = list
  · subst hlist
    rcases Nat.lt_trichotomy level m.level with hlt | heq | hgt
    · rw [if_pos (.inr hlt), counted_cons_of_gt rfl hlt]
      exact hc m.list level
    · subst heq
      have hkeep : ¬ (m.list ≠ m.list ∨ m.level < m.level) := by simp
      rw [if_neg hkeep, if_pos rfl, hc.next hm, counted_cons_self rfl rfl]
      rw [if_neg (Nat.succ_ne_zero _)]
      congr 1
      push_cast
      omega
    · have hkeep : ¬ (m.list ≠ m.list ∨ level < m.level) := by simp [hgt.le]
      rw [if_neg hkeep, if_neg (Nat.ne_of_gt hgt), counted_cons_of_lt rfl hgt, if_pos rfl]
  · rw [if_pos (.inl (Ne.symm hlist)), counted_cons_of_ne hlist]
    exact hc list level

/-- The number of a paragraph is what its level begins with, and one more for each paragraph that
has counted at that level. -/
theorem numbers_getElem? (hc : c.Follows start history) {places : List (Option ListPlace)}
    (hstart : ∀ m, some m ∈ places → m.start = start) {i : Nat} (hi : places[i]? = some (some m)) :
    (c.numbers places)[i]? = some (some (start +
      counted m.list m.level (((places.take i).filterMap id).reverse ++ history))) := by
  -- Each numbered paragraph joins the history, which the counters go on to follow.
  induction places generalizing c history i with
  | nil => simp at hi
  | cons place rest ih =>
    have hrest : ∀ m, some m ∈ rest → m.start = start :=
      fun m hm => hstart m (List.mem_cons_of_mem place hm)
    cases i with
    | zero =>
      obtain rfl : place = some m := by simpa using hi
      have hm := hstart m List.mem_cons_self
      simp [numbers, hc.next hm]
    | succ i =>
      have hi : rest[i]? = some (some m) := by simpa using hi
      cases place with
      | none => simpa [numbers] using ih hc hrest hi
      | some first =>
        have hfirst := hstart first List.mem_cons_self
        simpa [numbers] using ih (hc.after hfirst) hrest hi

end Follows

theorem length_numbers (c : Counters) (places : List (Option ListPlace)) :
    (c.numbers places).length = places.length := by
  induction places generalizing c with
  | nil => rfl
  | cons place rest ih => cases place <;> simp [numbers, ih]

end Counters

/-! ## Reading -/

/-- The place that the element of a paragraph has in the lists of a list part. -/
def Xml.listPlace? (part : List Xml) (x : Xml) : Option ListPlace := do
  let membership ← x.membership?
  let list ← value? "w:numId" membership.children
  let level ← (← value? "w:ilvl" membership.children).toNat?
  let start ← (← value? "w:start" (← level? part membership).children).toInt?
  return { list, level, start }

/-- The numbers with which the paragraphs of a document file are shown. -/
def Package.numbersShown (p : Package) : List (Option Int) :=
  Counters.initial.numbers ((Xml.named "w:p" p.body).map (Xml.listPlace? p.lists.markup))

/-- The place of a paragraph in a standard list, numbered or not, at some level. -/
def ListPlace.standard (ordered : Bool) (level : Nat) : ListPlace where
  list := toString (if ordered then 11 else 10)
  level := level
  start := 1

theorem Xml.listPlace?_standard {x : Xml} {ordered : Bool} {level : Nat}
    (hlevel : level < ListScheme.levelCount)
    (hx : x.membership? = some (standardMembership ordered level)) :
    x.listPlace? ListPart.standard.markup = some (.standard ordered level) := by
  have hlow : (0 : Int) ≤ level := Int.natCast_nonneg level
  have hhigh : (level : Int) < ListScheme.levelCount := Int.ofNat_lt.mpr hlevel
  obtain ⟨y, -, hy, -, -, hstart⟩ := exists_level_standard ordered hlow hhigh
  have hone : "1".toInt? = some 1 := Int.toInt?_repr 1
  have hread : (toString (level : Int)).toNat? = some level := Nat.toNat?_repr level
  have hid : value? "w:numId" (standardMembership ordered level).children =
      some (toString (if ordered then 11 else 10)) := by
    simp [standardMembership, group, children, value?, valued, leaf, Xml.tag, attribute?]
  have hilvl : value? "w:ilvl" (standardMembership ordered level).children =
      some (toString (level : Int)) := by
    simp [standardMembership, group, children, value?, valued, leaf, Xml.tag, attribute?]
  unfold listPlace?
  simp only [hx, hid, hilvl, hy, hstart, hone, hread, Option.bind_eq_bind,
    Option.bind_some]
  rfl

theorem Xml.listPlace?_of_none {x : Xml} {part : List Xml} (h : x.membership? = none) :
    x.listPlace? part = none := by
  simp [listPlace?, h]

end MarkdownWord.Word
