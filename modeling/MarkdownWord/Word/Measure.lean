import MarkdownWord.Word.RenderError

/-! # Measures

Lengths are converted through a fine unit of which a twentieth of a point has 635, and a point
12700. -/

namespace MarkdownWord.Word
open Number

/-- Fine units in a twentieth of a point. -/
def unitsPerTwip : Nat := 635

/-- Fine units in a point. -/
def unitsPerPoint : Nat := 12700

/-- The greatest unsigned length, in fine units, plus one. -/
def unitLimit : Nat := 0x10000000000000000

/-- A length of some fine units in twentieths of a point. -/
def twipsOfUnits (units : Nat) : Nat := ((Binary64.ofInt units).divNat unitsPerTwip).nearest.toNat

/-- The attribute for a space before or after a paragraph. -/
def spacingText (twips : Int) : Except RenderError String :=
  let units := twips * unitsPerTwip
  if 0 ≤ units && units < unitLimit then pure (toString (twipsOfUnits units.toNat))
  else throw (.spacing twips)

def positionText (twips : Int) : Except RenderError String :=
  let units := twips * unitsPerTwip
  if -0x80000000 ≤ units && units < 0x80000000 then pure (toString twips)
  else throw (.position twips)

/-- A size in points in fine units, cut toward zero. -/
def unitsOfPoints (points : Number) : Except RenderError Int :=
  match points with
  | .int n => pure (n * unitsPerPoint)
  | .real x =>
    match x.mulNat unitsPerPoint with
    | .infinite _ => throw (.infiniteSize points)
    | y => match y.truncate? with
      | some n => pure n
      | none => throw (.size points)

/-- A size of some fine units in half-points, cut toward zero. -/
def halfPoints (units : Nat) : Int :=
  ((((Binary64.ofInt units).divNat unitsPerPoint).mulNat 2).truncate?).getD 0

def sizeText (points : Number) : Except RenderError String := do
  let units ← unitsOfPoints points
  if 0 ≤ units && units < unitLimit then return toString (halfPoints units.toNat)
  else throw (.size points)

def halfOf : Number → Number
  | .int n => .real (.ofRatio (decide (n < 0)) n.natAbs 2)
  | .real x => .real (x.divNat 2)

end MarkdownWord.Word
