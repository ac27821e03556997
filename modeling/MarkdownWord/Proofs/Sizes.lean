import MarkdownWord.Proofs.Outcomes
import MarkdownWord.Word.Measure
import Mathlib.Tactic

/-!
# Sizes that can be written

A font size is multiplied into fine units by rounded arithmetic before it is written. The rounded
product stays near the exact one, so that no size between 8 and 20 points leaves the range of the
attribute (`sizeText_succeeds`).
-/

namespace MarkdownWord
namespace Number

theorem roundDiv_le (num den : Nat) : roundDiv num den ≤ num / den + 1 := by
  unfold roundDiv
  dsimp only
  split <;> omega

namespace Binary64

theorem log2_le_of_lt {num den k : Nat} (hnum : 0 < num) (h : num < 2 ^ k * den) :
    num.log2 ≤ den.log2 + k := by
  have hden : den < 2 ^ (den.log2 + 1) := Nat.lt_log2_self
  have hlt : num < 2 ^ (den.log2 + 1 + k) := calc
    num < 2 ^ k * den := h
    _ < 2 ^ k * 2 ^ (den.log2 + 1) := Nat.mul_lt_mul_of_pos_left hden (by positivity)
    _ = 2 ^ (den.log2 + 1 + k) := by rw [← pow_add]; congr 1; omega
  have hlog := (Nat.log2_lt (by omega)).mpr hlt
  omega

/-- A quotient below `2 ^ 40` has binary places to spare. -/
theorem exponentOf_le {num den : Nat} (hnum : 0 < num) (h : num < 2 ^ 40 * den) :
    exponentOf num den ≤ -12 := by
  have hlog := log2_le_of_lt hnum h
  unfold exponentOf
  dsimp only
  split <;> omega

theorem roundDiv_shift_le (num : Nat) {den : Nat} (h : 0 < den) (j : Nat) :
    roundDiv (num * 2 ^ j) den ≤ (num / den + 1) * 2 ^ j := by
  have hlt : num * 2 ^ j < (num / den + 1) * 2 ^ j * den := calc
    num * 2 ^ j < (den * (num / den + 1)) * 2 ^ j :=
      Nat.mul_lt_mul_of_pos_right (Nat.lt_mul_div_succ num h) (by positivity)
    _ = (num / den + 1) * 2 ^ j * den := by ring
  have hdiv := (Nat.div_lt_iff_lt_mul h).mpr hlt
  have hround := roundDiv_le (num * 2 ^ j) den
  omega

/-- A quotient below `2 ^ 40` is rounded to a finite number that is not above the next whole
number. -/
theorem ofRatio_of_lt {num den : Nat} (hnum : 0 < num) (h : num < 2 ^ 40 * den) :
    ∃ m j : Nat, ofRatio false num den = .finite false m (-(j : Int)) ∧
      m ≤ (num / den + 1) * 2 ^ j := by
  have hden : 0 < den := by
    rcases Nat.eq_zero_or_pos den with rfl | hpos
    · simp at h
    · exact hpos
  have hexp := exponentOf_le hnum h
  obtain ⟨j, hj⟩ : ∃ j : Nat, exponentOf num den = -((j + 1 : Nat) : Int) :=
    ⟨(-1 - exponentOf num den).toNat, by omega⟩
  have hround := roundDiv_shift_le num hden (j + 1)
  have hunits : inUnits num den (-((j + 1 : Nat) : Int)) = (num * 2 ^ (j + 1), den) := by
    have hneg : ¬ (0 : Int) ≤ -((j + 1 : Nat) : Int) := by omega
    rw [inUnits, if_neg hneg]
    simp
  have hzero : num ≠ 0 := by omega
  simp only [ofRatio, if_neg hzero, hj, hunits]
  -- A mantissa of 54 bits is halved, and the exponent is one more.
  by_cases hfull : roundDiv (num * 2 ^ (j + 1)) den = Nat.pow 2 53
  · refine ⟨Nat.pow 2 52, j, ?_, ?_⟩
    · simp only [hfull, if_true]
      rw [if_neg (by omega)]
      congr 1
      omega
    · rw [hfull, pow_succ, ← mul_assoc] at hround
      have hhalf : Nat.pow 2 53 = Nat.pow 2 52 * 2 := rfl
      rw [hhalf] at hround
      exact Nat.le_of_mul_le_mul_right hround (by norm_num)
  · refine ⟨_, j + 1, ?_, hround⟩
    simp only [if_neg hfull]
    rw [if_neg (by omega)]

theorem ratio_neg (m j : Nat) : ratio m (-(j : Int)) = (m, 2 ^ j) := by
  rcases Nat.eq_zero_or_pos j with rfl | hj
  · simp [ratio]
  · rw [ratio, if_neg (by omega)]
    simp

theorem ratio_snd_pos (m : Nat) (e : Int) : 0 < (ratio m e).2 := by
  unfold ratio
  split <;> simp

/-- A number between two positive bounds has no sign, and its quotient lies between them. -/
theorem eq_finite_of_isBetween {low high : Nat} {x : Binary64} (hlow : 0 < low)
    (h : x.isBetween low high = true) : ∃ m e, x = .finite false m e ∧
      low * (ratio m e).2 ≤ (ratio m e).1 ∧ (ratio m e).1 ≤ high * (ratio m e).2 := by
  cases x with
  | infinite s => simp [isBetween] at h
  | nan => simp [isBetween] at h
  | finite s m e =>
    have hm : m ≠ 0 ∨ (ratio m e).1 = 0 := by
      rcases Nat.eq_zero_or_pos m with rfl | hpos
      · right; unfold ratio; split <;> simp
      · left; omega
    have hd : 0 < low * (ratio m e).2 := Nat.mul_pos hlow (ratio_snd_pos m e)
    cases s with
    | true =>
      simp [isBetween] at h
      omega
    | false => exact ⟨m, e, rfl, by simpa [isBetween] using h⟩

end Binary64
end Number

namespace Word
open Number

private theorem unitsOfPoints_real {x : Binary64} (h : x.isBetween 8 20 = true) :
    ∃ units : Nat, unitsOfPoints (.real x) = .ok units ∧ units < unitLimit := by
  obtain ⟨m, e, rfl, hlow, hhigh⟩ := Binary64.eq_finite_of_isBetween (by omega) h
  have hd := Binary64.ratio_snd_pos m e
  have hpos : 0 < (Binary64.ratio m e).1 * unitsPerPoint := by unfold unitsPerPoint; omega
  have hlt : (Binary64.ratio m e).1 * unitsPerPoint < 2 ^ 40 * (Binary64.ratio m e).2 := by
    unfold unitsPerPoint
    omega
  obtain ⟨k, j, hof, hk⟩ := Binary64.ofRatio_of_lt hpos hlt
  refine ⟨k / 2 ^ j, ?_, ?_⟩
  · simp only [unitsOfPoints, Binary64.mulNat, hof, Binary64.truncate?, Binary64.ratio_neg]
    rfl
  · have hquot : (Binary64.ratio m e).1 * unitsPerPoint / (Binary64.ratio m e).2 ≤
        20 * unitsPerPoint := by
      apply Nat.div_le_of_le_mul
      unfold unitsPerPoint
      omega
    have hdiv : k / 2 ^ j ≤ 20 * unitsPerPoint + 1 := by
      apply Nat.div_le_of_le_mul
      calc k ≤ _ := hk
        _ ≤ (20 * unitsPerPoint + 1) * 2 ^ j := Nat.mul_le_mul_right _ (by omega)
        _ = _ := Nat.mul_comm _ _
    unfold unitsPerPoint at hdiv
    unfold unitLimit
    omega

private theorem unitsOfPoints_int {n : Int} (h : 8 ≤ n ∧ n ≤ 20) :
    ∃ units : Nat, unitsOfPoints (.int n) = .ok units ∧ units < unitLimit := by
  refine ⟨(n * unitsPerPoint).toNat, ?_, ?_⟩
  · have hnonneg : 0 ≤ n * unitsPerPoint := by unfold unitsPerPoint; omega
    rw [Int.toNat_of_nonneg hnonneg]
    rfl
  · unfold unitsPerPoint unitLimit
    omega

/-- A size between 8 and 20 points can be written. -/
theorem sizeText_succeeds {n : MarkdownWord.Number} (h : n.isBetween 8 20 = true) :
    Succeeds (sizeText n) := by
  obtain ⟨units, hunits, hlimit⟩ : ∃ units : Nat,
      unitsOfPoints n = .ok units ∧ units < unitLimit := by
    cases n with
    | real x => exact unitsOfPoints_real h
    | int n => exact unitsOfPoints_int (by simpa [Number.isBetween] using h)
  exact ⟨_, by simp [sizeText, hunits, bind, Except.bind, hlimit, pure, Except.pure]; rfl⟩

end Word
end MarkdownWord
