import MarkdownWord.Proofs.LeadingTexts
import MarkdownWord.Proofs.ReadSpans

/-!
# How far labels reach

Before a link or image is read its label is measured token by token, and the length of each token is
noted by its position. Without a closing bracket there is no label. A label is flat if no token in
it can reach past such a bracket: it ends at the first one then, so that an image is read if a
target follows (`readSpans_image`).
-/

namespace MarkdownWord.Markdown

/-! ## Labels that are never closed -/

/-- A label that is never closed has no length. -/
theorem labelLength?_of_not_mem (skip : Skip) (inLink : Bool) {depth : Nat} (hdepth : depth ≠ 0)
    (pos : Nat) (s : List Char) (h : ']' ∉ s) :
    AlwaysGives (· = none) (labelLength? skip inLink depth pos s) := by
  match s with
  | [] =>
    rw [labelLength?.eq_def]
    exact AlwaysGives.pure rfl
  | c :: rest =>
    have hc : c ≠ ']' := fun heq => h (heq ▸ List.mem_cons_self)
    have hrest : ']' ∉ rest := fun hmem => h (List.mem_cons_of_mem c hmem)
    rw [labelLength?.eq_def]
    dsimp only
    rw [if_neg hc, if_neg hdepth]
    refine AlwaysGives.bind_any fun n => ?_
    split
    · exact AlwaysGives.pure rfl
    have hlater : (if c = '[' ∧ n = 1 then depth + 1 else depth) ≠ 0 := by
      split <;> omega
    have hdrop : ']' ∉ rest.drop (n - 1) := fun hmem => hrest (List.mem_of_mem_drop hmem)
    refine AlwaysGives.bind (labelLength?_of_not_mem skip inLink ?_ _ _ hdrop) ?_
    · simpa using hlater
    · rintro _ rfl
      exact AlwaysGives.pure rfl
termination_by s.length
decreasing_by
  simp only [List.length_drop, List.length_cons]
  omega

/-- No link starts at a bracket that is never closed. -/
theorem linkScan?_of_not_mem {definitions : List Definition} (skip : Skip) (isLink : Bool)
    (pos : Nat) {s : List Char} (h : ∀ inner, s = '[' :: inner → ']' ∉ inner) :
    AlwaysGives (· = none) (linkScan? skip definitions isLink pos s) := by
  unfold linkScan?
  split
  · next inner =>
    have hlength := labelLength?_of_not_mem skip isLink Nat.one_ne_zero (pos + 1) inner (h inner rfl)
    refine AlwaysGives.bind hlength ?_
    rintro _ rfl
    exact AlwaysGives.pure rfl
  · exact AlwaysGives.pure rfl

/-! ## Flat labels -/

theorem run_bind_of_fst {σ α β : Type} {m : StateM σ α} {f : α → StateM σ β} {s : σ} {a : α}
    (h : (m.run s).1 = a) : ((m >>= f).run s).1 = ((f a).run (m.run s).2).1 := by
  rw [← h]
  rfl

/-- A character at which no token starts that could reach past a closing bracket. -/
def isFlat (c : Char) : Bool := ['\n', '\\', '`', '[', ']', '!', '<', '&'].all (c != ·)

theorem ne_of_isFlat {c d : Char} (hc : isFlat c = true) (hd : isFlat d = false) : c ≠ d := by
  rintro rfl
  rw [hc] at hd
  cases hd

theorem tokenLength_flat (skip : Skip) (definitions : List Definition) (pos : Nat) {c : Char}
    (hc : isFlat c = true) (label rest : List Char) :
    ∃ n, tokenLength skip definitions pos (c :: (label ++ ']' :: rest)) = pure n ∧
      1 ≤ n ∧ n ≤ label.length + 1 := by
  unfold tokenLength
  split
  case h_10 heq => cases heq
  case h_9 heq =>
    obtain ⟨rfl, rfl⟩ := List.cons.inj heq
    by_cases hspecial : isSpecial c = true
    · exact ⟨1, if_pos hspecial, Nat.le_refl 1, Nat.le_add_left 1 _⟩
    · refine ⟨_, if_neg hspecial, ?_, ?_⟩
      · simp [hspecial]
      · have hend : isSpecial ']' = true := by decide
        rw [List.takeWhile_cons_of_pos (by simp [hspecial]), List.length_cons,
          List.takeWhile_append]
        split
        · simp [hend]
        · exact Nat.succ_le_succ (List.takeWhile_prefix _).length_le
  all_goals
    next heq => exact absurd (List.cons.inj heq).1 (ne_of_isFlat hc rfl)

theorem skipToken_run {definitions : List Definition} {depth pos n : Nat} {s : List Char}
    {survey : Survey} (hnew : survey[pos]? = none)
    (hlength : tokenLength (skipToken definitions depth) definitions pos s = pure n) :
    (skipToken definitions (depth + 1) pos s).run survey = (n, survey.insert pos n) := by
  have hget (f : Survey → StateM Survey Nat) : (get >>= f).run survey = (f survey).run survey := rfl
  unfold skipToken
  rw [hget, hnew]
  dsimp only
  rw [hlength]
  rfl

/-- The characters before the first bracket that closes are the label, if nothing else starts among
them. Positions from the text on are not noted yet. -/
theorem labelLength?_flat (definitions : List Definition) (inLink : Bool) (depth pos : Nat)
    (label rest : List Char) (hflat : ∀ c ∈ label, isFlat c = true) (survey : Survey)
    (hnew : ∀ q, pos ≤ q → survey[q]? = none) :
    ((labelLength? (skipToken definitions (depth + 1)) inLink 1 pos
      (label ++ ']' :: rest)).run survey).1 = some label.length := by
  match label with
  | [] =>
    rw [labelLength?.eq_def]
    rfl
  | c :: label =>
    obtain ⟨hc, hlabel⟩ := List.forall_mem_cons.mp hflat
    obtain ⟨n, htoken, hpos, hle⟩ :=
      tokenLength_flat (skipToken definitions depth) definitions pos hc label rest
    have hclose : c ≠ ']' := ne_of_isFlat hc rfl
    have hopen : c ≠ '[' := ne_of_isFlat hc rfl
    have hdrop : (label ++ ']' :: rest).drop (n - 1) = label.drop (n - 1) ++ ']' :: rest :=
      List.drop_append_of_le_length (by omega)
    have hlater : ∀ q, pos + max 1 n ≤ q → (survey.insert pos n)[q]? = none := by
      intro q hq
      rw [Std.HashMap.getElem?_insert, if_neg (by simp; omega)]
      exact hnew q (by omega)
    have ih := labelLength?_flat definitions inLink depth (pos + max 1 n) (label.drop (n - 1)) rest
      (fun d hd => hlabel d (List.mem_of_mem_drop hd)) (survey.insert pos n) hlater
    rw [← hdrop] at ih
    rw [List.cons_append, labelLength?.eq_def]
    dsimp only
    rw [if_neg hclose, if_neg Nat.one_ne_zero, StateT.run_bind,
      skipToken_run (hnew pos (Nat.le_refl pos)) htoken]
    simp only [hopen, decide_false, Bool.false_and, Bool.false_eq_true, if_false]
    refine (congrArg (Option.map (max 1 n + ·)) ih).trans (congrArg some ?_)
    dsimp only
    rw [List.length_drop, List.length_cons]
    omega
termination_by label.length
decreasing_by
  simp only [List.length_drop, List.length_cons]
  omega

theorem linkScan?_flat (definitions : List Definition) (isLink : Bool) (depth pos : Nat)
    {label rest : List Char} {target : Target} (hflat : ∀ c ∈ label, isFlat c = true)
    (htarget : scanTarget rest = .found target []) (survey : Survey)
    (hnew : ∀ q, pos + 1 ≤ q → survey[q]? = none) :
    ((linkScan? (skipToken definitions (depth + 1)) definitions isLink pos
      ('[' :: (label ++ ']' :: '(' :: rest))).run survey).1 =
        some ⟨label, target, ('[' :: (label ++ ']' :: '(' :: rest)).length⟩ := by
  have hlength := labelLength?_flat definitions isLink depth (pos + 1) label
    ('(' :: rest) hflat survey hnew
  have hlabel : (label ++ ']' :: '(' :: rest).take label.length = label := List.take_left
  have hafter : (label ++ ']' :: '(' :: rest).drop (label.length + 1) = '(' :: rest := by simp
  generalize label ++ ']' :: '(' :: rest = inner at hlength hlabel hafter ⊢
  unfold linkScan?
  split
  · next inner' heq =>
    obtain rfl := (List.cons.inj heq).2
    rw [run_bind_of_fst hlength]
    simp only [hafter, hlabel, htarget]
    rfl
  · next hne => exact absurd rfl (hne inner)

/-- An image with a flat description is read as one where a target follows. -/
theorem readSpans_image (definitions : List Definition) {label rest : List Char} {target : Target}
    (hflat : label.all isFlat = true) (htarget : scanTarget rest = .found target []) :
    readSpans definitions ('!' :: '[' :: (label ++ ']' :: '(' :: rest)) =
      [.image target.destination target.title label (readSpans definitions label)] := by
  have hscan : ((linkScan? (skipToken definitions maxNesting) definitions false (0 + 1)
      ('[' :: (label ++ ']' :: '(' :: rest))).run {}).1 =
        some ⟨label, target, ('[' :: (label ++ ']' :: '(' :: rest)).length⟩ :=
    linkScan?_flat definitions false 199 1 (List.all_eq_true.mp hflat) htarget {} fun q _ =>
      Std.HashMap.getElem?_empty
  have hlabel : (label ++ ']' :: '(' :: rest).take label.length = label := List.take_left
  generalize label ++ ']' :: '(' :: rest = inner at hscan hlabel ⊢
  have hend (pos : Nat) : readPieces definitions maxNesting ')' pos [] [] = pure [] := by
    rw [readPieces.eq_def]
    rfl
  have hpieces : ((readPieces definitions maxNesting ' ' 0 [] ('!' :: '[' :: inner)).run {}).1 =
      [.span (.image target.destination target.title label (readSpans definitions label))] := by
    rw [readPieces.eq_def]
    dsimp only
    rw [if_neg (by decide), if_neg (by decide), if_neg (by decide), if_neg (by decide),
      if_neg (by decide), if_pos rfl, run_bind_of_fst hscan]
    simp only [List.drop_succ_cons, List.drop_zero, List.drop_length, hlabel, hend]
    rfl
  rw [readSpans, hpieces]
  exact resolve_of_spans [_]

end MarkdownWord.Markdown
