import Mathlib.Order.Basic
import MarkdownWord.Markdown.Delimiter

/-!
# Which delimiters are paired

The entries of a row of pieces are its delimiters, each at its place. Pairing them changes neither
places nor marks, and a delimiter is closed by a later one only (`Pairing.run_paired`).
-/

namespace MarkdownWord.Markdown

/-! ## Entries -/

/-- The entry of a piece at some place, if it is a delimiter. -/
def entry? : Piece × Nat → Option Entry
  | (.delimiter d, i) => some { d with place := i }
  | _ => none

theorem toList_entries (pieces : List Piece) :
    (entries pieces).toList = pieces.zipIdx.filterMap entry? := by
  have hfold {f : Array Entry → Piece × Nat → Array Entry}
      (hf : ∀ es p, (f es p).toList = es.toList ++ [p].filterMap entry?) (ps : List (Piece × Nat))
      (es : Array Entry) : (ps.foldl f es).toList = es.toList ++ ps.filterMap entry? := by
    induction ps generalizing es with
    | nil => simp
    | cons p ps ih =>
      rw [List.foldl_cons, ih, hf, List.append_assoc, ← List.filterMap_append,
        List.singleton_append]
  refine hfold ?_ pieces.zipIdx #[]
  rintro es ⟨piece, i⟩
  cases piece <;> simp [List.filterMap_cons, entry?]

/-- What holds of the entry of each piece holds of all entries, those past the end included. -/
theorem entries_have {P : Entry → Prop} (hdefault : P default) {pieces : List Piece}
    (h : ∀ p ∈ pieces, ∀ i, ∀ e ∈ entry? (p, i), P e) (i : Nat) :
    P ((entries pieces).getD i default) := by
  rw [Array.getD_eq_getD_getElem?]
  cases hi : (entries pieces)[i]? with
  | none => exact hdefault
  | some e =>
    have hmem := Array.mem_toList_iff.mpr (Array.mem_of_getElem? hi)
    rw [toList_entries] at hmem
    obtain ⟨p, hp, he⟩ := List.mem_filterMap.mp hmem
    exact h p.1 (List.fst_mem_of_mem_zipIdx hp) p.2 e he

theorem partner_entries (pieces : List Piece) (i : Nat) :
    ((entries pieces).getD i default).partner = none := by
  refine entries_have (P := fun e => e.partner = none) rfl (fun p _ j e he => ?_) i
  cases p with
  | delimiter d => cases he; rfl
  | _ => cases he

/-- Spans at the front of a row have no entries. -/
theorem toList_entries_append (spans : List Span) (pieces : List Piece) :
    (entries (spans.map .span ++ pieces)).toList =
      (pieces.zipIdx spans.length).filterMap entry? := by
  have hspans : (spans.map Piece.span).zipIdx.filterMap entry? = [] := by
    refine List.filterMap_eq_nil_iff.mpr ?_
    rintro ⟨piece, i⟩ hmem
    obtain ⟨s, -, rfl⟩ := List.mem_map.mp (List.fst_mem_of_mem_zipIdx hmem)
    rfl
  rw [toList_entries, List.zipIdx_append, List.filterMap_append, hspans]
  simp

/-- Entries at places from `low` to below `high`, one behind another. -/
structure Placed (low high : Nat) (es : Array Entry) : Prop where
  low : ∀ i < es.size, low ≤ (es.getD i default).place
  high : ∀ i < es.size, (es.getD i default).place < high
  rising : ∀ i j, i < j → j < es.size → (es.getD i default).place < (es.getD j default).place

theorem placed_of_toList {low : Nat} {pieces : List Piece} {es : Array Entry}
    (h : es.toList = (pieces.zipIdx low).filterMap entry?) :
    Placed low (low + pieces.length) es := by
  have hplace {p : Piece × Nat} {e : Entry} (he : entry? p = some e) : e.place = p.2 := by
    obtain ⟨piece, i⟩ := p
    cases piece with
    | delimiter d => cases he; rfl
    | _ => cases he
  have hbounds : ∀ e ∈ es.toList, low ≤ e.place ∧ e.place < low + pieces.length := by
    rw [h]
    intro e he
    obtain ⟨⟨piece, i⟩, hp, heq⟩ := List.mem_filterMap.mp he
    rw [hplace heq]
    exact ⟨List.le_snd_of_mem_zipIdx hp, List.snd_lt_add_of_mem_zipIdx hp⟩
  have hrising : es.toList.Pairwise fun e e' => e.place < e'.place := by
    have hindices : (pieces.zipIdx low).Pairwise fun p q => p.2 < q.2 := by
      rw [← List.pairwise_map (R := (· < ·)), List.zipIdx_map_snd]
      exact List.pairwise_lt_range'
    rw [h, List.pairwise_filterMap]
    exact hindices.imp fun hlt e he e' he' => by rw [hplace he, hplace he']; exact hlt
  have hget {i : Nat} (hi : i < es.size) : es.getD i default = es.toList[i] := by
    simp [Array.getD, hi]
  refine ⟨fun i hi => ?_, fun i hi => ?_, fun i j hij hj => ?_⟩
  · rw [hget hi]
    exact (hbounds _ (List.getElem_mem _)).1
  · rw [hget hi]
    exact (hbounds _ (List.getElem_mem _)).2
  · rw [hget (Nat.lt_trans hij hj), hget hj]
    exact List.pairwise_iff_getElem.mp hrising i j _ _ hij

/-! ## Pairing -/

/-- Entries that have been paired: places and marks are as before, and each partner stands behind
the delimiter that it closes. -/
structure Paired (es es' : Array Entry) : Prop where
  size : es'.size = es.size
  place : ∀ i, (es'.getD i default).place = (es.getD i default).place
  mark : ∀ i, (es'.getD i default).mark = (es.getD i default).mark
  partner : ∀ i j, (es'.getD i default).partner = some j → i < j ∧ j < es.size

theorem getD_modify (es : Array Entry) (f : Entry → Entry) (i j : Nat) :
    (es.modify i f).getD j default = es.getD j default ∨
      i = j ∧ (es.modify i f).getD j default = f (es.getD j default) := by
  simp only [Array.getD_eq_getD_getElem?, Array.getElem?_modify]
  by_cases hij : i = j
  · cases hj : es[j]? with
    | none => simp [hij]
    | some e => simp [hij]
  · simp [hij]

theorem Paired.modify {es es' : Array Entry} (h : Paired es es') {f : Entry → Entry} {i : Nat}
    (hplace : ∀ e, (f e).place = e.place) (hmark : ∀ e, (f e).mark = e.mark)
    (hpartner : ∀ e j, (f e).partner = some j → e.partner = some j ∨ i < j ∧ j < es.size) :
    Paired es (es'.modify i f) := by
  refine ⟨by rw [Array.size_modify, h.size], fun j => ?_, fun j => ?_, fun j k hk => ?_⟩
  · rcases getD_modify es' f i j with hsame | ⟨-, hnew⟩
    · rw [hsame, h.place]
    · rw [hnew, hplace, h.place]
  · rcases getD_modify es' f i j with hsame | ⟨-, hnew⟩
    · rw [hsame, h.mark]
    · rw [hnew, hmark, h.mark]
  · rcases getD_modify es' f i j with hsame | ⟨rfl, hnew⟩
    · exact h.partner j k (hsame ▸ hk)
    · rw [hnew] at hk
      exact (hpartner _ k hk).elim (h.partner i k) id

theorem Placed.paired {low high : Nat} {es es' : Array Entry} (h : Placed low high es)
    (hpaired : Paired es es') : Placed low high es' := by
  refine ⟨fun i hi => ?_, fun i hi => ?_, fun i j hij hj => ?_⟩
  · rw [hpaired.place]
    exact h.low i (hpaired.size ▸ hi)
  · rw [hpaired.place]
    exact h.high i (hpaired.size ▸ hi)
  · rw [hpaired.place, hpaired.place]
    exact h.rising i j hij (hpaired.size ▸ hj)

namespace Pairing

theorem findOpener?_lt {p : Pairing} {closer : Entry} {bottom n o : Nat}
    (h : p.findOpener? closer bottom n = some o) : o < n := by
  fun_induction findOpener? p closer bottom n with
  | case1 => cases h
  | case2 => cases h
  | case3 =>
    cases h
    exact Nat.lt_succ_self _
  | case4 _ _ _ _ ih => exact Nat.lt_succ_of_lt (Nat.lt_of_lt_of_le (ih h) (Nat.sub_le _ _))

variable {es : Array Entry} {p : Pairing} {i : Nat}

theorem pair_paired (h : Paired es p.entries) {o : Nat} (ho : o < i) (hi : i < es.size) :
    Paired es (p.pair o i).entries := by
  have hclosed : Paired es (p.entries.modify i fun e => { e with opens := false }) :=
    h.modify (fun _ => rfl) (fun _ => rfl) fun _ _ he => .inl he
  refine Paired.modify (f := fun e => { e with partner := some i, closes := false }) hclosed
    (fun _ => rfl) (fun _ => rfl) ?_
  rintro e j he
  cases he
  exact .inr ⟨ho, hi⟩

/-- What a step does: it may pair the delimiter with one below the first of its run. -/
theorem step_cases (p : Pairing) (i : Nat) :
    ∃ q : Pairing, q.entries = p.entries ∧ (q.head = i ∨ q.head = p.head) ∧
      (p.step i = q ∨ ∃ o < q.head, p.step i = q.pair o i) := by
  let closer := p.entries.getD i default
  let head := if (p.entries.getD p.head default).mark != closer.mark ||
    p.next != some closer.place then i else p.head
  let q : Pairing := { p with
    head, jumps := p.jumps.push 0, next := some (closer.place + 1) }
  let bottom := (q.bottoms.lookup (kind closer)).getD 0
  let top := head - q.jumps.getD head 0
  have hhead : head = i ∨ head = p.head := by
    by_cases hnew : ((p.entries.getD p.head default).mark != closer.mark ||
      p.next != some closer.place) = true
    · exact .inl (if_pos hnew)
    · exact .inr (if_neg hnew)
  by_cases hcloses : (!closer.closes) = true
  · exact ⟨q, rfl, hhead, .inl (if_pos hcloses)⟩
  cases hfound : q.findOpener? closer bottom top with
  | some o =>
    have hlt : o < head := Nat.lt_of_lt_of_le (findOpener?_lt hfound) (Nat.sub_le _ _)
    have hstep : p.step i = q.pair o i := by
      refine (if_neg hcloses).trans ?_
      dsimp only
      rw [hfound]
    exact ⟨q, rfl, hhead, .inr ⟨o, hlt, hstep⟩⟩
  | none =>
    have hstep : p.step i =
        if top = 0 then q else { q with bottoms := (kind closer, top) :: q.bottoms } := by
      refine (if_neg hcloses).trans ?_
      dsimp only
      rw [hfound]
    by_cases htop : top = 0
    · exact ⟨q, rfl, hhead, .inl (hstep.trans (if_pos htop))⟩
    · exact ⟨{ q with bottoms := (kind closer, top) :: q.bottoms }, rfl, hhead,
        .inl (hstep.trans (if_neg htop))⟩

theorem step_paired (h : Paired es p.entries) (hhead : p.head ≤ i) (hi : i < es.size) :
    Paired es (p.step i).entries ∧ (p.step i).head ≤ i := by
  obtain ⟨q, hentries, hhead', hstep⟩ := p.step_cases i
  have hle : q.head ≤ i := by
    rcases hhead' with heq | heq
    · exact Nat.le_of_eq heq
    · rw [heq]
      exact hhead
  rw [← hentries] at h
  rcases hstep with hsame | ⟨o, ho, hpair⟩
  · rw [hsame]
    exact ⟨h, hle⟩
  · rw [hpair]
    exact ⟨pair_paired h (Nat.lt_of_lt_of_le ho hle) hi, hle⟩

/-- A delimiter that does not close is left as it is. -/
theorem entries_step_of_not_closes (h : (p.entries.getD i default).closes = false) :
    (p.step i).entries = p.entries := by
  have hcloses : (!(p.entries.getD i default).closes) = true := by rw [h]; rfl
  exact (congrArg Pairing.entries (if_pos hcloses) :)

/-- Where nothing closes, nothing is paired. -/
theorem run_of_not_closes {pieces : List Piece}
    (h : ∀ i, ((Markdown.entries pieces).getD i default).closes = false) :
    run pieces = Markdown.entries pieces := by
  let es := Markdown.entries pieces
  have hfold (n : Nat) : ((List.range n).foldl step { entries := es }).entries = es := by
    induction n with
    | zero => rfl
    | succ n ih =>
      rw [List.range_succ, List.foldl_append]
      refine (entries_step_of_not_closes ?_).trans ih
      rw [ih]
      exact h n
  exact hfold es.size

/-- A whole run pairs each delimiter with a later one at most. -/
theorem run_paired (pieces : List Piece) : Paired (Markdown.entries pieces) (run pieces) := by
  let es := Markdown.entries pieces
  have hstart : Paired es es := by
    refine ⟨rfl, fun _ => rfl, fun _ => rfl, fun i j hj => ?_⟩
    rw [partner_entries] at hj
    cases hj
  have hfold (n : Nat) (hn : n ≤ es.size) :
      let p := (List.range n).foldl step { entries := es }
      Paired es p.entries ∧ p.head ≤ n := by
    induction n with
    | zero => exact ⟨hstart, Nat.le_refl 0⟩
    | succ n ih =>
      obtain ⟨hpaired, hhead⟩ := ih (Nat.le_of_succ_le hn)
      rw [List.range_succ, List.foldl_append]
      obtain ⟨hpaired, hhead⟩ := step_paired hpaired hhead hn
      exact ⟨hpaired, Nat.le_succ_of_le hhead⟩
  exact (hfold es.size (Nat.le_refl _)).1

end Pairing
end MarkdownWord.Markdown
