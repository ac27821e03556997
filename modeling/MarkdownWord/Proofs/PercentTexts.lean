import MarkdownWord.Proofs.Destinations

/-!
# Percent-encoded texts

A percent-encoded text is made of characters that stay as they are and of complete `%XX` groups.
Whatever the text, decoding its encoded form gives it back (`Text.percentDecode_percentEncode`).
-/

namespace MarkdownWord.Text

/-- A text of characters of a class and of complete `%XX` groups. -/
inductive IsPercentEncoded (keep : Char → Bool) : List Char → Prop where
  | nil : IsPercentEncoded keep []
  | kept {c : Char} {s : List Char} (hc : keep c = true) (hs : IsPercentEncoded keep s) :
      IsPercentEncoded keep (c :: s)
  | group {a b : Char} {s : List Char} (ha : (hexValue? a).isSome = true)
      (hb : (hexValue? b).isSome = true) (hs : IsPercentEncoded keep s) :
      IsPercentEncoded keep ('%' :: a :: b :: s)

/-! ## Octets -/

theorem hexValue?_hexDigit : ∀ n < 16, hexValue? (hexDigit n) = some n := by decide

/-- The octets of a character in UTF-8. -/
def octets (c : Char) : List Nat := (String.utf8EncodeChar c).map UInt8.toNat

theorem percentChar_eq (c : Char) : percentChar c = (octets c).flatMap percentByte := by
  rw [octets, List.flatMap_map]
  rfl

theorem lt_of_mem_octets {c : Char} {b : Nat} (h : b ∈ octets c) : b < 256 := by
  obtain ⟨octet, -, rfl⟩ := List.mem_map.mp h
  exact octet.toNat_lt_size

theorem toNat_lt (c : Char) : c.toNat < 0x110000 := by
  obtain hlow | hhigh := c.valid
  · exact Nat.lt_of_lt_of_le hlow (by decide)
  · exact hhigh.2

theorem octets_eq (c : Char) : octets c =
    if c.toNat < 0x80 then [c.toNat]
    else if c.toNat < 0x800 then [0xC0 + c.toNat / 64, 0x80 + c.toNat % 64]
    else if c.toNat < 0x10000 then
      [0xE0 + c.toNat / 4096, 0x80 + c.toNat / 64 % 64, 0x80 + c.toNat % 64]
    else
      [0xF0 + c.toNat / 262144, 0x80 + c.toNat / 4096 % 64, 0x80 + c.toNat / 64 % 64,
        0x80 + c.toNat % 64] := by
  have hvalid := toNat_lt c
  simp only [octets, String.utf8EncodeChar, Char.toNat_val, apply_ite (List.map UInt8.toNat),
    List.map_cons, List.map_nil, UInt8.toNat_ofNat']
  split
  · rw [if_pos (by omega), Nat.mod_eq_of_lt (by omega)]
  split
  · rw [if_neg (by omega), if_pos (by omega)]
    simp only [List.cons.injEq, and_true]
    omega
  split
  · rw [if_neg (by omega), if_neg (by omega), if_pos (by omega)]
    simp only [List.cons.injEq, and_true]
    omega
  · rw [if_neg (by omega), if_neg (by omega), if_neg (by omega)]
    simp only [List.cons.injEq, and_true]
    omega

/-! ## Decoding -/

theorem charOr_toNat {least : Nat} {c : Char} (h : least ≤ c.toNat) (count : Nat) :
    charOr least count c.toNat = [c] := by
  have hvalid : c.toNat.isValidChar := c.valid
  rw [charOr, decide_eq_true h, decide_eq_true hvalid, Char.ofNat_toNat]
  rfl

section

variable {keep : Char → Bool} {a b c d : Nat} (rest : List Nat)

theorem isContinuation_add (h : a < 64) : isContinuation (0x80 + a) = true := by
  rw [isContinuation, beq_iff_eq]
  omega

theorem decodeOctets_one (h : a < 0x80) (hkeep : keep (Char.ofNat a) = false) :
    decodeOctets keep (a :: rest) = Char.ofNat a :: decodeOctets keep rest := by
  rw [decodeOctets.eq_def]
  simp [h, hkeep]

theorem decodeOctets_two (ha : a < 32) (hb : b < 64) :
    decodeOctets keep ((0xC0 + a) :: (0x80 + b) :: rest) =
      charOr 0x80 2 (a * 64 + b) ++ decodeOctets keep rest := by
  have hhigh : ¬0xC0 + a < 0x80 := by omega
  have hlead : (0xC0 + a) / 32 = 6 := by omega
  have hfirst : (0xC0 + a) % 32 = a := by omega
  have hsecond : (0x80 + b) % 64 = b := by omega
  rw [decodeOctets.eq_def]
  simp [hhigh, hlead, hfirst, hsecond, isContinuation_add hb]

theorem decodeOctets_three (ha : a < 16) (hb : b < 64) (hc : c < 64) :
    decodeOctets keep ((0xE0 + a) :: (0x80 + b) :: (0x80 + c) :: rest) =
      charOr 0x800 3 ((a * 64 + b) * 64 + c) ++ decodeOctets keep rest := by
  have hhigh : ¬0xE0 + a < 0x80 := by omega
  have hother : ¬(0xE0 + a) / 32 = 6 := by omega
  have hlead : (0xE0 + a) / 16 = 14 := by omega
  have hfirst : (0xE0 + a) % 16 = a := by omega
  have hsecond : (0x80 + b) % 64 = b := by omega
  have hthird : (0x80 + c) % 64 = c := by omega
  rw [decodeOctets.eq_def]
  simp [hhigh, hother, hlead, hfirst, hsecond, hthird, isContinuation_add hb, isContinuation_add hc]

theorem decodeOctets_four (ha : a < 8) (hb : b < 64) (hc : c < 64) (hd : d < 64) :
    decodeOctets keep ((0xF0 + a) :: (0x80 + b) :: (0x80 + c) :: (0x80 + d) :: rest) =
      charOr 0x10000 4 (((a * 64 + b) * 64 + c) * 64 + d) ++ decodeOctets keep rest := by
  have hhigh : ¬0xF0 + a < 0x80 := by omega
  have hother : ¬(0xF0 + a) / 32 = 6 := by omega
  have hanother : ¬(0xF0 + a) / 16 = 14 := by omega
  have hlead : (0xF0 + a) / 8 = 30 := by omega
  have hfirst : (0xF0 + a) % 8 = a := by omega
  have hsecond : (0x80 + b) % 64 = b := by omega
  have hthird : (0x80 + c) % 64 = c := by omega
  have hfourth : (0x80 + d) % 64 = d := by omega
  rw [decodeOctets.eq_def]
  simp [hhigh, hother, hanother, hlead, hfirst, hsecond, hthird, hfourth,
    isContinuation_add hb, isContinuation_add hc, isContinuation_add hd]

end

section

variable {decoded : Char → Bool} (hdecoded : ∀ c, decoded c = false)
include hdecoded

/-- The octets of a character are one complete sequence, which is read as the character. -/
theorem decodeOctets_append (c : Char) (rest : List Nat) :
    decodeOctets decoded (octets c ++ rest) = c :: decodeOctets decoded rest := by
  have hvalid := toNat_lt c
  rw [octets_eq]
  split
  · next hone =>
    rw [List.singleton_append, decodeOctets_one rest hone (hdecoded _), Char.ofNat_toNat]
  split
  · next hone htwo =>
    have hcode : c.toNat / 64 * 64 + c.toNat % 64 = c.toNat := by omega
    refine (decodeOctets_two rest (by omega) (by omega)).trans ?_
    rw [hcode, charOr_toNat (by omega)]
    rfl
  split
  · next hone htwo hthree =>
    have hcode : (c.toNat / 4096 * 64 + c.toNat / 64 % 64) * 64 + c.toNat % 64 = c.toNat := by omega
    refine (decodeOctets_three rest (by omega) (by omega) (by omega)).trans ?_
    rw [hcode, charOr_toNat (by omega)]
    rfl
  · next hone htwo hthree =>
    have hcode : ((c.toNat / 262144 * 64 + c.toNat / 4096 % 64) * 64 + c.toNat / 64 % 64) * 64 +
        c.toNat % 64 = c.toNat := by omega
    refine (decodeOctets_four rest (by omega) (by omega) (by omega) (by omega)).trans ?_
    rw [hcode, charOr_toNat (by omega)]
    rfl

theorem decodeOctets_flatMap (s : List Char) : decodeOctets decoded (s.flatMap octets) = s := by
  induction s with
  | nil => rfl
  | cons c s ih => rw [List.flatMap_cons, decodeOctets_append hdecoded, ih]

end

/-! ## Decoding an encoded text -/

section

variable {decoded keep : Char → Bool}

theorem decodeFrom_percentByte {b : Nat} (h : b < 256) (pending : List Nat) (rest : List Char) :
    decodeFrom decoded pending (percentByte b ++ rest) =
      decodeFrom decoded (b :: pending) rest := by
  have hhigh := hexValue?_hexDigit (b / 16 % 16) (Nat.mod_lt _ (by decide))
  have hlow := hexValue?_hexDigit (b % 16) (Nat.mod_lt _ (by decide))
  have hbyte : b / 16 % 16 * 16 + b % 16 = b := by omega
  simp only [percentByte, List.cons_append, List.nil_append, decodeFrom, hhigh, hlow, hbyte]

theorem decodeFrom_percentBytes {bs : List Nat} (h : ∀ b ∈ bs, b < 256) (pending : List Nat)
    (rest : List Char) :
    decodeFrom decoded pending (bs.flatMap percentByte ++ rest) =
      decodeFrom decoded (bs.reverse ++ pending) rest := by
  induction bs generalizing pending with
  | nil => rfl
  | cons b bs ih =>
    obtain ⟨hb, h⟩ := List.forall_mem_cons.mp h
    rw [List.flatMap_cons, List.append_assoc, decodeFrom_percentByte hb, ih h, List.reverse_cons,
      List.append_assoc]
    rfl

theorem decodeFrom_cons {c : Char} (h : c ≠ '%') (pending : List Nat) (rest : List Char) :
    decodeFrom decoded pending (c :: rest) =
      decodeOctets decoded pending.reverse ++ c :: decodeFrom decoded [] rest := by
  rw [decodeFrom]
  intro _ _ _ heq
  exact absurd heq h

theorem percentEncode_cons (c : Char) (s : List Char) : percentEncode keep (c :: s) =
    (if keep c then [c] else percentChar c) ++ percentEncode keep s := List.flatMap_cons

/-- The characters of `u` have been read as octets, which are still to be decoded. -/
theorem decodeFrom_percentEncode (hdecoded : ∀ c, decoded c = false) (hkeep : keep '%' = false)
    (u s : List Char) :
    decodeFrom decoded (u.flatMap octets).reverse (percentEncode keep s) = u ++ s := by
  induction s generalizing u with
  | nil =>
    have hpending := decodeOctets_flatMap hdecoded u
    rw [List.append_nil, percentEncode, List.flatMap_nil, decodeFrom, List.reverse_reverse,
      hpending]
  | cons c s ih =>
    rw [percentEncode_cons]
    split
    · next hc =>
      have hne : c ≠ '%' := fun heq => by simp [heq, hkeep] at hc
      have hrest := ih []
      rw [List.singleton_append, decodeFrom_cons hne, List.reverse_reverse,
        decodeOctets_flatMap hdecoded]
      exact congrArg (fun t => u ++ c :: t) hrest
    · have hpending : (octets c).reverse ++ (u.flatMap octets).reverse =
          ((u ++ [c]).flatMap octets).reverse := by
        rw [← List.reverse_append, List.flatMap_append, List.flatMap_singleton]
      rw [percentChar_eq, decodeFrom_percentBytes fun b hb => lt_of_mem_octets hb, hpending, ih,
        List.append_assoc]
      rfl

/-- Decoding gives back a text from its encoded form. -/
theorem percentDecode_percentEncode (hdecoded : ∀ c, decoded c = false) (hkeep : keep '%' = false)
    (s : List Char) : percentDecode decoded (percentEncode keep s) = s :=
  decodeFrom_percentEncode hdecoded hkeep [] s

/-! ## The form of an encoded text -/

theorem IsPercentEncoded.of_mem {c : Char} {s : List Char} (h : IsPercentEncoded keep s)
    (hc : c ∈ s) : keep c = true ∨ c = '%' ∨ (hexValue? c).isSome = true := by
  induction h with
  | nil => cases hc
  | kept hkeep _ ih =>
    cases hc with
    | head => exact .inl hkeep
    | tail _ hc => exact ih hc
  | group ha hb _ ih =>
    obtain rfl | hc := List.mem_cons.mp hc
    · exact .inr (.inl rfl)
    obtain rfl | hc := List.mem_cons.mp hc
    · exact .inr (.inr ha)
    obtain rfl | hc := List.mem_cons.mp hc
    · exact .inr (.inr hb)
    · exact ih hc

theorem isPercentEncoded_percentBytes (bs : List Nat) {s : List Char}
    (hs : IsPercentEncoded keep s) : IsPercentEncoded keep (bs.flatMap percentByte ++ s) := by
  induction bs with
  | nil => exact hs
  | cons b bs ih =>
    have hdigit (n : Nat) : (hexValue? (hexDigit (n % 16))).isSome = true := by
      rw [hexValue?_hexDigit _ (Nat.mod_lt n (by decide))]
      rfl
    exact .group (hdigit (b / 16)) (hdigit b) ih

/-- Of the characters of a text only those that are kept are found in its encoded form. -/
theorem isPercentEncoded_percentEncode {allowed : Char → Bool} {s : List Char}
    (h : ∀ c ∈ s, keep c = true → allowed c = true) :
    IsPercentEncoded allowed (percentEncode keep s) := by
  induction s with
  | nil => exact .nil
  | cons c s ih =>
    obtain ⟨hc, hs⟩ := List.forall_mem_cons.mp h
    rw [percentEncode_cons]
    split
    · next hkeep => exact .kept (hc hkeep) (ih hs)
    · rw [percentChar_eq]
      exact isPercentEncoded_percentBytes (octets c) (ih hs)

end

end MarkdownWord.Text
