import Mathlib.Data.List.Basic
import MarkdownWord.Markdown.Inline

/-!
# Text that stays text

Only some characters can start anything but text. Text is read character by character between them,
and where nothing else stands between its pieces they are joined into one (`joinTexts_of_texts`).
-/

namespace MarkdownWord.Markdown
open Text

/-! ## Reading -/

/-- The characters at which something other than text can start. -/
def constructChars : List Char := ['\n', '\\', '`', '*', '_', '~', '[', '!', '<', '&']

variable {definitions : List Definition} {depth : Nat} {before : Char} {pos : Nat}
  {pending : List Char} {c : Char} {rest : List Char}

theorem readPieces_plain (h : c ∉ constructChars) :
    readPieces definitions depth before pos pending (c :: rest) =
      readPieces definitions depth c (pos + 1) (c :: pending) rest := by
  simp only [constructChars, List.mem_cons, List.not_mem_nil, or_false, not_or] at h
  obtain ⟨hline, hescape, htick, hstar, hlow, htilde, hbracket, hbang, hangle, hand⟩ := h
  rw [readPieces.eq_def]
  simp [hline, hescape, htick, hstar, hlow, htilde, hbracket, hbang, hangle, hand]

/-- A backslash before a character of the same line. -/
theorem readPieces_backslash (h : c ≠ '\n') :
    readPieces definitions depth before pos pending ('\\' :: c :: rest) = (do
      let later ← readPieces definitions depth c (pos + 2) [] rest
      return flush pending
        (.span (.text (if isAsciiPunctuation c then [c] else ['\\', c])) :: later)) := by
  rw [readPieces.eq_def]
  simp [h]

/-! ## Joining -/

theorem joinTexts_of_texts (us : List (List Char)) :
    joinTexts (us.map .text) = if us.flatten.isEmpty then [] else [.text us.flatten] := by
  induction us with
  | nil => rfl
  | cons u us ih =>
    rw [List.map_cons, joinTexts, ih, List.flatten_cons]
    cases hrest : us.flatten with
    | nil => cases u <;> simp
    | cons c rest => simp

end MarkdownWord.Markdown
