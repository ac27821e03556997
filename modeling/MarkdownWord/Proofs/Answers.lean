import MarkdownWord.Proofs.FileNames
import MarkdownWord.Proofs.Outcomes
import MarkdownWord.Service
import Mathlib.Tactic.IntervalCases

/-!
# What the service answers

The answer to a request is told by the first thing that is wrong with it: the length of its text,
the lack of one, the conversion. An upload is refused for its name or its octets, or is answered as
a request with its text. A text with surrogates that has to be encoded ends a request without an
answer (`Service.not_always_answered`).
-/

namespace MarkdownWord

namespace Pipeline

/-- A text is read, and the document of what is read is written. -/
def Makes (p : Pipeline) (c : Configuration) (s : String) (size : Option Number)
    (package : Word.Package) : Prop :=
  ∃ root, p.read s = some root ∧
    p.write (.ofNodes root.children (size.or c.fontSize) (.ofName c.listOverflow)) = some package

variable {p : Pipeline} {c : Configuration} {s : String} {size : Option Number}

theorem document_nonempty (hs : s ≠ "") : p.document c (.string s) size =
    match p.read s with
    | some root => .ok (.ofNodes root.children (size.or c.fontSize) (.ofName c.listOverflow))
    | none => .error .unreadable := by
  have hrequired : requireText (.string s) = .ok s := if_neg (by simpa using hs)
  rw [document, hrequired, ok_bind]
  rfl

theorem convert_nonempty (hs : s ≠ "") : p.convert c (.string s) size =
    match p.read s with
    | none => .error .unreadable
    | some root =>
      match p.write (.ofNodes root.children (size.or c.fontSize) (.ofName c.listOverflow)) with
      | some package => .ok package
      | none => .error .unwritable := by
  rw [convert, document_nonempty hs]
  cases p.read s <;> rfl

theorem convert_of_makes (hs : s ≠ "") {package : Word.Package} (h : p.Makes c s size package) :
    p.convert c (.string s) size = .ok package := by
  obtain ⟨root, hread, hwrite⟩ := h
  rw [convert_nonempty hs, hread]
  dsimp only
  rw [hwrite]

/-- A text that nothing is made of fails inside the conversion. -/
theorem convert_of_not_makes (hs : s ≠ "") (h : ∀ package, ¬ p.Makes c s size package) :
    p.convert c (.string s) size = .error .unreadable ∨
      p.convert c (.string s) size = .error .unwritable := by
  rw [convert_nonempty hs]
  cases hread : p.read s with
  | none => exact .inl rfl
  | some root =>
    dsimp only
    split
    · next package hwrite => exact absurd ⟨root, hread, hwrite⟩ (h package)
    · exact .inr rfl

theorem convert_noText {v : Value} (hwhole : ∀ t, v ≠ .broken t)
    (h : ∀ s, v = .string s → s = "") : p.convert c v size = .error .noText := by
  have hrequired : requireText v = .error .noText := by
    cases v with
    | string s =>
      rw [h s rfl]
      rfl
    | broken t => exact absurd rfl (hwhole t)
    | _ => rfl
  rw [convert, document, hrequired]
  rfl

end Pipeline

namespace Download
open Text

theorem header?_whole (fileName : Option String) :
    header? (fileName.map .whole) = some (disposition (name fileName)) := by
  cases fileName <;> rfl

/-- A header that is given is that of the name with characters put for its surrogates. -/
theorem eq_of_header? {fileName : Option AnyText} {header : String}
    (h : header? fileName = some header) :
    header = disposition (name (fileName.map AnyText.standIn)) := by
  rcases fileName with _ | s | t
  · exact (Option.some.inj h).symm
  · exact (Option.some.inj h).symm
  · rw [header?] at h
    split at h
    · cases h
    · exact (Option.some.inj h).symm

theorem exists_broken_of_header? {fileName : Option AnyText} (h : header? fileName = none) :
    ∃ t, fileName = some (.broken t) := by
  rcases fileName with _ | s | t
  · cases h
  · cases h
  · exact ⟨t, rfl⟩

end Download

namespace Service
open Download Text

variable {p : Pipeline} {c : Configuration}

/-- A text is longer than the configuration allows. -/
def TooLong (c : Configuration) (s : String) : Prop :=
  c.maxKilobytes * 1024 < (s.toUTF8.size : Int)

instance (c : Configuration) (s : String) : Decidable (TooLong c s) :=
  inferInstanceAs (Decidable (_ < _))

/-- The answers to a request with valid fields. A text with surrogates has no length, and a name
with surrogates no header. -/
inductive Answers (p : Pipeline) (c : Configuration) (r : Request) : Response → Prop where
  | unmeasured {t : BrokenText} (text : r.markdown = .broken t) : Answers p c r .unhandled
  | tooLong {s : String} (text : r.markdown = .string s) (length : TooLong c s) :
      Answers p c r (.refused 413 ("Markdown exceeds " ++ toString c.maxKilobytes ++ " KB"))
  | noText (whole : ∀ t, r.markdown ≠ .broken t)
      (length : ∀ s, r.markdown = .string s → ¬ TooLong c s)
      (text : ∀ s, r.markdown = .string s → s = "") :
      Answers p c r (.refused 400 "Markdown content is required")
  | failed {s : String} (text : r.markdown = .string s) (length : ¬ TooLong c s)
      (nonempty : s ≠ "") (fails : ∀ package, ¬ p.Makes c s r.fontSize package) :
      Answers p c r (.refused 500 "Failed to convert markdown to docx")
  | converted {s header : String} {package : Word.Package} (text : r.markdown = .string s)
      (length : ¬ TooLong c s) (nonempty : s ≠ "") (makes : p.Makes c s r.fontSize package)
      (name : header? r.fileName = some header) : Answers p c r (.converted package header)
  | unnamed {s : String} {package : Word.Package} (text : r.markdown = .string s)
      (length : ¬ TooLong c s) (nonempty : s ≠ "") (makes : p.Makes c s r.fontSize package)
      (name : header? r.fileName = none) : Answers p c r .unhandled

theorem Answers.header {r : Request} {package : Word.Package} {header : String}
    (h : Answers p c r (.converted package header)) : header? r.fileName = some header := by
  cases h with
  | converted text length nonempty makes name => exact name

/-- The answers to an upload. -/
inductive UploadAnswers (p : Pipeline) (c : Configuration) (fileName : Option String)
    (contents : ByteArray) (size : Option Number) : Response → Prop where
  | otherFile (file : ¬ NamesMarkdown fileName) :
      UploadAnswers p c fileName contents size
        (.refused 400 "Invalid file type. Allowed: .md, .markdown")
  | notText (file : NamesMarkdown fileName) (octets : ∀ s : String, s.toUTF8 ≠ contents) :
      UploadAnswers p c fileName contents size (.refused 400 "File must be UTF-8 encoded")
  | asText {s : String} {response : Response} (file : NamesMarkdown fileName)
      (octets : s.toUTF8 = contents)
      (answers : Answers p c ⟨.string s, fileName.map .whole, size⟩ response) :
      UploadAnswers p c fileName contents size response

theorem isTooLarge?_of_tooLong {s : String} (h : TooLong c s) :
    isTooLarge? c (.string s) = some true := congrArg some (decide_eq_true h)

theorem isTooLarge?_of_not_tooLong {v : Value} (hwhole : ∀ t, v ≠ .broken t)
    (h : ∀ s, v = .string s → ¬ TooLong c s) : isTooLarge? c v = some false := by
  cases v with
  | string s => exact congrArg some (decide_eq_false (h s rfl))
  | broken t => exact absurd rfl (hwhole t)
  | _ => rfl

theorem convert_measured {r : Request} (h : isTooLarge? c r.markdown = some false) :
    convert p c r =
      match p.convert c r.markdown r.fontSize with
      | .ok package => (header? r.fileName).elim .unhandled (.converted package)
      | .error .noText => .refused 400 ConversionError.noText.message
      | .error _ => .refused 500 ConversionError.unwritable.message := by
  rw [convert, h]
  dsimp only
  cases p.convert c r.markdown r.fontSize with
  | ok package => cases header? r.fileName <;> rfl
  | error e => cases e <;> rfl

theorem convert_string {fileName : Option AnyText} {size : Option Number} {s : String}
    (h : ¬ TooLong c s) : convert p c ⟨.string s, fileName, size⟩ =
      match p.convert c (.string s) size with
      | .ok package => (header? fileName).elim .unhandled (.converted package)
      | .error .noText => .refused 400 ConversionError.noText.message
      | .error _ => .refused 500 ConversionError.unwritable.message :=
  convert_measured (congrArg some (decide_eq_false h))

theorem convert_text {fileName : Option String} {size : Option Number} {s : String}
    (h : ¬ TooLong c s) : convert p c ⟨.string s, fileName.map .whole, size⟩ =
      match p.convert c (.string s) size with
      | .ok package => .converted package (disposition (name fileName))
      | .error .noText => .refused 400 ConversionError.noText.message
      | .error _ => .refused 500 ConversionError.unwritable.message := by
  rw [convert_string h, header?_whole]
  rfl

theorem convert_eq_of_answers {r : Request} {response : Response}
    (h : Answers p c r response) : convert p c r = response := by
  obtain ⟨markdown, fileName, size⟩ := r
  cases h with
  | unmeasured text =>
    obtain rfl := text
    rfl
  | tooLong text length =>
    obtain rfl := text
    rw [convert, isTooLarge?_of_tooLong length]
  | noText whole length text =>
    rw [convert_measured (isTooLarge?_of_not_tooLong whole length),
      Pipeline.convert_noText whole text]
    rfl
  | failed text length nonempty fails =>
    obtain rfl := text
    rw [convert_string length]
    obtain h | h := Pipeline.convert_of_not_makes nonempty fails
    · rw [h]; rfl
    · rw [h]; rfl
  | converted text length nonempty makes name =>
    obtain rfl := text
    rw [convert_string length, Pipeline.convert_of_makes nonempty makes]
    exact congrArg (Option.elim · Response.unhandled (Response.converted _)) name
  | unnamed text length nonempty makes name =>
    obtain rfl := text
    rw [convert_string length, Pipeline.convert_of_makes nonempty makes]
    exact congrArg (Option.elim · Response.unhandled (Response.converted _)) name

/-- Every request has an answer, or ends without one. -/
theorem exists_answers (p : Pipeline) (c : Configuration) (r : Request) :
    ∃ response, Answers p c r response := by
  by_cases hbroken : ∃ t, r.markdown = .broken t
  · obtain ⟨t, ht⟩ := hbroken
    exact ⟨_, .unmeasured ht⟩
  have hwhole := not_exists.mp hbroken
  by_cases htext : ∃ s, r.markdown = .string s
  · obtain ⟨s, hs⟩ := htext
    have hsame {q : String → Prop} (h : q s) (s' : String) (hs' : r.markdown = .string s') :
        q s' := by
      obtain rfl : s = s' := Value.string.inj (hs.symm.trans hs')
      exact h
    by_cases hlength : TooLong c s
    · exact ⟨_, .tooLong hs hlength⟩
    by_cases hempty : s = ""
    · exact ⟨_, .noText hwhole (hsame hlength) (hsame hempty)⟩
    by_cases hmakes : ∃ package, p.Makes c s r.fontSize package
    · obtain ⟨package, hpackage⟩ := hmakes
      cases hname : header? r.fileName with
      | none => exact ⟨_, .unnamed hs hlength hempty hpackage hname⟩
      | some header => exact ⟨_, .converted hs hlength hempty hpackage hname⟩
    · exact ⟨_, .failed hs hlength hempty (not_exists.mp hmakes)⟩
  · have hnone (s : String) (hs : r.markdown = .string s) : False := htext ⟨s, hs⟩
    exact ⟨_, .noText hwhole (fun s hs => (hnone s hs).elim) fun s hs => (hnone s hs).elim⟩

theorem convert_eq_iff {r : Request} {response : Response} :
    convert p c r = response ↔ Answers p c r response := by
  constructor
  · rintro rfl
    obtain ⟨response, h⟩ := exists_answers p c r
    rwa [convert_eq_of_answers h]
  · exact convert_eq_of_answers

/-- A request without surrogates in its text and its name has an answer. -/
theorem exists_broken_of_unhandled {r : Request} (h : convert p c r = .unhandled) :
    (∃ t, r.markdown = .broken t) ∨ ∃ t, r.fileName = some (.broken t) := by
  cases convert_eq_iff.mp h with
  | unmeasured text => exact .inl ⟨_, text⟩
  | unnamed text length nonempty makes name => exact .inr (exists_broken_of_header? name)

theorem fromUTF8?_eq_some_iff {contents : ByteArray} {s : String} :
    String.fromUTF8? contents = some s ↔ s.toUTF8 = contents := by
  rw [String.fromUTF8?]
  constructor
  · intro h
    split at h
    · exact congrArg String.toUTF8 (Option.some.inj h).symm
    · cases h
  · rintro rfl
    rw [String.toUTF8_eq_toByteArray, dif_pos s.isValidUTF8]
    rfl

section Uploads

variable {fileName : Option String} {contents : ByteArray} {size : Option Number}
  {response : Response}

theorem convertFile_eq_of_answers (h : UploadAnswers p c fileName contents size response) :
    convertFile p c fileName contents size = response := by
  rw [convertFile]
  cases h with
  | otherFile file =>
    have hfile : isMarkdownFile fileName = false := by
      rw [Bool.eq_false_iff, Ne, isMarkdownFile_iff]
      exact file
    rw [hfile]
    rfl
  | notText file octets =>
    have hdecoded : String.fromUTF8? contents = none :=
      Option.eq_none_iff_forall_ne_some.mpr fun s hs => octets s (fromUTF8?_eq_some_iff.mp hs)
    rw [isMarkdownFile_iff.mpr file, hdecoded]
    rfl
  | @asText s _ file octets answers =>
    rw [isMarkdownFile_iff.mpr file, fromUTF8?_eq_some_iff.mpr octets]
    exact convert_eq_of_answers answers

theorem convertFile_text {s : String} (h : NamesMarkdown fileName) :
    convertFile p c fileName s.toUTF8 size = convert p c ⟨.string s, fileName.map .whole, size⟩ :=
  convertFile_eq_of_answers (.asText h rfl (convert_eq_iff.mp rfl))

/-- Every upload has an answer. -/
theorem exists_uploadAnswers (p : Pipeline) (c : Configuration) (fileName : Option String)
    (contents : ByteArray) (size : Option Number) :
    ∃ response, UploadAnswers p c fileName contents size response := by
  by_cases hfile : NamesMarkdown fileName
  · by_cases htext : ∃ s : String, s.toUTF8 = contents
    · obtain ⟨s, hs⟩ := htext
      obtain ⟨response, hanswers⟩ := exists_answers p c ⟨.string s, fileName.map .whole, size⟩
      exact ⟨response, .asText hfile hs hanswers⟩
    · exact ⟨_, .notText hfile (not_exists.mp htext)⟩
  · exact ⟨_, .otherFile hfile⟩

theorem convertFile_eq_iff : convertFile p c fileName contents size = response ↔
    UploadAnswers p c fileName contents size response := by
  constructor
  · rintro rfl
    obtain ⟨response, h⟩ := exists_uploadAnswers p c fileName contents size
    rwa [convertFile_eq_of_answers h]
  · exact convertFile_eq_of_answers

/-- Every upload has an answer of the service. -/
theorem convertFile_ne_unhandled : convertFile p c fileName contents size ≠ .unhandled := by
  intro h
  rw [convertFile_eq_iff] at h
  cases h with
  | asText file octets answers =>
    obtain ⟨t, ht⟩ | ⟨t, ht⟩ := exists_broken_of_unhandled (convert_eq_iff.mpr answers)
    · cases ht
    · cases fileName <;> cases ht

end Uploads

/-! ## Payloads -/

theorem convertText_read {body : Value} {r : Request} (h : Request.read body = .ok r) :
    convertText p c body = convert p c r := by
  rw [convertText, h]

/-- The body of a request. -/
def payload (markdown : Value) (fileName : Option AnyText) (size : Option Number) : Value :=
  .object [("markdown", markdown), ("filename", fileName.elim .null .ofText),
    ("font_size", size.elim .null .number)]

theorem realNumber?_of_isBetween {n : Number} (h : n.isBetween minFontSize maxFontSize = true) :
    (Value.number n).realNumber? = some n.toBinary64 ∧
      n.toBinary64.isBetween minFontSize maxFontSize = true := by
  cases n with
  | real x => exact ⟨rfl, h⟩
  | int n =>
    rw [Number.isBetween, Bool.and_eq_true, decide_eq_true_iff, decide_eq_true_iff] at h
    obtain ⟨hlow, hhigh⟩ := h
    rw [minFontSize] at hlow
    rw [maxFontSize] at hhigh
    interval_cases n <;> exact ⟨rfl, rfl⟩

theorem read_payload (markdown : Value) (fileName : Option AnyText) {size : Option Number}
    (h : ∀ n ∈ size, n.isBetween minFontSize maxFontSize = true) :
    Request.read (payload markdown fileName size) =
      .ok ⟨markdown, fileName, size.map fun n => .real n.toBinary64⟩ := by
  have hname : fileName? (fileName.elim .null .ofText) = some fileName := by
    rcases fileName with _ | s | t <;> rfl
  have hsize : fontSize? (size.elim .null .number) =
      some (size.map fun n => .real n.toBinary64) := by
    cases size with
    | none => rfl
    | some n =>
      obtain ⟨hreal, hbetween⟩ := realNumber?_of_isBetween (h n rfl)
      have hvalue : (Value.number n).optionalNumber? = some (some (.real n.toBinary64)) :=
        congrArg (Option.map fun x => some (Number.real x)) hreal
      rw [fontSize?, Option.elim_some, hvalue]
      exact Option.filter_some_pos hbetween
  have hmarkdown : (payload markdown fileName size).field? "markdown" = some markdown := rfl
  have hfile : (payload markdown fileName size).field? "filename" =
      some (fileName.elim .null .ofText) := rfl
  have hpoints : (payload markdown fileName size).field? "font_size" =
      some (size.elim .null .number) := rfl
  rw [Request.read]
  dsimp only
  rw [hmarkdown, hfile, hpoints, Option.getD_some, Option.getD_some, Option.getD_some, hname, hsize]
  rfl

/-- Every text, file name and size that may be asked for makes a valid request. Valid requests and
uploads have exactly one answer each, told by the first thing that is wrong with them. An upload
that is accepted is answered as a request with its text, its name and its size. Nothing is left
unhandled but requests with surrogates in their text or their file name. -/
theorem answers_iff (p : Pipeline) (c : Configuration) :
    (∀ markdown fileName size,
      (∀ n ∈ size, Number.isBetween minFontSize maxFontSize n = true) →
      Request.read (payload markdown fileName size) =
        .ok ⟨markdown, fileName, size.map fun n => .real n.toBinary64⟩) ∧
    (∀ body r, Request.read body = .ok r →
      (∀ response, convertText p c body = response ↔ Answers p c r response) ∧
      (convertText p c body = .unhandled →
        (∃ t, r.markdown = .broken t) ∨ ∃ t, r.fileName = some (.broken t))) ∧
    (∀ fileName contents size,
      (∀ response, convertFile p c fileName contents size = response ↔
        UploadAnswers p c fileName contents size response) ∧
      convertFile p c fileName contents size ≠ .unhandled) ∧
    ∀ fileName (s : String) size body, NamesMarkdown fileName →
      Request.read body = .ok ⟨.string s, fileName.map .whole, size⟩ →
      convertFile p c fileName s.toUTF8 size = convertText p c body := by
  refine ⟨fun markdown fileName size => read_payload markdown fileName, ?_,
    fun _ _ _ => ⟨fun _ => convertFile_eq_iff, convertFile_ne_unhandled⟩, ?_⟩
  · intro body r hread
    rw [convertText_read hread]
    exact ⟨fun _ => convert_eq_iff, exists_broken_of_unhandled⟩
  · intro fileName s size body hfile hread
    rw [convertText_read hread, convertFile_text hfile]

/-- A text is refused for its length and for a pipeline that makes nothing, and is converted in an
upload with its name in capitals as in a request. -/
theorem answers_iff_note :
    let size : Option Number := some (.int 12)
    let body := payload (.string "é") (some (.whole "Notes.MD")) size
    let read : Option Number := some (.real (.ofInt 12))
    (∀ n ∈ size, n.isBetween minFontSize maxFontSize = true) ∧ NamesMarkdown (some "Notes.MD") ∧
    Request.read body = .ok ⟨.string "é", some (.whole "Notes.MD"), read⟩ ∧
    convertText {} { maxKilobytes := 0 } body = .refused 413 "Markdown exceeds 0 KB" ∧
    convertText .unreading {} body = .refused 500 "Failed to convert markdown to docx" ∧
    convertFile {} {} (some "Notes.MD") "é".toUTF8 read = convertText {} {} body := by
  intro size body read
  have hsize : ∀ n ∈ size, n.isBetween minFontSize maxFontSize = true := by decide
  have hfile : NamesMarkdown (some "Notes.MD") := by decide
  have hread : Request.read body = .ok ⟨.string "é", some (.whole "Notes.MD"), read⟩ :=
    (answers_iff {} {}).1 _ _ size hsize
  refine ⟨hsize, hfile, hread, ?_, ?_, ?_⟩
  · refine (((answers_iff {} { maxKilobytes := 0 }).2.1 body _ hread).1 _).mpr ?_
    exact .tooLong rfl (by decide)
  · refine (((answers_iff .unreading {}).2.1 body _ hread).1 _).mpr (.failed rfl (by decide) nofun ?_)
    rintro package ⟨root, ⟨⟩, -⟩
  · exact (answers_iff {} {}).2.2.2 _ _ _ body hfile hread

/-- A lone surrogate is a text of JSON, but its length cannot be taken. -/
theorem not_always_answered :
    ¬ ∀ text body r, Json.read? text = some body → Request.read body = .ok r →
      convertText {} {} body ≠ .unhandled := by
  intro h
  have hbroken : (Json.read? "\x7b\"markdown\": \"\\ud800\"\x7d").any (fun body =>
      (Request.read body).toOption.any fun r => (isTooLarge? {} r.markdown).isNone) = true := by
    decide +kernel
  obtain ⟨body, hbody, hbroken⟩ := (Option.any_eq_true _ _).mp hbroken
  cases hread : Request.read body with
  | error fields =>
    rw [hread] at hbroken
    cases hbroken
  | ok r =>
    rw [hread] at hbroken
    have hunmeasured : isTooLarge? {} r.markdown = none := Option.isNone_iff_eq_none.mp hbroken
    refine h _ body r hbody hread ?_
    rw [convertText_read hread, convert, hunmeasured]

end Service
end MarkdownWord
