import MarkdownWord.FileTree
import MarkdownWord.Proofs.Outcomes

/-!
# What stays when a file tree changes

Making directories changes no file and takes away no directory: the tree only grows. Writing a
document changes the contents of one place and of no other. A path that can be followed in a tree
leads to the same place in every tree that it grows to.
-/

namespace MarkdownWord

namespace FileTree

variable {t u v : FileTree} {l m : Location} {e : Entry} {p : Path}

/-- The contents of the file at a place, if there is one. -/
def contents? (t : FileTree) (l : Location) : Option Contents :=
  match t.at? l with
  | some (.file c) => some c
  | _ => none

/-- No file is new, changed or gone. -/
def SameFiles (t u : FileTree) : Prop := ∀ l, u.contents? l = t.contents? l

/-- One file has the contents that it is to have, and all others are as before. -/
structure Rewritten (t u : FileTree) (l : Location) (c : Contents) : Prop where
  written : u.contents? l = some c
  others : ∀ m, m ≠ l → u.contents? m = t.contents? m

/-- A later tree with the same files, in which every directory is still one. -/
structure Grows (t u : FileTree) : Prop where
  contents : t.SameFiles u
  directory : ∀ l, t.at? l = some .directory → u.at? l = some .directory

theorem Grows.refl (t : FileTree) : t.Grows t := ⟨fun _ => rfl, fun _ h => h⟩

theorem Grows.trans (h : t.Grows u) (h' : u.Grows v) : t.Grows v :=
  ⟨fun l => (h'.contents l).trans (h.contents l), fun l hl => h'.directory l (h.directory l hl)⟩

/-! ## Places -/

theorem at?_of_below_nil (h : l.below = []) : t.at? l = some .directory := by
  rw [at?, h]
  rfl

theorem at?_put_self (h : l.below ≠ []) : (t.put l e).at? l = some e := by
  have hfind : (t.put l e).entries.find? (·.1 == l) = some (l, e) := by
    have hbefore : (t.entries.filter (·.1 != l)).find? (·.1 == l) = none := by
      simp
    rw [put, List.find?_append, hbefore, Option.none_or]
    simp
  rw [at?, if_neg (by simpa using h), hfind]

theorem find?_put_of_ne (h : m ≠ l) :
    (t.put l e).entries.find? (·.1 == m) = t.entries.find? (·.1 == m) := by
  have hnew : ([(l, e)] : List (Location × Entry)).find? (·.1 == m) = none := by
    simp [Ne.symm h]
  have hold : (fun x : Location × Entry => decide ((x.1 != l) = true ∧ (x.1 == m) = true)) =
      fun x => x.1 == m := by
    funext x
    by_cases hx : x.1 = m
    · simp [hx, h]
    · simp [hx]
  rw [put, List.find?_append, hnew, Option.or_none, List.find?_filter]
  exact congrArg (List.find? · t.entries) hold

theorem any_isAbove_put : ((t.put l e).entries.any fun x => m.isAbove x.1) =
    ((t.entries.any fun x => m.isAbove x.1) || m.isAbove l) := by
  rw [Bool.eq_iff_iff]
  simp only [put, List.any_append, List.any_cons, List.any_nil, Bool.or_false, Bool.or_eq_true,
    List.any_eq_true, List.mem_filter, bne_iff_ne]
  constructor
  · rintro (⟨x, ⟨hx, -⟩, habove⟩ | habove)
    · exact .inl ⟨x, hx, habove⟩
    · exact .inr habove
  · rintro (⟨x, hx, habove⟩ | habove)
    · by_cases heq : x.1 = l
      · exact .inr (heq ▸ habove)
      · exact .inl ⟨x, ⟨hx, heq⟩, habove⟩
    · exact .inr habove

/-- At another place a tree with a new entry has what it had before, or a directory that the new
entry lies in. -/
theorem at?_put_of_ne (h : m ≠ l) : (t.put l e).at? m =
    (t.at? m).or (if m.isAbove l then some .directory else none) := by
  cases hbelow : m.below.isEmpty with
  | true => simp only [at?, hbelow, if_true, Option.some_or]
  | false =>
    simp only [at?, hbelow, Bool.false_eq_true, if_false, find?_put_of_ne h, any_isAbove_put]
    cases t.entries.find? (·.1 == m) with
    | some x => rfl
    | none =>
      cases t.entries.any fun x => m.isAbove x.1 with
      | true => rfl
      | false => rfl

theorem contents?_put_self {c : Contents} (h : l.below ≠ []) :
    (t.put l (.file c)).contents? l = some c := by
  rw [contents?, at?_put_self h]

theorem contents?_put_of_ne (h : m ≠ l) : (t.put l e).contents? m = t.contents? m := by
  rw [contents?, at?_put_of_ne h, contents?]
  cases t.at? m with
  | some e => rfl
  | none =>
    rw [Option.none_or]
    split
    · next habove => split at habove <;> cases habove
    · rfl

theorem rewritten_put (h : t.Grows u) (hplace : u.at? l ≠ some .directory) (c : Contents) :
    t.Rewritten (u.put l (.file c)) l c where
  written := contents?_put_self fun hnil => hplace (at?_of_below_nil hnil)
  others m hm := (contents?_put_of_ne hm).trans (h.contents m)

theorem at?_put_directory (h : m ≠ l) (hm : t.at? m = some .directory) :
    (t.put l e).at? m = some .directory := by
  rw [at?_put_of_ne h, hm, Option.some_or]

/-- A tree grows by a directory where nothing was. -/
theorem grows_put_directory (h : t.at? l = none) : t.Grows (t.put l .directory) := by
  have hbelow : l.below ≠ [] := fun hnil => by
    rw [at?_of_below_nil hnil] at h
    cases h
  constructor
  · intro m
    by_cases hm : m = l
    · rw [hm, contents?, at?_put_self hbelow, contents?, h]
    · exact contents?_put_of_ne hm
  · intro m hdirectory
    by_cases hm : m = l
    · rw [hm] at hdirectory ⊢
      rw [h] at hdirectory
      cases hdirectory
    · exact at?_put_directory hm hdirectory

/-! ## Paths -/

theorem walk_append (l : Location) (before after : List (List Char)) :
    t.walk l (before ++ after) = t.walk l before >>= fun m => t.walk m after := by
  induction before generalizing l with
  | nil => rfl
  | cons c before ih =>
    rw [List.cons_append, walk, walk]
    cases t.at? l with
    | none => rfl
    | some e =>
      cases e with
      | file contents => rfl
      | directory =>
        dsimp only
        split
        · exact ih l.above
        split
        · rfl
        · exact ih (l.child c)

/-- A step of a walk leads out of a directory, up or down. -/
theorem walk_cons_eq_ok_iff {c : List Char} {cs : List (List Char)} :
    t.walk l (c :: cs) = .ok m ↔ t.at? l = some .directory ∧
      (c = ['.', '.'] ∧ t.walk l.above cs = .ok m ∨
        c ≠ ['.', '.'] ∧ size c ≤ maxName ∧ t.walk (l.child c) cs = .ok m) := by
  rw [walk]
  cases t.at? l with
  | none => exact iff_of_false nofun (by rintro ⟨⟨⟩, -⟩)
  | some e =>
    cases e with
    | file contents => exact iff_of_false nofun (by rintro ⟨⟨⟩, -⟩)
    | directory =>
      dsimp only
      by_cases hup : c = ['.', '.']
      · rw [if_pos hup]
        constructor
        · intro h
          exact ⟨rfl, .inl ⟨hup, h⟩⟩
        · rintro ⟨-, ⟨-, h⟩ | ⟨hne, -⟩⟩
          · exact h
          · exact absurd hup hne
      rw [if_neg hup]
      by_cases hsize : maxName < size c
      · rw [if_pos hsize]
        refine iff_of_false nofun ?_
        rintro ⟨-, ⟨heq, -⟩ | ⟨-, hle, -⟩⟩
        · exact hup heq
        · exact Nat.not_le_of_lt hsize hle
      · rw [if_neg hsize]
        constructor
        · intro h
          exact ⟨rfl, .inr ⟨hup, Nat.le_of_not_lt hsize, h⟩⟩
        · rintro ⟨-, ⟨heq, -⟩ | ⟨-, -, h⟩⟩
          · exact absurd heq hup
          · exact h

/-- A walk through directories leads to the same place in every tree that has these directories. -/
theorem walk_of_directories (h : ∀ l, t.at? l = some .directory → u.at? l = some .directory)
    {cs : List (List Char)} (hwalk : t.walk l cs = .ok m) : u.walk l cs = .ok m := by
  induction cs generalizing l with
  | nil => exact hwalk
  | cons c cs ih =>
    obtain ⟨hplace, hup | hdown⟩ := walk_cons_eq_ok_iff.mp hwalk
    · exact walk_cons_eq_ok_iff.mpr ⟨h l hplace, .inl ⟨hup.1, ih hup.2⟩⟩
    · exact walk_cons_eq_ok_iff.mpr ⟨h l hplace, .inr ⟨hdown.1, hdown.2.1, ih hdown.2.2⟩⟩

/-- Where a path is followed from. -/
def start (root : Nat) : Location := ⟨if root = 0 then .working 0 else .root, []⟩

theorem locate_eq_ok_iff : t.locate p = .ok l ↔ '\x00' ∉ p.text ∧ size p.text ≤ maxPath ∧
    t.walk (start p.root) p.components = .ok l := by
  rw [locate]
  by_cases hnul : p.text.contains '\x00' = true
  · rw [if_pos hnul]
    exact iff_of_false nofun fun h => h.1 (List.contains_iff_mem.mp hnul)
  rw [if_neg hnul]
  by_cases hsize : maxPath < size p.text
  · rw [if_pos hsize]
    exact iff_of_false nofun fun h => Nat.not_le_of_lt hsize h.2.1
  rw [if_neg hsize]
  exact ⟨fun h => ⟨fun hmem => hnul (List.contains_iff_mem.mpr hmem), Nat.le_of_not_lt hsize, h⟩,
    fun h => h.2.2⟩

theorem locate_of_directories (h : ∀ l, t.at? l = some .directory → u.at? l = some .directory)
    (hlocate : t.locate p = .ok l) : u.locate p = .ok l := by
  obtain ⟨hnul, hsize, hwalk⟩ := locate_eq_ok_iff.mp hlocate
  exact locate_eq_ok_iff.mpr ⟨hnul, hsize, walk_of_directories h hwalk⟩

/-- A path leads to the same place in a tree that has grown. -/
theorem Grows.locate (h : t.Grows u) (hlocate : t.locate p = .ok l) : u.locate p = .ok l :=
  locate_of_directories h.directory hlocate

/-- A path leads to the same place when something is put where no directory is. -/
theorem locate_put (h : t.at? m ≠ some .directory) (hlocate : t.locate p = .ok l) :
    (t.put m e).locate p = .ok l := by
  refine locate_of_directories (fun k hk => at?_put_directory ?_ hk) hlocate
  rintro rfl
  exact h hk

theorem entry_eq_ok_iff : t.entry p = .ok e ↔ ∃ l, t.locate p = .ok l ∧ t.at? l = some e := by
  rw [entry]
  cases t.locate p with
  | error problem => exact iff_of_false nofun (by rintro ⟨l, ⟨⟩, -⟩)
  | ok l =>
    rw [ok_bind]
    constructor
    · intro h
      cases hplace : t.at? l with
      | none => rw [hplace] at h; cases h
      | some e' =>
        rw [hplace] at h
        exact ⟨l, rfl, hplace.trans (congrArg some (Except.ok.inj h))⟩
    · rintro ⟨m, ⟨⟩, hplace⟩
      rw [hplace]
      rfl

theorem entry_put {c : Contents} (hlocate : t.locate p = .ok l) (h : t.at? l ≠ some .directory) :
    (t.put l (.file c)).entry p = .ok (.file c) := by
  have hplace : (t.put l (.file c)).at? l = some (.file c) :=
    at?_put_self fun hnil => h (at?_of_below_nil hnil)
  exact entry_eq_ok_iff.mpr ⟨l, locate_put h hlocate, hplace⟩

/-- A path to a file has a name. -/
theorem components_of_locate_file {c : Contents} (h : t.locate p = .ok l)
    (hfile : t.contents? l = some c) : ∃ before name, p.components = before ++ [name] := by
  have hnonempty : p.components ≠ [] := by
    intro hnil
    have hwalk := (locate_eq_ok_iff.mp h).2.2
    rw [hnil, walk] at hwalk
    obtain rfl : start p.root = l := Except.ok.inj hwalk
    rw [contents?, at?_of_below_nil rfl] at hfile
    cases hfile
  exact ⟨_, _, (List.dropLast_concat_getLast hnonempty).symm⟩

theorem walk_concat {before : List (List Char)} {name : List Char}
    (h : t.walk l (before ++ [name]) = .ok m) : ∃ d, t.walk l before = .ok d ∧
      t.at? d = some .directory ∧
      (name = ['.', '.'] ∧ m = d.above ∨
        name ≠ ['.', '.'] ∧ size name ≤ maxName ∧ m = d.child name) := by
  rw [walk_append] at h
  cases hd : t.walk l before with
  | error problem => rw [hd] at h; cases h
  | ok d =>
    rw [hd, ok_bind, walk_cons_eq_ok_iff] at h
    obtain ⟨hplace, ⟨hname, hm⟩ | ⟨hname, hsize, hm⟩⟩ := h
    · exact ⟨d, rfl, hplace, .inl ⟨hname, (Except.ok.inj hm).symm⟩⟩
    · exact ⟨d, rfl, hplace, .inr ⟨hname, hsize, (Except.ok.inj hm).symm⟩⟩

theorem size_le_of_locate {root : Nat} {before : List (List Char)} {name : List Char}
    (h : t.locate ⟨root, before ++ [name]⟩ = .ok l) : size name ≤ maxName := by
  obtain ⟨d, -, -, ⟨rfl, -⟩ | ⟨-, hsize, -⟩⟩ := walk_concat (locate_eq_ok_iff.mp h).2.2
  · decide
  · exact hsize

theorem above_ne_child (d : Location) (name : List Char) : d.above ≠ d.child name := by
  intro h
  have habove : d.above.below.length ≤ d.below.length := by
    unfold Location.above
    split
    · split <;> simp
    · simp
  rw [h, Location.child, List.length_append, List.length_singleton] at habove
  omega

/-- Places that one directory has under different names are different. -/
theorem locate_ne_of_name_ne {root : Nat} {before : List (List Char)} {a b : List Char}
    (h : ∀ l, t.at? l = some .directory → u.at? l = some .directory)
    (ha : t.locate ⟨root, before ++ [a]⟩ = .ok l)
    (hb : u.locate ⟨root, before ++ [b]⟩ = .ok m) (hne : a ≠ b) : l ≠ m := by
  obtain ⟨d, hd, -, hl⟩ := walk_concat (locate_eq_ok_iff.mp ha).2.2
  obtain ⟨d', hd', -, hm⟩ := walk_concat (locate_eq_ok_iff.mp hb).2.2
  rw [walk_of_directories h hd] at hd'
  obtain rfl := Except.ok.inj hd'
  obtain ⟨rfl, rfl⟩ | ⟨-, -, rfl⟩ := hl
  · obtain ⟨rfl, -⟩ | ⟨-, -, rfl⟩ := hm
    · exact absurd rfl hne
    · exact above_ne_child d b
  · obtain ⟨-, rfl⟩ | ⟨-, -, rfl⟩ := hm
    · exact (above_ne_child d a).symm
    · intro h
      have hbelow := congrArg Location.below h
      exact hne (List.singleton_inj.mp (List.append_cancel_left hbelow))

/-! ## The directory of a path -/

theorem intercalate_isPrefix (before : List (List Char)) (name : List Char) :
    ['/'].intercalate before <+: ['/'].intercalate (before ++ [name]) := by
  induction before with
  | nil => exact List.nil_prefix
  | cons c before ih =>
    cases before with
    | nil =>
      rw [List.intercalate_singleton, List.singleton_append, List.intercalate_cons_cons,
        List.append_assoc]
      exact List.prefix_append _ _
    | cons d before =>
      rw [List.cons_append, List.cons_append, List.intercalate_cons_cons,
        List.intercalate_cons_cons]
      exact List.prefix_append_right_inj _ |>.mpr ih

theorem text_parent (root : Nat) (before : List (List Char)) (name : List Char) :
    (⟨root, before⟩ : Path).text = ['.'] ∨
      (⟨root, before⟩ : Path).text <+: (⟨root, before ++ [name]⟩ : Path).text := by
  have hnamed : (⟨root, before ++ [name]⟩ : Path).text =
      List.replicate root '/' ++ ['/'].intercalate (before ++ [name]) :=
    if_neg (by simp)
  rw [hnamed, Path.text]
  split
  · exact .inl rfl
  · exact .inr ((List.prefix_append_right_inj _).mpr (intercalate_isPrefix before name))

theorem size_le_of_isPrefix {a b : List Char} (h : a <+: b) : size a ≤ size b := by
  obtain ⟨rest, rfl⟩ := h
  rw [size, size, String.ofList_append, String.utf8ByteSize_append]
  omega

/-- The directory of a path that can be followed. -/
theorem entry_parent {root : Nat} {before : List (List Char)} {name : List Char}
    (h : t.locate ⟨root, before ++ [name]⟩ = .ok l) :
    t.entry ⟨root, before⟩ = .ok .directory := by
  obtain ⟨hnul, hsize, hwalk⟩ := locate_eq_ok_iff.mp h
  obtain ⟨d, hd, hdirectory, -⟩ := walk_concat hwalk
  refine entry_eq_ok_iff.mpr ⟨d, locate_eq_ok_iff.mpr ⟨?_, ?_, hd⟩, hdirectory⟩
  · obtain hdot | hfront := text_parent root before name
    · rw [hdot]
      decide
    · exact fun hmem => hnul (hfront.subset hmem)
  · obtain hdot | hfront := text_parent root before name
    · rw [hdot]
      decide
    · exact Nat.le_trans (size_le_of_isPrefix hfront) hsize

/-! ## Writing -/

theorem writeDocument_eq_ok_iff {package : Word.Package} :
    t.writeDocument p package = .ok u ↔ ∃ l, t.locate p = .ok l ∧ t.at? l ≠ some .directory ∧
      u = t.put l (.file (.document package)) := by
  rw [writeDocument]
  cases hlocate : t.locate p with
  | error problem => exact iff_of_false nofun (by rintro ⟨l, ⟨⟩, -⟩)
  | ok l =>
    rw [ok_bind]
    split
    · next hplace =>
      refine iff_of_false nofun ?_
      rintro ⟨m, ⟨⟩, hfree, -⟩
      exact hfree hplace
    · next hfree =>
      constructor
      · rintro ⟨⟩
        exact ⟨l, rfl, hfree, rfl⟩
      · rintro ⟨m, ⟨⟩, -, rfl⟩
        rfl

/-! ## Making directories -/

theorem Grows.of_makeDirectory (h : t.makeDirectory p = .ok u) : t.Grows u := by
  rw [makeDirectory] at h
  cases hplace : t.locate p with
  | error problem => rw [hplace] at h; cases h
  | ok l =>
    rw [hplace, ok_bind] at h
    cases hentry : t.at? l with
    | some e => rw [hentry] at h; cases h
    | none =>
      rw [hentry] at h
      dsimp only at h
      split at h
      · cases h
        exact grows_put_directory hentry
      · cases h
      · cases h

/-! ## A tree of one file -/

/-- A tree of one file with a text, in the working directory. -/
def holding (name text : String) : FileTree :=
  ⟨[(⟨.working 0, [name.toList]⟩, .file (.octets text.toUTF8))]⟩

theorem entry_holding {name text : String} (hplain : Path.read name.toList = ⟨0, [name.toList]⟩)
    (hnul : '\x00' ∉ name.toList) (hsize : size name.toList ≤ maxName)
    (hup : name.toList ≠ ['.', '.']) :
    (holding name text).entry (Path.read name.toList) = .ok (.file (.octets text.toUTF8)) := by
  have htext : (⟨0, [name.toList]⟩ : Path).text = name.toList := by
    rw [Path.text, if_neg (by simp), List.intercalate_singleton]
    rfl
  have hwalk : (holding name text).walk (start 0) [name.toList] =
      .ok ⟨.working 0, [name.toList]⟩ :=
    walk_cons_eq_ok_iff.mpr ⟨at?_of_below_nil rfl, .inr ⟨hup, hsize, rfl⟩⟩
  rw [hplain]
  refine entry_eq_ok_iff.mpr ⟨⟨.working 0, [name.toList]⟩, locate_eq_ok_iff.mpr ⟨?_, ?_, hwalk⟩, ?_⟩
  · rwa [htext]
  · rw [htext]
    exact Nat.le_trans hsize (by decide)
  · rw [at?, holding]
    simp

end FileTree
end MarkdownWord
