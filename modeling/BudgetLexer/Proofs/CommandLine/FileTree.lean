import BudgetLexer.CommandLine.FileTree
import BudgetLexer.Proofs.Spelling
import Mathlib.Data.List.Infix

/-!
# What a path leads to

A path is followed name by name, from the root on or from the working directory on. Where its names lead
down, following it comes to reading off what stands at the place that they name: the places on the way
need no look of their own, since what is on the way to something is a directory.

* `FileTree.walk_eq_entry`: names that lead down lead to what stands at their place.
* **`FileTree.find_eq_entry`**: so does a path of such names, after any number of names that lead up;
  `find_here` for the two ways to name a place.
* `FileTree.TooLong`: a path that is too long to be followed; `find_eq_tooLong_iff`.
-/

namespace BudgetLexer

namespace FileTree

variable {tree : FileTree} {place rest names : List Text}

/-! ## Places -/

theorem isDirectory_nil (tree : FileTree) : tree.isDirectory [] = true := by
  simp [isDirectory]

theorem isDirectory_iff : tree.isDirectory place = true ↔
    place <+: tree.workingDirectory ∨ (∃ d ∈ tree.directories, place <+: d) ∨
      ∃ f ∈ tree.files, place <+: f.1 ∧ place ≠ f.1 := by
  simp [isDirectory, or_assoc]

theorem isDirectory_mono (h : tree.isDirectory rest = true) (hp : place <+: rest) :
    tree.isDirectory place = true := by
  rw [isDirectory_iff] at h ⊢
  obtain h | ⟨d, hd, h⟩ | ⟨f, hf, h, hne⟩ := h
  · exact .inl (hp.trans h)
  · exact .inr (.inl ⟨d, hd, hp.trans h⟩)
  · refine .inr (.inr ⟨f, hf, hp.trans h, ?_⟩)
    rintro rfl
    exact hne (h.eq_of_length (h.length_le.antisymm hp.length_le))

theorem mem_files_of_file? {bytes : ByteArray} (h : tree.file? place = some bytes) :
    (place, bytes) ∈ tree.files :=
  List.mem_reverse.1 (mem_of_lookup h)

/-- What is on the way to a file is a directory. -/
theorem isDirectory_of_file? {bytes : ByteArray} (h : tree.file? (place ++ rest) = some bytes)
    (hne : rest ≠ []) : tree.isDirectory place = true :=
  isDirectory_iff.2
    (.inr (.inr ⟨_, mem_files_of_file? h, place.prefix_append rest, by simpa using hne⟩))

theorem entry_of_isDirectory (h : tree.isDirectory place = true) : tree.entry place = .directory :=
  if_pos h

theorem entry_eq_directory_iff : tree.entry place = .directory ↔ tree.isDirectory place = true := by
  refine ⟨fun h => ?_, entry_of_isDirectory⟩
  by_contra hd
  rw [entry, if_neg hd] at h
  split at h <;> cases h

theorem entry_append_of_not_isDirectory (h : ¬ tree.isDirectory place = true) (hne : rest ≠ []) :
    tree.entry (place ++ rest) = .missing := by
  have hd : ¬ tree.isDirectory (place ++ rest) = true := fun hd =>
    h (isDirectory_mono hd (place.prefix_append rest))
  rw [entry, if_neg hd]
  cases hf : tree.file? (place ++ rest) with
  | none => rfl
  | some bytes => exact absurd (isDirectory_of_file? hf hne) h

/-! ## Following names -/

/-- **Names that lead down**: none is `..`, and none is too long to be looked up. -/
def LeadsDown (names : List Text) : Prop :=
  ∀ name ∈ names, name ≠ ['.', '.'] ∧ name.utf8Size ≤ nameLimit

variable {name : Text}

theorem walk_up (tree : FileTree) (place names : List Text) :
    tree.walk place (['.', '.'] :: names) = tree.walk place.dropLast names := if_pos rfl

theorem walk_long (h : nameLimit < name.utf8Size) : tree.walk place (name :: names) = .tooLong := by
  have hup : name ≠ ['.', '.'] := by
    rintro rfl
    exact absurd h (by decide)
  rw [walk, if_neg hup, if_pos h]

theorem walk_down (hup : name ≠ ['.', '.']) (hs : name.utf8Size ≤ nameLimit)
    (hd : tree.isDirectory (place ++ [name]) = true) :
    tree.walk place (name :: names) = tree.walk (place ++ [name]) names := by
  rw [walk, if_neg hup, if_neg hs.not_gt, entry_of_isDirectory hd]

theorem walk_stop (hup : name ≠ ['.', '.']) (hs : name.utf8Size ≤ nameLimit)
    (hd : ¬ tree.isDirectory (place ++ [name]) = true) :
    tree.walk place (name :: names) =
      if names.isEmpty then tree.entry (place ++ [name]) else .missing := by
  rw [walk, if_neg hup, if_neg hs.not_gt]
  cases h : tree.entry (place ++ [name]) with
  | directory => exact absurd (entry_eq_directory_iff.1 h) hd
  | missing | file | tooLong => rfl

/-- **Names that lead down lead to what stands at their place.** -/
theorem walk_eq_entry (hd : tree.isDirectory place = true) (hn : LeadsDown names) :
    tree.walk place names = tree.entry (place ++ names) := by
  induction names generalizing place with
  | nil => rw [List.append_nil, entry_of_isDirectory hd, walk]
  | cons name names ih =>
    obtain ⟨⟨hup, hs⟩, hn⟩ := List.forall_mem_cons.1 hn
    rw [List.append_cons]
    by_cases hname : tree.isDirectory (place ++ [name]) = true
    · rw [walk_down hup hs hname, ih hname hn]
    rw [walk_stop hup hs hname]
    cases names with
    | nil =>
      rw [List.append_nil]
      rfl
    | cons name' names =>
      rw [entry_append_of_not_isDirectory hname (List.cons_ne_nil _ _)]
      rfl

theorem walk_ups (tree : FileTree) (place names : List Text) (k : Nat) :
    tree.walk place (List.replicate k ['.', '.'] ++ names) =
      tree.walk (place.take (place.length - k)) names := by
  induction k generalizing place with
  | zero =>
    rw [Nat.sub_zero, List.take_length]
    rfl
  | succ k ih =>
    rw [List.replicate_succ, List.cons_append, walk_up, ih, List.length_dropLast,
      List.dropLast_eq_take, List.take_take]
    congr 2
    omega

/-! ## Paths -/

theorem isDirectory_start (tree : FileTree) (a : Anchor) : tree.isDirectory (tree.start a) = true := by
  cases a with
  | here => exact isDirectory_iff.2 (.inl List.prefix_rfl)
  | slash | twoSlashes => exact isDirectory_nil tree

variable {p : Path}

/-- **A path is looked up from where it begins.** If it first leads `k` directories up and then only
down, it leads to what stands at its place. -/
theorem find_eq_entry {k : Nat} (hp : p.text.utf8Size ≤ pathLimit)
    (hk : p.names = List.replicate k ['.', '.'] ++ names) (hn : LeadsDown names) :
    tree.find p =
      tree.entry ((tree.start p.anchor).take ((tree.start p.anchor).length - k) ++ names) := by
  rw [find, if_neg hp.not_gt, hk, walk_ups]
  exact walk_eq_entry (isDirectory_mono (isDirectory_start tree p.anchor) (List.take_prefix ..)) hn

example :
    let tree : FileTree := ⟨[], [([['t'], ['f']], ⟨#[]⟩)], [['w']]⟩
    tree.find (.ofText "/t/f".toList) = .file ⟨#[]⟩ ∧
      tree.find (.ofText "../t/f".toList) = .file ⟨#[]⟩ ∧
      tree.find (.ofText "t/f".toList) = .missing := ⟨rfl, rfl, rfl⟩

/-- A path from the working directory leads where the path from the root leads that has the names of
the working directory before it. -/
theorem find_here (hn : LeadsDown (tree.workingDirectory ++ names))
    (hp : (Path.mk .slash (tree.workingDirectory ++ names)).text.utf8Size ≤ pathLimit)
    (hp' : (Path.mk .here names).text.utf8Size ≤ pathLimit) :
    tree.find ⟨.here, names⟩ = tree.find ⟨.slash, tree.workingDirectory ++ names⟩ := by
  have hn' : LeadsDown names := (List.forall_mem_append.1 hn).2
  rw [find_eq_entry (p := ⟨.here, names⟩) (k := 0) hp' rfl hn', find_eq_entry (k := 0) hp rfl hn]
  simp [start]

/-! ## Paths that are too long -/

/-- **A path that is too long to be followed**: as a whole, or because of a name that is to be looked
up in a directory. -/
inductive TooLong (tree : FileTree) (p : Path) : Prop
  | path (h : pathLimit < p.text.utf8Size)
  | name {before name after} (hnames : p.names = before ++ name :: after)
    (hd : tree.walk (tree.start p.anchor) before = .directory) (h : nameLimit < name.utf8Size)

/-- A name that is not too long leads on from some directory, or it ends the walk. -/
theorem walk_cons (tree : FileTree) (place : List Text) (hs : name.utf8Size ≤ nameLimit) :
    (∃ place', ∀ names, tree.walk place (name :: names) = tree.walk place' names) ∨
      ∀ names, tree.walk place (name :: names) ≠ .directory ∧
        tree.walk place (name :: names) ≠ .tooLong := by
  by_cases hup : name = ['.', '.']
  · subst hup
    exact .inl ⟨place.dropLast, walk_up tree place⟩
  by_cases hd : tree.isDirectory (place ++ [name]) = true
  · exact .inl ⟨place ++ [name], fun _ => walk_down hup hs hd⟩
  refine .inr fun names => ?_
  rw [walk_stop hup hs hd, entry, if_neg hd]
  cases names <;> cases tree.file? (place ++ [name]) <;> simp

theorem walk_append_long {before after : List Text} (hd : tree.walk place before = .directory)
    (h : nameLimit < name.utf8Size) : tree.walk place (before ++ name :: after) = .tooLong := by
  induction before generalizing place with
  | nil => exact walk_long h
  | cons name' before ih =>
    by_cases hs : name'.utf8Size ≤ nameLimit
    · obtain ⟨place', hw⟩ | hw := walk_cons tree place hs
      · rw [List.cons_append, hw, ih ((hw before).symm.trans hd)]
      · exact absurd hd (hw before).1
    · rw [walk_long (not_le.1 hs)] at hd
      cases hd

theorem exists_of_walk_eq_tooLong (h : tree.walk place names = .tooLong) :
    ∃ before name after, names = before ++ name :: after ∧
      tree.walk place before = .directory ∧ nameLimit < name.utf8Size := by
  induction names generalizing place with
  | nil => cases h
  | cons name names ih =>
    by_cases hs : name.utf8Size ≤ nameLimit
    · obtain ⟨place', hw⟩ | hw := walk_cons tree place hs
      · obtain ⟨before, name', after, rfl, hd, hlong⟩ := ih ((hw names).symm.trans h)
        exact ⟨name :: before, name', after, rfl, (hw before).trans hd, hlong⟩
      · exact absurd h (hw names).2
    · exact ⟨[], name, names, rfl, rfl, not_le.1 hs⟩

theorem find_eq_tooLong_iff : tree.find p = .tooLong ↔ TooLong tree p := by
  rw [find]
  split
  · next hp => exact iff_of_true rfl (.path hp)
  next hp =>
  constructor
  · intro h
    obtain ⟨before, name, after, hnames, hd, hlong⟩ := exists_of_walk_eq_tooLong h
    exact .name hnames hd hlong
  · intro h
    cases h with
    | path h => exact absurd h hp
    | name hnames hd hlong => rw [hnames, walk_append_long hd hlong]

end FileTree

end BudgetLexer
