import RobotMaze.Proofs.Storage.FileTree
import RobotMaze.Proofs.Text.Joined
import RobotMaze.Proofs.Text.Parts
import RobotMaze.Proofs.Text.Places
import RobotMaze.Proofs.Text.Scan

/-!
# Paths as the file system reads them

A path is put together from parts and written as text, and the file system takes the text apart
again, by rules of its own: slashes at the end ask for a directory, empty names do not count, and an
empty text is no path. This file shows that nothing of this matters for paths that have been read
from text themselves (`Normal`): the file system goes where the parts lead (`resolve_toText`), as
long as it takes the text at all (`Accepted`).

## Making directories

Directories are made from the path up to the first one that is there, and down again. That a file is
in the way shows in more than one place: as something that exists already, and as something that is
no directory. Where none is (`Free`), neither happens, and the only failure on the way up is that
something is missing, which is what going up is for (`makeDirectories_eq_none`).

## Main results

* `resolve_toText` — a path leads where its parts lead
* `makeDirectories_eq_none` — directories can be made where no file is in the way
* `of_makeDirectories_of_plain` — directories are made on the way only
-/

namespace RobotMaze

/-! ### Putting together -/

namespace Text

theorem intercalate_append_singleton {parts : List Text} (hne : parts ≠ []) (s last : Text) :
    List.intercalate s (parts ++ [last]) = List.intercalate s parts ++ (s ++ last) := by
  induction parts with
  | nil => exact absurd rfl hne
  | cons p parts ih =>
    cases parts with
    | nil => simp [List.intercalate]
    | cons q parts =>
      rw [List.cons_append, List.cons_append, List.intercalate_cons_cons, ← List.cons_append,
        ih (List.cons_ne_nil q parts), List.intercalate_cons_cons]
      simp only [List.append_assoc]

end Text

/-! ### The text of a path -/

namespace Path

open Text

variable {p : Path} {name : Text} {tree : FileTree}

/-- A path as it is read: its root is one of three, and its parts are names. -/
structure Normal (p : Path) : Prop where
  root : p.root = [] ∨ p.root = ['/'] ∨ p.root = ['/', '/']
  parts : ∀ part ∈ p.parts, part ≠ [] ∧ part ≠ ['.'] ∧ '/' ∉ part

theorem normal_ofText (t : Text) : (ofText t).Normal := by
  refine ⟨?_, fun part hpart => ?_⟩
  · simp only [ofText, rootOf]
    split
    · exact .inl rfl
    · exact .inr (.inr rfl)
    · exact .inr (.inl rfl)
  · obtain ⟨hmem, hplain⟩ := List.mem_filter.1 hpart
    simp only [Bool.and_eq_true, Bool.not_eq_eq_eq_not, Bool.not_true, List.isEmpty_eq_false_iff,
      decide_eq_true_eq] at hplain
    exact ⟨hplain.1, hplain.2, notMem_of_mem_splitOn hmem⟩

/-- The path of what has a name in a directory. -/
def child (p : Path) (name : Text) : Path := { p with parts := p.parts ++ [name] }

/-- Where a path starts. -/
def base (p : Path) : Location := if p.root.isEmpty then [] else .root

/-- The file system takes the text of the path. -/
structure Accepted (p : Path) : Prop where
  null : Char.ofNat 0 ∉ p.toText
  short : (Utf8.encode p.toText).length < 4096

theorem toText_of_ne_nil (h : p.parts ≠ []) :
    p.toText = p.root ++ List.intercalate ['/'] p.parts := by
  rw [toText, if_neg (by simp [h])]

/-- The text of a directory is at the front of the texts of what it holds, or it is a dot. -/
theorem toText_child (p : Path) (name : Text) :
    p.toText = ['.'] ∨ p.toText <+: (p.child name).toText := by
  rw [toText_of_ne_nil (p := p.child name) (by simp [child])]
  by_cases hparts : p.parts = []
  · cases hroot : p.root with
    | nil => simp [toText, hparts, hroot]
    | cons c root =>
      refine .inr ⟨name, ?_⟩
      simp [toText, child, hparts, hroot]
  · refine .inr ⟨'/' :: name, ?_⟩
    rw [toText_of_ne_nil hparts, child, intercalate_append_singleton hparts, List.append_assoc]
    rfl

/-- A path is accepted if that of something in the directory is. -/
theorem Accepted.of_child (h : (p.child name).Accepted) : p.Accepted := by
  rcases toText_child p name with hdot | ⟨rest, hrest⟩
  · exact ⟨by rw [hdot]; decide, by rw [hdot]; decide⟩
  · obtain ⟨hnull, hshort⟩ := h
    rw [← hrest] at hnull hshort
    rw [Utf8.encode, List.flatMap_append, List.length_append] at hshort
    exact ⟨fun hmem => hnull (List.mem_append_left _ hmem), Nat.lt_of_le_of_lt
      (Nat.le_add_right _ _) hshort⟩

theorem names_of_splitOn {t : Text} {parts : List Text} (hne : parts ≠ [])
    (hparts : ∀ part ∈ parts, part ≠ []) (slashes : List Text) (hslashes : ∀ s ∈ slashes, s = [])
    (h : List.splitOn '/' t = slashes ++ parts) : FileTree.names t = parts := by
  have hinner : (slashes ++ parts).filter (!·.isEmpty) = parts := by
    rw [List.filter_append, List.filter_eq_nil_iff.2 fun s hs => by simp [hslashes s hs],
      List.filter_eq_self.2 fun part hpart => by simpa using hparts part hpart, List.nil_append]
  have hlast : parts.getLast? ≠ some [] := fun hnil => hparts [] (List.mem_of_getLast? hnil) rfl
  simp [FileTree.names, h, hinner, hlast, hne]

/-- The file system reads the parts of a path. -/
theorem names_toText (hn : p.Normal) (hne : p.parts ≠ []) :
    FileTree.names p.toText = p.parts := by
  have hpieces := List.splitOn_intercalate '/' (fun part hpart => (hn.parts part hpart).2.2) hne
  have hslash : ∀ t, List.splitOn '/' ('/' :: t) = [] :: List.splitOn '/' t := fun t => by
    rw [List.splitOn_cons_eq_if_modifyHead, if_pos (beq_self_eq_true _)]
  have hnames := names_of_splitOn (t := p.toText) hne fun part hpart => (hn.parts part hpart).1
  rw [toText_of_ne_nil hne] at hnames ⊢
  rcases hn.root with hroot | hroot | hroot <;> rw [hroot] at hnames ⊢
  · exact hnames [] (by simp) hpieces
  · exact hnames [[]] (by simp) (by simp [hslash, hpieces])
  · exact hnames [[], []] (by simp) (by simp [hslash, hpieces])

/-- A path starts with a slash exactly if it has a root. -/
theorem head?_toText (hn : p.Normal) (hne : p.parts ≠ []) :
    p.toText.head? = some '/' ↔ p.root.isEmpty = false := by
  rw [toText_of_ne_nil hne]
  rcases hn.root with hroot | hroot | hroot
  · obtain ⟨part, parts, hparts⟩ := List.exists_cons_of_ne_nil hne
    obtain ⟨hpart, -, hslash⟩ := hn.parts part (hparts ▸ List.mem_cons_self)
    obtain ⟨c, rest, rfl⟩ := List.exists_cons_of_ne_nil hpart
    have hhead : (List.intercalate ['/'] p.parts).head? = some c := by
      rw [hparts]
      cases parts with
      | nil => simp
      | cons q parts => rw [List.intercalate_cons_cons]; rfl
    have hc : c ≠ '/' := fun hc => hslash (hc ▸ List.mem_cons_self)
    simp [hroot, hhead, hc]
  · simp [hroot]
  · simp [hroot]

/-- **A path leads where its parts lead**, from where it starts. -/
theorem resolve_toText (hn : p.Normal) (ha : p.Accepted) :
    tree.resolve p.toText = tree.walk p.base p.parts := by
  rw [FileTree.resolve, if_neg (Nat.not_le.2 ha.short)]
  by_cases hne : p.parts = []
  · -- The path is a dot or a root.
    rcases hn.root with hroot | hroot | hroot <;>
      simp [toText, base, hne, hroot, FileTree.names, List.splitOn_cons_eq_if_modifyHead,
        FileTree.walk, FileTree.get?]
  · have hempty : p.toText ≠ [] := by
      intro hnil
      have hnames := names_toText hn hne
      rw [hnil] at hnames
      exact hne hnames.symm
    rw [if_neg (by simpa using hempty), names_toText hn hne, base]
    cases hroot : p.root.isEmpty with
    | true => rw [if_neg (by simp [head?_toText hn hne, hroot]), if_pos rfl]
    | false => rw [if_pos ((head?_toText hn hne).2 hroot), if_neg (by simp)]

/-! ### Directories that can be made -/

/-- No file stands where a path needs a directory, and its parts lead down. -/
structure Free (tree : FileTree) (p : Path) : Prop where
  plain : FileTree.Plain p.parts
  free : ∀ l, l <+: p.base ++ p.parts → ∀ bytes, tree.get? l ≠ some (.file bytes)

section

variable (hne : p.parts ≠ [])
include hne

theorem child_parent : p.parent.child (p.parts.getLast hne) = p := by
  rw [child, parent]
  simp only [List.dropLast_concat_getLast hne]

theorem Accepted.parent (h : p.Accepted) : p.parent.Accepted :=
  .of_child ((child_parent hne).symm ▸ h)

end

theorem Normal.parent (h : p.Normal) : p.parent.Normal :=
  ⟨h.root, fun part hpart => h.parts part (List.dropLast_subset _ hpart)⟩

theorem plain_parent (h : FileTree.Plain p.parts) : FileTree.Plain p.parent.parts :=
  fun part hpart => h part (List.dropLast_subset _ hpart)

/-- The way to the parent is on the way. -/
theorem parent_isPrefix (p : Path) : p.parent.base ++ p.parent.parts <+: p.base ++ p.parts :=
  (List.prefix_append_right_inj _).2 (List.dropLast_prefix _)

theorem Free.parent (h : Free tree p) : Free tree p.parent :=
  ⟨plain_parent h.plain, fun l hl => h.free l (hl.trans (parent_isPrefix p))⟩

/-- A path that leads to a location, where no file is, is one of a directory or of nothing yet. -/
theorem makeDirectory_of_resolve {path : Text} {l : Location} (hr : tree.resolve path = .ok l)
    (hl : ∀ bytes, tree.get? l ≠ some (.file bytes)) :
    tree.isDirectory path = true ∨ ∃ made, tree.makeDirectory path = .ok made := by
  cases hget : tree.get? l with
  | none =>
    refine .inr ⟨tree.insert l .directory, ?_⟩
    simp [FileTree.makeDirectory, hr, hget, bind, Except.bind]
  | some e =>
    cases e with
    | file bytes => exact absurd hget (hl bytes)
    | directory => exact .inl (FileTree.isDirectory_iff.2 ⟨l, hr, hget⟩)

theorem blame_of_accepted {α : Type} (ha : p.Accepted) (result : Except FileError α) :
    FileTree.blame p.toText result = result.mapError (.file · p.toText) := by
  have hnull : p.toText.contains (Char.ofNat 0) = false := by simpa using ha.null
  cases result <;> simp only [FileTree.blame, hnull] <;> rfl

/-- What is in a directory that is there can be reached. -/
theorem resolve_of_isDirectory_parent (hn : p.Normal) (ha : p.Accepted)
    (hplain : FileTree.Plain p.parts) (hne : p.parts ≠ [])
    (hd : tree.isDirectory p.parent.toText = true) :
    tree.resolve p.toText = .ok (p.base ++ p.parts) := by
  obtain ⟨l, hl, hdir⟩ := FileTree.isDirectory_iff.1 hd
  rw [resolve_toText hn.parent (ha.parent hne)] at hl
  have hlast : FileTree.Plain [p.parts.getLast hne] := fun name hname =>
    hplain name (List.mem_singleton.1 hname ▸ List.getLast_mem hne)
  have hlocation : l = p.base ++ p.parts.dropLast :=
    FileTree.eq_append_of_walk (plain_parent hplain) hl
  have hwalk : tree.walk p.base (p.parts.dropLast ++ [p.parts.getLast hne]) =
      .ok (l ++ [p.parts.getLast hne]) := by
    rw [FileTree.walk_append, show tree.walk p.base p.parts.dropLast = .ok l from hl]
    exact FileTree.walk_cons_of_plain hlast hdir
  rw [List.dropLast_concat_getLast hne] at hwalk
  rw [resolve_toText hn ha, hwalk, hlocation, List.append_assoc, List.dropLast_concat_getLast hne]

/-- **Directories can be made** where no file stands in the way. -/
theorem makeDirectories_eq_none (hn : p.Normal) (ha : p.Accepted) (hf : Free tree p) :
    (tree.makeDirectories p).2 = none := by
  fun_induction FileTree.makeDirectories tree p with
  | case1 | case2 | case5 => rfl
  | case3 p path hdir _ hparts hmake =>
    -- A path without parts leads to a directory that is always there.
    have hresolve : tree.resolve p.toText = .ok p.base := by
      rw [resolve_toText hn ha, hparts]
      rfl
    have hfile := hf.free p.base (List.prefix_append _ _)
    rcases makeDirectory_of_resolve hresolve hfile with h | ⟨made, hmade⟩
    · exact absurd h hdir
    · rw [blame_of_accepted ha, hmade] at hmake
      cases hmake
  | case4 p path hdir _ hparts above e habove hmake ih =>
    have hnone := ih hn.parent (ha.parent hparts) hf.parent
    rw [habove] at hnone
    cases hnone
  | case6 p path hdir _ hparts above habove e hmade hmake ih =>
    have hnone := ih hn.parent (ha.parent hparts) hf.parent
    obtain ⟨hgrows, hmadeParent⟩ := tree.of_makeDirectories p.parent
    have habove' := hmadeParent hnone
    rw [habove] at hgrows habove'
    have hresolve := resolve_of_isDirectory_parent hn ha hf.plain hparts habove'
    have hfile : ∀ bytes, above.get? (p.base ++ p.parts) ≠ some (.file bytes) := by
      intro bytes hget
      rcases hgrows.adds _ _ hget with h | h
      · cases h
      · exact hf.free _ List.prefix_rfl bytes h
    rcases makeDirectory_of_resolve hresolve hfile with h | ⟨made, hok⟩
    · exact if_pos h
    · rw [blame_of_accepted ha, hok] at hmade
      cases hmade
  | case7 p path e hmake hdir hne =>
    have hwalk := FileTree.walk_of_plain hf.plain hf.free
    rw [← resolve_toText hn ha] at hwalk
    rcases hwalk with hresolve | hresolve
    · have hfile := hf.free _ List.prefix_rfl
      rcases makeDirectory_of_resolve hresolve hfile with h | ⟨made, hok⟩
      · exact absurd h hdir
      · rw [blame_of_accepted ha, hok] at hmake
        cases hmake
    · -- Something above is missing, and this failure is dealt with.
      rw [blame_of_accepted ha, FileTree.makeDirectory, hresolve] at hmake
      cases hmake
      exact (hne p.toText rfl).elim

/-- One directory is made where the parts of the path lead. -/
theorem of_makeDirectory_of_plain {made : FileTree} {l : Location} {e : Entry} (hn : p.Normal)
    (ha : p.Accepted) (hplain : FileTree.Plain p.parts)
    (hmade : tree.makeDirectory p.toText = .ok made) (h : made.get? l = some e) :
    tree.get? l = some e ∨ l = p.base ++ p.parts := by
  obtain ⟨l', hr, -, rfl⟩ := FileTree.exists_of_makeDirectory hmade
  rw [resolve_toText hn ha] at hr
  by_cases hl : l = l'
  · exact .inr (hl.trans (FileTree.eq_append_of_walk hplain hr))
  · rw [FileTree.get?_insert_of_ne hl] at h
    exact .inl h

/-- **Directories are made on the way** that the path describes, and nowhere else. -/
theorem of_makeDirectories_of_plain {l : Location} {e : Entry} (hn : p.Normal) (ha : p.Accepted)
    (hplain : FileTree.Plain p.parts) (h : (tree.makeDirectories p).1.get? l = some e) :
    tree.get? l = some e ∨ l <+: p.base ++ p.parts := by
  fun_induction FileTree.makeDirectories tree p with
  | case1 p path made hmade =>
    refine (of_makeDirectory_of_plain hn ha hplain (FileTree.ok_of_blame hmade) h).imp_right ?_
    exact fun hl => hl ▸ List.prefix_rfl
  | case2 | case3 | case7 => exact .inl h
  | case4 p path hdir _ hparts above _ habove hmake ih =>
    rw [habove] at ih
    exact (ih hn.parent (ha.parent hparts) (plain_parent hplain) h).imp_right
      (·.trans (parent_isPrefix p))
  | case5 p path hdir _ hparts above habove made hmade hmake ih =>
    rw [habove] at ih
    rcases of_makeDirectory_of_plain hn ha hplain (FileTree.ok_of_blame hmade) h with h | hl
    · exact (ih hn.parent (ha.parent hparts) (plain_parent hplain) h).imp_right
        (·.trans (parent_isPrefix p))
    · exact .inr (hl ▸ List.prefix_rfl)
  | case6 p path hdir _ hparts above habove _ hmade hmake ih =>
    rw [habove] at ih
    exact (ih hn.parent (ha.parent hparts) (plain_parent hplain) h).imp_right
      (·.trans (parent_isPrefix p))

end Path

end RobotMaze
