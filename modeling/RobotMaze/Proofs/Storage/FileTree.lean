import RobotMaze.Storage.FileTree

/-!
# What file operations leave alone

A file tree changes in two ways: a directory is made where nothing was, or a file is written where
no directory is. This file says what stays as it was.

## Walks

Of the locations on its way, a walk asks only whether they are directories. So it leads to the same
place in every tree that has these directories (`walk_of_keepsDirectories`), and no operation of a
program ever leads a path elsewhere. Names that lead down are appended to the location where a walk
starts; two dots are not among them, and nothing here is said about where they lead.

## Growing trees

Making a directory and the missing ones above it may fail half-way, and what has been made by then
stays. `Grows` is what can be said in any case: nothing is lost, and only directories are added.

## Main results

* `get?_insert_self`, `get?_insert_of_ne` — read after write
* `walk_of_keepsDirectories` — walks lead to the same place
* `walk_of_plain` — where a walk along plain names can end
* `of_makeDirectories` — what making directories does
-/

namespace RobotMaze

namespace FileTree

variable {tree tree' tree'' : FileTree} {l l' here : Location} {e : Entry}

/-! ### Read after write -/

theorem lookup_filter_ne (h : l' ≠ l) (entries : List (Location × Entry)) :
    (entries.filter (·.1 ≠ l)).lookup l' = entries.lookup l' := by
  induction entries with
  | nil => rfl
  | cons entry entries ih =>
    obtain ⟨k, e⟩ := entry
    by_cases hk : k = l
    · rw [List.filter_cons_of_neg (by simp [hk]), ih, List.lookup_cons, hk,
        beq_eq_false_iff_ne.2 h]
    · rw [List.filter_cons_of_pos (by simp [hk]), List.lookup_cons, List.lookup_cons, ih]

/-- Other locations keep what they have. -/
theorem get?_insert_of_ne (h : l' ≠ l) : (tree.insert l e).get? l' = tree.get? l' := by
  simp only [get?, insert, List.lookup_cons, beq_eq_false_iff_ne.2 h, lookup_filter_ne h]

/-- A location has what was put there last, if it is not one of those that are always
directories. -/
theorem get?_insert_self (h : tree.get? l ≠ some .directory) :
    (tree.insert l e).get? l = some e := by
  unfold get? at h ⊢
  split at h
  · exact absurd rfl h
  · rename_i hl
    rw [if_neg hl, insert, List.lookup_cons, beq_self_eq_true]

/-! ### Walks -/

theorem walk_append (xs ys : List Text) :
    tree.walk here (xs ++ ys) = (tree.walk here xs).bind (tree.walk · ys) := by
  induction xs generalizing here with
  | nil => rfl
  | cons x xs ih =>
    simp only [List.cons_append, walk]
    split
    · rfl
    · rfl
    · split
      · exact ih
      · split
        · exact ih
        · split
          · exact ih
          · rfl

/-- Every directory of the first tree is one of the second. -/
def KeepsDirectories (tree tree' : FileTree) : Prop :=
  ∀ l, tree.get? l = some .directory → tree'.get? l = some .directory

/-- **A walk leads to the same place** in a tree that has the same directories. -/
theorem walk_of_keepsDirectories {names : List Text} (h : KeepsDirectories tree tree')
    (hw : tree.walk here names = .ok l) : tree'.walk here names = .ok l := by
  induction names generalizing here with
  | nil => exact hw
  | cons name rest ih =>
    rw [walk] at hw ⊢
    split at hw
    · cases hw
    · cases hw
    · rename_i hhere
      rw [h here hhere]
      simp only
      split at hw
      · rename_i hname
        rw [if_pos hname]
        exact ih hw
      · rename_i hname
        rw [if_neg hname]
        split at hw
        · rename_i hup
          rw [if_pos hup]
          exact ih hw
        · rename_i hup
          rw [if_neg hup]
          split at hw
          · rename_i hfits
            rw [if_pos hfits]
            exact ih hw
          · cases hw

theorem resolve_of_keepsDirectories {path : Text} (h : KeepsDirectories tree tree')
    (hr : tree.resolve path = .ok l) : tree'.resolve path = .ok l := by
  unfold resolve at hr ⊢
  split at hr
  · cases hr
  · split at hr
    · cases hr
    · rename_i hne hshort
      rw [if_neg hne, if_neg hshort]
      exact walk_of_keepsDirectories h hr

/-- Names that lead down, one directory each. -/
def Plain (names : List Text) : Prop :=
  ∀ name ∈ names, name ≠ ['.'] ∧ name ≠ Location.up ∧ fits name = true

/-- Plain names are appended to the location where a walk starts. -/
theorem walk_cons_of_plain {name : Text} {rest : List Text} (h : Plain (name :: rest))
    (hhere : tree.get? here = some .directory) :
    tree.walk here (name :: rest) = tree.walk (here ++ [name]) rest := by
  obtain ⟨hdot, hup, hfits⟩ := h name List.mem_cons_self
  rw [walk, hhere]
  simp only [hdot, hup, hfits, if_true, if_false]

theorem eq_append_of_walk {names : List Text} (h : Plain names)
    (hw : tree.walk here names = .ok l) : l = here ++ names := by
  induction names generalizing here with
  | nil => exact (Except.ok.inj hw).symm.trans (List.append_nil here).symm
  | cons name rest ih =>
    cases hhere : tree.get? here with
    | none => simp [walk, hhere] at hw
    | some e =>
      cases e with
      | file bytes => simp [walk, hhere] at hw
      | directory =>
        rw [walk_cons_of_plain h hhere] at hw
        rw [ih (fun n hn => h n (List.mem_cons_of_mem name hn)) hw, List.append_assoc]
        rfl

/-- Where no file stands in the way, a walk arrives, unless something is missing. -/
theorem walk_of_plain {names : List Text} (h : Plain names)
    (hfree : ∀ l, l <+: here ++ names → ∀ bytes, tree.get? l ≠ some (.file bytes)) :
    tree.walk here names = .ok (here ++ names) ∨ tree.walk here names = .error .notFound := by
  induction names generalizing here with
  | nil => exact .inl (congrArg Except.ok (List.append_nil here).symm)
  | cons name rest ih =>
    cases hhere : tree.get? here with
    | none => exact .inr (by rw [walk, hhere])
    | some e =>
      cases e with
      | file bytes => exact absurd hhere (hfree here (List.prefix_append _ _) bytes)
      | directory =>
        have happend : here ++ name :: rest = here ++ [name] ++ rest := by simp
        rw [walk_cons_of_plain h hhere, happend]
        exact ih (fun n hn => h n (List.mem_cons_of_mem name hn)) (happend ▸ hfree)

/-! ### Growing trees -/

/-- All that the first tree holds is in the second, which has only directories besides. -/
structure Grows (tree tree' : FileTree) : Prop where
  keeps : ∀ l e, tree.get? l = some e → tree'.get? l = some e
  adds : ∀ l e, tree'.get? l = some e → e = .directory ∨ tree.get? l = some e

theorem Grows.refl (tree : FileTree) : Grows tree tree := ⟨fun _ _ h => h, fun _ _ h => .inr h⟩

theorem Grows.trans (h : Grows tree tree') (h' : Grows tree' tree'') : Grows tree tree'' := by
  refine ⟨fun l e hl => h'.keeps l e (h.keeps l e hl), fun l e hl => ?_⟩
  rcases h'.adds l e hl with he | hl
  · exact .inl he
  · exact h.adds l e hl

theorem Grows.keepsDirectories (h : Grows tree tree') : KeepsDirectories tree tree' :=
  fun l => h.keeps l .directory

theorem grows_insert (h : tree.get? l = none) : Grows tree (tree.insert l .directory) := by
  have hself : (tree.insert l .directory).get? l = some .directory :=
    get?_insert_self (by simp [h])
  refine ⟨fun l' e hl' => ?_, fun l' e hl' => ?_⟩
  · have hne : l' ≠ l := by
      rintro rfl
      simp [h] at hl'
    rwa [get?_insert_of_ne hne]
  · by_cases hne : l' = l
    · subst hne
      exact .inl (Option.some.inj (hl'.symm.trans hself))
    · rw [get?_insert_of_ne hne] at hl'
      exact .inr hl'

/-! ### Directories -/

theorem isDirectory_iff {path : Text} :
    tree.isDirectory path = true ↔
      ∃ l, tree.resolve path = .ok l ∧ tree.get? l = some .directory := by
  unfold isDirectory
  split
  · rename_i l hl
    simp [hl]
  · rename_i e he
    simp [he]

/-- One directory is made where nothing was. -/
theorem exists_of_makeDirectory {path : Text} (h : tree.makeDirectory path = .ok tree') :
    ∃ l, tree.resolve path = .ok l ∧ tree.get? l = none ∧ tree' = tree.insert l .directory := by
  unfold makeDirectory at h
  cases hr : tree.resolve path with
  | error e =>
    rw [hr] at h
    cases h
  | ok l =>
    rw [hr] at h
    simp only [bind, Except.bind] at h
    split at h
    · cases h
    · rename_i hnone
      exact ⟨l, rfl, by simpa using hnone, (Except.ok.inj h).symm⟩

theorem of_makeDirectory {path : Text} (h : tree.makeDirectory path = .ok tree') :
    Grows tree tree' ∧ tree'.isDirectory path = true := by
  obtain ⟨l, hr, hnone, rfl⟩ := exists_of_makeDirectory h
  have hgrows := grows_insert hnone
  refine ⟨hgrows, isDirectory_iff.2 ⟨l, ?_, ?_⟩⟩
  · exact resolve_of_keepsDirectories hgrows.keepsDirectories hr
  · exact get?_insert_self (by simp [hnone])

theorem ok_of_blame {α : Type} {path : Text} {result : Except FileError α} {a : α}
    (h : blame path result = .ok a) : result = .ok a := by
  unfold blame at h
  split at h
  · cases h
  · cases result with
    | ok b => exact congrArg Except.ok (Except.ok.inj h)
    | error e => cases h

/-- **Making directories** adds directories and nothing else, and changes nothing, also if it fails
in the end. If it does not fail, the directory is there. -/
theorem of_makeDirectories (tree : FileTree) (p : Path) :
    Grows tree (tree.makeDirectories p).1 ∧
      ((tree.makeDirectories p).2 = none →
        (tree.makeDirectories p).1.isDirectory p.toText = true) := by
  fun_induction makeDirectories tree p with
  | case1 p path made hmake =>
    obtain ⟨hgrows, hdir⟩ := of_makeDirectory (ok_of_blame hmake)
    exact ⟨hgrows, fun _ => hdir⟩
  | case2 p path e hmake hdir => exact ⟨.refl tree, fun _ => hdir⟩
  | case3 | case7 => exact ⟨.refl tree, by simp⟩
  | case4 p path hdir _ hparts above e habove hmake ih =>
    rw [habove] at ih
    exact ⟨ih.1, by simp⟩
  | case5 p path hdir _ hparts above habove made hmade hmake ih =>
    rw [habove] at ih
    obtain ⟨hgrows, hdir⟩ := of_makeDirectory (ok_of_blame hmade)
    exact ⟨ih.1.trans hgrows, fun _ => hdir⟩
  | case6 p path hdir _ hparts above habove e hmade hmake ih =>
    rw [habove] at ih
    refine ⟨ih.1, fun h => ?_⟩
    simp only at h
    split at h
    · assumption
    · cases h

end FileTree

end RobotMaze
