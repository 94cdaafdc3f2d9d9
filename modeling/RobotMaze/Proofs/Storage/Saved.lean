import RobotMaze.Board.Level
import RobotMaze.Check.Diagnostics
import RobotMaze.Program.Expansion
import RobotMaze.Proofs.Storage.Path
import RobotMaze.Proofs.Text.Newlines
import RobotMaze.Proofs.Text.Utf8
import RobotMaze.Storage.Store

/-!
# Saving a text and reading it again

A solution is saved in a file of its own, and read from there. What is read is what was saved, but
for its line breaks: reading unifies them. This file shows that this is all that changes, that other
solutions do not get in the way, and that no reader of texts in this library can tell the
difference.

## Files in a directory

`Holds` says that a directory is there and has a file. Once it holds, it goes on to hold
(`holds_put`): other solutions have files in other places, and making the directory once more makes
nothing. It does not matter whether a solution was written or refused.

## What a text means

Programs, diagnostics and levels see a text only as its lines, and levels see them after line breaks
have been taken off the ends. Neither changes when line breaks are unified.

## Main results

* `FileTree.exists_writeText`, `FileTree.Holds.readText` — a file is written and read
* `SolutionStore.writable_of_free` — when a file can be written
* `SolutionStore.holds_putAll` — solutions under other keys leave a file alone
* `saved_text_unified` — saving and reading again never changes what a text means
-/

namespace RobotMaze

open Text

/-! ### Files in a directory -/

namespace FileTree

variable {tree tree' : FileTree} {dir : Path} {name other : Text} {bytes : Bytes} {l : Location}

/-- The directory of a path is there, and it has a file with this name and these contents. -/
def Holds (tree : FileTree) (dir : Path) (name : Text) (bytes : Bytes) : Prop :=
  ∃ d, tree.walk dir.base dir.parts = .ok d ∧ tree.get? d = some .directory ∧
    tree.get? (d ++ [name]) = some (.file bytes)

theorem Holds.grows (h : Holds tree dir name bytes) (hg : Grows tree tree') :
    Holds tree' dir name bytes := by
  obtain ⟨d, hwalk, hdir, hfile⟩ := h
  exact ⟨d, walk_of_keepsDirectories hg.keepsDirectories hwalk, hg.keeps d _ hdir,
    hg.keeps _ _ hfile⟩

theorem keepsDirectories_insert {e : Entry} (h : tree.get? l ≠ some .directory) :
    KeepsDirectories tree (tree.insert l e) := by
  intro l' hl'
  have hne : l' ≠ l := by
    rintro rfl
    exact h hl'
  rwa [get?_insert_of_ne hne]

/-- Writing puts a file where the path leads, if the file system takes the path. -/
theorem of_writeText {p : Path} {t : Text} (h : tree.writeText p.toText t = .ok tree') :
    p.Accepted ∧ ∃ l, tree.resolve p.toText = .ok l ∧ tree.get? l ≠ some .directory ∧
      tree' = tree.insert l (.file (Utf8.encode t)) := by
  have hnull : Char.ofNat 0 ∉ p.toText := by
    intro hmem
    simp [writeText, blame, hmem] at h
  have h := ok_of_blame h
  cases hr : tree.resolve p.toText with
  | error e =>
    rw [hr] at h
    cases h
  | ok l =>
    have hshort : (Utf8.encode p.toText).length < 4096 := by
      rw [resolve] at hr
      split at hr
      · cases hr
      · split at hr
        · cases hr
        · rename_i hshort
          exact Nat.not_le.1 hshort
    rw [hr] at h
    simp only [bind, Except.bind] at h
    split at h
    · cases h
    · rename_i hl
      exact ⟨⟨hnull, hshort⟩, l, rfl, hl, (Except.ok.inj h).symm⟩

/-- A name that leads to something in a directory. -/
structure IsName (name : Text) : Prop where
  ne_nil : name ≠ []
  slash : '/' ∉ name
  plain : Plain [name]

section

variable (hn : dir.Normal) (hname : IsName name)
include hn hname

theorem normal_child : (dir.child name).Normal := by
  refine ⟨hn.root, fun part hpart => ?_⟩
  rcases List.mem_append.1 hpart with hpart | hpart
  · exact hn.parts part hpart
  · rw [List.mem_singleton.1 hpart]
    exact ⟨hname.ne_nil, (hname.plain name List.mem_cons_self).1, hname.slash⟩

/-- A name in a directory that is there leads to a location of its own. -/
theorem resolve_child {d : Location} (ha : (dir.child name).Accepted)
    (hwalk : tree.walk dir.base dir.parts = .ok d) (hdir : tree.get? d = some .directory) :
    tree.resolve (dir.child name).toText = .ok (d ++ [name]) := by
  rw [Path.resolve_toText (normal_child hn hname) ha]
  change tree.walk dir.base (dir.parts ++ [name]) = _
  rw [walk_append, hwalk]
  exact walk_cons_of_plain hname.plain hdir

/-- **A file is written** if its directory is there and no directory is in its place. -/
theorem exists_writeText {t : Text} (ha : (dir.child name).Accepted)
    (hdir : tree.isDirectory dir.toText = true)
    (hfree : tree.isDirectory (dir.child name).toText = false) :
    ∃ written, tree.writeText (dir.child name).toText t = .ok written ∧
      Holds written dir name (Utf8.encode t) := by
  obtain ⟨d, hresolve, hd⟩ := isDirectory_iff.1 hdir
  rw [Path.resolve_toText hn ha.of_child] at hresolve
  have hchild := resolve_child hn hname ha hresolve hd
  have hfile : tree.get? (d ++ [name]) ≠ some .directory := by
    intro h
    rw [isDirectory_iff.2 ⟨_, hchild, h⟩] at hfree
    cases hfree
  have hkeeps := keepsDirectories_insert (e := .file (Utf8.encode t)) hfile
  refine ⟨tree.insert (d ++ [name]) (.file (Utf8.encode t)), ?_, d, ?_, hkeeps d hd, ?_⟩
  · rw [writeText, Path.blame_of_accepted ha, hchild]
    simp only [bind, Except.bind]
    rfl
  · exact walk_of_keepsDirectories hkeeps hresolve
  · exact get?_insert_self hfile

/-- **What is written under another name** leaves a file alone. -/
theorem Holds.writeText {t : Text} (h : Holds tree dir other bytes) (hne : other ≠ name)
    (hw : tree.writeText (dir.child name).toText t = .ok tree') :
    Holds tree' dir other bytes := by
  obtain ⟨d, hwalk, hdir, hfile⟩ := h
  obtain ⟨ha, l, hl, hfree, rfl⟩ := of_writeText hw
  rw [resolve_child hn hname ha hwalk hdir] at hl
  cases hl
  have hkeeps := keepsDirectories_insert (e := .file (Utf8.encode t)) hfree
  refine ⟨d, walk_of_keepsDirectories hkeeps hwalk, hkeeps d hdir, ?_⟩
  rw [get?_insert_of_ne (by simpa using hne), hfile]

/-- **A file can be read** where it is. -/
theorem Holds.readText {t : Text} (h : Holds tree dir name (Utf8.encode t))
    (ha : (dir.child name).Accepted) :
    tree.readText (dir.child name).toText = .ok (unifyNewlines t) := by
  obtain ⟨d, hwalk, hdir, hfile⟩ := h
  have hresolve := resolve_child hn hname ha hwalk hdir
  have hcontents : tree.contents (dir.child name).toText = .ok (Utf8.encode t) := by
    rw [contents, hresolve]
    simp [bind, Except.bind, hfile]
  have hblame : blame (dir.child name).toText (.ok (Utf8.encode t)) = .ok (Utf8.encode t) :=
    Path.blame_of_accepted ha _
  rw [FileTree.readText, hcontents, hblame]
  simp only [bind, Except.bind, Utf8.decode_encode]

end

end FileTree

/-! ### Solutions -/

namespace SolutionStore

open FileTree

variable {tree : FileTree} {dir : Path} {key other solution t : Text} {bytes : Bytes}

/-- The name of the file of a key. -/
def fileName (key : Text) : Text := key ++ "_solution.txt".toList

/-- A key that makes one name of a file: it holds no slash, and the name is not too long. -/
structure IsComponent (key : Text) : Prop where
  slash : '/' ∉ key
  fits : fits (fileName key) = true

theorem IsComponent.isName (h : IsComponent key) : IsName (fileName key) := by
  have hlength : (fileName key).length = key.length + 13 := List.length_append
  have hne : ∀ {t : Text}, t.length < 13 → fileName key ≠ t := by
    rintro t ht rfl
    omega
  refine ⟨hne (by decide), ?_, ?_⟩
  · simpa [fileName] using h.slash
  · intro name hname
    rw [List.mem_singleton.1 hname]
    exact ⟨hne (by decide), hne (by decide), h.fits⟩

theorem path_eq_child (h : IsComponent key) (dir : Path) :
    path dir key = dir.child (fileName key) := by
  obtain ⟨hne, hslash, hplain⟩ := h.isName
  have hroot : Path.rootOf (fileName key) = [] := by
    obtain ⟨c, rest, hname⟩ := List.exists_cons_of_ne_nil hne
    have hc : c ≠ '/' := fun hc => hslash (by simp [hname, hc])
    rw [Path.rootOf, hname, List.takeWhile_cons_of_neg (by simpa using hc)]
  have hparts : (List.splitOn '/' (fileName key)).filter
      (fun part => !part.isEmpty && part ≠ ['.']) = [fileName key] := by
    rw [List.splitOn_eq_singleton hslash]
    simp [hne, (hplain _ List.mem_cons_self).1]
  rw [path, ← fileName, Path.append, Path.ofText, hroot, hparts]
  rfl

/-- The file of a key can be written: the file system takes its path, its directory can be made, and
no directory is in its place then. -/
structure Writable (tree : FileTree) (dir : Path) (key : Text) : Prop where
  accepted : (path dir key).Accepted
  made : (tree.makeDirectories dir).2 = none
  free : (tree.makeDirectories dir).1.isDirectory (path dir key).toText = false

/-- **A file can be written** if no file is where its directory has to be, and no directory is where
the file has to be. -/
theorem writable_of_free (hn : dir.Normal) (hkey : IsComponent key)
    (ha : (path dir key).Accepted) (hf : Path.Free tree dir)
    (hfile : tree.get? (dir.base ++ dir.parts ++ [fileName key]) ≠ some .directory) :
    Writable tree dir key := by
  have hdir : dir.Accepted := by
    rw [path_eq_child hkey] at ha
    exact ha.of_child
  have hmade := Path.makeDirectories_eq_none hn hdir hf
  refine ⟨ha, hmade, Bool.eq_false_iff.2 fun htrue => ?_⟩
  rw [path_eq_child hkey] at ha htrue
  -- The directories are made above the place of the file.
  obtain ⟨d, hd, hddir⟩ := isDirectory_iff.1 ((tree.of_makeDirectories dir).2 hmade)
  rw [Path.resolve_toText hn hdir] at hd
  obtain ⟨l, hl, hldir⟩ := isDirectory_iff.1 htrue
  rw [resolve_child hn hkey.isName ha hd hddir, eq_append_of_walk hf.plain hd] at hl
  cases hl
  rcases Path.of_makeDirectories_of_plain hn hdir hf.plain hldir with h | h
  · exact hfile h
  · have := h.length_le
    rw [List.length_append, List.length_singleton] at this
    omega

theorem value_put (tree : FileTree) (dir : Path) (key t : Text) :
    (put tree key t (.directory dir)).value =
      (.directory dir, (write tree dir key t).value.1,
        (write tree dir key t).value.2.map .storage) := rfl

/-- What writing comes to, once the directories are made. -/
theorem value_write (hmade : (tree.makeDirectories dir).2 = none) :
    (write tree dir key t).value =
      match (tree.makeDirectories dir).1.writeText (path dir key).toText t with
      | .error e => ((tree.makeDirectories dir).1, some e)
      | .ok written => (written, none) := by
  unfold write
  split
  · rename_i made e h
    rw [h] at hmade
    cases hmade
  · rename_i made h
    rw [h]
    split <;> simp_all

theorem value_write_of_ne (hmade : (tree.makeDirectories dir).2 ≠ none) :
    (write tree dir key t).value = tree.makeDirectories dir := by
  unfold write
  split
  · rename_i made e h
    rw [h]
    rfl
  · rename_i made h
    rw [h] at hmade
    exact absurd rfl hmade

/-- **A solution is written** if its file can be. -/
theorem exists_put (hn : dir.Normal) (hkey : IsComponent key) (hw : Writable tree dir key) :
    ∃ saved, (put tree key t (.directory dir)).value = (.directory dir, saved, none) ∧
      Holds saved dir (fileName key) (Utf8.encode t) := by
  obtain ⟨ha, hmade, hfree⟩ := hw
  have hdir := (tree.of_makeDirectories dir).2 hmade
  rw [path_eq_child hkey] at ha hfree
  obtain ⟨written, hwrite, hholds⟩ := exists_writeText (t := t) hn hkey.isName ha hdir hfree
  refine ⟨written, ?_, hholds⟩
  rw [value_put, value_write hmade, path_eq_child hkey, hwrite]
  rfl

/-- **A solution under another key** leaves a file alone, be it written or not. -/
theorem holds_put (hn : dir.Normal) (hkey : IsComponent key) (hne : other ≠ key)
    (h : Holds tree dir (fileName other) bytes) :
    Holds (put tree key t (.directory dir)).value.2.1 dir (fileName other) bytes := by
  have hmade := h.grows (tree.of_makeDirectories dir).1
  rw [value_put]
  by_cases hnone : (tree.makeDirectories dir).2 = none
  · rw [value_write hnone, path_eq_child hkey]
    split
    · exact hmade
    · rename_i written hwrite
      refine hmade.writeText hn hkey.isName (fun heq => hne ?_) hwrite
      exact List.append_cancel_right heq
  · rw [value_write_of_ne hnone]
    exact hmade

/-- The tree after solutions have been put under some keys, one after the other. -/
def putAll (dir : Path) (tree : FileTree) (solutions : List (Text × Text)) : FileTree :=
  solutions.foldl (fun tree (key, t) => (put tree key t (.directory dir)).value.2.1) tree

theorem holds_putAll (hn : dir.Normal) {solutions : List (Text × Text)}
    (hkeys : ∀ s ∈ solutions, IsComponent s.1 ∧ s.1 ≠ key)
    (h : Holds tree dir (fileName key) bytes) :
    Holds (putAll dir tree solutions) dir (fileName key) bytes := by
  induction solutions generalizing tree with
  | nil => exact h
  | cons s solutions ih =>
    obtain ⟨hcomponent, hne⟩ := hkeys s List.mem_cons_self
    refine ih (fun s' hs' => hkeys s' (List.mem_cons_of_mem s hs')) ?_
    exact holds_put hn hcomponent (Ne.symm hne) h

theorem get_of_holds (hn : dir.Normal) (hkey : IsComponent key) (ha : (path dir key).Accepted)
    (h : Holds tree dir (fileName key) (Utf8.encode t)) :
    get tree key (.directory dir) = .ok (unifyNewlines t) := by
  rw [path_eq_child hkey] at ha
  rw [get, read, path_eq_child hkey, h.readText hn hkey.isName ha]
  rfl

end SolutionStore

/-! ### What a text means -/

section

variable (t : Text)

theorem programLines_unifyNewlines : programLines (unifyNewlines t) = programLines t := by
  rw [programLines, splitLines_unifyNewlines, programLines]

theorem Program.parse_unifyNewlines : Program.parse (unifyNewlines t) = Program.parse t := by
  rw [Program.parse, programLines_unifyNewlines, Program.parse]

theorem Check.diagnostics_unifyNewlines :
    Check.diagnostics (unifyNewlines t) = Check.diagnostics t := by
  have hsegments : Check.lineSegments (unifyNewlines t) = Check.lineSegments t := by
    rw [Check.lineSegments, splitLines_unifyNewlines, Check.lineSegments]
  rw [Check.diagnostics, Program.parse_unifyNewlines, programLines_unifyNewlines, hsegments,
    Check.diagnostics]

/-- The lines of a level are those of the text without line breaks at its ends. -/
theorem Level.window_unifyNewlines (size : Int) :
    Level.window (unifyNewlines t) size = Level.window t size := by
  rw [Level.window, stripNewlines_unifyNewlines, splitLines_unifyNewlines, Level.window]

end

open SolutionStore

/-- **Saving and reading again never changes what a text means.**

A text that is put under a key, the file of which can be written, is written. What is read under
this key after that, and after any texts have been put under other keys, is the text with its line
breaks unified. In a directory whose path leads down, the file can be written if no file is on the
way to it and no directory in its place.

Unifying leaves a text alone exactly if it has no carriage return. Whatever the text is, the program
read from it, its diagnostics, its expansion under any limits, and the boards of all sizes with the
place of the robot stay the same. -/
theorem saved_text_unified (t : Text) :
    (∀ tree directory key,
      let dir := Path.ofText directory
      IsComponent key → Writable tree dir key →
        ∃ saved, (put tree key t (.directory dir)).value = (.directory dir, saved, none) ∧
          ∀ others : List (Text × Text), (∀ s ∈ others, IsComponent s.1 ∧ s.1 ≠ key) →
            get (putAll dir saved others) key (.directory dir) = .ok (unifyNewlines t)) ∧
      (∀ tree directory key,
        let dir := Path.ofText directory
        IsComponent key → (path dir key).Accepted → Path.Free tree dir →
          tree.get? (dir.base ++ dir.parts ++ [fileName key]) ≠ some .directory →
            Writable tree dir key) ∧
      (unifyNewlines t = t ↔ '\r' ∉ t) ∧
      Program.parse (unifyNewlines t) = Program.parse t ∧
      Check.diagnostics (unifyNewlines t) = Check.diagnostics t ∧
      (∀ maxDepth limit,
        expandProgram (unifyNewlines t) maxDepth limit = expandProgram t maxDepth limit) ∧
      ∀ size, Level.grid (unifyNewlines t) size = Level.grid t size ∧
        Level.start (unifyNewlines t) size = Level.start t size := by
  refine ⟨?_, ?_, unifyNewlines_eq_self_iff, Program.parse_unifyNewlines t,
    Check.diagnostics_unifyNewlines t, ?_, ?_⟩
  · intro tree directory key dir hkey hw
    have hn : dir.Normal := Path.normal_ofText directory
    obtain ⟨saved, hput, hholds⟩ := exists_put (t := t) hn hkey hw
    refine ⟨saved, hput, fun others hothers => ?_⟩
    exact get_of_holds hn hkey hw.accepted (holds_putAll hn hothers hholds)
  · intro tree directory key dir hkey ha hf hfile
    exact writable_of_free (Path.normal_ofText directory) hkey ha hf hfile
  · intro maxDepth limit
    rw [expandProgram, Program.parse_unifyNewlines, expandProgram]
  · intro size
    rw [Level.grid, Level.window_unifyNewlines, Level.start, Level.places,
      Level.window_unifyNewlines]
    exact ⟨rfl, rfl⟩

/-- In an empty tree the directories are made. A text with both kinds of carriage returns is read
with line feeds after two more texts have been put, one of them under a key that begins with
dots. -/
theorem saved_text_unified_nested :
    let dir := Path.ofText "saves/./maze".toList
    let t := "s\r\r\nl\r".toList
    let others := [("..".toList, "r".toList), ([], "s".toList)]
    Writable {} dir "one".toList ∧ ∃ saved,
      (put {} "one".toList t (.directory dir)).value = (.directory dir, saved, none) ∧
        get (putAll dir saved others) "one".toList (.directory dir) = .ok "s\n\nl\n".toList := by
  intro dir t others
  obtain ⟨hsaved, hwritable, -⟩ := saved_text_unified t
  have hkey : IsComponent "one".toList := ⟨by decide, by decide +kernel⟩
  have hnoFile : ∀ l bytes, ({} : FileTree).get? l ≠ some (.file bytes) := by
    intro l bytes
    simp only [FileTree.get?]
    split <;> simp
  have hplain : FileTree.Plain dir.parts := by
    intro name hname
    have hnames : name = "saves".toList ∨ name = "maze".toList := by
      simpa using (show name ∈ ["saves".toList, "maze".toList] from hname)
    rcases hnames with rfl | rfl <;> decide +kernel
  have hw : Writable {} dir "one".toList :=
    hwritable {} _ _ hkey ⟨by decide +kernel, by decide +kernel⟩
      ⟨hplain, fun l _ => hnoFile l⟩ (by decide +kernel)
  obtain ⟨saved, hput, hget⟩ := hsaved {} _ _ hkey hw
  refine ⟨hw, saved, hput, hget others ?_⟩
  intro s hs
  have hs : s = ("..".toList, "r".toList) ∨ s = ([], "s".toList) := by simpa [others] using hs
  rcases hs with rfl | rfl
  · exact ⟨⟨by decide, by decide +kernel⟩, by decide⟩
  · exact ⟨⟨by decide, by decide +kernel⟩, by decide⟩

end RobotMaze
