import RobotMaze.Storage.Path
import RobotMaze.Text.Lines
import RobotMaze.Text.Utf8

/-!
# File trees

A file tree holds the files and directories that a program can reach, each under its location: the
names on the way to it from the working directory. A location may start with names `..`, which lead
above the working directory, or with `/`, the root of the file system; those places are always
directories.

Looking a path up walks from directory to directory. A name that does not exist, a file in the place
of a directory, and a name that is too long are the ways to fail, and the first one met counts. All
operations are pure: those that write give back the changed tree.
-/

namespace RobotMaze

/-- Why the file system refuses. -/
inductive FileError where
  | notFound
  | alreadyExists
  | notDirectory
  | isDirectory
  | nameTooLong
deriving DecidableEq, Repr

namespace FileError

/-- The number of an error. -/
def number : FileError → Nat
  | .notFound => 2
  | .alreadyExists => 17
  | .notDirectory => 20
  | .isDirectory => 21
  | .nameTooLong => 36

/-- The name of an error. -/
def description : FileError → String
  | .notFound => "No such file or directory"
  | .alreadyExists => "File exists"
  | .notDirectory => "Not a directory"
  | .isDirectory => "Is a directory"
  | .nameTooLong => "File name too long"

end FileError

/-- Why a file cannot be read or written. -/
inductive StorageError where
  /-- The file system refuses the path given. -/
  | file (error : FileError) (path : Text)
  /-- The file is not UTF-8. -/
  | decode (error : Utf8.DecodeError)
  /-- A path holds the character with code point zero. -/
  | embeddedNull
deriving DecidableEq, Repr

/-- The wording of the error. -/
def StorageError.message : StorageError → String
  | .file error path =>
    s!"[Errno {error.number}] {error.description}: {Text.quotedString path}"
  | .decode error => error.message
  | .embeddedNull => "embedded null byte"

/-- A file or a directory. -/
inductive Entry where
  | file (contents : Bytes)
  | directory
deriving DecidableEq, Repr

/-- The names on the way to a file or directory. -/
abbrev Location := List Text

namespace Location

/-- The name that leads one directory up. -/
def up : Text := ['.', '.']

/-- The location of the root of the file system. -/
def root : Location := [['/']]

/-- The directory above a directory. -/
def parent (l : Location) : Location :=
  if l = root then root else if l.all (· = up) then l ++ [up] else l.dropLast

/-- A location as a path from the working directory. -/
def toText (l : Location) : Text :=
  match l with
  | ['/'] :: rest => '/' :: List.intercalate ['/'] rest
  | _ => List.intercalate ['/'] l

end Location

/-- Files and directories by their location. -/
structure FileTree where
  entries : List (Location × Entry) := []
deriving DecidableEq, Repr

namespace FileTree

open Text

/-- What is at a location. -/
def get? (tree : FileTree) (l : Location) : Option Entry :=
  if l = .root || l.all (· = Location.up) then some .directory else tree.entries.lookup l

/-- The tree with an entry in place of what was at its location. -/
def insert (tree : FileTree) (l : Location) (e : Entry) : FileTree :=
  ⟨(l, e) :: tree.entries.filter (·.1 ≠ l)⟩

/-- The tree with an entry, and with a directory for every location above it that has nothing. -/
def create (tree : FileTree) (path : Path) (e : Entry) : FileTree :=
  let location := (if path.root.isEmpty then [] else Location.root) ++ path.parts
  let parents := (List.range path.parts.length).map fun n =>
    location.take (location.length - path.parts.length + n)
  (parents.foldl (fun t l => if (t.get? l).isSome then t else t.insert l .directory) tree).insert
    location e

/-- The names of a path, as the file system reads them: a slash at the end asks for a directory. -/
def names (path : Text) : List Text :=
  let parts := List.splitOn '/' path
  let inner := parts.filter (!·.isEmpty)
  if parts.getLast? = some [] && !inner.isEmpty then inner ++ [['.']] else inner

/-- Whether a file system takes a name of this length. -/
def fits (name : Text) : Bool := (Utf8.encode name).length ≤ 255

/-- Walks from a location along names. Each name but the last has to lead to a directory; the last
one may lead nowhere. -/
def walk (tree : FileTree) : Location → List Text → Except FileError Location
  | here, [] => .ok here
  | here, name :: rest =>
    match tree.get? here with
    | none => .error .notFound
    | some (.file _) => .error .notDirectory
    | some .directory =>
      if name = ['.'] then tree.walk here rest
      else if name = Location.up then tree.walk here.parent rest
      else if fits name then tree.walk (here ++ [name]) rest
      else .error .nameTooLong

/-- The location that a path leads to. -/
def resolve (tree : FileTree) (path : Text) : Except FileError Location :=
  if path.isEmpty then .error .notFound
  else if 4096 ≤ (Utf8.encode path).length then .error .nameTooLong
  else tree.walk (if path.head? = some '/' then .root else []) (names path)

/-- Runs an operation on a path, and blames the path if it fails. -/
def blame {α : Type} (path : Text) (result : Except FileError α) : Except StorageError α :=
  if path.contains (Char.ofNat 0) then .error .embeddedNull
  else match result with
    | .ok a => .ok a
    | .error e => .error (.file e path)

/-- The contents of a file. -/
def contents (tree : FileTree) (path : Text) : Except FileError Bytes := do
  let l ← tree.resolve path
  match tree.get? l with
  | none => .error .notFound
  | some .directory => .error .isDirectory
  | some (.file bytes) => .ok bytes

/-- The text of a file, with line breaks unified. -/
def readText (tree : FileTree) (path : Text) : Except StorageError Text := do
  match Utf8.decode (← blame path (tree.contents path)) with
  | .ok t => .ok (unifyNewlines t)
  | .error e => .error (.decode e)

/-- Writes a text to a file, which is made if it does not exist. -/
def writeText (tree : FileTree) (path t : Text) : Except StorageError FileTree :=
  blame path do
    let l ← tree.resolve path
    match tree.get? l with
    | some .directory => .error .isDirectory
    | _ => .ok (tree.insert l (.file (Utf8.encode t)))

/-- Makes one directory. -/
def makeDirectory (tree : FileTree) (path : Text) : Except FileError FileTree := do
  let l ← tree.resolve path
  if (tree.get? l).isSome then .error .alreadyExists else .ok (tree.insert l .directory)

/-- Whether a path leads to a directory. -/
def isDirectory (tree : FileTree) (path : Text) : Bool :=
  match tree.resolve path with
  | .ok l => tree.get? l = some .directory
  | .error _ => false

/-- Makes a directory and the missing ones above it; a directory that exists is left alone. The
directories made before a failure stay. -/
def makeDirectories (tree : FileTree) (p : Path) : FileTree × Option StorageError :=
  let path := p.toText
  match blame path (tree.makeDirectory path) with
  | .ok made => (made, none)
  | .error e =>
    if tree.isDirectory path then (tree, none)
    else match e with
      | .file .notFound _ =>
        if _ : p.parts = [] then (tree, some e)
        else match tree.makeDirectories p.parent with
          | (above, some e') => (above, some e')
          | (above, none) =>
            match blame path (above.makeDirectory path) with
            | .ok made => (made, none)
            | .error e' => (above, if above.isDirectory path then none else some e')
      | _ => (tree, some e)
termination_by p.parts.length
decreasing_by
  have : 0 < p.parts.length := List.length_pos_iff.2 (by assumption)
  simp [Path.parent]; omega

/-- All files below the working directory, by their path. -/
def files (tree : FileTree) : List (Text × Bytes) :=
  tree.entries.filterMap fun (l, e) =>
    match e with
    | .directory => none
    | .file bytes =>
      if l.head? = some Location.up || l.head? = some ['/'] then none
      else some (l.toText, bytes)

end FileTree

end RobotMaze
