import RobotMaze.Storage.FileTree
import RobotMaze.Transcript

/-!
# Levels and solutions

Levels are looked up by key and never written. Solutions, the program text that a player last typed
for a level, are read and written by key; a key without a solution has the empty program. Both are
kept in memory or in a directory of a file tree, one text file for each key.

Writing gives back the store and the tree; a failure may come after directories have been made.
-/

namespace RobotMaze

open Text

/-- Why a store does not answer. -/
inductive StoreError where
  /-- The store does not offer the operation. -/
  | unsupported
  | storage (e : StorageError)
deriving DecidableEq, Repr

/-- The wording of the error. -/
def StoreError.message : StoreError → String
  | .unsupported => ""
  | .storage e => e.message

/-- Where levels come from. -/
inductive LevelSource where
  /-- A source that offers nothing. -/
  | unavailable
  | memory (levels : List (Text × Text))
  | directory (path : Path)
deriving DecidableEq, Repr

namespace LevelSource

/-- The file of a level. -/
def path (dir : Path) (key : Text) : Path := dir.append (.ofText (key ++ ".txt".toList))

/-- The level that a directory has under a key. A file that cannot be reached is logged, and counts
as no level. -/
def read (tree : FileTree) (dir : Path) (key : Text) :
    Recorded (Except StorageError (Option Text)) :=
  let file := (path dir key).toText
  match tree.readText file with
  | .ok level => return .ok (some level)
  | .error (.file e p) => do
    let reason := (StorageError.file e p).message
    Recorded.log [⟨.warning, "storage", s!"cannot read level {String.ofList file}: {reason}"⟩]
    return .ok none
  | .error e => return .error e

/-- The level of a key. -/
def get (tree : FileTree) (key : Text) : LevelSource → Recorded (Except StoreError (Option Text))
  | .unavailable => return .error .unsupported
  | .memory levels => return .ok (levels.lookup key)
  | .directory dir => do return (← read tree dir key).mapError .storage

end LevelSource

/-- Where solutions are kept. -/
inductive SolutionStore where
  /-- A store that offers nothing. -/
  | unavailable
  | memory (solutions : List (Text × Text))
  | directory (path : Path)
deriving DecidableEq, Repr

namespace SolutionStore

/-- The file of a solution. -/
def path (dir : Path) (key : Text) : Path := dir.append (.ofText (key ++ "_solution.txt".toList))

/-- The solution that a directory has under a key. -/
def read (tree : FileTree) (dir : Path) (key : Text) : Except StorageError Text :=
  match tree.readText (path dir key).toText with
  | .error (.file .notFound _) => .ok []
  | result => result

/-- Writes the solution of a key to a directory. -/
def write (tree : FileTree) (dir : Path) (key solution : Text) :
    Recorded (FileTree × Option StorageError) :=
  match tree.makeDirectories dir with
  | (made, some e) => return (made, some e)
  | (made, none) =>
    match made.writeText (path dir key).toText solution with
    | .error e => return (made, some e)
    | .ok written => do
      Recorded.log [⟨.debug, "storage",
        s!"saved {(Utf8.encode solution).length} byte(s) for {String.ofList key}"⟩]
      return (written, none)

/-- The solution of a key. -/
def get (tree : FileTree) (key : Text) : SolutionStore → Except StoreError Text
  | .unavailable => .error .unsupported
  | .memory solutions => .ok ((solutions.lookup key).getD [])
  | .directory dir => (read tree dir key).mapError .storage

/-- The store and the tree after the solution of a key has been written, and the error if it could
not be. -/
def put (tree : FileTree) (key solution : Text) :
    SolutionStore → Recorded (SolutionStore × FileTree × Option StoreError)
  | .unavailable => return (.unavailable, tree, some .unsupported)
  | .memory solutions =>
    return (.memory ((key, solution) :: solutions.filter (·.1 ≠ key)), tree, none)
  | .directory dir => do
    let (written, e) ← write tree dir key solution
    return (.directory dir, written, e.map .storage)

end SolutionStore

end RobotMaze
