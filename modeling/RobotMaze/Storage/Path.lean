import RobotMaze.Text.Basic

/-!
# Paths

A path is a root and parts separated by slashes. Repeated slashes and parts that are a single dot do
not count; two dots stay, since what they mean depends on the directories they follow. A path may
start at the root of the file system, written with one slash or with exactly two.
-/

namespace RobotMaze

/-- A path to a file or directory. -/
structure Path where
  /-- The slashes that the path starts with, if it starts at a root. -/
  root : Text := []
  parts : List Text
deriving DecidableEq, Repr

namespace Path

open Text

/-- The root of a path written as text: one slash, two if it starts with exactly two, or none. -/
def rootOf (t : Text) : Text :=
  match t.takeWhile (· = '/') with
  | [] => []
  | ['/', '/'] => ['/', '/']
  | _ => ['/']

/-- Reads a path. -/
def ofText (t : Text) : Path :=
  { root := rootOf t
    parts := (List.splitOn '/' t).filter fun part => !part.isEmpty && part ≠ ['.'] }

/-- A path as text; an empty one is a dot. -/
def toText (p : Path) : Text :=
  if p.root.isEmpty && p.parts.isEmpty then ['.'] else p.root ++ List.intercalate ['/'] p.parts

/-- A path followed by another; one that starts at a root replaces what comes before it. -/
def append (p q : Path) : Path :=
  if q.root.isEmpty then { p with parts := p.parts ++ q.parts } else q

/-- The path without its last part. -/
def parent (p : Path) : Path := { p with parts := p.parts.dropLast }

/-- The last part of a path; empty if it has none. -/
def name (p : Path) : Text := p.parts.getLast?.getD []

/-- The position of the dot that divides a file name into stem and suffix: the last one, unless it
is at either end of the name. -/
def suffixStart? (name : Text) : Option Nat :=
  let suffixLength := (name.reverse.takeWhile (· ≠ '.')).length
  let position := name.length - 1 - suffixLength
  if suffixLength < name.length && 0 < position && 0 < suffixLength then some position else none

/-- The name without its suffix. -/
def stem (p : Path) : Text :=
  match suffixStart? p.name with
  | some n => p.name.take n
  | none => p.name

/-- The suffix of the name, with its dot. -/
def suffix (p : Path) : Text :=
  match suffixStart? p.name with
  | some n => p.name.drop n
  | none => []

end Path

end RobotMaze
