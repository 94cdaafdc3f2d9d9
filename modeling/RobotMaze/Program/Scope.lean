import RobotMaze.Program.Definition

/-!
# Scopes

While a program expands, names are bound to values. A number or a fragment of program text are the
values that the language itself produces; a fragment carries the context in which it was written,
so contexts nest. Whoever starts an expansion may also bind names to data that mean nothing to the
language.

`Scope` is a chain of bindings. `insert` replaces, so a scope never holds more bindings than there
are names; `get?` is the view that everything else is stated in. `height` counts how deep fragments
nest, and entering a fragment lowers it. A `Context` is a scope together with the functions that can
be called in it. One program has one table of functions, but nothing here asks for that: a fragment
is read with the functions of its own context.
-/

namespace RobotMaze

/-- A value without structure. Only numbers mean something to the language. -/
inductive Datum where
  | number (n : Int)
  | flag (b : Bool)
  | text (t : Text)
deriving DecidableEq, Repr, Inhabited

/-- Bindings of names, the newest first. -/
inductive Scope where
  | empty
  /-- A name bound to a datum. -/
  | datum (name : Name) (value : Datum) (rest : Scope)
  /-- A name bound to program text, with the functions and the bindings in force where that text was
  written. -/
  | fragment (name : Name) (text : Text) (functions : FunctionTable) (origin : Scope) (rest : Scope)
deriving DecidableEq, Repr, Inhabited

/-- What program text is read in: the functions that it can call and the bindings in force. -/
structure Context where
  functions : FunctionTable
  scope : Scope
deriving DecidableEq, Repr, Inhabited

/-- What a name is bound to. -/
inductive Value where
  | datum (value : Datum)
  | fragment (text : Text) (context : Context)
deriving DecidableEq, Repr, Inhabited

namespace Scope

/-- The bindings of a scope as a list, the newest first. -/
def entries : Scope → List (Name × Value)
  | .empty => []
  | .datum name value rest => (name, .datum value) :: rest.entries
  | .fragment name text functions origin rest =>
    (name, .fragment text ⟨functions, origin⟩) :: rest.entries

/-- The value of a name. -/
def get? : Scope → Name → Option Value
  | .empty, _ => none
  | .datum name value rest, wanted =>
    if name = wanted then some (.datum value) else rest.get? wanted
  | .fragment name text functions origin rest, wanted =>
    if name = wanted then some (.fragment text ⟨functions, origin⟩) else rest.get? wanted

/-- The scope without the bindings of a name. -/
def erase : Scope → Name → Scope
  | .empty, _ => .empty
  | .datum name value rest, unwanted =>
    if name = unwanted then rest.erase unwanted else .datum name value (rest.erase unwanted)
  | .fragment name text functions origin rest, unwanted =>
    if name = unwanted then rest.erase unwanted
    else .fragment name text functions origin (rest.erase unwanted)

/-- The scope with a name bound to a value, in place of what it was bound to. -/
def insert (s : Scope) (name : Name) : Value → Scope
  | .datum value => .datum name value (s.erase name)
  | .fragment text context => .fragment name text context.functions context.scope (s.erase name)

/-- The number that a name is bound to; any other value, or none, counts as zero. -/
def number (s : Scope) (name : Name) : Int :=
  match s.get? name with
  | some (.datum (.number n)) => n
  | _ => 0

/-- How deep fragments nest in a scope. -/
def height : Scope → Nat
  | .empty => 0
  | .datum _ _ rest => rest.height
  | .fragment _ _ _ origin rest => max (origin.height + 1) rest.height

theorem get?_erase (s : Scope) (name wanted : Name) :
    (s.erase name).get? wanted = if name = wanted then none else s.get? wanted := by
  induction s with
  | empty => simp [erase, get?]
  | datum n v rest ih => by_cases h : n = name <;> by_cases hw : n = wanted <;> grind [erase, get?]
  | fragment n t fs o rest _ ih =>
    by_cases h : n = name <;> by_cases hw : n = wanted <;> grind [erase, get?]

/-- A name just bound has its new value, and all other names keep theirs. -/
theorem get?_insert (s : Scope) (name wanted : Name) (v : Value) :
    (s.insert name v).get? wanted = if name = wanted then some v else s.get? wanted := by
  cases v <;> by_cases h : name = wanted <;> simp [insert, get?, h, get?_erase]

/-- Erasing a name does not make fragments nest deeper. -/
theorem height_erase_le (s : Scope) (name : Name) : (s.erase name).height ≤ s.height := by
  induction s with
  | empty => simp [erase]
  | datum n v rest ih => grind [erase, height]
  | fragment n t fs o rest _ ih => grind [erase, height]

/-- Binding a datum does not make fragments nest deeper. -/
theorem height_insert_datum_le (s : Scope) (name : Name) (v : Datum) :
    (s.insert name (.datum v)).height ≤ s.height := by
  simpa [insert, height] using height_erase_le s name

/-- Binding a fragment makes its scope one level of the result. -/
theorem height_insert_fragment_le (s : Scope) (name : Name) (t : Text) (context : Context) :
    (s.insert name (.fragment t context)).height ≤ max (context.scope.height + 1) s.height := by
  have := height_erase_le s name
  simp only [insert, height]
  omega

/-- The scope of a fragment is less deep than the scope that binds it. -/
theorem height_lt_of_get? {s : Scope} {name : Name} {t : Text} {context : Context}
    (h : s.get? name = some (.fragment t context)) : context.scope.height < s.height := by
  induction s with
  | empty => simp [get?] at h
  | datum n v rest ih => grind [get?, height]
  | fragment n t' fs o rest _ ih => grind [get?, height]

end Scope

end RobotMaze
