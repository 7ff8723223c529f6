import Unbraid.Toml.Scalar

/-!
# The tables of a TOML document

The tables of a TOML document while it is read. A table remembers how it came about, since that
decides what may still be added: a header opens a table once, a key with points adds only to tables
that keys with points made, and a value is closed.
-/

namespace Unbraid.Toml

/-- How a table came about. -/
inductive Origin where
  /-- By a header of its own. -/
  | header
  /-- On the way to the table of a header. -/
  | implied
  /-- On the way of a key with points. -/
  | dotted
  deriving DecidableEq, Repr

/-- What a name stands for. -/
inductive Node where
  | leaf (value : Value)
  | table (origin : Origin) (entries : List (String × Node))
  /-- Tables with a header in double brackets, the later ones first; the latest is open. -/
  | tables (earlier : List (List (String × Node))) (latest : List (String × Node))

abbrev Entries := List (String × Node)

abbrev Path := List String

namespace Node

mutual

/-- The value that a name stands for in the end. -/
def toValue : Node → Value
  | .leaf value => value
  | .table _ entries => .table (entriesToValues entries)
  | .tables earlier latest =>
    .list (.table (entriesToValues latest) :: tablesToValues earlier).reverse

def entriesToValues : List (String × Node) → List (String × Value)
  | [] => []
  | (name, node) :: rest => (name, node.toValue) :: entriesToValues rest

def tablesToValues : List (List (String × Node)) → List Value
  | [] => []
  | entries :: rest => .table (entriesToValues entries) :: tablesToValues rest

end

end Node

namespace Entries

/-- Replaces what a name stands for. A new name goes to the end. -/
def set (entries : Entries) (name : String) (node : Node) : Entries :=
  match entries with
  | [] => [(name, node)]
  | (other, held) :: rest =>
    if other = name then (name, node) :: rest else (other, held) :: Entries.set rest name node

/-- Changes the entries of the table that a path leads to from the table of a header. Missing tables
are made on the way; of tables in double brackets the path takes the latest. -/
def underHeader (change : Entries → Option Entries) : Path → Entries → Option Entries
  | [], entries => change entries
  | name :: path, entries =>
    match entries.lookup name with
    | none => do
      let inner ← underHeader change path []
      return set entries name (.table .implied inner)
    | some (.table origin inner) => do
      let inner ← underHeader change path inner
      return set entries name (.table origin inner)
    | some (.tables earlier latest) => do
      let latest ← underHeader change path latest
      return set entries name (.tables earlier latest)
    | some (.leaf _) => none

/-- Opens the table of a header. A table that was only on the way so far may be opened once. -/
def openTable (path : Path) (name : String) (entries : Entries) : Option Entries :=
  underHeader (fun entries =>
    match entries.lookup name with
    | none => some (set entries name (.table .header []))
    | some (.table .implied inner) => some (set entries name (.table .header inner))
    | some _ => none) path entries

/-- Opens another table of a header in double brackets. -/
def openTables (path : Path) (name : String) (entries : Entries) : Option Entries :=
  underHeader (fun entries =>
    match entries.lookup name with
    | none => some (set entries name (.tables [] []))
    | some (.tables earlier latest) =>
      some (set entries name (.tables (latest :: earlier) []))
    | some _ => none) path entries

def add (name : String) (value : Value) (entries : Entries) : Option Entries :=
  match entries.lookup name with
  | none => some (set entries name (.leaf value))
  | some _ => none

/-- Adds a value under a key with points, the last part of which is the name. The table that holds
it must have been made by keys with points, and no table on the way may have a header. -/
def addDotted (name : String) (value : Value) : Path → Entries → Option Entries
  | [], entries => add name value entries
  | part :: path, entries =>
    match entries.lookup part with
    | none => do
      let inner ← addDotted name value path []
      return set entries part (.table .dotted inner)
    | some (.table .header _) => none
    | some (.table origin inner) =>
      if path = [] ∧ origin ≠ .dotted then none
      else do
        let inner ← addDotted name value path inner
        return set entries part (.table origin inner)
    | some (.tables earlier latest) =>
      if path = [] then none
      else do
        let latest ← addDotted name value path latest
        return set entries part (.tables earlier latest)
    | some (.leaf _) => none

end Entries

end Unbraid.Toml
