import Unbraid.Toml.Text
import Unbraid.Toml.Tree

namespace Unbraid.Toml

/-- How many lists and inline tables may be open at a time. -/
def maxDepth : Nat := 79

/-- A key and its value, read by a given scanner. -/
def pairWith (value? : Scan Value) : Scan ((String × List String) × Value) := fun text => do
  let (key, rest) ← key? text
  let (value, rest) ← value? (skipBlanks (← afterChar? '=' rest))
  return ((key, value), rest)

/-- The items of a list after its opening bracket; a comma may follow the last one. -/
def itemsWith (value? : Scan Value) : Nat → Scan (List Value)
  | 0, _ => none
  | fuel + 1, text => do
    match ← skipLines? false text with
    | ']' :: rest => return ([], rest)
    | text =>
      let (value, rest) ← value? text
      match ← skipLines? false rest with
      | ',' :: rest => do
        let (values, rest) ← itemsWith value? fuel rest
        return (value :: values, rest)
      | ']' :: rest => return ([value], rest)
      | _ => none

def Entries.addKey (key : String × List String) (value : Value) (entries : Entries) :
    Option Entries :=
  let parts := key.1 :: key.2
  Entries.addDotted (parts.getLastD "") value parts.dropLast entries

/-- The pairs of an inline table after its opening brace, if it has any; all stand on one line. -/
def pairsWith (value? : Scan Value) : Nat → Entries → Scan Entries
  | 0, _, _ => none
  | fuel + 1, entries, text => do
    let ((key, value), rest) ← pairWith value? text
    let entries ← entries.addKey key value
    match skipBlanks rest with
    | ',' :: rest => pairsWith value? fuel entries rest
    | '\x7d' :: rest => return (entries, rest)
    | _ => none

/-- A value, with at most a number of lists and inline tables inside each other. The size bounds
what is left of the document. -/
def valueWithin (size : Nat) : Nat → Scan Value
  | _, [] => none
  | 0, '[' :: _ => none
  | 0, '\x7b' :: _ => none
  | depth + 1, '[' :: rest =>
    (itemsWith (valueWithin size depth) size rest).map fun (values, rest) =>
      (.list values, rest)
  | depth + 1, '\x7b' :: rest =>
    match skipBlanks rest with
    | '\x7d' :: rest => some (.table [], rest)
    | _ =>
      (pairsWith (valueWithin size depth) size [] rest).map fun (entries, rest) =>
        (.table (Node.entriesToValues entries), rest)
  | _, text@('"' :: _) => (string? text).map fun (text, rest) => (.string text, rest)
  | _, text@('\'' :: _) => (string? text).map fun (text, rest) => (.string text, rest)
  | _, text => scalar? text

def value? (size : Nat) : Scan Value := valueWithin size maxDepth

/-- A document while it is read: all its tables, and the header under which the next lines stand. -/
structure Reading where
  entries : Entries
  header : Path

namespace Reading

/-- A line with a key and its value; the size bounds what is left of the document. -/
def takePair (reading : Reading) (size : Nat) (text : List Char) :
    Option (Reading × List Char) := do
  let ((key, value), rest) ← pairWith (value? size) text
  let entries ← Entries.underHeader (Entries.addKey key value) reading.header reading.entries
  return ({ reading with entries }, ← afterLine? rest)

/-- A header after its opening bracket. -/
def takeTable (reading : Reading) (text : List Char) : Option (Reading × List Char) := do
  let ((first, others), rest) ← key? text
  let path := first :: others
  let entries ← Entries.openTable path.dropLast (path.getLastD "") reading.entries
  return (⟨entries, path⟩, ← afterLine? (← afterChar? ']' rest))

def takeTables (reading : Reading) (text : List Char) : Option (Reading × List Char) := do
  let ((first, others), rest) ← key? text
  let path := first :: others
  let entries ← Entries.openTables path.dropLast (path.getLastD "") reading.entries
  return (⟨entries, path⟩, ← afterLine? (← afterChar? ']' (← afterChar? ']' rest)))

/-- The lines of a document. Their number, and the size of what is left, are bounded. -/
def takeLines : Nat → Reading → List Char → Option Entries
  | 0, _, _ => none
  | fuel + 1, reading, text => do
    match skipBlanks text with
    | [] => return reading.entries
    | '#' :: rest => takeLines fuel reading (← afterLine? ('#' :: rest))
    | '\n' :: rest => takeLines fuel reading rest
    | '\r' :: rest => takeLines fuel reading (← afterNewline? ('\r' :: rest))
    | '[' :: '[' :: rest =>
      let (reading, rest) ← reading.takeTables rest
      takeLines fuel reading rest
    | '[' :: rest =>
      let (reading, rest) ← reading.takeTable rest
      takeLines fuel reading rest
    | text =>
      let (reading, rest) ← reading.takePair (fuel + 1) text
      takeLines fuel reading rest

end Reading

/-- The outermost table of a document. A byte order mark at its beginning does not count. -/
def read? (document : String) : Option (List (String × Value)) :=
  let text := match document.toList with
    | '\uFEFF' :: rest => rest
    | text => text
  (Reading.takeLines (text.length + 1) ⟨[], []⟩ text).map Node.entriesToValues

end Unbraid.Toml
