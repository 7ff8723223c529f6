/-!
# The layout of TOML

Reading the layout of a TOML document: blanks, line ends and comments. A scanner takes what is
left of the document and gives what it read with what is left after it, or nothing.
-/

namespace Unbraid.Toml

/-- Reads something at the beginning of a text. -/
abbrev Scan (α : Type) := List Char → Option (α × List Char)

def afterChar? (char : Char) : List Char → Option (List Char)
  | first :: rest => if first = char then some rest else none
  | [] => none

def isBlank (char : Char) : Bool := char = ' ' || char = '\t'

def skipBlanks (text : List Char) : List Char := text.dropWhile isBlank

/-- May the character stand in a comment or in a string as it is? Of the control characters of
ASCII only the tab may. -/
def isPlain (char : Char) : Bool := char = '\t' || (' ' ≤ char && char ≠ '\x7f')

/-- What follows a line end: a line feed, with a carriage return before it or not. -/
def afterNewline? : List Char → Option (List Char)
  | '\n' :: rest => some rest
  | '\r' :: '\n' :: rest => some rest
  | _ => none

def skipComment : List Char → List Char
  | '#' :: rest => rest.dropWhile isPlain
  | text => text

/-- What follows the rest of a line that holds nothing but blanks and a comment. -/
def afterLine? (text : List Char) : Option (List Char) :=
  match skipComment (skipBlanks text) with
  | [] => some []
  | rest => afterNewline? rest

/-- What follows the blanks, line ends and comments at the beginning of a text, which may stand in a
comment already; a comment reaches to a line end. -/
def skipLines? (inComment : Bool) : List Char → Option (List Char)
  | [] => if inComment then none else some []
  | '\n' :: rest => skipLines? false rest
  | '\r' :: '\n' :: rest => skipLines? false rest
  | char :: rest =>
    if inComment then (if isPlain char then skipLines? true rest else none)
    else if isBlank char then skipLines? false rest
    else if char = '#' then skipLines? true rest
    else if char = '\r' then none
    else some (char :: rest)

end Unbraid.Toml
