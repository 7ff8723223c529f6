import Unbraid.Toml.Scan

/-!
# Strings and keys of TOML

Strings and keys of TOML. Basic strings stand in quotation marks and have escapes, literal strings
stand in apostrophes and have none; either kind may span lines between marks written three times.
-/

namespace Unbraid.Toml

def hexValue? (char : Char) : Option Nat :=
  if '0' ≤ char ∧ char ≤ '9' then some (char.toNat - '0'.toNat)
  else if 'a' ≤ char ∧ char ≤ 'f' then some (char.toNat - 'a'.toNat + 10)
  else if 'A' ≤ char ∧ char ≤ 'F' then some (char.toNat - 'A'.toNat + 10)
  else none

/-- The character that hexadecimal digits stand for; surrogates are none. -/
def charOfHex? (digits : List Char) : Option Char := do
  let code ← digits.foldlM (fun n digit => (hexValue? digit).map (n * 16 + ·)) 0
  if h : code.isValidChar then some (Char.ofNatAux code h) else none

/-- The character that a one-letter escape stands for. -/
def shortEscape? : Char → Option Char
  | 'b' => some '\x08'
  | 't' => some '\t'
  | 'n' => some '\n'
  | 'f' => some '\x0c'
  | 'r' => some '\r'
  | '"' => some '"'
  | '\\' => some '\\'
  | _ => none

def consChar (char : Char) : List Char × List Char → List Char × List Char
  | (text, rest) => (char :: text, rest)

/-- Puts the character of an escape, if it is one, before what a scanner reads. -/
def consEscape? (char : Option Char) (read : Option (List Char × List Char)) :
    Option (List Char × List Char) :=
  char.bind fun char => read.map (consChar char)

/-- A basic string after its opening mark. -/
def basic? : List Char → Option (List Char × List Char)
  | [] => none
  | '"' :: rest => some ([], rest)
  | '\\' :: 'u' :: a :: b :: c :: d :: rest => consEscape? (charOfHex? [a, b, c, d]) (basic? rest)
  | '\\' :: 'U' :: a :: b :: c :: d :: e :: f :: g :: h :: rest =>
    consEscape? (charOfHex? [a, b, c, d, e, f, g, h]) (basic? rest)
  | '\\' :: letter :: rest => consEscape? (shortEscape? letter) (basic? rest)
  | char :: rest => if isPlain char then (basic? rest).map (consChar char) else none

/-- Where the reader of a string over several lines is. -/
inductive Joint where
  /-- In the text. -/
  | none
  /-- After a backslash at the end of a line, which only blanks may follow. -/
  | opened
  /-- Before the text that goes on after such a line; blanks and line ends do not count. -/
  | closing
  deriving DecidableEq, Repr

/-- A basic string over several lines, after its opening marks. A backslash at the end of a line
joins the line with the next text; up to two marks may stand before the closing ones. -/
def multiBasic? (text : List Char) : Option (List Char × List Char) :=
  go .none ((afterNewline? text).getD text)
where
  go : Joint → List Char → Option (List Char × List Char)
    | _, [] => none
    | .opened, '\n' :: rest => go .closing rest
    | .opened, '\r' :: '\n' :: rest => go .closing rest
    | .opened, char :: rest => if isBlank char then go .opened rest else none
    | .closing, '\n' :: rest => go .closing rest
    | .closing, '\r' :: '\n' :: rest => go .closing rest
    | .closing, ' ' :: rest => go .closing rest
    | .closing, '\t' :: rest => go .closing rest
    | _, '"' :: '"' :: '"' :: '"' :: '"' :: rest => some (['"', '"'], rest)
    | _, '"' :: '"' :: '"' :: '"' :: rest => some (['"'], rest)
    | _, '"' :: '"' :: '"' :: rest => some ([], rest)
    | _, '\\' :: 'u' :: a :: b :: c :: d :: rest =>
      consEscape? (charOfHex? [a, b, c, d]) (go .none rest)
    | _, '\\' :: 'U' :: a :: b :: c :: d :: e :: f :: g :: h :: rest =>
      consEscape? (charOfHex? [a, b, c, d, e, f, g, h]) (go .none rest)
    | _, '\\' :: '\n' :: rest => go .closing rest
    | _, '\\' :: '\r' :: '\n' :: rest => go .closing rest
    | _, '\\' :: letter :: rest =>
      if isBlank letter then go .opened rest else consEscape? (shortEscape? letter) (go .none rest)
    | _, '\r' :: '\n' :: rest => (go .none rest).map (consChar '\n')
    | _, '\n' :: rest => (go .none rest).map (consChar '\n')
    | _, char :: rest => if isPlain char then (go .none rest).map (consChar char) else none

def literal? : List Char → Option (List Char × List Char)
  | [] => none
  | '\'' :: rest => some ([], rest)
  | char :: rest => if isPlain char then (literal? rest).map (consChar char) else none

/-- A literal string over several lines, after its opening marks. -/
def multiLiteral? (text : List Char) : Option (List Char × List Char) :=
  go ((afterNewline? text).getD text)
where
  go : List Char → Option (List Char × List Char)
    | '\'' :: '\'' :: '\'' :: '\'' :: '\'' :: rest => some (['\'', '\''], rest)
    | '\'' :: '\'' :: '\'' :: '\'' :: rest => some (['\''], rest)
    | '\'' :: '\'' :: '\'' :: rest => some ([], rest)
    | '\r' :: '\n' :: rest => (go rest).map (consChar '\n')
    | '\n' :: rest => (go rest).map (consChar '\n')
    | char :: rest => if isPlain char then (go rest).map (consChar char) else none
    | [] => none

def string? (text : List Char) : Option (String × List Char) :=
  let read := match text with
    | '"' :: '"' :: '"' :: rest => multiBasic? rest
    | '"' :: rest => basic? rest
    | '\'' :: '\'' :: '\'' :: rest => multiLiteral? rest
    | '\'' :: rest => literal? rest
    | _ => none
  read.map fun (chars, rest) => (String.ofList chars, rest)

def isBare (char : Char) : Bool :=
  ('a' ≤ char && char ≤ 'z') || ('A' ≤ char && char ≤ 'Z') || ('0' ≤ char && char ≤ '9')
    || char = '-' || char = '_'

def simpleKey? : Scan String
  | '"' :: rest => (basic? rest).map fun (chars, rest) => (String.ofList chars, rest)
  | '\'' :: rest => (literal? rest).map fun (chars, rest) => (String.ofList chars, rest)
  | text =>
    match text.takeWhile isBare with
    | [] => none
    | key => some (String.ofList key, text.dropWhile isBare)

/-- How many parts a key may have. -/
def maxKeyParts : Nat := 79

/-- The parts of a key between points, with blanks around each; the first part apart. -/
def key? (text : List Char) : Option ((String × List String) × List Char) := do
  match ← go maxKeyParts text with
  | ([], _) => none
  | (first :: others, rest) => some ((first, others), rest)
where
  go : Nat → List Char → Option (List String × List Char)
    | 0, _ => none
    | fuel + 1, text => do
      let (part, rest) ← simpleKey? (skipBlanks text)
      match skipBlanks rest with
      | '.' :: rest => (go fuel rest).map fun (parts, rest) => (part :: parts, rest)
      | rest => some ([part], rest)

end Unbraid.Toml
