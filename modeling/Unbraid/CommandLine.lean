/-!
# Command lines

The arguments of a command: options that each take a value, and operands. An option stands as
`--name value` or `--name=value`, in any order and at most once; after `--` all arguments are
operands. Asking for help or for the version ends the reading at once. What a run of the command
leaves behind for the one who started it is a report.
-/

namespace Unbraid

structure Report where
  /-- Zero if all went well. -/
  status : Nat
  /-- The lines of the output. -/
  output : List String
  /-- What went wrong. -/
  complaint : Option String
  deriving DecidableEq, Repr

namespace Report

def success (output : List String) : Report := ⟨0, output, none⟩

/-- The arguments are not understood. -/
def misuse (program : String) : Report :=
  ⟨2, [], some ("error: unknown or missing arguments; try '" ++ program ++ " --help'")⟩

end Report

namespace CommandLine

/-- An option or an operand. -/
structure Parameter where
  /-- The name of an option, without its dashes. -/
  name : String
  /-- May it have this value? -/
  accepts : String → Bool

structure Usage where
  options : List Parameter
  operands : List Parameter
  /-- Can the command be asked for the version? -/
  hasVersion : Bool

/-- The values that were given, by the names of the parameters, the latest first. -/
abbrev Given := List (String × String)

inductive Reading where
  | given (given : Given)
  | help
  | version
  | refused
  deriving DecidableEq, Repr

inductive Form where
  /-- Two dashes alone. -/
  | separator
  /-- Two dashes, a name, and perhaps a value after an equals sign. -/
  | named (name : String) (value : Option String)
  /-- A dash and letters. -/
  | letters (letters : List Char)
  /-- Anything else; also a dash alone. -/
  | word
  deriving DecidableEq, Repr

def formOf (argument : String) : Form :=
  match argument.toList with
  | ['-', '-'] => .separator
  | '-' :: '-' :: rest =>
    match rest.span (· ≠ '=') with
    | (name, '=' :: value) => .named (String.ofList name) (some (String.ofList value))
    | (name, _) => .named (String.ofList name) none
  | '-' :: letter :: rest => .letters (letter :: rest)
  | _ => .word

namespace Usage

/-- Enters a value. A parameter has one value, and it must be of its kind. -/
def enter (parameter : Parameter) (value : String) (given : Given) : Option Given :=
  if parameter.accepts value ∧ (given.lookup parameter.name).isNone then
    some ((parameter.name, value) :: given)
  else none

def enterOperand (usage : Usage) (value : String) (given : Given) : Option Given :=
  match usage.operands.find? fun operand => (given.lookup operand.name).isNone with
  | some operand => enter operand value given
  | none => none

/-- Reads arguments. Only a word can be the value of an option that has no equals sign. -/
def readFrom (usage : Usage) (given : Given) : List String → Reading
  | [] => .given given
  | argument :: rest =>
    match formOf argument with
    | .separator =>
      match rest.foldlM (fun given value => usage.enterOperand value given) given with
      | some given => .given given
      | none => .refused
    | .named "help" none => .help
    | .named name value =>
      if usage.hasVersion ∧ name = "version" ∧ value = none then .version
      else match usage.options.find? fun option => option.name = name, value, rest with
        | some option, some value, rest =>
          match enter option value given with
          | some given => usage.readFrom given rest
          | none => .refused
        | some option, none, value :: rest =>
          if formOf value = .word then
            match enter option value given with
            | some given => usage.readFrom given rest
            | none => .refused
          else .refused
        | _, _, _ => .refused
    | .letters ('h' :: _) => .help
    | .letters ('V' :: _) => if usage.hasVersion then .version else .refused
    | .letters _ => .refused
    | .word =>
      match usage.enterOperand argument given with
      | some given => usage.readFrom given rest
      | none => .refused

def read (usage : Usage) (arguments : List String) : Reading := usage.readFrom [] arguments

end Usage

/-- The number that decimal digits write, perhaps after a plus sign. -/
def natural? (text : String) : Option Nat :=
  let digits := match text.toList with
    | '+' :: rest => rest
    | chars => chars
  if digits = [] ∨ !digits.all Char.isDigit then none
  else some (digits.foldl (fun n digit => n * 10 + (digit.toNat - 48)) 0)

def anyText (_ : String) : Bool := true

def isPath (text : String) : Bool := text ≠ ""

end CommandLine

end Unbraid
