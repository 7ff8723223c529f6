import Unbraid.Bytes

/-!
# Files

What stands under a path, and what comes of reading it.

A path is followed name by name from the folder that a program runs in. Each step needs a folder to
start from; a dot stays there, two dots lead to the folder around it.
-/

namespace Unbraid

inductive File where
  | regular (content : Bytes)
  | directory
  | missing
  /-- The path leads on from a regular file. -/
  | beyondFile
  /-- The path, or a name on it that is looked up, is longer than the system allows. -/
  | nameTooLong
  deriving DecidableEq, Repr

inductive FileFault where
  | missing
  | beyondFile
  | directory
  | nameTooLong
  deriving DecidableEq, Repr

def FileFault.message : FileFault → String
  | missing => "No such file or directory (os error 2)"
  | beyondFile => "Not a directory (os error 20)"
  | directory => "Is a directory (os error 21)"
  | nameTooLong => "File name too long (os error 36)"

def File.read : File → Except FileFault Bytes
  | regular content => .ok content
  | directory => .error .directory
  | missing => .error .missing
  | beyondFile => .error .beyondFile
  | nameTooLong => .error .nameTooLong

/-- The files below the folder that a program runs in, each with its path from there. -/
abbrev Folder := List (List String × Bytes)

/-- A folder that a path has led to. -/
inductive Place where
  /-- In the folder that the program runs in, so many names down; the latest first. -/
  | inside (names : List String)
  /-- A folder around it. -/
  | around
  /-- The outermost folder of all. -/
  | top
  /-- A folder of the system, directly in the outermost one. -/
  | system (name : String)
  deriving DecidableEq, Repr

namespace Place

def parent : Place → Place
  | inside (_ :: names) => .inside names
  | inside [] | around => .around
  | top | system _ => .top

end Place

namespace Folder

/-- How many bytes a path may have. -/
def maxPathLength : Nat := 4095

def maxNameLength : Nat := 255

def systemFolders : List String :=
  ["bin", "dev", "etc", "home", "proc", "root", "tmp", "usr", "var"]

def names (path : String) : List String := path.splitOn "/"

/-- What a name in a folder stands for: a folder, or else how a path ends there. Of the system only
a few folders are known, and the file that holds nothing. -/
def lookUp (folder : Folder) (place : Place) (name : String) : Except File Place :=
  if maxNameLength < name.utf8ByteSize then .error .nameTooLong
  else match place with
    | .inside above =>
      let path := (name :: above).reverse
      match folder.lookup path with
      | some content => .error (.regular content)
      | none =>
        if folder.any fun entry => path.isPrefixOf entry.1 then .ok (.inside (name :: above))
        else .error .missing
    | .top => if systemFolders.contains name then .ok (.system name) else .error .missing
    | .system "dev" => if name = "null" then .error (.regular []) else .error .missing
    | .system _ | .around => .error .missing

def follow (folder : Folder) (place : Place) : List String → File
  | [] => .directory
  | "" :: rest | "." :: rest => folder.follow place rest
  | ".." :: rest => folder.follow place.parent rest
  | name :: rest =>
    match folder.lookUp place name with
    | .ok inner => folder.follow inner rest
    | .error (.regular content) => if rest = [] then .regular content else .beyondFile
    | .error file => file

def file (folder : Folder) (path : String) : File :=
  if path = "" then .missing
  else if maxPathLength < path.utf8ByteSize then .nameTooLong
  else folder.follow (if path.startsWith "/" then .top else .inside []) (names path)

end Folder

end Unbraid
