import Unbraid.Bytes

namespace Unbraid.Json

/-- A number as it is kept: an integer of 64 bits, signed or not, or a double. -/
inductive Number where
  | integer (value : Int)
  | double (value : Float)

/-- A JSON value. The members of an object are in ascending order of their keys. -/
inductive Value where
  | null
  | bool (value : Bool)
  | number (value : Number)
  | string (text : String)
  | list (items : List Value)
  | object (members : List (String × Value))

instance : Inhabited Value := ⟨.null⟩

/-- Puts a member in its place; a member with the same key gives way to it. -/
def insert {α : Type} (key : String) (value : α) : List (String × α) → List (String × α)
  | [] => [(key, value)]
  | (other, held) :: rest =>
    if key < other then (key, value) :: (other, held) :: rest
    else if key = other then (key, value) :: rest
    else (other, held) :: insert key value rest

namespace Value

def member? (key : String) : Value → Option Value
  | object members => members.lookup key
  | _ => none

def text? : Value → Option String
  | string text => some text
  | _ => none

/-- The value reached from member to member along a path of keys. A list has no members, so no
path of keys leads through one. -/
def at? (path : List String) (value : Value) : Option Value :=
  path.foldlM (fun v key => v.member? key) value

end Value

end Unbraid.Json
