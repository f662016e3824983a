/-!
# JSON values

The values of a JSON text.  A number that is written as a plain natural number
is kept as one; any other number keeps its literal.  A string that holds an
escape for half of a surrogate pair stands for no text, so strings and keys
are optional; such a string is harmless where nothing reads it.
-/

namespace LinkState

inductive Json
  | null
  | bool (value : Bool)
  | natural (value : Nat)
  | otherNumber (literal : String)
  | string (value : Option String)
  | array (items : List Json)
  | object (members : List (Option String × Json))
  deriving Inhabited

namespace Json

def text (value : String) : Json :=
  string (some value)

def record (members : List (String × Json)) : Json :=
  object (members.map fun member => (some member.1, member.2))

/-- An array of values, each given by a function. -/
def list {α : Type} (f : α → Json) (items : List α) : Json :=
  array (items.map f)

def option {α : Type} (f : α → Json) : Option α → Json
  | some a => f a
  | none => null

def octets (items : List UInt8) : Json :=
  list (fun octet => natural octet.toNat) items

/-- The first member of an object with the given key. -/
def member? (json : Json) (key : String) : Option Json :=
  match json with
  | object members => (members.find? fun member => member.1 = some key).map (·.2)
  | _ => none

end Json

end LinkState
