import LinkState.Json.Value

/-!
# Reading records from JSON

A record is written as an object or as an array.  In an object its fields are
found by name: other members are skipped, and a field that is given twice is
refused.  In an array its fields come in order, and no further item may
follow.  A field that is absent may have a default; in an object an optional
value may also be absent.
-/

namespace LinkState.Json

/-- A field of a record: given, or absent from an object or an array. -/
inductive Slot
  | given (value : Json)
  | absentMember
  | absentItem

/-- The member of an object with the given key, which must not be repeated. -/
def slot? (members : List (Option String × Json)) (key : String) : Option Slot :=
  match members.filter fun member => member.1 = some key with
  | [] => some .absentMember
  | [member] => some (.given member.2)
  | _ => none

/-- The items of an array, one for each of the names, no more. -/
def slotItems? : List String → List Json → Option (List Slot)
  | [], [] => some []
  | [], _ :: _ => none
  | _ :: names, [] => (slotItems? names []).map (.absentItem :: ·)
  | _ :: names, item :: items => (slotItems? names items).map (.given item :: ·)

/-- The fields of a record, one for each of the names. -/
def slots? (names : List String) : Json → Option (List Slot)
  | .object members =>
      if members.any fun member => member.1.isNone then none else names.mapM (slot? members)
  | .array items => slotItems? names items
  | _ => none

namespace Slot

def required {α : Type} (read : Json → Option α) : Slot → Option α
  | given value => read value
  | _ => none

def withDefault {α : Type} (fallback : α) (read : Json → Option α) : Slot → Option α
  | given value => read value
  | _ => some fallback

end Slot

/-! ### Values of a field -/

/-- A value, or none where null is written. -/
def toOption? {α : Type} (read : Json → Option α) : Json → Option (Option α)
  | .null => some none
  | value => (read value).map some

/-- The value of an optional field, which may be absent from an object. -/
def Slot.optional {α : Type} (read : Json → Option α) : Slot → Option (Option α)
  | given value => toOption? read value
  | absentMember => some none
  | absentItem => none

def toBool? : Json → Option Bool
  | .bool value => some value
  | _ => none

def toText? : Json → Option String
  | .string value => value
  | _ => none

/-- A plain natural number up to a bound. -/
def toNatUpTo? (bound : Nat) : Json → Option Nat
  | .natural value => if value ≤ bound then some value else none
  | _ => none

def toU8? (json : Json) : Option UInt8 :=
  (json.toNatUpTo? 0xFF).map UInt8.ofNat

def toU16? (json : Json) : Option UInt16 :=
  (json.toNatUpTo? 0xFFFF).map UInt16.ofNat

def toU32? (json : Json) : Option UInt32 :=
  (json.toNatUpTo? 0xFFFFFFFF).map UInt32.ofNat

def toList? {α : Type} (read : Json → Option α) : Json → Option (List α)
  | .array items => items.mapM read
  | _ => none

/-- A choice among names: the name itself, or an object that maps it to null. -/
def toName? : Json → Option String
  | .string value => value
  | .object [(key, .null)] => key
  | _ => none

end LinkState.Json
