/-!
# Flags of a link state PDU

One octet: partition repair, attachment, overload and the type of the system.
The other bits have no name.  As text, the names of the flags are joined by a
bar; bits without a name follow in hexadecimal.
-/

namespace LinkState

structure LspFlags where
  bits : UInt8
  deriving DecidableEq, Repr

namespace LspFlags

def none : LspFlags := ⟨0⟩

/-- The system can repair a partition of its area. -/
def partitionRepair : LspFlags := ⟨0x80⟩

/-- The system reaches other areas. -/
def attached : LspFlags := ⟨0x08⟩

/-- The database of the system is overloaded. -/
def overload : LspFlags := ⟨0x04⟩

/-- The system takes part in level 2. -/
def isType2 : LspFlags := ⟨0x02⟩

/-- The system takes part in level 1. -/
def isType1 : LspFlags := ⟨0x01⟩

/-- The named flags with their names, in the order of the text. -/
def named : List (String × LspFlags) :=
  [("P", partitionRepair), ("ATT", attached), ("OL", overload), ("IS_TYPE2", isType2),
    ("IS_TYPE1", isType1)]

def union (x y : LspFlags) : LspFlags := ⟨x.bits ||| y.bits⟩

/-- The named flags among the bits of an octet. -/
def ofBits (bits : UInt8) : LspFlags := ⟨bits &&& 0x8F⟩

/-- The flags of a set, if a condition holds. -/
def given (condition : Bool) (flags : LspFlags) : LspFlags :=
  if condition then flags else none

end LspFlags

end LinkState
