/-!
# Routing levels

A system takes part in level 1 routing, in level 2 routing, or in both.
-/

namespace LinkState

inductive Level
  | one
  | two
  deriving DecidableEq, Repr

namespace Level

def number : Level → Nat
  | one => 1
  | two => 2

def text (level : Level) : String :=
  toString level.number

end Level

/-- The levels a system takes part in. -/
inductive LevelType
  | one
  | two
  | all
  deriving DecidableEq, Repr

namespace LevelType

/-- The set that holds one level only. -/
def ofLevel : Level → LevelType
  | .one => .one
  | .two => .two

/-- Whether two sets of levels have a level in common.  The set of all levels
meets every other one. -/
def intersects : LevelType → LevelType → Bool
  | .all, _ => true
  | .one, .one | .one, .all => true
  | .two, .two | .two, .all => true
  | _, _ => false

def contains (levels : LevelType) (level : Level) : Bool :=
  levels.intersects (ofLevel level)

def toList (levels : LevelType) : List Level :=
  [Level.one, Level.two].filter levels.contains

end LevelType

end LinkState
