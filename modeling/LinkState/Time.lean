/-!
# Time

Points in time and spans of it are natural numbers of milliseconds.
-/

namespace LinkState

/-- The milliseconds in a number of seconds. -/
def seconds (n : Nat) : Nat := n * 1000

end LinkState
