import LinkState.Table

/-!
# Circuits and elections

A circuit is known here while it has a neighbour.  On a broadcast circuit a
designated system is elected, which represents the circuit by a pseudonode;
until the outcome is known nothing is recorded for the pseudonode.
-/

namespace LinkState

abbrev CircuitId := UInt32

inductive CircuitType
  | broadcast
  | pointToPoint
  deriving DecidableEq, Repr

structure Circuit where
  id : CircuitId
  name : String
  kind : CircuitType
  deriving DecidableEq, Repr

namespace Circuit

/-- Whether a circuit has one neighbour at most. -/
def isPointToPoint (circuit : Circuit) : Bool :=
  circuit.kind = .pointToPoint

end Circuit

/-- The outcome of the election for a pseudonode: the circuit it stands for,
whether this system is elected, and the neighbours on the circuit. -/
structure Election where
  circuit : CircuitId
  elected : Bool
  neighbors : Table SystemId Unit
  deriving DecidableEq

end LinkState
