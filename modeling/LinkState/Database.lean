import LinkState.Pdu.Lsp
import LinkState.Table
import LinkState.Timer

/-!
# The link state database

The database of a level holds one entry for each known LSP ID.  An entry with
the sequence number zero is a placeholder for an LSP that is known by its ID
only.  An entry whose remaining lifetime field is zero is purged.
-/

namespace LinkState

/-- An entry of the database: the LSP, whether it was received, and its
timers. -/
structure Entry where
  lsp : Lsp
  received : Bool
  lifeTimer : Option Handle
  zeroAgeTimer : Option Handle
  refreshTimer : Option Handle
  deriving DecidableEq, Repr

namespace Entry

def isPurged (entry : Entry) : Bool :=
  entry.lsp.isExpired

/-- Whether the entry stands for an LSP that is known by its ID only. -/
def isPlaceholder (entry : Entry) : Bool :=
  entry.lsp.seqno = 0

/-- Whether the entry holds an LSP that is neither purged nor a placeholder. -/
def isLive (entry : Entry) : Bool :=
  !entry.isPurged && !entry.isPlaceholder

end Entry

abbrev Database := Table LspId Entry

namespace Database

/-- The entries whose LSP IDs satisfy a condition, in ascending order. -/
def select (database : Database) (condition : LspId → Bool) : List Entry :=
  (database.toList.filter fun p => condition p.1).map (·.2)

/-- The entries from one LSP ID to another, both included. -/
def range (database : Database) (start stop : LspId) : List Entry :=
  database.select fun id => ¬ id < start ∧ ¬ stop < id

def since (database : Database) (start : LspId) : List Entry :=
  database.select fun id => ¬ id < start

/-- The entries from one LSP ID to another, the latter not included. -/
def before (database : Database) (start stop : LspId) : List Entry :=
  database.select fun id => ¬ id < start ∧ id < stop

def ofSystem (database : Database) (system : SystemId) : List Entry :=
  database.range ⟨system, 0, 0⟩ ⟨system, 255, 255⟩

def ofNode (database : Database) (node : NodeId) : List Entry :=
  database.range (.ofNode node 0) (.ofNode node 255)

end Database

/-! ### Arbitration -/

inductive Recency
  | newer
  | same
  | older
  deriving DecidableEq, Repr

namespace Recency

/-- Compares sequence numbers and remaining lifetimes.  With one sequence
number, a purge is newer than a live copy, and a live copy newer than a
purge. -/
def ofFields (storedSeqno : UInt32) (storedLifetime : UInt16) (seqno : UInt32)
    (lifetime : UInt16) : Recency :=
  if storedSeqno < seqno then newer
  else if seqno < storedSeqno then older
  else if storedLifetime ≠ 0 ∧ lifetime = 0 then newer
  else if storedLifetime = 0 ∧ lifetime ≠ 0 then newer
  else same

/-- Compares an LSP with the stored copy, if there is one.  Copies with equal
octets are the same whatever their fields. -/
def compare (stored : Option Lsp) (seqno : UInt32) (lifetime : UInt16) (raw : Option Octets) :
    Recency :=
  match stored with
  | none => newer
  | some lsp =>
      if ¬ lsp.raw = [] ∧ raw = some lsp.raw then same
      else ofFields lsp.seqno lsp.lifetime seqno lifetime

def ofLsp (stored : Option Lsp) (lsp : Lsp) : Recency :=
  compare stored lsp.seqno lsp.lifetime (some lsp.raw)

end Recency

end LinkState
