import LinkState.Config
import LinkState.Flooding
import LinkState.Paging
import LinkState.Trace

/-!
# The state of a level

All that the update process of one level holds: its database with the timers
of the entries, the flooding flags, the pages built so far, and what is known
of circuits, elections and generators.  The clock is part of the state and
only moves forward.  A check that fails leaves a fault behind, the first of
which is kept; without one the state can be trusted.
-/

namespace LinkState

/-- What a timer is for. -/
inductive TimerEvent
  | expire (id : LspId)
  | delete (id : LspId)
  | refresh (id : LspId)
  | generate (pseudonode : UInt8)
  deriving DecidableEq, Repr

/-- The generator of the LSPs of a pseudonode, or of the system itself: the
timer of its next run, and the time of its last run. -/
structure Generator where
  timer : Option Handle
  lastRun : Option Nat
  deriving DecidableEq, Repr

/-- An own LSP that was received while the election for its pseudonode was
undecided, and the circuit it came from. -/
structure DeferredLsp where
  circuit : CircuitId
  lsp : Lsp
  deriving DecidableEq, Repr

/-- How often something happened, and whether any of it ever did. -/
structure Counters where
  corruptedLsps : UInt32
  ownPurges : UInt32
  skippedSeqnos : UInt32
  exhaustedSeqnos : UInt32
  touched : Bool
  deriving DecidableEq, Repr

namespace Counters

def zero : Counters := ⟨0, 0, 0, 0, false⟩

end Counters

/-- Why an LSP was installed: its content is new, or it is refreshed. -/
inductive InstallReason
  | refresh
  | contentChange
  deriving DecidableEq, Repr

namespace InstallReason

def name : InstallReason → String
  | refresh => "Refresh"
  | contentChange => "ContentChange"

end InstallReason

/-- An LSP that was installed, for the record. -/
structure HistoryItem where
  number : UInt32
  id : LspId
  seqno : UInt32
  received : Bool
  reason : InstallReason
  deriving DecidableEq, Repr

inductive Fault
  | alreadyPurged (id : LspId)
  | inconsistentTimers (id : LspId)
  | duplicateEntry (id : LspId)
  | missingPage (index : Nat)
  | repeatedExpiry (id : LspId)
  deriving DecidableEq, Repr

namespace Fault

def message : Fault → String
  | alreadyPurged id => "LSP " ++ id.text ++ ": already purged"
  | inconsistentTimers id => "LSP " ++ id.text ++ ": inconsistent lifetime timers"
  | duplicateEntry id => "LSP " ++ id.text ++ " already exists"
  | missingPage index => "no page with the index " ++ toString index
  | repeatedExpiry id => "LSP " ++ id.text ++ ": expired twice"

end Fault

/-- The state of the update process of a level. -/
structure LevelState where
  level : Level
  config : Config
  advertised : Advertisement
  now : Nat
  database : Database
  flooding : Flooding
  pages : List Page
  circuits : Table CircuitId Circuit
  elections : Table UInt8 Election
  generators : Table UInt8 Generator
  deferred : Table UInt8 (Table LspId DeferredLsp)
  timers : TimerQueue TimerEvent
  counters : Counters
  history : List HistoryItem
  lastHistoryNumber : UInt32
  trace : List Event
  fault : Option Fault
  deriving DecidableEq

namespace LevelState

/-- The state before anything has happened. -/
def blank (level : Level) (config : Config) (now : Nat) : LevelState where
  level := level
  config := config
  advertised := config.advertised
  now := now
  database := Table.empty
  flooding := Table.empty
  pages := []
  circuits := Table.empty
  elections := Table.empty
  generators := Table.empty
  deferred := Table.empty
  timers := TimerQueue.empty
  counters := Counters.zero
  history := []
  lastHistoryNumber := 0
  trace := []
  fault := none

/-- Tells an event.  The latest is first in the trace. -/
def tell (s : LevelState) (event : Event) : LevelState :=
  { s with trace := event :: s.trace }

/-- Records a failed check; the first one is kept. -/
def fail (s : LevelState) (fault : Fault) : LevelState :=
  { s with fault := s.fault.or (some fault) }

def advance (s : LevelState) (span : Nat) : LevelState :=
  { s with now := s.now + span }

/-- Moves the clock to a time that is not in the past. -/
def advanceTo (s : LevelState) (time : Nat) : LevelState :=
  { s with now := max s.now time }

/-- Counts something, and notes that something was counted. -/
def count (s : LevelState) (f : Counters → Counters) : LevelState :=
  { s with counters := { f s.counters with touched := true } }

/-- Whether an LSP carries the system ID of this system. -/
def isOwn (s : LevelState) (id : LspId) : Bool :=
  id.system = s.config.system

def isPointToPoint (s : LevelState) (circuit : CircuitId) : Bool :=
  ((s.circuits.get? circuit).map Circuit.isPointToPoint).getD false

/-- The entry of an LSP, unless it is a placeholder. -/
def known? (s : LevelState) (id : LspId) : Option Entry :=
  (s.database.get? id).filter fun entry => !entry.isPlaceholder

/-- The sequence number of the stored copy of an LSP, or zero. -/
def storedSeqno (s : LevelState) (id : LspId) : UInt32 :=
  ((s.database.get? id).map fun entry => entry.lsp.seqno).getD 0

def summaryOf (s : LevelState) (lsp : Lsp) : LspSummary :=
  lsp.summary s.now

/-- The field that names this system as the originator of a purge, if the
system is configured to add it. -/
def purgeOriginator (s : LevelState) : Option PurgeOriginator :=
  if s.config.purgeOriginator then some ⟨s.config.system, none⟩ else none

/-! ### Timers -/

def schedule (s : LevelState) (span : Nat) (event : TimerEvent) : Handle × LevelState :=
  let (handle, timers) := s.timers.schedule s.now span event
  (handle, { s with timers := timers })

def cancel (s : LevelState) : Option Handle → LevelState
  | some handle => { s with timers := s.timers.remove handle.number }
  | none => s

def cancelEntry (s : LevelState) (entry : Entry) : LevelState :=
  ((s.cancel entry.lifeTimer).cancel entry.zeroAgeTimer).cancel entry.refreshTimer

/-! ### Flooding flags -/

/-- Marks an LSP for sending on all circuits but one, and no longer for
acknowledgement on those. -/
def flood (s : LevelState) (lsp : Lsp) (except : Option CircuitId) : LevelState :=
  { s with
    flooding := (s.flooding.setAll .srm (s.summaryOf lsp) except).clearAll .ssn lsp.id except }

def setFlag (s : LevelState) (flag : Flag) (summary : LspSummary) (circuit : CircuitId) :
    LevelState :=
  { s with flooding := s.flooding.set flag summary circuit }

def clearFlag (s : LevelState) (flag : Flag) (id : LspId) (circuit : CircuitId) : LevelState :=
  { s with flooding := s.flooding.clear flag id circuit }

def clearFlags (s : LevelState) (flag : Flag) (id : LspId) (except : Option CircuitId) :
    LevelState :=
  { s with flooding := s.flooding.clearAll flag id except }

end LevelState

end LinkState
