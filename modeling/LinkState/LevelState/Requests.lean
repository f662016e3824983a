import LinkState.LevelState.Summaries
import LinkState.LevelState.Timers

/-!
# Requests to a level

What the surroundings ask of the update process of a level: to look at received
octets, to take notice of circuits, elections and changes of what the system
advertises, to purge, to page its database, and to stop.
-/

namespace LinkState.LevelState

/-- The state in which a level starts: the first generation of the LSPs of the
system is pending. -/
def start (level : Level) (config : Config) (now : Nat) : LevelState :=
  (blank level config now).startGenerator 0

/-! ### Received octets

The event that tells a received PDU is kept when the PDU is refused. -/

def receiveLspOctets (s : LevelState) (circuit : Option CircuitId) (octets : Octets) : Outcome :=
  match Pdu.decode s.now octets with
  | .error cause => (s, some (.undecodable circuit cause))
  | .ok pdu =>
      let s := match circuit with
        | some circuit => s.tell (.pduReceived circuit pdu)
        | none => s
      match pdu with
      | .lsp lsp => s.receiveLsp circuit lsp
      | .snp snp => (s, some (.unexpectedPdu circuit snp.header.kind))

def receiveSnpOctets (s : LevelState) (circuit : CircuitId) (octets : Octets) : Outcome :=
  match Pdu.decode s.now octets with
  | .error cause => (s, some (.undecodable (some circuit) cause))
  | .ok pdu =>
      let s := s.tell (.pduReceived circuit pdu)
      match pdu with
      | .snp snp => s.receiveSnp circuit snp
      | .lsp lsp => (s, some (.unexpectedPdu (some circuit) lsp.header.kind))

/-! ### Circuits and elections -/

/-- Takes notice of a circuit.  On a point-to-point circuit all LSPs are marked
for sending. -/
def addCircuit (s : LevelState) (circuit : Circuit) : LevelState :=
  let s := s.tell (.circuitAdded circuit)
  let s :=
    { s with
      flooding := s.flooding.addCircuit circuit.id
      circuits := s.circuits.insert circuit.id circuit }
  if circuit.isPointToPoint then
    (s.database.values.filter fun entry => !entry.isPlaceholder).foldl
      (fun s entry => s.setFlag .srm (s.summaryOf entry.lsp) circuit.id) s
  else s

/-- Forgets a circuit, with the LSPs that were deferred on it. -/
def removeCircuit (s : LevelState) (circuit : CircuitId) : LevelState :=
  let s := s.tell .circuitRemoved
  { s with
    circuits := s.circuits.erase circuit
    flooding := s.flooding.erase circuit
    deferred := s.deferred.map fun _ waiting =>
      waiting.filter fun _ lsp => lsp.circuit ≠ circuit }

/-- Processes an LSP that was deferred; an error is told. -/
def resume (s : LevelState) (deferred : DeferredLsp) : LevelState :=
  tellOutcome (s.receiveLsp (some deferred.circuit) deferred.lsp)

def resumeAll (s : LevelState) (pseudonode : UInt8) : LevelState :=
  match s.deferred.get? pseudonode with
  | none => s
  | some waiting =>
      waiting.values.foldl resume { s with deferred := s.deferred.erase pseudonode }

/-- Records the outcome of an election, none if it is unknown, and starts or
removes the generator of the pseudonode. -/
def recordElection (s : LevelState) (pseudonode : UInt8) : Option Election → LevelState
  | some election =>
      let s := { s with elections := s.elections.insert pseudonode election }
      if election.elected then s.startGenerator pseudonode else s.removeGenerator pseudonode
  | none =>
      { s with elections := s.elections.erase pseudonode }.removeGenerator pseudonode

/-- Takes notice of the outcome of an election.  The system itself, which has
the number zero, is not elected. -/
def setElection (s : LevelState) (pseudonode : UInt8) (election : Option Election) :
    LevelState :=
  let s := s.tell (.electionChanged pseudonode election)
  if pseudonode = 0 then s else (s.recordElection pseudonode election).resumeAll pseudonode

/-! ### What the system advertises -/

def setAdvertisement (s : LevelState) (advertised : Advertisement) : LevelState :=
  if s.advertised = advertised then s
  else { s with advertised := advertised }.scheduleGeneration 0 0

def cancelGeneration (s : LevelState) (pseudonode : UInt8) : LevelState :=
  match s.generators.get? pseudonode with
  | none => s
  | some generator =>
      { s.cancel generator.timer with
        generators := s.generators.insert pseudonode { generator with timer := none } }

/-- Purges all LSPs of this system and cancels their generation. -/
def purgeOwn (s : LevelState) : LevelState :=
  let s := s.generators.keys.foldl cancelGeneration s
  s.purgeAll (liveIds (s.database.ofSystem s.config.system)) .removed

/-- Purges an LSP, which must not be purged already. -/
def purgeLsp (s : LevelState) (id : LspId) : Outcome :=
  if s.database.contains id then (s.purge id .removed, none)
  else (s, some (.lspNotFound s.level id))

/-! ### Pages -/

def pageCapacity (s : LevelState) : Nat :=
  SnpTlvs.capacity (s.config.mtu.toNat - Snp.completeHeaderSize)

def buildPage (s : LevelState) : LevelState :=
  let page := Page.build s.level ⟨s.config.system, 0⟩ s.pageCapacity s.database s.now
    (Page.nextStart s.pages)
  { s with pages := s.pages ++ [page] }.tell
    (.pageBuilt s.level s.pages.length page.start page.stop)

/-- Builds pages until the last one is there, at most as many as given. -/
def buildPages : Nat → LevelState → LevelState
  | 0, s => s
  | count + 1, s => if Page.complete s.pages then s else buildPages count s.buildPage

/-- The page with the given index, built if it is not there yet.  After the last
page comes the first one. -/
def page (s : LevelState) (index : Nat) : Option Page × LevelState :=
  let s := buildPages (index + 1 - s.pages.length) s
  let index := if index < s.pages.length then index else 0
  match s.pages[index]? with
  | some page => (some page, s)
  | none => (none, s.fail (.missingPage index))

/-! ### Queries -/

/-- The octets of an LSP as they are sent now.  A placeholder has none. -/
def payload? (s : LevelState) (id : LspId) : Option Octets :=
  (s.known? id).map fun entry => entry.lsp.rawWithLifetime (entry.lsp.remaining s.now)

def summary? (s : LevelState) (id : LspId) : Option LspSummary :=
  (s.database.get? id).map fun entry => s.summaryOf entry.lsp

/-! ### All requests -/

inductive Request
  | lsp (circuit : Option CircuitId) (octets : Octets)
  | snp (circuit : CircuitId) (octets : Octets)
  | addCircuit (circuit : Circuit)
  | removeCircuit (circuit : CircuitId)
  | setElection (pseudonode : UInt8) (election : Option Election)
  | setAdvertisement (advertised : Advertisement)
  | purgeOwn
  deriving DecidableEq

/-- Handles a request; an error is told. -/
def handle (s : LevelState) : Request → LevelState
  | .lsp circuit octets => tellOutcome (s.receiveLspOctets circuit octets)
  | .snp circuit octets => tellOutcome (s.receiveSnpOctets circuit octets)
  | .addCircuit circuit => s.addCircuit circuit
  | .removeCircuit circuit => s.removeCircuit circuit
  | .setElection pseudonode election => s.setElection pseudonode election
  | .setAdvertisement advertised => s.setAdvertisement advertised
  | .purgeOwn => s.purgeOwn

/-! ### The end -/

/-- Stops the process: cancels all timers and empties the database. -/
def stop (s : LevelState) : LevelState :=
  { s with
    timers := s.timers.clear.2
    database := Table.empty
    generators := Table.empty
    deferred := Table.empty
    pages := [] }

end LinkState.LevelState
