import LinkState.LevelState.Originate
import LinkState.LevelState.Purge
import LinkState.Pdu.Basic

/-!
# Receiving LSPs

An LSP from a circuit is validated and then arbitrated against the stored copy:
a newer one replaces it and is flooded, the same one is acknowledged, and in
answer to an older one the stored copy is sent.  An LSP that carries the system
ID of this system is answered by a newer instance or by a purge.
-/

namespace LinkState.LevelState

/-! ### Confusion -/

/-- Whether two live copies with one sequence number differ. -/
def isConfused (entry : Entry) (lifetime : UInt16) (checksum : UInt16) : Bool :=
  !entry.isPurged && lifetime != 0 && entry.lsp.checksum != checksum

/-- Ends the confusion about a stored LSP: a received copy is purged, and for
an own one a newer instance is originated. -/
def resolveConfusion (s : LevelState) (id : LspId) : LevelState :=
  match s.database.get? id with
  | none => s
  | some entry =>
      let s := s.tell (.lspChanged .confused s.level entry.lsp.mention)
      if entry.received then s.purge id .confusion
      else
        (s.count fun c => { c with skippedSeqnos := c.skippedSeqnos + 1 }).originate entry.lsp

/-! ### Arbitration -/

/-- Stops the life timer of the stored copy of a received LSP.  The answer is
false if the timer is due already and the received LSP is not newer than the
stored one once that has expired. -/
def stopLife (s : LevelState) (lsp : Lsp) : Bool × LevelState :=
  match s.database.get? lsp.id with
  | none => (true, s)
  | some entry =>
      match entry.lifeTimer with
      | none => (true, s)
      | some handle =>
          let (pending, timers) := s.timers.cancel handle.number
          let s :=
            { s with
              timers := timers
              database := s.database.modify lsp.id fun entry => { entry with lifeTimer := none } }
          (pending && s.now < handle.due ||
            Recency.ofFields entry.lsp.seqno 0 lsp.seqno lsp.lifetime = .newer, s)

/-- The received LSP as it is stored: this system is named as the originator of
a purge that names none. -/
def completed (s : LevelState) (lsp : Lsp) : Lsp :=
  if lsp.isExpired && lsp.tlvs.purgeOriginator.isNone && s.config.purgeOriginator then
    { lsp with tlvs := { lsp.tlvs with purgeOriginator := s.purgeOriginator } }.encode s.now
  else lsp

/-- Marks an LSP for acknowledgement on the circuit it came from, if that is a
point-to-point circuit. -/
def acknowledge (s : LevelState) (circuit : CircuitId) (lsp : Lsp) : LevelState :=
  if s.isPointToPoint circuit then s.setFlag .ssn (s.summaryOf lsp) circuit else s

/-- Stores a newer LSP and floods it on the other circuits. -/
def accept (s : LevelState) (circuit : CircuitId) (lsp : Lsp) : LevelState :=
  let lsp := s.completed lsp
  let s := (s.install lsp true).clearFlag .srm lsp.id circuit
  let s :=
    if s.isPointToPoint circuit then s.acknowledge circuit lsp
    else s.clearFlag .ssn lsp.id circuit
  s.flood lsp (some circuit)

/-- Records the purge of an unknown LSP, which is acknowledged and not
flooded. -/
def recordPurge (s : LevelState) (circuit : CircuitId) (lsp : Lsp) : LevelState :=
  let placeholder := Lsp.make s.now s.level 0 lsp.id 0 .none .empty
  (s.install placeholder true).acknowledge circuit lsp

/-- Acknowledges an LSP that is stored, unless the copies are confused. -/
def acceptSame (s : LevelState) (circuit : CircuitId) (lsp : Lsp) (stored : Option Entry) :
    LevelState :=
  if (stored.map fun entry => isConfused entry lsp.lifetime lsp.checksum).getD false then
    s.resolveConfusion lsp.id
  else (s.clearFlags .srm lsp.id none).acknowledge circuit lsp

/-- Marks the stored copy, which is newer, for sending on the circuit. -/
def answerOlder (s : LevelState) (circuit : CircuitId) (entry : Entry) : LevelState :=
  let id := entry.lsp.id
  ((s.setFlag .srm (s.summaryOf entry.lsp) circuit).clearFlag .ssn id circuit).clearFlags .srm id
    (some circuit)

/-- Arbitrates an LSP against the stored copy.  If the stored copy turns out to
have expired, `retry` takes over once it is expired. -/
def arbitrate (retry : LevelState → LevelState) (s : LevelState) (circuit : CircuitId)
    (lsp : Lsp) : LevelState :=
  if lsp.isExpired && (s.known? lsp.id).isNone then s.recordPurge circuit lsp
  else
    let stored := s.database.get? lsp.id
    match Recency.ofLsp (stored.map (·.lsp)) lsp with
    | .newer =>
        let (stopped, s) := s.stopLife lsp
        if stopped then s.accept circuit lsp else retry (s.expire lsp.id)
    | .same => s.acceptSame circuit lsp stored
    | .older =>
        match stored with
        | some entry => s.answerOlder circuit entry
        | none => s

/-- Arbitrates an LSP against the stored copy.  An expired copy has no life
timer any more, so that the second arbitration is the last one. -/
def judge (s : LevelState) (circuit : CircuitId) (lsp : Lsp) : LevelState :=
  s.arbitrate
    (fun s => s.arbitrate (fun s => s.fail (.repeatedExpiry lsp.id)) circuit lsp)
    circuit lsp

/-! ### Own LSPs -/

/-- Keeps an own LSP until the election for its pseudonode is decided.  Of
several copies the most recent one is kept. -/
def defer (s : LevelState) (circuit : CircuitId) (lsp : Lsp) : LevelState :=
  let s := s.tell (.lspChanged .deferred s.level lsp.mention)
  let waiting := (s.deferred.get? lsp.id.pseudonode).getD Table.empty
  let stored := (waiting.get? lsp.id).map (·.lsp)
  if Recency.ofLsp stored lsp = .newer then
    { s with
      deferred := s.deferred.insert lsp.id.pseudonode (waiting.insert lsp.id ⟨circuit, lsp⟩) }
  else s

/-- What is known about whether this system advertises a pseudonode.  It always
advertises itself. -/
def supports? (s : LevelState) (pseudonode : UInt8) : Option Bool :=
  if pseudonode = 0 then some true
  else (s.elections.get? pseudonode).map fun election => election.elected

/-- The answer to an own LSP, or none if it is to be arbitrated like any
other. -/
def answerOwn? (s : LevelState) (circuit : CircuitId) (lsp : Lsp) : Option LevelState :=
  match s.supports? lsp.id.pseudonode with
  | none => some (s.defer circuit lsp)
  | some supported =>
      let stored := s.known? lsp.id
      let recency := Recency.ofLsp (stored.map (·.lsp)) lsp
      if !supported then
        if lsp.isExpired then none
        else if (stored.map Entry.isPurged).getD false && recency ≠ .newer then none
        else some (s.forcePurge lsp .unsupported)
      else if recency ≠ .newer then none
      else
        match stored with
        | some entry =>
            if entry.isPurged then
              if lsp.isExpired then none else some (s.forcePurge lsp .removed)
            else
              let s := s.count fun c => { c with skippedSeqnos := c.skippedSeqnos + 1 }
              some (s.originate { entry.lsp with seqno := lsp.seqno })
        | none => if lsp.isExpired then none else some (s.forcePurge lsp .removed)

/-! ### Requests -/

/-- Processes an LSP that was received on a circuit. -/
def receiveFrom (s : LevelState) (circuit : CircuitId) (lsp : Lsp) : LevelState :=
  let own := s.isOwn lsp.id
  let s :=
    if lsp.isExpired && own then s.count fun c => { c with ownPurges := c.ownPurges + 1 } else s
  if !lsp.checksumValid then
    (s.count fun c => { c with corruptedLsps := c.corruptedLsps + 1 }).tell
      (.lspDiscarded s.level lsp.mention .invalidChecksum)
  else if lsp.isExpired && !lsp.tlvs.allowedInPurge then
    s.tell (.lspDiscarded s.level lsp.mention .invalidPurgeTlvs)
  else if own then (s.answerOwn? circuit lsp).getD (s.judge circuit lsp)
  else s.judge circuit lsp

/-- The state after a request, and the error if the request was refused. -/
abbrev Outcome := LevelState × Option UpdateError

/-- Tells the error of a request that was refused. -/
def tellOutcome : Outcome → LevelState
  | (s, none) => s
  | (s, some error) => s.tell (.refused error)

/-- Processes an LSP that was received on a circuit, or that this system hands
in itself if no circuit is given. -/
def receiveLsp (s : LevelState) (circuit : Option CircuitId) (lsp : Lsp) : Outcome :=
  if lsp.level ≠ s.level then (s, some (.levelMismatch circuit lsp.level))
  else
    match circuit with
    | none => if s.isOwn lsp.id then (s.originate lsp, none) else (s, some (.foreignLsp lsp.id))
    | some circuit =>
        if s.circuits.contains circuit then (s.receiveFrom circuit lsp, none)
        else (s, some (.circuitNotFound circuit))

end LinkState.LevelState
