import LinkState.LevelState.Receive

/-!
# Receiving sequence numbers PDUs

Each summary is compared with the stored copy of its LSP: a newer copy is
asked for, an older one is answered by the stored copy, and an unknown LSP gets
a placeholder so that it is asked for.  A complete sequence numbers PDU also
tells which LSPs of its range the neighbour lacks.
-/

namespace LinkState.LevelState

/-- Asks for an unknown LSP, unless its lifetime, its checksum or its sequence
number is zero. -/
def requestUnknown (s : LevelState) (circuit : CircuitId) (summary : LspSummary) : LevelState :=
  if summary.lifetime ≠ 0 ∧ summary.checksum ≠ 0 ∧ summary.seqno ≠ 0 then
    let placeholder := Lsp.make s.now s.level summary.lifetime summary.id 0 .none .empty
    (s.install placeholder true).setFlag .ssn (s.summaryOf placeholder) circuit
  else s

/-- On a point-to-point circuit, an LSP that the neighbour has needs not be
sent. -/
def settleSent (s : LevelState) (circuit : CircuitId) (id : LspId) : LevelState :=
  if s.isPointToPoint circuit then s.clearFlag .srm id circuit else s

def reviewStored (s : LevelState) (circuit : CircuitId) (entry : Entry) (summary : LspSummary) :
    LevelState :=
  match Recency.compare (some entry.lsp) summary.seqno summary.lifetime none with
  | .same =>
      if isConfused entry summary.lifetime summary.checksum then s.resolveConfusion summary.id
      else s.settleSent circuit summary.id
  | .older =>
      (s.clearFlag .ssn summary.id circuit).setFlag .srm (s.summaryOf entry.lsp) circuit
  | .newer => (s.setFlag .ssn (s.summaryOf entry.lsp) circuit).settleSent circuit summary.id

def review (s : LevelState) (circuit : CircuitId) (summary : LspSummary) : LevelState :=
  match s.database.get? summary.id with
  | none => s.requestUnknown circuit summary
  | some entry => s.reviewStored circuit entry summary

/-- Marks the stored LSPs of a range that are not listed for sending. -/
def sendUnlisted (s : LevelState) (circuit : CircuitId) (start stop : LspId)
    (listed : Table LspId LspSummary) : LevelState :=
  let missing := (s.database.range start stop).filter fun entry =>
    !listed.contains entry.lsp.id && entry.isLive
  missing.foldl (fun s entry => s.setFlag .srm (s.summaryOf entry.lsp) circuit) s

/-- The summaries of a PDU by LSP ID; of several for one LSP the last
counts. -/
def listed (snp : Snp) : Table LspId LspSummary :=
  Table.ofList (snp.tlvs.summaries.map fun summary => (summary.id, summary))

/-- Processes the summaries of a PDU in ascending order of their LSP IDs, then
its range. -/
def reviewAll (s : LevelState) (circuit : CircuitId) (snp : Snp) : LevelState :=
  let summaries := listed snp
  let s := summaries.values.foldl (fun s summary => s.review circuit summary) s
  match snp.range with
  | some (start, stop) => s.sendUnlisted circuit start stop summaries
  | none => s

/-- The fault of a PDU whose range ends before it starts. -/
def rangeError? (circuit : CircuitId) : Option (LspId × LspId) → Option UpdateError
  | some (start, stop) => if stop < start then some (.invertedRange circuit start stop) else none
  | none => none

def receiveSnp (s : LevelState) (circuit : CircuitId) (snp : Snp) : Outcome :=
  if !s.circuits.contains circuit then (s, some (.circuitNotFound circuit))
  else if snp.level ≠ s.level then (s, some (.levelMismatch (some circuit) snp.level))
  else
    match rangeError? circuit snp.range with
    | some error => (s, some error)
    | none => (s.reviewAll circuit snp, none)

end LinkState.LevelState
