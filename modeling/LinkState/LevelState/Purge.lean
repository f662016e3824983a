import LinkState.LevelState.Install

/-!
# Purging and deleting LSPs

A purged LSP keeps its header and its hostname only, and stays in the database
for a while so that the purge can be flooded.  Placeholders are deleted at
once.  When the purge of an own LSP whose sequence numbers were used up is
deleted, its generation starts over.
-/

namespace LinkState.LevelState

/-! ### Generators -/

/-- The generator of a pseudonode, created if there is none. -/
def createGenerator (s : LevelState) (pseudonode : UInt8) : Generator × LevelState :=
  match s.generators.get? pseudonode with
  | some generator => (generator, s)
  | none => (⟨none, none⟩, s.tell (.generatorCreated s.level pseudonode))

/-- The span until a generator may run again, given the span that is asked
for. -/
def generationSpan (s : LevelState) (generator : Generator) (span : Nat) : Nat :=
  match generator.lastRun with
  | some last => max span (last + seconds s.config.generationInterval.toNat - s.now)
  | none => span

/-- Schedules a run of the generator of a pseudonode.  While a run is pending,
no other is scheduled. -/
def scheduleGeneration (s : LevelState) (pseudonode : UInt8) (span : Nat) : LevelState :=
  let (generator, s) := s.createGenerator pseudonode
  match generator.timer with
  | some _ => { s with generators := s.generators.insert pseudonode generator }
  | none =>
      let (handle, s) := s.schedule (s.generationSpan generator span) (.generate pseudonode)
      { s with
        generators := s.generators.insert pseudonode { generator with timer := some handle } }

/-- Schedules a run of the generator of a pseudonode with the configured
delay. -/
def startGenerator (s : LevelState) (pseudonode : UInt8) : LevelState :=
  s.scheduleGeneration pseudonode (seconds (s.config.delaySeconds pseudonode))

/-! ### Purging -/

def purgeOf (s : LevelState) (lsp : Lsp) : Lsp :=
  { lsp with lifetime := 0, tlvs := .purge s.purgeOriginator lsp.tlvs.hostname }.encode s.now

/-- Purges an LSP, which must not be purged already. -/
def purge (s : LevelState) (id : LspId) (reason : PurgeReason) : LevelState :=
  match s.database.get? id with
  | none => s
  | some entry =>
      if entry.zeroAgeTimer.isSome || entry.isPurged then s.fail (.alreadyPurged id)
      else
        let s := s.tell (.lspPurged s.level entry.lsp.mention reason)
        s.installAndFlood (s.purgeOf entry.lsp) entry.received

def purgeAll (s : LevelState) (ids : List LspId) (reason : PurgeReason) : LevelState :=
  ids.foldl (fun s id => s.purge id reason) s

def liveIds (entries : List Entry) : List LspId :=
  (entries.filter Entry.isLive).map fun entry => entry.lsp.id

def purgeNode (s : LevelState) (node : NodeId) : LevelState :=
  s.purgeAll (liveIds (s.database.ofNode node)) .removed

/-! ### Deleting -/

/-- Deletes an LSP. -/
def delete (s : LevelState) (id : LspId) : LevelState :=
  match s.database.get? id with
  | none => s.remove id
  | some entry =>
      let s := (s.remove id).tell (.lspChanged .deleted s.level entry.lsp.mention)
      if s.isOwn id && entry.lsp.seqno = 0xFFFFFFFF then s.scheduleGeneration id.pseudonode 0
      else s

/-- Ends the life of an LSP: placeholders are deleted, others are purged. -/
def expire (s : LevelState) (id : LspId) : LevelState :=
  match s.database.get? id with
  | none => s
  | some entry => if entry.isPlaceholder then s.delete id else s.purge id .expired

/-- Removes the generator of a pseudonode and purges its LSPs. -/
def removeGenerator (s : LevelState) (pseudonode : UInt8) : LevelState :=
  match s.generators.get? pseudonode with
  | none => s
  | some generator =>
      let s := { s with generators := s.generators.erase pseudonode }.cancel generator.timer
      let s := s.tell (.generatorRemoved s.level pseudonode)
      s.purgeNode ⟨s.config.system, pseudonode⟩

end LinkState.LevelState
