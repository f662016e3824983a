import LinkState.LevelState.Install

/-!
# Originating LSPs

A new instance of an own LSP takes the sequence number after the greatest of
the given and the stored one.  When there is none, the LSP is purged, and
starts over once the purge has aged out.
-/

namespace LinkState.LevelState

/-- The sequence number after another, unless that is the greatest. -/
def nextSeqno? (seqno : UInt32) : Option UInt32 :=
  if seqno = 0xFFFFFFFF then none else some (seqno + 1)

/-- Floods a purge of an own LSP whose sequence number is not less than that of
the given copy. -/
def forcePurge (s : LevelState) (lsp : Lsp) (reason : PurgeReason) : LevelState :=
  let seqno := max (s.storedSeqno lsp.id) lsp.seqno
  let purge := Lsp.make s.now s.level 0 lsp.id seqno lsp.flags (.purge s.purgeOriginator none)
  (s.tell (.lspPurged s.level purge.mention reason)).installAndFlood purge false

/-- Installs a new instance of an own LSP and floods it. -/
def originate (s : LevelState) (lsp : Lsp) : LevelState :=
  match nextSeqno? (max lsp.seqno (s.storedSeqno lsp.id)) with
  | none =>
      let storedLive := ((s.database.get? lsp.id).map fun entry => !entry.isPurged).getD false
      let s := s.count fun c => { c with exhaustedSeqnos := c.exhaustedSeqnos + 1 }
      let s := s.tell (.lspChanged .exhausted s.level lsp.mention)
      if storedLive then s.forcePurge lsp .maxSeqno else s
  | some seqno =>
      let fresh := Lsp.make s.now s.level s.config.lifetime lsp.id seqno lsp.flags lsp.tlvs
      (s.tell (.lspChanged .originated s.level fresh.mention)).installAndFlood fresh false

end LinkState.LevelState
