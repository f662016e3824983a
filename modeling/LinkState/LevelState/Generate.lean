import LinkState.LevelState.Originate
import LinkState.LevelState.Purge
import LinkState.Pdu.Fragment

/-!
# Generating own LSPs

The LSPs of a system, and of each pseudonode for which it is elected, are
built from what it advertises and from the neighbours on the circuit.  A run of
a generator originates the fragments whose content has changed and purges
those that are no longer built.
-/

namespace LinkState.LevelState

/-- The flags of an own LSP.  Overload and attachment are told in the first
fragment of the system itself only. -/
def ownFlags (s : LevelState) (id : LspId) : LspFlags :=
  let isFirst := id.pseudonode = 0 ∧ id.fragment = 0
  ((LspFlags.given (s.config.levels.contains .one) .isType1).union
    (.given (s.config.levels.contains .two) .isType2)).union
  ((LspFlags.given (isFirst && s.advertised.overloaded) .overload).union
    (.given (isFirst && s.advertised.attached) .attached))

/-- The protocols that have an address. -/
def protocolsOf (advertised : Advertisement) : List UInt8 :=
  (if advertised.ipv4.isEmpty then [] else [0xCC]) ++
    (if advertised.ipv6.isEmpty then [] else [0x8E])

/-- The fields that tell what a system advertises.  Area addresses are told in
level 2 only. -/
def systemTlvs (advertised : Advertisement) (level : Level) : LspTlvs :=
  .ofValues (protocolsOf advertised) (if level = .two then advertised.areas else [])
    advertised.hostname [] (advertised.ipv4.map (·.address)) (advertised.ipv6.map (·.address))

/-- The fields that tell the systems on a circuit, this one last. -/
def pseudonodeTlvs (system : SystemId) (election : Election) : LspTlvs :=
  let systems := election.neighbors.keys ++ [system]
  .ofValues [] [] none (systems.map fun neighbor => ⟨⟨neighbor, 0⟩, 0⟩) [] []

/-- The fields to advertise for a pseudonode, or for the system itself.  There
are none for a pseudonode for which the system is not elected. -/
def ownTlvs? (s : LevelState) (pseudonode : UInt8) : Option LspTlvs :=
  if pseudonode = 0 then some (systemTlvs s.advertised s.level)
  else
    ((s.elections.get? pseudonode).filter fun election => election.elected).map
      (pseudonodeTlvs s.config.system)

def fragmentRoom (s : LevelState) : Nat :=
  s.config.mtu.toNat - Lsp.headerSize

/-- A fragment as it is built: it has the sequence number of the stored
copy. -/
def buildFragment (s : LevelState) (pseudonode : UInt8) (tlvs : LspTlvs) (index : Nat) : Lsp :=
  let id : LspId := ⟨s.config.system, pseudonode, UInt8.ofNat index⟩
  Lsp.make s.now s.level s.config.lifetime id (s.storedSeqno id) (s.ownFlags id) tlvs

def maxFragments : Nat := 256

/-- The fragments to advertise for a pseudonode, or for the system itself. -/
def build (s : LevelState) (pseudonode : UInt8) : List Lsp :=
  match s.ownTlvs? pseudonode with
  | none => []
  | some tlvs =>
      (tlvs.fragments s.fragmentRoom maxFragments).1.mapIdx fun index fields =>
        s.buildFragment pseudonode fields index

/-- Whether a fragment is stored with the content it is built with. -/
def isCurrent (s : LevelState) (lsp : Lsp) : Bool :=
  match s.database.get? lsp.id with
  | some entry =>
      !entry.isPurged && entry.lsp.flags = lsp.flags && entry.lsp.tlvs = lsp.tlvs
  | none => false

/-- Originates a fragment if its content has changed. -/
def renew (s : LevelState) (lsp : Lsp) : LevelState :=
  if s.isCurrent lsp then s else s.originate lsp

/-- Brings the LSPs of a pseudonode, or of the system itself, up to date. -/
def generate (s : LevelState) (pseudonode : UInt8) : LevelState :=
  let lsps := s.build pseudonode
  let s := lsps.foldl renew s
  let stale := (liveIds (s.database.ofNode ⟨s.config.system, pseudonode⟩)).filter fun id =>
    !lsps.any fun lsp => lsp.id = id
  let s := s.purgeAll stale .removed
  { s with
    generators := s.generators.modify pseudonode fun generator =>
      { generator with lastRun := some s.now } }

end LinkState.LevelState
