import LinkState.Address.Network
import LinkState.Identifier
import LinkState.Level
import LinkState.Pdu.Lsp

/-!
# Configuration

What a system is configured with, and what it advertises about itself.  The
latter starts out as configured and can change while the system runs.  Spans of
time are configured in seconds.
-/

namespace LinkState

/-- What a system advertises about itself. -/
structure Advertisement where
  hostname : Option String
  areas : List AreaAddress
  ipv4 : List Ipv4Network
  ipv6 : List Ipv6Network
  overloaded : Bool
  attached : Bool
  deriving DecidableEq, Repr

namespace Advertisement

def empty : Advertisement := ⟨none, [], [], [], false, false⟩

end Advertisement

structure Config where
  system : SystemId
  levels : LevelType
  advertised : Advertisement
  mtu : UInt16
  lifetime : UInt16
  zeroAge : UInt16
  generationDelay : UInt16
  pseudonodeDelay : UInt16
  generationInterval : UInt16
  placeholderLifetime : UInt16
  purgeOriginator : Bool
  deriving DecidableEq, Repr

namespace Config

/-- The configuration of a system with nothing but its system ID set. -/
def ofSystem (system : SystemId) : Config where
  system := system
  levels := .all
  advertised := Advertisement.empty
  mtu := 1492
  lifetime := 1200
  zeroAge := 60
  generationDelay := 2
  pseudonodeDelay := 1
  generationInterval := 5
  placeholderLifetime := 120
  purgeOriginator := true

def default : Config := ofSystem SystemId.zero

/-- The seconds after which an own LSP is refreshed: three quarters of its
lifetime. -/
def refreshSeconds (config : Config) : Nat :=
  config.lifetime.toNat * 3 / 4

/-- The seconds before the first generation of the LSPs of a pseudonode, or of
the system itself. -/
def delaySeconds (config : Config) (pseudonode : UInt8) : Nat :=
  if pseudonode = 0 then config.generationDelay.toNat else config.pseudonodeDelay.toNat

end Config

end LinkState
