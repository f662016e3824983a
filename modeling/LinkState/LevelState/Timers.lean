import LinkState.LevelState.Generate

/-!
# Timers of a level

A timer acts only if it is still the one that the entry or the generator
waits for.  Timers that are due are processed in order, with those among them
that are scheduled meanwhile and are due as well.
-/

namespace LinkState.LevelState

/-- Whether a kept timer is the one with the given number. -/
def isTimer (handle : Option Handle) (number : Nat) : Bool :=
  (handle.map fun h => h.number == number).getD false

/-- The life of an LSP ends. -/
def onExpire (s : LevelState) (number : Nat) (id : LspId) : LevelState :=
  match s.database.get? id with
  | none => s
  | some entry =>
      if isTimer entry.lifeTimer number then
        { s with
          database := s.database.modify id fun entry => { entry with lifeTimer := none } }.expire id
      else s

/-- A purge is no longer kept. -/
def onDelete (s : LevelState) (number : Nat) (id : LspId) : LevelState :=
  match s.database.get? id with
  | none => s
  | some entry =>
      if isTimer entry.zeroAgeTimer number && entry.isPurged then
        { s with
          database := s.database.modify id fun entry =>
            { entry with zeroAgeTimer := none } }.delete id
      else s

/-- An own LSP has to be refreshed. -/
def onRefresh (s : LevelState) (number : Nat) (id : LspId) : LevelState :=
  match s.database.get? id with
  | none => s
  | some entry =>
      if isTimer entry.refreshTimer number then
        let s :=
          { s with
            database := s.database.modify id fun entry => { entry with refreshTimer := none } }
        (s.tell (.lspChanged .refreshed s.level entry.lsp.mention)).originate entry.lsp
      else s

/-- The LSPs of a pseudonode have to be generated. -/
def onGenerate (s : LevelState) (number : Nat) (pseudonode : UInt8) : LevelState :=
  match s.generators.get? pseudonode with
  | none => s
  | some generator =>
      if isTimer generator.timer number then
        { s with
          generators := s.generators.modify pseudonode fun generator =>
            { generator with timer := none } }.generate pseudonode
      else s

def fire (s : LevelState) (timer : Timer TimerEvent) : LevelState :=
  match timer.event with
  | .expire id => s.onExpire timer.number id
  | .delete id => s.onDelete timer.number id
  | .refresh id => s.onRefresh timer.number id
  | .generate pseudonode => s.onGenerate timer.number pseudonode

def fireNext? (s : LevelState) : Option LevelState :=
  (s.timers.pop? s.now).map fun (timer, timers) => { s with timers := timers }.fire timer

/-- Processes at most `fuel` timers that are due, and says how many. -/
def fireUpTo : Nat → LevelState → Nat × LevelState
  | 0, s => (0, s)
  | fuel + 1, s =>
      match s.fireNext? with
      | none => (0, s)
      | some s =>
          let (count, s) := fireUpTo fuel s
          (count + 1, s)

/-- A bound on the timers that can be due at one time.  Each pending timer sets
off a few more: an LSP expires, is purged and is deleted.  A deletion makes a
generation start over if the sequence numbers of an own LSP were used up, which
happens to each of the 65536 own LSP IDs once, and each generation originates
256 fragments at most.  Only own LSPs with a lifetime of one second, which are
due for a refresh as soon as they are originated, can go on for longer. -/
def fireBound (s : LevelState) : Nat :=
  (s.timers.size + 1) * 0x10000000000

/-- Processes all timers that are due, and says how many. -/
def fireDue (s : LevelState) : Nat × LevelState :=
  fireUpTo s.fireBound s

end LinkState.LevelState
