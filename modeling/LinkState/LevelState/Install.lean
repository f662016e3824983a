import LinkState.LevelState.Basic

/-!
# Installing and removing entries

An LSP is installed in place of the stored copy.  The pages that describe it
are discarded, the timers of the stored copy are cancelled, the change is
recorded, and the timers of the new entry are started: one that ends its life,
or the time it is kept as a purge, and one that refreshes it if this system
originated it.
-/

namespace LinkState.LevelState

/-- Discards the page that covers an LSP ID and all pages after it. -/
def discardPages (s : LevelState) (id : LspId) : LevelState :=
  let kept := Page.keepBefore s.pages id
  if kept.length < s.pages.length then
    { s with pages := kept }.tell (.pagesDiscarded s.level id (s.pages.length - kept.length))
  else s

def historySize : Nat := 64

/-- Records an installed LSP, the latest first. -/
def record (s : LevelState) (lsp : Lsp) (received : Bool) (reason : InstallReason) :
    LevelState :=
  let number := s.lastHistoryNumber + 1
  { s with
    history := (⟨number, lsp.id, lsp.seqno, received, reason⟩ :: s.history).take historySize
    lastHistoryNumber := number }

/-- Whether an LSP differs in content from the stored copy. -/
def contentChange (stored : Option Entry) (lsp : Lsp) : InstallReason :=
  match stored with
  | some entry =>
      if entry.lsp.flags = lsp.flags ∧ entry.lsp.tlvs = lsp.tlvs then .refresh
      else .contentChange
  | none => .contentChange

/-- Removes the stored copy of an LSP with its timers. -/
def detach (s : LevelState) (id : LspId) : LevelState :=
  match s.database.get? id with
  | some entry => { s.cancelEntry entry with database := s.database.erase id }
  | none => s

/-- The seconds that an LSP lives: those of its remaining lifetime, of which a
placeholder is granted no more than is configured. -/
def lifeSeconds (s : LevelState) (lsp : Lsp) : Nat :=
  if lsp.seqno = 0 then min lsp.lifetime.toNat s.config.placeholderLifetime.toNat
  else lsp.lifetime.toNat

/-- Starts the timer that ends the life of an LSP, or the time a purge is
kept. -/
def startLife (s : LevelState) (lsp : Lsp) (received : Bool) : Entry × LevelState :=
  if lsp.lifetime = 0 then
    let (handle, s) := s.schedule (seconds s.config.zeroAge.toNat) (.delete lsp.id)
    (⟨lsp, received, none, some handle, none⟩, s)
  else
    let (handle, s) := s.schedule (seconds (s.lifeSeconds lsp)) (.expire lsp.id)
    (⟨lsp, received, some handle, none, none⟩, s)

/-- Starts the timer that refreshes a live LSP which this system originated. -/
def startRefresh (s : LevelState) (entry : Entry) : Entry × LevelState :=
  if !entry.received && s.isOwn entry.lsp.id && entry.isLive then
    let (handle, s) := s.schedule (seconds s.config.refreshSeconds) (.refresh entry.lsp.id)
    ({ entry with refreshTimer := some handle }, s)
  else (entry, s)

/-- Stores an entry.  Exactly one of its life and zero age timers must run, and
there must be no other entry for its LSP. -/
def store (s : LevelState) (entry : Entry) : LevelState :=
  let s :=
    if entry.lifeTimer.isSome = entry.zeroAgeTimer.isSome then
      s.fail (.inconsistentTimers entry.lsp.id)
    else s
  let s :=
    if s.database.contains entry.lsp.id then s.fail (.duplicateEntry entry.lsp.id) else s
  { s with database := s.database.insert entry.lsp.id entry }

/-- Installs an LSP, replacing the stored copy. -/
def install (s : LevelState) (lsp : Lsp) (received : Bool) : LevelState :=
  let reason := contentChange (s.database.get? lsp.id) lsp
  let s := s.tell (.lspChanged .installed s.level lsp.mention)
  let s := ((s.discardPages lsp.id).detach lsp.id).record lsp received reason
  let (entry, s) := s.startLife lsp received
  let (entry, s) := s.startRefresh entry
  s.store entry

/-- Removes an entry with its timers and its flooding flags. -/
def remove (s : LevelState) (id : LspId) : LevelState :=
  let s := s.discardPages id
  match s.database.get? id with
  | some _ =>
      let s := s.detach id
      { s with flooding := s.flooding.removeLsp id }
  | none => s

/-- Installs an LSP and marks it for sending on all circuits. -/
def installAndFlood (s : LevelState) (lsp : Lsp) (received : Bool) : LevelState :=
  (s.install lsp received).flood lsp none

end LinkState.LevelState
