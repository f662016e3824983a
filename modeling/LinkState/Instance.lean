import LinkState.LevelState.Requests

/-!
# An instance

An instance runs the update process of each level it is configured for.  The
levels share a clock and take turns.  In its first turn a level starts; in
every turn it does what is asked of it between the timers that are due before
and those that are due after.  Of several levels that have something to do, the
one whose last turn is the longest ago comes first.
-/

namespace LinkState

/-- The levels of an instance in the order of their last turns, whether they
have started, and what was told, the latest first. -/
structure Instance where
  levels : List LevelState
  started : Bool
  trace : List Event
  deriving DecidableEq

namespace Instance

variable {α : Type}

def level? (i : Instance) (level : Level) : Option LevelState :=
  i.levels.find? fun s => s.level = level

/-- Takes over a level after its turn, with what it has told. -/
def put (i : Instance) (s : LevelState) : Instance :=
  { i with
    levels := (i.levels.filter fun other => other.level ≠ s.level) ++ [{ s with trace := [] }]
    trace := s.trace ++ i.trace }

/-- An instance whose levels have not had a turn yet. -/
def start (config : Config) : Instance :=
  (config.levels.toList.map fun level => LevelState.start level config 0).foldl put
    ⟨[], false, []⟩

/-! ### Turns -/

/-- Lets a level take a turn. -/
def turn (i : Instance) (s : LevelState) (act : LevelState → α × LevelState) : α × Instance :=
  let s := if i.started then s else s.tell .started
  let (answer, s) := act s.fireDue.2
  (answer, i.put s.fireDue.2)

/-- Lets a level take a turn in which nothing is asked of it. -/
def rouse (i : Instance) (s : LevelState) : Instance :=
  (i.turn s fun s => ((), s)).2

/-- Lets a level take a turn if it has to: the one that is asked, and every
level before all have started. -/
def visit (level : Level) (act : LevelState → α × LevelState) (acc : Option α × Instance)
    (s : LevelState) : Option α × Instance :=
  if s.level = level then
    let (answer, i) := acc.2.turn s act
    (some answer, i)
  else if acc.2.started then acc
  else (acc.1, acc.2.rouse s)

/-- Asks a level to do something.  There is no answer from a level that does
not run. -/
def ask (i : Instance) (level : Level) (act : LevelState → α × LevelState) :
    Option α × Instance :=
  let (answer, i) := i.levels.foldl (visit level act) (none, i)
  (answer, { i with started := true })

def request (i : Instance) (level : Level) (request : LevelState.Request) : Instance :=
  (i.ask level fun s => ((), s.handle request)).2

/-! ### Time -/

def nextDue? (i : Instance) : Option Nat :=
  (i.levels.filterMap fun s => s.timers.nextDue?).min?

/-- Moves the clock to a time that is not in the past. -/
def advanceTo (i : Instance) (time : Nat) : Instance :=
  { i with levels := i.levels.map fun s => s.advanceTo time }

/-- Lets the first level with a timer that is due by a time take a turn at that
time. -/
def wake (i : Instance) (time : Nat) : Instance :=
  let i := i.advanceTo time
  match i.levels.find? fun s => s.timers.nextDue?.any fun due => due ≤ time with
  | some s => i.rouse s
  | none => i

/-- Moves the clock to a time.  Until then the levels wake whenever a timer is
due, at most as often as given. -/
def sleepUntil (time : Nat) : Nat → Instance → Instance
  | 0, i => i.advanceTo time
  | count + 1, i =>
      match i.nextDue?.filter fun due => due ≤ time with
      | some due => sleepUntil time count (i.wake due)
      | none => i.advanceTo time

def now (i : Instance) : Nat :=
  (i.levels.map fun s => s.now).foldl max 0

/-- Lets all levels start. -/
def settle (i : Instance) : Instance :=
  if i.started then i else { i.levels.foldl rouse i with started := true }

/-- Lets a span of time pass.  A level that wakes has no timer that is due when
its turn ends, so that each wakes once in a millisecond at most. -/
def sleep (i : Instance) (span : Nat) : Instance :=
  let i := i.settle
  sleepUntil (i.now + span) (i.levels.length * (span + 1)) i

/-! ### The end -/

def stopLevel (i : Instance) (level : Level) : Instance :=
  (i.ask level fun s => ((), s.stop.tell .stopped)).2

/-- Stops all levels, the first level first. -/
def shutdown (i : Instance) : Instance :=
  (i.stopLevel .one).stopLevel .two

end Instance

end LinkState
