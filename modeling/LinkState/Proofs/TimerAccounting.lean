import LinkState.Proofs.Reachability
import Mathlib.Data.List.ReduceOption

/-!
# Accounting for the pending timers

The timers that a level holds are those of its entries, each for the event that
names the LSP of the entry, and those of its generators.  In every reachable
state they are the pending ones, each once.  No timer is left behind by an entry
that has gone, and none is waited for that does not run.
-/

namespace LinkState.LevelState

/-- The timer for an event of which a handle is kept. -/
def timerFor (event : TimerEvent) (handle : Option Handle) : Option (Timer TimerEvent) :=
  handle.map fun handle => ⟨handle.number, handle.due, event⟩

def entryTimers (id : LspId) (entry : Entry) : List (Timer TimerEvent) :=
  [timerFor (.expire id) entry.lifeTimer, timerFor (.delete id) entry.zeroAgeTimer,
    timerFor (.refresh id) entry.refreshTimer].reduceOption

/-- The timer that the generator of a pseudonode holds while a run is pending. -/
def generatorTimers (pseudonode : UInt8) (generator : Generator) : List (Timer TimerEvent) :=
  (timerFor (.generate pseudonode) generator.timer).toList

def heldTimers (s : LevelState) : List (Timer TimerEvent) :=
  (s.database.toList.flatMap fun p => entryTimers p.1 p.2) ++
    s.generators.toList.flatMap fun p => generatorTimers p.1 p.2

variable {level : Level} {config : Config} {now : Nat} {s : LevelState}

theorem timerFor_eq_some {event : TimerEvent} {handle : Option Handle}
    {timer : Timer TimerEvent} :
    timerFor event handle = some timer ↔
      timer.event = event ∧ handle = some ⟨timer.number, timer.due⟩ := by
  constructor
  · intro h
    obtain ⟨kept, rfl, rfl⟩ := Option.map_eq_some_iff.1 h
    exact ⟨rfl, rfl⟩
  · rintro ⟨rfl, rfl⟩
    rfl

theorem mem_entryTimers {id : LspId} {entry : Entry} {timer : Timer TimerEvent} :
    timer ∈ entryTimers id entry ↔
      timer.event = .expire id ∧ entry.lifeTimer = some ⟨timer.number, timer.due⟩ ∨
      timer.event = .delete id ∧ entry.zeroAgeTimer = some ⟨timer.number, timer.due⟩ ∨
      timer.event = .refresh id ∧ entry.refreshTimer = some ⟨timer.number, timer.due⟩ := by
  simp only [entryTimers, List.reduceOption_mem_iff, List.mem_cons, List.not_mem_nil, or_false,
    eq_comm (a := some timer), timerFor_eq_some]

theorem mem_generatorTimers {pseudonode : UInt8} {generator : Generator}
    {timer : Timer TimerEvent} :
    timer ∈ generatorTimers pseudonode generator ↔
      timer.event = .generate pseudonode ∧ generator.timer = some ⟨timer.number, timer.due⟩ := by
  rw [generatorTimers, Option.mem_toList, timerFor_eq_some]

/-- A timer is held if its handle is kept for its event. -/
theorem mem_heldTimers {timer : Timer TimerEvent} :
    timer ∈ s.heldTimers ↔ s.kept? timer.event = some ⟨timer.number, timer.due⟩ := by
  simp only [heldTimers, List.mem_append, List.mem_flatMap, Prod.exists, Table.mem_toList,
    mem_entryTimers, mem_generatorTimers]
  cases hevent : timer.event <;> simp [kept?, Option.bind_eq_some_iff]

theorem nodup_flatMap_timers {κ α : Type} [Key κ] {timers : κ → α → List (Timer TimerEvent)}
    (table : Table κ α) (hnodup : ∀ key value, (timers key value).Nodup)
    (hkey : ∀ {key key' value value' timer}, timer ∈ timers key value →
      timer ∈ timers key' value' → key = key') :
    (table.toList.flatMap fun p => timers p.1 p.2).Nodup := by
  refine List.nodup_flatMap.2 ⟨fun p _ => hnodup p.1 p.2, table.sorted.imp fun hless => ?_⟩
  apply List.disjoint_left.2
  intro timer hleft hright
  rw [hkey hleft hright] at hless
  exact Nat.lt_irrefl _ hless

/-- No timer is held twice: each is held for its event, and every event has one holder. -/
theorem nodup_heldTimers (s : LevelState) : s.heldTimers.Nodup := by
  refine List.nodup_append.2 ⟨?_, ?_, ?_⟩
  · refine nodup_flatMap_timers s.database (fun id entry => ?_) fun hleft hright => ?_
    · rw [entryTimers]
      cases entry.lifeTimer <;> cases entry.zeroAgeTimer <;> cases entry.refreshTimer <;>
        simp [timerFor]
    · rw [mem_entryTimers] at hleft hright
      grind
  · refine nodup_flatMap_timers s.generators (fun pseudonode generator => ?_)
      fun hleft hright => ?_
    · rw [generatorTimers]
      cases generator.timer <;> simp [timerFor]
    · rw [mem_generatorTimers] at hleft hright
      grind
  · intro timer hleft other hright heq
    subst heq
    simp only [List.mem_flatMap, mem_entryTimers, mem_generatorTimers] at hleft hright
    grind

theorem TimersMatch.heldTimers_perm (h : s.TimersMatch) : s.heldTimers.Perm s.timers.pending := by
  apply (List.perm_ext_iff_of_nodup s.nodup_heldTimers h.nodup.of_map).2
  intro timer
  rw [mem_heldTimers, h.mem_iff]

/-- In every reachable state, each entry is stored under the ID of its LSP and
has its life timer exactly while it is live, its zero age timer exactly once it
is purged, and its refresh timer exactly while it is a live LSP with a sequence
number that this system originated.  The timers that entries and generators hold
are the pending ones, each for its own event and each once. -/
theorem timers_accounted (h : Reachable Proper level config now s) :
    (∀ id entry, s.database.get? id = some entry →
      entry.lsp.id = id ∧
      (entry.lifeTimer.isSome = true ↔ entry.lsp.lifetime ≠ 0) ∧
      (entry.zeroAgeTimer.isSome = true ↔ entry.lsp.lifetime = 0) ∧
      (entry.refreshTimer.isSome = true ↔
        entry.lsp.lifetime ≠ 0 ∧ entry.lsp.seqno ≠ 0 ∧ id.system = config.system ∧
          entry.received = false)) ∧
    s.heldTimers.Perm s.timers.pending ∧
    (s.timers.pending.map (·.number)).Nodup ∧
    s.timers.size = s.heldTimers.length := by
  have hconsistent := h.consistent
  have hconfig : s.config = config := h.constant.2.1
  have hperm := hconsistent.timers.heldTimers_perm
  refine ⟨fun id entry hstored => ?_, hperm, hconsistent.timers.nodup, hperm.length_eq.symm⟩
  have hid := hconsistent.keys hstored
  obtain ⟨hlife, hzero, hrefresh⟩ := hconsistent.settled hstored
  refine ⟨hid, ?_, ?_, ?_⟩
  · simp [hlife, Lsp.isExpired]
  · simp [hzero, Lsp.isExpired]
  · rw [hrefresh, hconfig, isRefreshed, hid]
    simp [Lsp.isExpired]
    tauto

/-- One generation, and the lives and refreshes of two fragments are pending. -/
theorem timers_accounted_originated :
    originated.timers.pending.map (·.event) =
      [.generate 0, .refresh ⟨SystemId.zero, 0, 0⟩, .refresh ⟨SystemId.zero, 0, 1⟩,
        .expire ⟨SystemId.zero, 0, 0⟩, .expire ⟨SystemId.zero, 0, 1⟩] ∧
    originated.heldTimers.Perm originated.timers.pending :=
  ⟨by decide +kernel, (timers_accounted originated_reachable).2.1⟩

end LinkState.LevelState
