import LinkState.Proofs.TimerMap
import Mathlib.Data.List.MinMax
import Mathlib.Data.Prod.Lex

/-!
# Timers that are discarded lazily

A queue can keep the keys of its timers in a heap and their events in a map of
armed timers.  A timer is cancelled in the map alone: its key stays in the heap
until it comes to the top there, where the next look at the heap discards it.
Such a queue, and the one that keeps a sorted list of pending timers, answer every
history of requests like a finite map of timers.
-/

namespace LinkState

variable {ε : Type}

/-- When a timer is due, and its number; keys are compared in this order. -/
abbrev TimerKey := Nat ×ₗ Nat

def Timer.key (timer : Timer ε) : TimerKey := toLex (timer.due, timer.number)

/-- The heap of keys, of which only the least one is ever looked at, the events of
the armed timers, and the number of the next timer. -/
structure LazyTimerQueue (ε : Type) where
  heap : List TimerKey
  armed : Table Nat ε
  nextNumber : Nat

namespace LazyTimerQueue

def empty : LazyTimerQueue ε := ⟨[], Table.empty, 0⟩

def schedule (queue : LazyTimerQueue ε) (now span : Nat) (event : ε) :
    Handle × LazyTimerQueue ε :=
  (⟨queue.nextNumber, now + span⟩,
    { heap := toLex (now + span, queue.nextNumber) :: queue.heap
      armed := queue.armed.insert queue.nextNumber event
      nextNumber := queue.nextNumber + 1 })

/-- Cancels a timer, and says whether it was pending; its key stays in the heap. -/
def cancel (queue : LazyTimerQueue ε) (number : Nat) : Bool × LazyTimerQueue ε :=
  (queue.armed.contains number, { queue with armed := queue.armed.erase number })

/-- Throws away the keys of cancelled timers as long as there is one at the top. -/
def discardCancelled (queue : LazyTimerQueue ε) : LazyTimerQueue ε :=
  match _least : queue.heap.min? with
  | none => queue
  | some key =>
      if queue.armed.contains (ofLex key).2 then queue
      else discardCancelled { queue with heap := queue.heap.erase key }
termination_by queue.heap.length
decreasing_by
  have hmem := (List.min?_eq_some_iff.1 _least).1
  rw [List.length_erase_of_mem hmem]
  have := List.length_pos_of_mem hmem
  omega

def nextDue? (queue : LazyTimerQueue ε) : Option Nat × LazyTimerQueue ε :=
  let queue := queue.discardCancelled
  (queue.heap.min?.map fun key => (ofLex key).1, queue)

def pop? (queue : LazyTimerQueue ε) (now : Nat) : Option (Timer ε) × LazyTimerQueue ε :=
  let queue := queue.discardCancelled
  match queue.heap.min? with
  | none => (none, queue)
  | some key =>
      if now < (ofLex key).1 then (none, queue)
      else
        ((queue.armed.get? (ofLex key).2).map fun event => ⟨(ofLex key).2, (ofLex key).1, event⟩,
          { queue with
            heap := queue.heap.erase key
            armed := queue.armed.erase (ofLex key).2 })

def clear (queue : LazyTimerQueue ε) : Nat × LazyTimerQueue ε :=
  (queue.armed.size, { queue with heap := [], armed := Table.empty })

def answer (queue : LazyTimerQueue ε) (time : Nat) :
    TimerRequest ε → TimerAnswer ε × LazyTimerQueue ε
  | .schedule span event => (queue.schedule time span event).map .scheduled id
  | .cancel number => (queue.cancel number).map .told id
  | .isArmed number => (.told (queue.armed.contains number), queue)
  | .popExpired => (queue.pop? time).map .fired id
  | .nextDeadline => queue.nextDue?.map .deadline id
  | .size => (.counted queue.armed.size, queue)
  | .isEmpty => (.told queue.armed.isEmpty, queue)
  | .clear => queue.clear.map .counted id

/-- The armed timers are those of the map, each with its key in the heap, where no
number occurs twice and none is still to come. -/
structure StandsFor (queue : LazyTimerQueue ε) (map : TimerMap ε) : Prop where
  armed : queue.armed = map.pending.map fun _ timer => timer.2
  listed : ∀ timer, map.Holds timer → timer.key ∈ queue.heap
  nodup : (queue.heap.map fun key => (ofLex key).2).Nodup
  issued : ∀ key ∈ queue.heap, (ofLex key).2 < queue.nextNumber
  next : queue.nextNumber = map.nextNumber

namespace StandsFor

variable {queue : LazyTimerQueue ε} {map : TimerMap ε} {key : TimerKey}

theorem empty : (LazyTimerQueue.empty : LazyTimerQueue ε).StandsFor TimerMap.empty where
  armed := rfl
  listed := fun _ h => by cases h
  nodup := .nil
  issued := fun _ h => by cases h
  next := rfl

theorem get?_armed (h : queue.StandsFor map) (number : Nat) :
    queue.armed.get? number = (map.pending.get? number).map (·.2) := by
  rw [h.armed, Table.get?_map]

theorem contains_armed (h : queue.StandsFor map) (number : Nat) :
    queue.armed.contains number = map.pending.contains number := by
  rw [Table.contains, h.get?_armed, Option.isSome_map, Table.contains]

theorem size_armed (h : queue.StandsFor map) : queue.armed.size = map.pending.size := by
  rw [h.armed]
  exact List.length_map _

theorem isEmpty_armed (h : queue.StandsFor map) : queue.armed.isEmpty = map.pending.isEmpty := by
  rw [h.armed]
  exact List.isEmpty_map

theorem erase (h : queue.StandsFor map) (number : Nat) :
    { queue with armed := queue.armed.erase number }.StandsFor (map.erase number) where
  armed := by
    ext1 other
    rw [Table.get?_erase, Table.get?_map, h.get?_armed]
    simp only [TimerMap.erase, Table.get?_erase]
    split <;> rfl
  listed := fun timer htimer => h.listed timer (TimerMap.holds_erase.1 htimer).1
  nodup := h.nodup
  issued := h.issued
  next := h.next

/-- A key whose timer is not pending can go. -/
theorem erase_key (h : queue.StandsFor map) (key : TimerKey)
    (hunarmed : ∀ timer, map.Holds timer → timer.number ≠ (ofLex key).2) :
    { queue with heap := queue.heap.erase key }.StandsFor map where
  armed := h.armed
  listed := fun timer htimer => by
    refine (List.mem_erase_of_ne ?_).2 (h.listed timer htimer)
    rintro rfl
    exact hunarmed timer htimer rfl
  nodup := h.nodup.sublist (List.erase_sublist.map _)
  issued := fun other hother => h.issued other (List.mem_of_mem_erase hother)
  next := h.next

theorem not_held_of_unarmed (h : queue.StandsFor map)
    (hunarmed : queue.armed.contains (ofLex key).2 = false) (timer : Timer ε)
    (htimer : map.Holds timer) : timer.number ≠ (ofLex key).2 := by
  intro hnumber
  rw [h.contains_armed, ← hnumber, htimer.contains] at hunarmed
  cases hunarmed

/-- If the heap is empty, no timer is pending. -/
theorem not_holds_of_empty (h : queue.StandsFor map) (hempty : queue.heap.min? = none)
    (timer : Timer ε) : ¬ map.Holds timer := by
  intro htimer
  have hmem := h.listed timer htimer
  rw [List.min?_eq_none_iff.1 hempty] at hmem
  cases hmem

theorem discardCancelled (h : queue.StandsFor map) : queue.discardCancelled.StandsFor map := by
  fun_induction LazyTimerQueue.discardCancelled queue with
  | case1 => exact h
  | case2 => exact h
  | case3 queue key _ hunarmed ih =>
      exact ih (h.erase_key _ (h.not_held_of_unarmed (by simpa using hunarmed)))

/-- The timer of the least key, if it is armed, comes before all that are pending. -/
theorem first (h : queue.StandsFor map) (hleast : queue.heap.min? = some key)
    (harmed : queue.armed.contains (ofLex key).2 = true) :
    ∃ event, queue.armed.get? (ofLex key).2 = some event ∧
      map.First ⟨(ofLex key).2, (ofLex key).1, event⟩ := by
  obtain ⟨hmem, hmin⟩ := List.min?_eq_some_iff.1 hleast
  rw [h.contains_armed] at harmed
  obtain ⟨⟨due, event⟩, hget⟩ := Option.isSome_iff_exists.1 harmed
  have hheld : map.Holds ⟨(ofLex key).2, due, event⟩ := hget
  -- the heap has one key of that number, so the timer is due when the key says
  have hkey : toLex (due, (ofLex key).2) = key :=
    List.inj_on_of_nodup_map h.nodup (h.listed _ hheld) hmem rfl
  have hdue : due = (ofLex key).1 := by rw [← hkey]; rfl
  subst hdue
  refine ⟨event, by rw [h.get?_armed, hget]; rfl, hheld, fun other hother => ?_⟩
  have hle := Prod.Lex.le_iff.1 (hmin _ (h.listed other hother))
  rw [or_iff_not_imp_left]
  intro hne
  have hnumber : other.number ≠ (ofLex key).2 := by
    intro hnumber
    obtain ⟨number, otherDue, otherEvent⟩ := other
    obtain rfl : number = (ofLex key).2 := hnumber
    rw [TimerMap.Holds, hget] at hother
    cases hother
    exact hne rfl
  simp only [Timer.key, ofLex_toLex] at hle
  unfold Timer.Before
  dsimp only
  omega

end StandsFor

/-- After cancelled timers are discarded the top of the heap is armed. -/
theorem armed_of_discardCancelled {queue : LazyTimerQueue ε} {key : TimerKey}
    (h : queue.discardCancelled.heap.min? = some key) :
    queue.discardCancelled.armed.contains (ofLex key).2 = true := by
  fun_induction LazyTimerQueue.discardCancelled queue with
  | case1 queue hnone => rw [hnone] at h; cases h
  | case2 queue top htop harmed =>
      obtain rfl := Option.some.inj (htop.symm.trans h)
      exact harmed
  | case3 queue top _ _ ih => exact ih h

/-- The key that is entered into the heap has a number that was never used. -/
theorem schedule_standsFor {queue : LazyTimerQueue ε} {map : TimerMap ε} (h : queue.StandsFor map)
    (now span : Nat) (event : ε) :
    (queue.schedule now span event).2.StandsFor (map.put (now + span) event) where
  armed := by
    ext1 number
    simp only [schedule, TimerMap.put, Table.get?_map, Table.get?_insert, h.next, h.get?_armed]
    split <;> rfl
  listed := fun timer htimer => by
    rcases TimerMap.holds_put.1 htimer with rfl | htimer
    · simp [schedule, Timer.key, h.next]
    · exact List.mem_cons_of_mem _ (h.listed timer htimer)
  nodup := by
    refine List.nodup_cons.2 ⟨fun hmem => ?_, h.nodup⟩
    obtain ⟨key, hkey, hnumber⟩ := List.mem_map.1 hmem
    exact Nat.lt_irrefl _ (hnumber ▸ h.issued key hkey)
  issued := fun key hkey => by
    rcases List.mem_cons.1 hkey with rfl | hkey
    · exact Nat.lt_succ_self _
    · exact Nat.lt_succ_of_lt (h.issued key hkey)
  next := congrArg (· + 1) h.next

theorem clear_standsFor {queue : LazyTimerQueue ε} {map : TimerMap ε} (h : queue.StandsFor map) :
    queue.clear.2.StandsFor map.cleared where
  armed := rfl
  listed := fun _ htimer => absurd htimer TimerMap.not_holds_cleared
  nodup := .nil
  issued := fun _ hkey => by cases hkey
  next := h.next

/-- Once the keys of cancelled timers are thrown away, the first pending timer is at the top of
the heap. -/
theorem pop?_step {queue : LazyTimerQueue ε} {map : TimerMap ε} (h : queue.StandsFor map)
    (time : Nat) :
    ∃ map', map.Step time .popExpired (.fired (queue.pop? time).1) map' ∧
      (queue.pop? time).2.StandsFor map' := by
  have hdiscard := h.discardCancelled
  simp only [pop?]
  cases hleast : queue.discardCancelled.heap.min? with
  | none =>
      refine ⟨map, .idle fun timer htimer => ?_, hdiscard⟩
      exact absurd htimer (hdiscard.not_holds_of_empty hleast timer)
  | some key =>
      obtain ⟨event, hget, hfirst⟩ := hdiscard.first hleast (armed_of_discardCancelled hleast)
      dsimp only
      split
      · rename_i hearly
        refine ⟨map, .idle fun timer htimer => ?_, hdiscard⟩
        rcases hfirst.2 timer htimer with rfl | hbefore
        · exact hearly
        · unfold Timer.Before at hbefore
          dsimp only at hbefore
          omega
      · rename_i hdue
        refine ⟨_, ?_, (hdiscard.erase (ofLex key).2).erase_key key
          fun timer htimer => (TimerMap.holds_erase.1 htimer).2⟩
        simpa [hget] using TimerMap.Step.fire _ hfirst (Nat.le_of_not_lt hdue)

theorem nextDue?_step {queue : LazyTimerQueue ε} {map : TimerMap ε} (h : queue.StandsFor map)
    (time : Nat) :
    map.Step time .nextDeadline (.deadline queue.nextDue?.1) map ∧
      queue.nextDue?.2.StandsFor map := by
  have hdiscard := h.discardCancelled
  refine ⟨?_, hdiscard⟩
  simp only [nextDue?]
  cases hleast : queue.discardCancelled.heap.min? with
  | none => exact .noDeadline (hdiscard.not_holds_of_empty hleast)
  | some key =>
      obtain ⟨event, -, hfirst⟩ := hdiscard.first hleast (armed_of_discardCancelled hleast)
      exact .nextDeadline _ hfirst

/-- One request. -/
theorem answer_step {queue : LazyTimerQueue ε} {map : TimerMap ε} (time : Nat)
    (request : TimerRequest ε) (h : queue.StandsFor map) :
    ∃ map', map.Step time request (queue.answer time request).1 map' ∧
      (queue.answer time request).2.StandsFor map' := by
  cases request with
  | schedule span event =>
      refine ⟨_, ?_, schedule_standsFor h time span event⟩
      simpa [answer, schedule, h.next] using TimerMap.Step.schedule span event
  | cancel number =>
      refine ⟨_, ?_, h.erase number⟩
      simpa [answer, cancel, h.contains_armed] using TimerMap.Step.cancel number
  | isArmed number =>
      refine ⟨_, ?_, h⟩
      simpa [answer, h.contains_armed] using TimerMap.Step.isArmed number
  | popExpired => exact pop?_step h time
  | nextDeadline => exact ⟨map, nextDue?_step h time⟩
  | size =>
      refine ⟨map, ?_, h⟩
      simpa [answer, h.size_armed] using TimerMap.Step.size
  | isEmpty =>
      refine ⟨map, ?_, h⟩
      simpa [answer, h.isEmpty_armed] using TimerMap.Step.isEmpty
  | clear =>
      refine ⟨_, ?_, clear_standsFor h⟩
      simpa [answer, clear, h.size_armed] using TimerMap.Step.clear

end LazyTimerQueue

namespace TimerQueue

def answer (queue : TimerQueue ε) (time : Nat) : TimerRequest ε → TimerAnswer ε × TimerQueue ε
  | .schedule span event => (queue.schedule time span event).map .scheduled id
  | .cancel number => (queue.cancel number).map .told id
  | .isArmed number => (.told (queue.isArmed number), queue)
  | .popExpired =>
      match queue.pop? time with
      | some (timer, rest) => (.fired (some timer), rest)
      | none => (.fired none, queue)
  | .nextDeadline => (.deadline queue.nextDue?, queue)
  | .size => (.counted queue.size, queue)
  | .isEmpty => (.told queue.isEmpty, queue)
  | .clear => queue.clear.map .counted id

/-- The pending timers are those of the map, no two with one number. -/
structure StandsFor (queue : TimerQueue ε) (map : TimerMap ε) : Prop where
  nodup : queue.numbers.Nodup
  holds : ∀ timer, map.Holds timer ↔ timer ∈ queue.pending
  next : queue.nextNumber = map.nextNumber

namespace StandsFor

variable {queue : TimerQueue ε} {map : TimerMap ε}

theorem empty : (TimerQueue.empty : TimerQueue ε).StandsFor TimerMap.empty where
  nodup := .nil
  holds := fun _ => ⟨fun h => (by cases h), fun h => (by cases h)⟩
  next := rfl

theorem isArmed (h : queue.StandsFor map) (number : Nat) :
    queue.isArmed number = map.pending.contains number := by
  rw [Bool.eq_iff_iff, TimerQueue.isArmed, List.any_eq_true]
  constructor
  · rintro ⟨timer, hmem, hnumber⟩
    rw [← beq_iff_eq.1 hnumber]
    exact ((h.holds timer).2 hmem).contains
  · intro hcontains
    obtain ⟨⟨due, event⟩, hget⟩ := Option.isSome_iff_exists.1 hcontains
    exact ⟨⟨number, due, event⟩, (h.holds _).1 hget, beq_self_eq_true number⟩

theorem size (h : queue.StandsFor map) : queue.size = map.pending.size := by
  have hnodup : (queue.pending.map fun t => (t.number, (t.due, t.event))).Nodup := by
    refine List.Nodup.of_map (·.1) ?_
    rw [List.map_map]
    exact h.nodup
  have hperm : (queue.pending.map fun t => (t.number, (t.due, t.event))).Perm
      map.pending.toList := by
    refine (List.perm_ext_iff_of_nodup hnodup (Table.nodup_of_sorted map.pending.sorted)).2
      fun ⟨number, due, event⟩ => ?_
    rw [Table.mem_toList]
    refine Iff.trans ?_ (h.holds ⟨number, due, event⟩).symm
    rw [List.mem_map]
    constructor
    · rintro ⟨timer, hmem, heq⟩
      cases heq
      exact hmem
    · exact fun hmem => ⟨_, hmem, rfl⟩
  have hlength := hperm.length_eq
  rwa [List.length_map] at hlength

theorem isEmpty (h : queue.StandsFor map) : queue.isEmpty = map.pending.isEmpty := by
  have hsize : queue.pending.length = map.pending.toList.length := h.size
  rw [Bool.eq_iff_iff, TimerQueue.isEmpty, Table.isEmpty, List.isEmpty_iff_length_eq_zero,
    List.isEmpty_iff_length_eq_zero, hsize]

theorem erase (h : queue.StandsFor map) (number : Nat) :
    (queue.remove number).StandsFor (map.erase number) where
  nodup := nodup_numbers_remove h.nodup number
  holds := fun timer => by rw [TimerMap.holds_erase, mem_remove, h.holds]
  next := h.next

theorem first (h : queue.StandsFor map) {timer : Timer ε} {rest : List (Timer ε)}
    (hpending : queue.pending = timer :: rest) : map.First timer := by
  refine ⟨(h.holds timer).2 (hpending ▸ List.mem_cons_self), fun other hother => ?_⟩
  have hmem := (h.holds other).1 hother
  have hordered := queue.ordered
  rw [hpending] at hmem hordered
  exact (List.mem_cons.1 hmem).imp_right ((List.pairwise_cons.1 hordered).1 other)

theorem first_of_pop? (h : queue.StandsFor map) {time : Nat} {timer : Timer ε}
    {rest : TimerQueue ε} (hpop : queue.pop? time = some (timer, rest)) : map.First timer := by
  rw [pop?] at hpop
  split at hpop
  · cases hpop
  · rename_i first others hpending
    split at hpop
    · cases hpop
      exact h.first hpending
    · cases hpop

/-- If no timer is popped, all pending ones are due later. -/
theorem early_of_pop? (h : queue.StandsFor map) {time : Nat} (hpop : queue.pop? time = none)
    (timer : Timer ε) (hheld : map.Holds timer) : time < timer.due := by
  have hmem := (h.holds timer).1 hheld
  rw [pop?] at hpop
  split at hpop
  · rename_i hpending
    rw [hpending] at hmem
    cases hmem
  · rename_i first others hpending
    split at hpop
    · cases hpop
    · rename_i hearly
      rcases (h.first hpending).2 timer hheld with rfl | hbefore
      · omega
      · unfold Timer.Before at hbefore
        omega

end StandsFor

/-- One request. -/
theorem answer_step {queue : TimerQueue ε} {map : TimerMap ε} (time : Nat)
    (request : TimerRequest ε) (h : queue.StandsFor map) :
    ∃ map', map.Step time request (queue.answer time request).1 map' ∧
      (queue.answer time request).2.StandsFor map' := by
  cases request with
  | schedule span event =>
      refine ⟨map.put (time + span) event, ?_, nodup_numbers_schedule h.nodup time span event,
        fun timer => ?_, congrArg (· + 1) h.next⟩
      · simpa [answer, schedule, h.next] using TimerMap.Step.schedule span event
      · rw [TimerMap.holds_put, ← h.next, h.holds]
        exact mem_schedule.symm
  | cancel number =>
      refine ⟨_, ?_, h.erase number⟩
      simpa [answer, cancel, h.isArmed] using TimerMap.Step.cancel number
  | isArmed number =>
      refine ⟨_, ?_, h⟩
      simpa [answer, h.isArmed] using TimerMap.Step.isArmed number
  | popExpired =>
      simp only [answer]
      cases hpop : queue.pop? time with
      | some popped =>
          obtain ⟨timer, rest⟩ := popped
          obtain ⟨-, hdue, rfl⟩ := pop?_eq_some h.nodup hpop
          exact ⟨_, .fire timer (h.first_of_pop? hpop) hdue, h.erase timer.number⟩
      | none => exact ⟨map, .idle (h.early_of_pop? hpop), h⟩
  | nextDeadline =>
      simp only [answer, nextDue?]
      cases hpending : queue.pending with
      | nil =>
          refine ⟨map, .noDeadline fun timer hheld => ?_, h⟩
          have hmem := (h.holds timer).1 hheld
          rw [hpending] at hmem
          cases hmem
      | cons timer rest => exact ⟨map, .nextDeadline timer (h.first hpending), h⟩
  | size =>
      refine ⟨map, ?_, h⟩
      simpa [answer, h.size] using TimerMap.Step.size
  | isEmpty =>
      refine ⟨map, ?_, h⟩
      simpa [answer, h.isEmpty] using TimerMap.Step.isEmpty
  | clear =>
      refine ⟨map.cleared, ?_, .nil, fun timer => ?_, h.next⟩
      · simpa [answer, clear, h.size] using TimerMap.Step.clear
      · exact ⟨fun hheld => absurd hheld TimerMap.not_holds_cleared, fun hmem => (by cases hmem)⟩

/-- Whatever is asked of a queue of timers at times that do not decrease, it answers
as a finite map of timers does, and so does a queue that discards what was cancelled
lazily.  Each timer fires at most once, not after it was cancelled, in the order in
which the timers are due and then in the order in which they were scheduled. -/
theorem serves_like_map (requests : List (Nat × TimerRequest ε))
    (hclock : (requests.map (·.1)).Pairwise (· ≤ ·)) :
    (∃ map, TimerMap.Run .empty (serve answer .empty requests).1 map ∧
      (serve answer .empty requests).2.StandsFor map) ∧
    (∃ map, TimerMap.Run .empty (serve LazyTimerQueue.answer .empty requests).1 map ∧
      (serve LazyTimerQueue.answer .empty requests).2.StandsFor map) ∧
    (serve LazyTimerQueue.answer .empty requests).1 = (serve answer .empty requests).1 ∧
    TimelyCalls (serve answer .empty requests).1 := by
  obtain ⟨map, hrun, hstands⟩ := TimerMap.run_of_simulation answer_step StandsFor.empty requests
  obtain ⟨map', hrun', hstands'⟩ :=
    TimerMap.run_of_simulation LazyTimerQueue.answer_step LazyTimerQueue.StandsFor.empty requests
  exact ⟨⟨map, hrun, hstands⟩, ⟨map', hrun', hstands'⟩, TimerMap.serve_eq_of_runs hrun' hrun,
    hrun.timely (by rwa [serve_times])⟩

/-- Three timers of which the last is cancelled, though its key stays in the heap
ahead of another one; the two others fire in their order. -/
def overtaken : List (Nat × TimerRequest Nat) :=
  [(0, .schedule 10 1), (0, .schedule 5 2), (3, .schedule 3 3), (4, .cancel 2), (5, .popExpired),
    (6, .nextDeadline), (20, .popExpired), (20, .popExpired)]

theorem serves_like_map_overtaken :
    (overtaken.map (·.1)).Pairwise (· ≤ ·) ∧
    firedTimers (serve LazyTimerQueue.answer .empty overtaken).1 = [⟨1, 5, 2⟩, ⟨0, 10, 1⟩] ∧
    TimelyCalls (serve LazyTimerQueue.answer .empty overtaken).1 := by
  have hclock : (overtaken.map (·.1)).Pairwise (· ≤ ·) := by decide
  obtain ⟨-, -, hsame, htimely⟩ := serves_like_map overtaken hclock
  have hfired : firedTimers (serve answer .empty overtaken).1 = [⟨1, 5, 2⟩, ⟨0, 10, 1⟩] := by
    decide
  rw [hsame]
  exact ⟨hclock, hfired, htimely⟩

end TimerQueue

end LinkState
