import LinkState.Proofs.Table
import LinkState.Proofs.TimerQueue

/-!
# Timers as a finite map

What a queue of timers is for can be told without lists: the pending timers are
a finite map from numbers to the time a timer is due and its event, and a number
is given out once.  `TimerMap.Step` says how such a map answers each request, and
anything whose single answers are those of a map answers whole histories like
one.  The laws of the histories — what fires was scheduled, nothing fires after
it has ended, and timers fire in order — are proved of the map alone.
-/

namespace LinkState

variable {ε σ : Type}

inductive TimerRequest (ε : Type)
  | schedule (span : Nat) (event : ε)
  | cancel (number : Nat)
  | isArmed (number : Nat)
  | popExpired
  | nextDeadline
  | size
  | isEmpty
  | clear
  deriving DecidableEq, Repr

inductive TimerAnswer (ε : Type)
  | scheduled (handle : Handle)
  | told (yes : Bool)
  | fired (timer : Option (Timer ε))
  | deadline (due : Option Nat)
  | counted (count : Nat)
  deriving DecidableEq, Repr

/-- A request, the time at which it was made, and its answer. -/
structure TimerCall (ε : Type) where
  time : Nat
  request : TimerRequest ε
  answer : TimerAnswer ε
  deriving DecidableEq, Repr

namespace TimerCall

/-- The timer that a call makes fire. -/
def fired? (call : TimerCall ε) : Option (Timer ε) :=
  match call.answer with
  | .fired timer => timer
  | _ => none

def scheduled? (call : TimerCall ε) : Option Handle :=
  match call.answer with
  | .scheduled handle => some handle
  | _ => none

/-- The calls with which a pending timer is over: it fires, it is cancelled, or all
are. -/
def Ends (number : Nat) (call : TimerCall ε) : Prop :=
  (call.request = .cancel number ∧ call.answer = .told true) ∨ call.request = .clear ∨
    ∃ timer, call.fired? = some timer ∧ timer.number = number

/-- The call that schedules a timer. -/
def Starts (timer : Timer ε) (call : TimerCall ε) : Prop :=
  ∃ span, call.request = .schedule span timer.event ∧ timer.due = call.time + span ∧
    call.answer = .scheduled ⟨timer.number, timer.due⟩

end TimerCall

def firedTimers (log : List (TimerCall ε)) : List (Timer ε) :=
  log.filterMap (·.fired?)

def scheduledHandles (log : List (TimerCall ε)) : List Handle :=
  log.filterMap (·.scheduled?)

def serve (answer : σ → Nat → TimerRequest ε → TimerAnswer ε × σ) (state : σ) :
    List (Nat × TimerRequest ε) → List (TimerCall ε) × σ
  | [] => ([], state)
  | (time, request) :: rest =>
      let (reply, next) := answer state time request
      let (log, final) := serve answer next rest
      (⟨time, request, reply⟩ :: log, final)

/-- A finite map of pending timers, and the number of the next one. -/
structure TimerMap (ε : Type) where
  pending : Table Nat (Nat × ε)
  nextNumber : Nat
  fresh : ∀ number, (pending.get? number).isSome → number < nextNumber

namespace TimerMap

variable {map map' : TimerMap ε} {timer other : Timer ε} {time : Nat}

@[ext]
theorem ext (hpending : ∀ number, map.pending.get? number = map'.pending.get? number)
    (hnext : map.nextNumber = map'.nextNumber) : map = map' := by
  cases map
  cases map'
  cases Table.ext_get? hpending
  cases hnext
  rfl

def empty : TimerMap ε := ⟨Table.empty, 0, fun _ h => by cases h⟩

def Holds (map : TimerMap ε) (timer : Timer ε) : Prop :=
  map.pending.get? timer.number = some (timer.due, timer.event)

/-- A timer is pending and comes before every other one. -/
def First (map : TimerMap ε) (timer : Timer ε) : Prop :=
  map.Holds timer ∧ ∀ other, map.Holds other → other = timer ∨ timer.Before other

/-- The map with one more timer, under a number that was never used. -/
def put (map : TimerMap ε) (due : Nat) (event : ε) : TimerMap ε where
  pending := map.pending.insert map.nextNumber (due, event)
  nextNumber := map.nextNumber + 1
  fresh := fun number h => by
    by_cases hnumber : number = map.nextNumber
    · omega
    · rw [Table.get?_insert_of_ne _ _ hnumber] at h
      exact Nat.lt_succ_of_lt (map.fresh number h)

def erase (map : TimerMap ε) (number : Nat) : TimerMap ε where
  pending := map.pending.erase number
  nextNumber := map.nextNumber
  fresh := fun other h => by
    rw [Table.get?_erase] at h
    split at h
    · cases h
    · exact map.fresh other h

/-- The map without all timers; numbers stay used. -/
def cleared (map : TimerMap ε) : TimerMap ε :=
  ⟨Table.empty, map.nextNumber, fun _ h => by cases h⟩

/-- How a map of timers answers a request. -/
inductive Step (map : TimerMap ε) (time : Nat) :
    TimerRequest ε → TimerAnswer ε → TimerMap ε → Prop
  | schedule (span : Nat) (event : ε) :
      Step map time (.schedule span event) (.scheduled ⟨map.nextNumber, time + span⟩)
        (map.put (time + span) event)
  | cancel (number : Nat) :
      Step map time (.cancel number) (.told (map.pending.contains number)) (map.erase number)
  | isArmed (number : Nat) :
      Step map time (.isArmed number) (.told (map.pending.contains number)) map
  | fire (timer : Timer ε) (first : map.First timer) (due : timer.due ≤ time) :
      Step map time .popExpired (.fired (some timer)) (map.erase timer.number)
  | idle (early : ∀ timer, map.Holds timer → time < timer.due) :
      Step map time .popExpired (.fired none) map
  | nextDeadline (timer : Timer ε) (first : map.First timer) :
      Step map time .nextDeadline (.deadline (some timer.due)) map
  | noDeadline (unarmed : ∀ timer, ¬ map.Holds timer) :
      Step map time .nextDeadline (.deadline none) map
  | size : Step map time .size (.counted map.pending.size) map
  | isEmpty : Step map time .isEmpty (.told map.pending.isEmpty) map
  | clear : Step map time .clear (.counted map.pending.size) map.cleared

/-- A history of a map of timers. -/
inductive Run : TimerMap ε → List (TimerCall ε) → TimerMap ε → Prop
  | nil (map : TimerMap ε) : Run map [] map
  | cons {map map' final : TimerMap ε} {call : TimerCall ε} {log : List (TimerCall ε)}
      (step : map.Step call.time call.request call.answer map') (rest : Run map' log final) :
      Run map (call :: log) final

theorem First.unique (h : map.First timer) (h' : map.First other) : timer = other := by
  rcases h.2 other h'.1 with rfl | hbefore
  · rfl
  · rcases h'.2 timer h.1 with rfl | hafter
    · rfl
    · unfold Timer.Before at hbefore hafter
      omega

/-- A map of timers leaves no choice. -/
theorem Step.unique {request : TimerRequest ε} {answer answer' : TimerAnswer ε}
    {next next' : TimerMap ε} (h : map.Step time request answer next)
    (h' : map.Step time request answer' next') : answer = answer' ∧ next = next' := by
  cases h with
  | fire timer first due =>
      cases h' with
      | fire other first' _ => obtain rfl := first.unique first'; exact ⟨rfl, rfl⟩
      | idle early => exact absurd (early timer first.1) (by omega)
  | idle early =>
      cases h' with
      | fire other first' due => exact absurd (early other first'.1) (by omega)
      | idle _ => exact ⟨rfl, rfl⟩
  | nextDeadline timer first =>
      cases h' with
      | nextDeadline other first' => obtain rfl := first.unique first'; exact ⟨rfl, rfl⟩
      | noDeadline hnone => exact absurd first.1 (hnone timer)
  | noDeadline hnone =>
      cases h' with
      | nextDeadline other first' => exact absurd first'.1 (hnone other)
      | noDeadline _ => exact ⟨rfl, rfl⟩
  | _ => cases h'; exact ⟨rfl, rfl⟩

/-- Whatever answers single requests like the map that it stands for answers
every history like it. -/
theorem run_of_simulation {answer : σ → Nat → TimerRequest ε → TimerAnswer ε × σ}
    {stands : σ → TimerMap ε → Prop}
    (hstep : ∀ {state map} (time request), stands state map →
      ∃ map', map.Step time request (answer state time request).1 map' ∧
        stands (answer state time request).2 map')
    {state : σ} (h : stands state map) (requests : List (Nat × TimerRequest ε)) :
    ∃ final, Run map (serve answer state requests).1 final ∧
      stands (serve answer state requests).2 final := by
  induction requests generalizing state map with
  | nil => exact ⟨map, .nil map, h⟩
  | cons head rest ih =>
      obtain ⟨time, request⟩ := head
      obtain ⟨next, hnext, hstands⟩ := hstep time request h
      obtain ⟨final, hrun, hfinal⟩ := ih hstands
      exact ⟨final, .cons hnext hrun, hfinal⟩

/-- Two servants that stand for one map give the same answers. -/
theorem serve_eq_of_runs {answer : σ → Nat → TimerRequest ε → TimerAnswer ε × σ} {τ : Type}
    {answer' : τ → Nat → TimerRequest ε → TimerAnswer ε × τ} {state : σ} {state' : τ}
    {requests : List (Nat × TimerRequest ε)} {final final' : TimerMap ε}
    (h : Run map (serve answer state requests).1 final)
    (h' : Run map (serve answer' state' requests).1 final') :
    (serve answer state requests).1 = (serve answer' state' requests).1 := by
  induction requests generalizing map state state' with
  | nil => rfl
  | cons head rest ih =>
      obtain ⟨time, request⟩ := head
      obtain _ | ⟨step, hrest⟩ := h
      obtain _ | ⟨step', hrest'⟩ := h'
      obtain ⟨hanswer, rfl⟩ := step.unique step'
      simp only at hanswer
      simp only [serve, hanswer, ih hrest hrest']

/-! ### The laws of a history -/

theorem holds_put {due : Nat} {event : ε} :
    (map.put due event).Holds timer ↔ timer = ⟨map.nextNumber, due, event⟩ ∨ map.Holds timer := by
  obtain ⟨number, due', event'⟩ := timer
  by_cases hnumber : number = map.nextNumber
  · subst hnumber
    have hfree : ¬ map.Holds ⟨map.nextNumber, due', event'⟩ := fun h =>
      Nat.lt_irrefl _ (map.fresh _ (by rw [h]; rfl))
    rw [or_iff_left hfree, Holds, put, Table.get?_insert_self]
    simp [eq_comm]
  · simp [Holds, put, Table.get?_insert_of_ne _ _ hnumber, hnumber]

theorem holds_erase {number : Nat} :
    (map.erase number).Holds timer ↔ map.Holds timer ∧ timer.number ≠ number := by
  by_cases hnumber : timer.number = number
  · simp [Holds, erase, hnumber, Table.get?_erase_self]
  · simp [Holds, erase, Table.get?_erase_of_ne _ hnumber, hnumber]

theorem not_holds_cleared : ¬ map.cleared.Holds timer :=
  fun h => by cases h

theorem Holds.lt_nextNumber (h : map.Holds timer) : timer.number < map.nextNumber :=
  map.fresh _ (by rw [h]; rfl)

theorem Holds.contains (h : map.Holds timer) : map.pending.contains timer.number = true := by
  rw [Table.contains, h]
  rfl

section Step

variable {request : TimerRequest ε} {answer : TimerAnswer ε}

theorem Step.nextNumber_le (h : map.Step time request answer map') :
    map.nextNumber ≤ map'.nextNumber := by
  cases h with
  | schedule span event => exact Nat.le_succ _
  | _ => exact Nat.le_refl _

/-- The number that is given out is the next one. -/
theorem Step.scheduled {handle : Handle}
    (h : map.Step time request (.scheduled handle) map') :
    handle.number = map.nextNumber ∧ map'.nextNumber = map.nextNumber + 1 := by
  cases h
  exact ⟨rfl, rfl⟩

theorem Step.fired (h : map.Step time request (.fired (some timer)) map') :
    map.First timer ∧ timer.due ≤ time ∧ map' = map.erase timer.number := by
  cases h with
  | fire _ first due => exact ⟨first, due, rfl⟩

/-- A pending timer was pending before and did not end, or was scheduled just now. -/
theorem Step.holds (h : map.Step time request answer map') (hheld : map'.Holds timer) :
    (map.Holds timer ∧ ¬ TimerCall.Ends timer.number ⟨time, request, answer⟩) ∨
      (timer.number = map.nextNumber ∧ TimerCall.Starts timer ⟨time, request, answer⟩) := by
  cases h with
  | schedule span event =>
      rcases holds_put.1 hheld with rfl | hheld
      · exact .inr ⟨rfl, span, rfl, rfl, rfl⟩
      · exact .inl ⟨hheld, by simp [TimerCall.Ends, TimerCall.fired?]⟩
  | cancel number =>
      obtain ⟨hheld, hother⟩ := holds_erase.1 hheld
      exact .inl ⟨hheld, by simp [TimerCall.Ends, TimerCall.fired?, hother.symm]⟩
  | fire first hfirst due =>
      obtain ⟨hheld, hother⟩ := holds_erase.1 hheld
      exact .inl ⟨hheld, by simp [TimerCall.Ends, TimerCall.fired?, hother.symm]⟩
  | clear => exact absurd hheld not_holds_cleared
  | _ => exact .inl ⟨hheld, by simp [TimerCall.Ends, TimerCall.fired?]⟩

end Step

namespace Run

variable {final : TimerMap ε} {log before after : List (TimerCall ε)} {call : TimerCall ε}
  {handle : Handle}

theorem nextNumber_le (h : Run map log final) : map.nextNumber ≤ final.nextNumber := by
  induction h with
  | nil map => exact Nat.le_refl _
  | cons step _ ih => exact Nat.le_trans step.nextNumber_le ih

theorem append (h : Run map (before ++ after) final) :
    ∃ middle, Run map before middle ∧ Run middle after final := by
  induction before generalizing map with
  | nil => exact ⟨map, .nil map, h⟩
  | cons head rest ih =>
      obtain _ | ⟨step, hrest⟩ := h
      obtain ⟨middle, hbefore, hafter⟩ := ih hrest
      exact ⟨middle, .cons step hbefore, hafter⟩

/-- The numbers given out in a history lie between the next number before it and the one after
it. -/
theorem scheduled_bounds (h : Run map log final) (hmem : handle ∈ scheduledHandles log) :
    map.nextNumber ≤ handle.number ∧ handle.number < final.nextNumber := by
  induction h with
  | nil => cases hmem
  | @cons map map' final call log step hrest ih =>
      have hstep := step.nextNumber_le
      have hafter := hrest.nextNumber_le
      obtain ⟨other, hother, hhandle⟩ := List.mem_filterMap.1 hmem
      rcases List.mem_cons.1 hother with rfl | hother
      · obtain ⟨time, request, answer⟩ := other
        cases answer with
        | scheduled handle' =>
            cases hhandle
            obtain ⟨hnumber, hnext⟩ := step.scheduled
            exact ⟨Nat.le_of_eq hnumber.symm, by omega⟩
        | _ => cases hhandle
      · obtain ⟨hlow, hhigh⟩ := ih (List.mem_filterMap.2 ⟨other, hother, hhandle⟩)
        exact ⟨Nat.le_trans hstep hlow, hhigh⟩

/-- Numbers are given out in ascending order, so none is given out twice. -/
theorem numbers_ascending (h : Run map log final) :
    (scheduledHandles log).Pairwise fun a b => a.number < b.number := by
  induction h with
  | nil => exact .nil
  | @cons map map' final call log step hrest ih =>
      obtain ⟨time, request, answer⟩ := call
      cases answer with
      | scheduled handle =>
          obtain ⟨hnumber, hnext⟩ := step.scheduled
          refine List.pairwise_cons.2 ⟨fun other hother => ?_, ih⟩
          have := (hrest.scheduled_bounds hother).1
          omega
      | _ => exact ih

/-- A timer that fires was pending at the start or is scheduled before, and it has
not ended since. -/
theorem fired_origin (h : Run map (before ++ call :: after) final)
    (hfired : call.fired? = some timer) :
    (map.Holds timer ∧ ∀ earlier ∈ before, ¬ earlier.Ends timer.number) ∨
      ∃ earlier start since, before = earlier ++ start :: since ∧ start.Starts timer ∧
        ∀ later ∈ since, ¬ later.Ends timer.number := by
  induction before generalizing map with
  | nil =>
      obtain _ | ⟨step, -⟩ := h
      obtain ⟨time, request, answer⟩ := call
      cases answer with
      | fired other =>
          obtain rfl : other = some timer := hfired
          exact .inl ⟨step.fired.1.1, fun _ hmem => by cases hmem⟩
      | _ => cases hfired
  | cons head rest ih =>
      obtain _ | ⟨step, hrest⟩ := h
      rcases ih hrest with ⟨hheld, hsince⟩ | ⟨earlier, start, since, rfl, hstart, hsince⟩
      · rcases step.holds hheld with ⟨hbefore, hends⟩ | ⟨-, hstart⟩
        · exact .inl ⟨hbefore, List.forall_mem_cons.2 ⟨hends, hsince⟩⟩
        · exact .inr ⟨[], head, rest, rfl, hstart, hsince⟩
      · exact .inr ⟨head :: earlier, start, since, rfl, hstart, hsince⟩

/-- A timer that fires was pending at the start, or it has a number that was not
used by then and is due no sooner than some call of the history. -/
theorem fired_held_or_new (h : Run map log final) (hmem : timer ∈ firedTimers log) :
    map.Holds timer ∨
      map.nextNumber ≤ timer.number ∧ ∃ call ∈ log, call.time ≤ timer.due := by
  obtain ⟨call, hcall, hfired⟩ := List.mem_filterMap.1 hmem
  obtain ⟨before, after, rfl⟩ := List.append_of_mem hcall
  rcases h.fired_origin hfired with ⟨hheld, -⟩ | ⟨earlier, start, since, rfl, hstart, -⟩
  · exact .inl hheld
  · obtain ⟨span, -, hdue, hanswer⟩ := hstart
    have hstart : start ∈ (earlier ++ start :: since) ++ call :: after := by simp
    have hscheduled : start.scheduled? = some ⟨timer.number, timer.due⟩ := by
      rw [TimerCall.scheduled?, hanswer]
    refine .inr ⟨?_, start, hstart, hdue ▸ Nat.le_add_right _ _⟩
    exact (h.scheduled_bounds (List.mem_filterMap.2 ⟨start, hstart, hscheduled⟩)).1

/-- What fires after a timer has another number, and comes after it if time does not
run backwards. -/
theorem fired_later (h : Run map (call :: log) final) (hfired : call.fired? = some timer)
    (hlater : other ∈ firedTimers log) :
    timer.number ≠ other.number ∧
      ((∀ later ∈ log, call.time ≤ later.time) → timer.Before other) := by
  obtain _ | ⟨step, hrest⟩ := h
  obtain ⟨time, request, answer⟩ := call
  cases answer with
  | fired fired =>
      obtain rfl : fired = some timer := hfired
      obtain ⟨hfirst, hdue, rfl⟩ := step.fired
      rcases hrest.fired_held_or_new hlater with hheld | ⟨hnumber, start, hstart, htime⟩
      · obtain ⟨hheld, hne⟩ := holds_erase.1 hheld
        refine ⟨hne.symm, fun _ => (hfirst.2 other hheld).resolve_left ?_⟩
        rintro rfl
        exact hne rfl
      · have hold := hfirst.1.lt_nextNumber
        have hnew : timer.number < other.number := Nat.lt_of_lt_of_le hold hnumber
        refine ⟨Nat.ne_of_lt hnew, fun hclock => ?_⟩
        have := hclock start hstart
        unfold Timer.Before
        dsimp only at this hdue
        omega
  | _ => cases hfired

/-- No timer fires twice. -/
theorem fired_once (h : Run map log final) : ((firedTimers log).map (·.number)).Nodup := by
  induction h with
  | nil => exact .nil
  | @cons map map' final call log step hrest ih =>
      cases hfired : call.fired? with
      | none => simpa [firedTimers, hfired] using ih
      | some timer =>
          rw [firedTimers, List.filterMap_cons_some hfired, List.map_cons, List.nodup_cons]
          refine ⟨fun hmem => ?_, ih⟩
          obtain ⟨other, hother, hnumber⟩ := List.mem_map.1 hmem
          exact ((Run.cons step hrest).fired_later hfired hother).1 hnumber.symm

/-- If time does not run backwards, timers fire in their order. -/
theorem fired_in_order (h : Run map log final)
    (hclock : (log.map (·.time)).Pairwise (· ≤ ·)) :
    (firedTimers log).Pairwise Timer.Before := by
  induction h with
  | nil => exact .nil
  | @cons map map' final call log step hrest ih =>
      obtain ⟨hhead, htail⟩ := List.pairwise_cons.1 hclock
      have hlater : ∀ later ∈ log, call.time ≤ later.time := fun later hmem =>
        hhead _ (List.mem_map_of_mem hmem)
      cases hfired : call.fired? with
      | none => simpa [firedTimers, hfired] using ih htail
      | some timer =>
          rw [firedTimers, List.filterMap_cons_some hfired, List.pairwise_cons]
          exact ⟨fun other hother =>
            ((Run.cons step hrest).fired_later hfired hother).2 hlater, ih htail⟩

/-- A timer that was scheduled and has ended does not fire. -/
theorem not_fired_of_ended (h : Run map (before ++ call :: after) final)
    (hscheduled : handle ∈ scheduledHandles before) (hends : call.Ends handle.number)
    (hfired : timer ∈ firedTimers after) : timer.number ≠ handle.number := by
  obtain ⟨middle, hbefore, hrest⟩ := h.append
  obtain _ | ⟨step, hafter⟩ := hrest
  have hold := (hbefore.scheduled_bounds hscheduled).2
  rcases hafter.fired_held_or_new hfired with hheld | ⟨hnew, -⟩
  · rcases step.holds hheld with ⟨-, hnot⟩ | ⟨hnumber, -⟩
    · rintro heq
      exact hnot (heq ▸ hends)
    · omega
  · have := step.nextNumber_le
    omega

end Run

end TimerMap

/-- The laws of a history of timers. -/
structure TimelyCalls (log : List (TimerCall ε)) : Prop where
  /-- No number is given out twice. -/
  numbers : (scheduledHandles log).Pairwise fun a b => a.number < b.number
  /-- What fires was scheduled, and has not ended since. -/
  origin : ∀ before call after timer, log = before ++ call :: after →
    call.fired? = some timer → ∃ earlier start since, before = earlier ++ start :: since ∧
      start.Starts timer ∧ ∀ later ∈ since, ¬ later.Ends timer.number
  /-- What has ended does not fire. -/
  ended : ∀ before call after handle, log = before ++ call :: after →
    handle ∈ scheduledHandles before → call.Ends handle.number →
    ∀ timer ∈ firedTimers after, timer.number ≠ handle.number
  /-- No timer fires twice. -/
  once : ((firedTimers log).map (·.number)).Nodup
  /-- Timers fire as they are due, and in the order of their numbers if they are
  due at the same time. -/
  order : (firedTimers log).Pairwise Timer.Before

/-- The histories of a map that starts empty keep the laws. -/
theorem TimerMap.Run.timely {log : List (TimerCall ε)} {final : TimerMap ε}
    (h : Run .empty log final) (hclock : (log.map (·.time)).Pairwise (· ≤ ·)) :
    TimelyCalls log where
  numbers := h.numbers_ascending
  origin := by
    rintro before call after timer rfl hfired
    exact (h.fired_origin hfired).resolve_left fun ⟨hheld, _⟩ => by cases hheld
  ended := by
    rintro before call after handle rfl hscheduled hends timer hfired
    exact h.not_fired_of_ended hscheduled hends hfired
  once := h.fired_once
  order := h.fired_in_order hclock

theorem serve_times (answer : σ → Nat → TimerRequest ε → TimerAnswer ε × σ) (state : σ)
    (requests : List (Nat × TimerRequest ε)) :
    (serve answer state requests).1.map (·.time) = requests.map (·.1) := by
  induction requests generalizing state with
  | nil => rfl
  | cons head rest ih => simp [serve, ih]

end LinkState
