import LinkState.Timer
import Mathlib.Data.List.Nodup
import Mathlib.Data.List.Perm.Basic
import Mathlib.Logic.Function.Basic

/-!
# Who waits for which timer

A queue is matched with what its users keep of it: a partial function from
events to handles.  The queue and the function match if the pending timers are
exactly the kept ones, no two with one number.  Scheduling a timer for an event
nobody waits for, and cancelling the timer of an event, keep the two matched.
-/

namespace LinkState

namespace TimerQueue

variable {ε : Type}

@[ext]
theorem ext {q r : TimerQueue ε} (hpending : q.pending = r.pending)
    (hnext : q.nextNumber = r.nextNumber) : q = r := by
  cases q
  cases r
  cases hpending
  cases hnext
  rfl

theorem mem_schedule {queue : TimerQueue ε} {now span : Nat} {event : ε} {timer : Timer ε} :
    timer ∈ (queue.schedule now span event).2.pending ↔
      timer = ⟨queue.nextNumber, now + span, event⟩ ∨ timer ∈ queue.pending :=
  Timer.mem_place

theorem mem_remove {queue : TimerQueue ε} {number : Nat} {timer : Timer ε} :
    timer ∈ (queue.remove number).pending ↔ timer ∈ queue.pending ∧ timer.number ≠ number := by
  simp [remove]

theorem remove_comm (queue : TimerQueue ε) (a b : Nat) :
    (queue.remove a).remove b = (queue.remove b).remove a := by
  ext1
  · simp [remove, List.filter_filter, Bool.and_comm]
  · rfl

def numbers (queue : TimerQueue ε) : List Nat :=
  queue.pending.map (·.number)

theorem numbers_schedule_perm (queue : TimerQueue ε) (now span : Nat) (event : ε) :
    (queue.schedule now span event).2.numbers.Perm (queue.nextNumber :: queue.numbers) := by
  have hplace : ∀ (timer : Timer ε) (list : List (Timer ε)),
      (timer.place list).Perm (timer :: list) := by
    intro timer list
    induction list with
    | nil => exact .refl _
    | cons head tail ih =>
        rw [Timer.place]
        split
        · exact (ih.cons head).trans (.swap timer head tail)
        · exact .refl _
  exact (hplace _ queue.pending).map _

theorem nodup_numbers_schedule {queue : TimerQueue ε} (h : queue.numbers.Nodup) (now span : Nat)
    (event : ε) : (queue.schedule now span event).2.numbers.Nodup := by
  rw [(numbers_schedule_perm queue now span event).nodup_iff, List.nodup_cons]
  refine ⟨fun hmem => ?_, h⟩
  obtain ⟨timer, htimer, hnumber⟩ := List.mem_map.1 hmem
  exact Nat.lt_irrefl _ (hnumber ▸ queue.fresh timer htimer)

theorem nodup_numbers_remove {queue : TimerQueue ε} (h : queue.numbers.Nodup) (number : Nat) :
    (queue.remove number).numbers.Nodup :=
  h.sublist (List.filter_sublist.map _)

/-- Two pending timers with one number are one timer. -/
theorem eq_of_number_eq {queue : TimerQueue ε} (h : queue.numbers.Nodup) {s t : Timer ε}
    (hs : s ∈ queue.pending) (ht : t ∈ queue.pending) (hnumber : s.number = t.number) : s = t :=
  List.inj_on_of_nodup_map h hs ht hnumber

/-- With distinct numbers, taking the first timer is removing its number. -/
theorem pop?_eq_some {queue rest : TimerQueue ε} {now : Nat} {timer : Timer ε}
    (hnodup : queue.numbers.Nodup) (h : queue.pop? now = some (timer, rest)) :
    timer ∈ queue.pending ∧ timer.due ≤ now ∧ rest = queue.remove timer.number := by
  rw [pop?] at h
  split at h
  · cases h
  · rename_i first others heq
    split at h
    · rename_i hdue
      simp only [Option.some.injEq, Prod.mk.injEq] at h
      obtain ⟨rfl, rfl⟩ := h
      refine ⟨heq ▸ List.mem_cons_self, hdue, ?_⟩
      ext1
      · have hfirst : ∀ t ∈ others, t.number ≠ first.number := by
          intro t ht hnumber
          simp only [numbers, heq, List.map_cons, List.nodup_cons] at hnodup
          exact hnodup.1 (hnumber ▸ List.mem_map_of_mem ht)
        have hfilter : others.filter (fun t => t.number != first.number) = others := by
          simpa using hfirst
        simp [remove, heq, hfilter]
      · rfl
    · cases h

/-- The first timer is due no later than any other. -/
theorem due_le_of_first {queue : TimerQueue ε} {first other : Timer ε} {rest : List (Timer ε)}
    (hpending : queue.pending = first :: rest) (hother : other ∈ queue.pending) :
    first.due ≤ other.due := by
  have hordered := queue.ordered
  rw [hpending] at hother hordered
  rcases List.mem_cons.1 hother with rfl | hlater
  · exact Nat.le_refl _
  · rcases (List.pairwise_cons.1 hordered).1 other hlater with hless | ⟨hsame, -⟩
    · exact Nat.le_of_lt hless
    · exact Nat.le_of_eq hsame

theorem pending_of_pop? {queue rest : TimerQueue ε} {now : Nat} {timer : Timer ε}
    (h : queue.pop? now = some (timer, rest)) :
    queue.pending = timer :: rest.pending ∧ timer.due ≤ now := by
  rw [pop?] at h
  split at h
  · cases h
  · rename_i first others heq
    split at h
    · rename_i hdue
      obtain ⟨rfl, rfl⟩ := Prod.mk.inj (Option.some.inj h)
      exact ⟨heq, hdue⟩
    · cases h

theorem pop?_of_due {queue : TimerQueue ε} {now : Nat} {first : Timer ε} {rest : List (Timer ε)}
    (hpending : queue.pending = first :: rest) (hdue : first.due ≤ now) :
    ∃ others, queue.pop? now = some (first, others) := by
  rw [pop?]
  split
  · rename_i hempty
    rw [hpending] at hempty
    cases hempty
  · rename_i timer others heq
    obtain ⟨rfl, rfl⟩ := List.cons.inj (heq.symm.trans hpending)
    rw [if_pos hdue]
    exact ⟨_, rfl⟩

/-- The timer that is taken is due no later than any other. -/
theorem due_le_of_pop? {queue rest : TimerQueue ε} {now : Nat} {timer other : Timer ε}
    (h : queue.pop? now = some (timer, rest)) (hother : other ∈ queue.pending) :
    timer.due ≤ other.due :=
  due_le_of_first (pending_of_pop? h).1 hother

/-! ### Matching a queue with what is kept of it -/

def release (queue : TimerQueue ε) : Option Handle → TimerQueue ε
  | some handle => queue.remove handle.number
  | none => queue

/-- The pending timers are those of which a handle is kept, each for its own
event, and no two have one number. -/
structure Matches (queue : TimerQueue ε) (kept : ε → Option Handle) : Prop where
  nodup : queue.numbers.Nodup
  mem_iff : ∀ event handle, kept event = some handle ↔
    (⟨handle.number, handle.due, event⟩ : Timer ε) ∈ queue.pending

namespace Matches

variable {queue : TimerQueue ε} {kept : ε → Option Handle}

theorem of_pending_eq_nil (h : queue.pending = []) : queue.Matches fun _ => none where
  nodup := by simp [numbers, h]
  mem_iff := by simp [h]

theorem kept_of_mem (h : queue.Matches kept) {timer : Timer ε} (hmem : timer ∈ queue.pending) :
    kept timer.event = some ⟨timer.number, timer.due⟩ :=
  (h.mem_iff timer.event ⟨timer.number, timer.due⟩).2 hmem

/-- No timer is shared. -/
theorem event_eq_of_number_eq (h : queue.Matches kept) {a b : ε} {x y : Handle}
    (ha : kept a = some x) (hb : kept b = some y) (hnumber : x.number = y.number) : a = b := by
  have heq := eq_of_number_eq h.nodup ((h.mem_iff a x).1 ha) ((h.mem_iff b y).1 hb) hnumber
  exact congrArg Timer.event heq

variable [DecidableEq ε]

theorem schedule (h : queue.Matches kept) (event : ε) (hfree : kept event = none)
    (now span : Nat) :
    (queue.schedule now span event).2.Matches
      (Function.update kept event (some (queue.schedule now span event).1)) where
  nodup := nodup_numbers_schedule h.nodup now span event
  mem_iff := by
    intro other handle
    rw [mem_schedule]
    by_cases hother : other = event
    · subst hother
      have hnone : (⟨handle.number, handle.due, other⟩ : Timer ε) ∉ queue.pending := fun hmem => by
        rw [h.kept_of_mem hmem] at hfree
        cases hfree
      rw [Function.update_self, or_iff_left hnone]
      cases handle
      simp [TimerQueue.schedule, eq_comm]
    · rw [Function.update_of_ne hother, h.mem_iff, or_iff_right]
      simp [hother]

theorem release (h : queue.Matches kept) (event : ε) :
    (queue.release (kept event)).Matches (Function.update kept event none) := by
  cases hkept : kept event with
  | none =>
      rw [← hkept, Function.update_eq_self]
      simpa [hkept, TimerQueue.release] using h
  | some held =>
      refine ⟨nodup_numbers_remove h.nodup _, fun other handle => ?_⟩
      rw [TimerQueue.release, mem_remove]
      by_cases hother : other = event
      · subst hother
        rw [Function.update_self, ← h.mem_iff, hkept]
        constructor
        · intro hnone
          cases hnone
        · rintro ⟨hsome, hne⟩
          cases hsome
          exact absurd rfl hne
      · rw [Function.update_of_ne hother, h.mem_iff]
        refine ⟨fun hmem => ⟨hmem, fun hnumber => hother ?_⟩, And.left⟩
        exact h.event_eq_of_number_eq ((h.mem_iff _ _).2 hmem) hkept hnumber

end Matches

end TimerQueue

end LinkState
