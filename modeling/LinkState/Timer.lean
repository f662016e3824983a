/-!
# Timers

A queue of timers lists the pending ones by the time they are due, and timers
that are due at the same time in the order in which they were scheduled.
Numbers of timers are never used twice, so a number that was kept from a timer
that has fired or was cancelled names no other one.
-/

namespace LinkState

/-- A pending timer: its number, the time it is due, and what it is for. -/
structure Timer (ε : Type) where
  number : Nat
  due : Nat
  event : ε
  deriving DecidableEq, Repr

/-- What is kept of a timer to cancel it or to recognise it. -/
structure Handle where
  number : Nat
  due : Nat
  deriving DecidableEq, Repr

/-- The time until a timer is due, zero if it is overdue. -/
def Handle.remaining (handle : Handle) (now : Nat) : Nat :=
  handle.due - now

namespace Timer

variable {ε : Type}

/-- Order of timers: by the time they are due, then by their numbers. -/
def Before (s t : Timer ε) : Prop :=
  s.due < t.due ∨ s.due = t.due ∧ s.number < t.number

/-- Puts a timer after all that are due no later. -/
def place (timer : Timer ε) : List (Timer ε) → List (Timer ε)
  | [] => [timer]
  | t :: rest => if t.due ≤ timer.due then t :: place timer rest else timer :: t :: rest

theorem mem_place {timer t : Timer ε} {list : List (Timer ε)} :
    t ∈ place timer list ↔ t = timer ∨ t ∈ list := by
  induction list with
  | nil => simp [place]
  | cons head tail ih =>
      rw [place]
      split
      · simp only [List.mem_cons, ih]
        exact or_left_comm
      · simp only [List.mem_cons]

theorem ordered_place {timer : Timer ε} {list : List (Timer ε)} (h : list.Pairwise Before)
    (fresh : ∀ t ∈ list, t.number < timer.number) : (place timer list).Pairwise Before := by
  induction list with
  | nil => simp [place]
  | cons head tail ih =>
      obtain ⟨hhead, htail⟩ := List.pairwise_cons.1 h
      rw [place]
      split
      · rename_i hle
        refine List.pairwise_cons.2
          ⟨fun t ht => ?_, ih htail fun t ht => fresh t (List.mem_cons_of_mem _ ht)⟩
        rcases mem_place.1 ht with rfl | ht
        · have := fresh head List.mem_cons_self
          unfold Before
          omega
        · exact hhead t ht
      · rename_i hgt
        refine List.pairwise_cons.2 ⟨fun t ht => ?_, h⟩
        rcases List.mem_cons.1 ht with rfl | ht
        · exact .inl (by omega)
        · have := hhead t ht
          unfold Before at this ⊢
          omega

end Timer

structure TimerQueue (ε : Type) where
  pending : List (Timer ε)
  nextNumber : Nat
  ordered : pending.Pairwise Timer.Before
  fresh : ∀ t ∈ pending, t.number < nextNumber

namespace TimerQueue

variable {ε : Type}

instance [DecidableEq ε] : DecidableEq (TimerQueue ε) := fun s t =>
  decidable_of_iff (s.pending = t.pending ∧ s.nextNumber = t.nextNumber)
    ⟨fun h => by cases s; cases t; cases h.1; cases h.2; rfl, fun h => h ▸ ⟨rfl, rfl⟩⟩

def empty : TimerQueue ε :=
  ⟨[], 0, .nil, fun _ h => absurd h List.not_mem_nil⟩

def size (queue : TimerQueue ε) : Nat :=
  queue.pending.length

def isEmpty (queue : TimerQueue ε) : Bool :=
  queue.pending.isEmpty

/-- Schedules a timer that is due when the given span has passed. -/
def schedule (queue : TimerQueue ε) (now span : Nat) (event : ε) : Handle × TimerQueue ε :=
  let timer : Timer ε := ⟨queue.nextNumber, now + span, event⟩
  (⟨timer.number, timer.due⟩,
    { pending := timer.place queue.pending
      nextNumber := queue.nextNumber + 1
      ordered := Timer.ordered_place queue.ordered queue.fresh
      fresh := fun t ht => by
        rcases Timer.mem_place.1 ht with rfl | ht
        · exact Nat.lt_succ_self _
        · exact Nat.lt_succ_of_lt (queue.fresh t ht) })

def isArmed (queue : TimerQueue ε) (number : Nat) : Bool :=
  queue.pending.any fun t => t.number == number

def remove (queue : TimerQueue ε) (number : Nat) : TimerQueue ε where
  pending := queue.pending.filter fun t => t.number != number
  nextNumber := queue.nextNumber
  ordered := queue.ordered.filter _
  fresh := fun t ht => queue.fresh t (List.mem_filter.1 ht).1

/-- Cancels a timer, and says whether it was pending. -/
def cancel (queue : TimerQueue ε) (number : Nat) : Bool × TimerQueue ε :=
  (queue.isArmed number, queue.remove number)

def nextDue? (queue : TimerQueue ε) : Option Nat :=
  queue.pending.head?.map (·.due)

/-- Takes the first timer if it is due. -/
def pop? (queue : TimerQueue ε) (now : Nat) : Option (Timer ε × TimerQueue ε) :=
  match h : queue.pending with
  | [] => none
  | timer :: rest =>
      if timer.due ≤ now then
        some (timer,
          { pending := rest
            nextNumber := queue.nextNumber
            ordered := (List.pairwise_cons.1 (h ▸ queue.ordered)).2
            fresh := fun t ht => queue.fresh t (h ▸ List.mem_cons_of_mem _ ht) })
      else none

/-- Cancels all timers, and says how many were pending. -/
def clear (queue : TimerQueue ε) : Nat × TimerQueue ε :=
  (queue.size, ⟨[], queue.nextNumber, .nil, fun _ h => absurd h List.not_mem_nil⟩)

end TimerQueue

end LinkState
