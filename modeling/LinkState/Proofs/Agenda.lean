import LinkState.Proofs.Interference

/-!
# The order in which timers fire

Of the pending timers it matters what they are for, when they are due and in which order
they fire, and not which numbers they have.  Scheduling a timer, and giving up those of an
entry, does the same to the order whatever the numbers are, and leaves alone the order of
all timers of another kind.
-/

namespace LinkState

/-- Whether a timer is one of those of the entry of an LSP. -/
def TimerEvent.concerns (id : LspId) : TimerEvent → Bool
  | .expire other | .delete other | .refresh other => other = id
  | .generate _ => false

namespace LevelState

variable {s s' t t' : LevelState} {keep : TimerEvent → Bool}
  {timers timers' : TimerQueue TimerEvent} {id : LspId} {lsp : Lsp} {received : Bool}

/-! ### Agendas -/

/-- What the pending timers of a kind are for, and when they are due, in the order in
which they fire. -/
def agenda (keep : TimerEvent → Bool) (timers : TimerQueue TimerEvent) :
    List (Nat × TimerEvent) :=
  (timers.pending.filter fun timer => keep timer.event).map deadline

theorem agenda_cons {first : Timer TimerEvent} {rest : List (Timer TimerEvent)}
    (hpending : timers.pending = first :: rest) (hkeep : keep first.event = true) :
    ∃ items, agenda keep timers = deadline first :: items := by
  rw [agenda, hpending, List.filter_cons, if_pos hkeep, List.map_cons]
  exact ⟨_, rfl⟩

theorem mem_agenda {item : Nat × TimerEvent} :
    item ∈ agenda keep timers ↔
      ∃ timer ∈ timers.pending, keep timer.event = true ∧ deadline timer = item := by
  simp only [agenda, List.mem_map, List.mem_filter, and_assoc]

/-- Enters a deadline after all that are no later. -/
def enter (item : Nat × TimerEvent) : List (Nat × TimerEvent) → List (Nat × TimerEvent)
  | [] => [item]
  | first :: rest => if first.1 ≤ item.1 then first :: enter item rest else item :: first :: rest

theorem enter_of_earlier {item : Nat × TimerEvent} {items : List (Nat × TimerEvent)}
    (h : ∀ other ∈ items, item.1 < other.1) : enter item items = item :: items := by
  cases items with
  | nil => rfl
  | cons first rest => exact if_neg (Nat.not_le.2 (h first List.mem_cons_self))

/-- A timer takes its place on the agenda of its kind by its deadline, and does not show on any
other. -/
theorem agenda_place (keep : TimerEvent → Bool) (timer : Timer TimerEvent)
    {list : List (Timer TimerEvent)} (hordered : list.Pairwise Timer.Before) :
    ((timer.place list).filter fun timer => keep timer.event).map deadline =
      if keep timer.event then
        enter (deadline timer) ((list.filter fun timer => keep timer.event).map deadline)
      else (list.filter fun timer => keep timer.event).map deadline := by
  induction list with
  | nil => cases hkeep : keep timer.event <;> simp [Timer.place, hkeep, enter]
  | cons first rest ih =>
      obtain ⟨hfirst, hrest⟩ := List.pairwise_cons.1 hordered
      rw [Timer.place]
      split
      · rename_i hle
        have hentered : ∀ items,
            enter (deadline timer) (deadline first :: items) =
              deadline first :: enter (deadline timer) items := fun _ => if_pos hle
        cases hkept : keep first.event <;> cases hkeep : keep timer.event <;>
          simp [hkept, hkeep, ih hrest, hentered]
      · rename_i hlater
        -- The timer comes first, so that it is due before all that are kept.
        have hearlier : ∀ item ∈
            ((first :: rest).filter fun timer => keep timer.event).map deadline,
            (deadline timer).1 < item.1 := by
          intro item hitem
          obtain ⟨other, hother, rfl⟩ := List.mem_map.1 hitem
          have hdue : timer.due < first.due := Nat.not_le.1 hlater
          rcases List.mem_cons.1 (List.mem_filter.1 hother).1 with rfl | hmem
          · exact hdue
          · have hbefore := hfirst other hmem
            show timer.due < other.due
            unfold Timer.Before at hbefore
            omega
        rw [enter_of_earlier hearlier, List.filter_cons]
        split <;> rfl

theorem agenda_schedule (keep : TimerEvent → Bool) (timers : TimerQueue TimerEvent)
    (now span : Nat) (event : TimerEvent) :
    agenda keep (timers.schedule now span event).2 =
      if keep event then enter (now + span, event) (agenda keep timers) else agenda keep timers :=
  agenda_place keep ⟨timers.nextNumber, now + span, event⟩ timers.ordered

theorem agenda_schedule_congr (h : agenda keep timers' = agenda keep timers) (now span : Nat)
    (event : TimerEvent) :
    agenda keep (timers'.schedule now span event).2 =
      agenda keep (timers.schedule now span event).2 := by
  rw [agenda_schedule, agenda_schedule, h]

/-- The timer for an event that is given up is struck off. -/
theorem agenda_release {kept : TimerEvent → Option Handle} (h : timers.Matches kept)
    (keep : TimerEvent → Bool) (event : TimerEvent) :
    agenda keep (timers.release (kept event)) =
      (agenda keep timers).filter fun item => item.2 ≠ event := by
  have hstruck : (timers.release (kept event)).pending =
      timers.pending.filter fun timer => timer.event ≠ event := by
    cases hkept : kept event with
    | none =>
        refine (List.filter_eq_self.2 fun timer hmem => ?_).symm
        refine decide_eq_true fun heq => ?_
        rw [← heq, h.kept_of_mem hmem] at hkept
        cases hkept
    | some handle =>
        refine List.filter_congr fun timer hmem => ?_
        have htimer := h.kept_of_mem hmem
        rw [Bool.eq_iff_iff, bne_iff_ne, decide_eq_true_eq]
        refine not_congr ⟨fun hnumber => ?_, fun heq => ?_⟩
        · exact h.event_eq_of_number_eq htimer hkept hnumber
        · rw [heq, hkept] at htimer
          exact congrArg Handle.number (Option.some.inj htimer).symm
  rw [agenda, hstruck, agenda, List.filter_map, List.filter_filter, List.filter_filter]
  simp only [Function.comp_def, Bool.and_comm]
  rfl

/-- Without the timers of an entry, what is for its LSP is struck off. -/
theorem agenda_timersWithout (h : s.TimersMatch) (keep : TimerEvent → Bool) (id : LspId) :
    agenda keep (s.timersWithout id) =
      (agenda keep s.timers).filter fun item => !item.2.concerns id := by
  have hlife := TimerQueue.Matches.release h (.expire id)
  have hzero := hlife.release (.delete id)
  have hstruck := agenda_release h keep (.expire id)
  have hstruck' := agenda_release hlife keep (.delete id)
  have hstruck'' := agenda_release hzero keep (.refresh id)
  rw [Function.update_of_ne (by simp)] at hstruck'
  rw [Function.update_of_ne (by simp), Function.update_of_ne (by simp),
    Function.update_of_ne (by simp)] at hstruck''
  rw [timersWithout, hstruck'', hstruck', hstruck, List.filter_filter, List.filter_filter]
  refine List.filter_congr fun item _ => ?_
  obtain ⟨due, event⟩ := item
  cases event <;> simp [TimerEvent.concerns]

/-! ### Installing -/

/-- What is started for an LSP depends on the configuration and on the time. -/
theorem agenda_armed_congr (hs : s.TimersMatch) (hs' : s'.TimersMatch) (hnow : s'.now = s.now)
    (hconfig : s'.config = s.config) (h : agenda keep s'.timers = agenda keep s.timers)
    (lsp : Lsp) (received : Bool) :
    agenda keep (s'.armed lsp received).2 = agenda keep (s.armed lsp received).2 := by
  have hwithout : agenda keep (s'.timersWithout lsp.id) = agenda keep (s.timersWithout lsp.id) := by
    rw [agenda_timersWithout hs, agenda_timersWithout hs', h]
  unfold armed arm
  simp only [lifeSeconds, hnow, hconfig]
  split_ifs
  · exact agenda_schedule_congr hwithout _ _ _
  · exact agenda_schedule_congr (agenda_schedule_congr hwithout _ _ _) _ _ _
  · exact agenda_schedule_congr (agenda_schedule_congr hwithout _ _ _) _ _ _
  · exact agenda_schedule_congr hwithout _ _ _
  · exact agenda_schedule_congr hwithout _ _ _

section Apart

variable (hapart : ∀ event, event.concerns id = true → keep event = false)
include hapart

theorem agenda_timersWithout_apart (h : s.TimersMatch) :
    agenda keep (s.timersWithout id) = agenda keep s.timers := by
  rw [agenda_timersWithout h]
  refine List.filter_eq_self.2 fun item hitem => ?_
  obtain ⟨timer, htimer, rfl⟩ := List.mem_map.1 hitem
  have hkept : keep timer.event = true := (List.mem_filter.1 htimer).2
  cases hconcerns : timer.event.concerns id with
  | false => simp [deadline, hconcerns]
  | true => exact absurd (hapart _ hconcerns) (by simp [hkept])

theorem agenda_schedule_apart {event : TimerEvent} (hconcerns : event.concerns id = true)
    (timers : TimerQueue TimerEvent) (now span : Nat) :
    agenda keep (timers.schedule now span event).2 = agenda keep timers := by
  rw [agenda_schedule, hapart event hconcerns]
  rfl

theorem agenda_armed_apart (h : s.TimersMatch) (hid : lsp.id = id) (received : Bool) :
    agenda keep (s.armed lsp received).2 = agenda keep s.timers := by
  have hwithout := agenda_timersWithout_apart hapart h
  subst hid
  have hconcerns : ∀ other : LspId, (TimerEvent.expire other).concerns other = true ∧
      (TimerEvent.delete other).concerns other = true ∧
      (TimerEvent.refresh other).concerns other = true := by simp [TimerEvent.concerns]
  obtain ⟨hexpire, hdelete, hrefresh⟩ := hconcerns lsp.id
  unfold armed arm
  dsimp only
  split_ifs
  · rw [agenda_schedule_apart hapart hdelete, hwithout]
  · rw [agenda_schedule_apart hapart hrefresh, agenda_schedule_apart hapart hexpire, hwithout]
  · rw [agenda_schedule_apart hapart hexpire, hwithout]

theorem Installs.agenda_apart {flooding : Flooding} (hs : s.TimersMatch)
    (h : Installs s lsp received flooding t) (hid : lsp.id = id) :
    agenda keep t.timers = agenda keep s.timers := by
  obtain ⟨counters, history, number, trace, rfl⟩ := h
  exact agenda_armed_apart hapart hs hid received

end Apart

theorem Installs.agenda_congr {flooding flooding' : Flooding} (hs : s.TimersMatch)
    (hs' : s'.TimersMatch) (hnow : s'.now = s.now) (hconfig : s'.config = s.config)
    (hagenda : agenda keep s'.timers = agenda keep s.timers)
    (h : Installs s lsp received flooding t) (h' : Installs s' lsp received flooding' t') :
    agenda keep t'.timers = agenda keep t.timers := by
  obtain ⟨counters, history, number, trace, rfl⟩ := h
  obtain ⟨counters', history', number', trace', rfl⟩ := h'
  exact agenda_armed_congr hs hs' hnow hconfig hagenda lsp received

end LevelState

end LinkState
