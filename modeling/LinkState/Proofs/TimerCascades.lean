import LinkState.Proofs.MirroredTimers

/-!
# No cascade of timers is infinite

Timers that are due are processed until none is due, with those among them that are started
meanwhile.  The potential of the level says how many these can be: every timer that fires
uses up some of it.  So the processing comes to an end in one state, whatever bound is put on
it, and there is no infinite sequence of timers each of which is due at the same time.
-/

namespace LinkState.LevelState

variable {heard : Lsp → Prop} {s t u : LevelState}

/-- What the timers come to in the end is determined. -/
theorem Drains.unique (ht : Drains s t) (hu : Drains s u) : t = u := by
  induction ht with
  | done idle =>
      cases hu with
      | done => rfl
      | fire next => cases idle.symm.trans next
  | fire next _ ih =>
      cases hu with
      | done idle => cases idle.symm.trans next
      | fire next' rest' =>
          obtain rfl := Option.some.inj (next.symm.trans next')
          exact ih rest'

theorem fireUpTo_idle (h : s.fireNext? = none) (fuel : Nat) : fireUpTo fuel s = (0, s) := by
  cases fuel with
  | zero => rfl
  | succ fuel => rw [fireUpTo, h]

/-- A bound that is not used up does not matter. -/
theorem fireUpTo_of_le {fuel more : Nat} (hidle : (fireUpTo fuel s).2.fireNext? = none)
    (hmore : (fireUpTo fuel s).1 ≤ more) : fireUpTo more s = fireUpTo fuel s := by
  induction fuel generalizing s more with
  | zero =>
      have hnext : s.fireNext? = none := hidle
      rw [fireUpTo_idle hnext, fireUpTo_idle hnext]
  | succ fuel ih =>
      cases hnext : s.fireNext? with
      | none => rw [fireUpTo_idle hnext, fireUpTo_idle hnext]
      | some t =>
          rw [fireUpTo, hnext] at hidle hmore ⊢
          cases more with
          | zero => cases hmore
          | succ more =>
              rw [fireUpTo, hnext]
              dsimp only
              rw [ih hidle (Nat.le_of_succ_le_succ hmore)]

/-- Every timer that is processed uses up some of the potential. -/
theorem fireUpTo_potential (h : Sound heard s) (hlifetime : s.config.lifetime ≠ 1) (fuel : Nat) :
    (fireUpTo fuel s).1 + (fireUpTo fuel s).2.potential ≤ s.potential := by
  induction fuel generalizing s with
  | zero => exact Nat.le_of_eq (Nat.zero_add _)
  | succ fuel ih =>
      rw [fireUpTo]
      cases hnext : s.fireNext? with
      | none => exact Nat.le_of_eq (Nat.zero_add _)
      | some t =>
          have hless := fireNext_potential h hlifetime hnext
          have hsteps := fireNext_steps h hnext
          have hconfig : t.config = s.config := (Steps.constant hsteps).2.1
          have hrest := ih (h.steps hsteps) (hconfig ▸ hlifetime)
          dsimp only
          omega

/-- As long as one timer fires after the other, the potential falls. -/
theorem cascade_potential (h : Sound heard s) (hlifetime : s.config.lifetime ≠ 1)
    {cascade : Nat → LevelState} (hstart : cascade 0 = s)
    (hfires : ∀ n, (cascade n).fireNext? = some (cascade (n + 1))) (n : Nat) :
    Sound heard (cascade n) ∧ (cascade n).config = s.config ∧
      n + (cascade n).potential ≤ s.potential := by
  induction n with
  | zero =>
      rw [hstart]
      exact ⟨h, rfl, Nat.le_of_eq (Nat.zero_add _)⟩
  | succ n ih =>
      obtain ⟨hsound, hconfig, hpotential⟩ := ih
      have hless := fireNext_potential hsound (hconfig.symm ▸ hlifetime) (hfires n)
      have hsteps := fireNext_steps hsound (hfires n)
      exact ⟨hsound.steps hsteps, (Steps.constant hsteps).2.1.trans hconfig, by omega⟩

variable {level : Level} {config : Config} {now : Nat}

/-- Processing timers comes to an end.  In every reachable state of a level whose own LSPs do
not live for just one second, however short all other spans are, no timer is due any more once
the timers that are due are processed, those included that are started meanwhile and are due
at once.  A greater bound on their number changes nothing, they are no more than the potential
of the state says, the final state is the only one to which they lead, and no infinite sequence
of timers fires. -/
theorem timers_drain (h : Reachable Proper level config now s) (hlifetime : config.lifetime ≠ 1) :
    (∀ timer ∈ s.fireDue.2.timers.pending, s.now < timer.due) ∧ s.fireDue.2.now = s.now ∧
    (∀ most, s.fireDue.1 ≤ most → fireUpTo most s = s.fireDue) ∧
    s.fireDue.1 + s.fireDue.2.potential ≤ s.potential ∧
    (∀ t, Drains s t ↔ t = s.fireDue.2) ∧
    ∀ cascade : Nat → LevelState, cascade 0 = s →
      ∃ n, (cascade n).fireNext? ≠ some (cascade (n + 1)) := by
  have hlives : s.config.lifetime ≠ 1 := by rwa [h.constant.2.1]
  have hdrains := fireDue_drains h.sound hlives
  have hnow : s.fireDue.2.now = s.now := fireUpTo_now h.sound _
  have hidle : s.fireDue.2.fireNext? = none :=
    fireUpTo_drains h.sound hlives (potential_le_fireBound h.consistent)
  refine ⟨?_, hnow, fun most => fireUpTo_of_le hidle, fireUpTo_potential h.sound hlives _,
    fun t => ?_, fun cascade hstart => ?_⟩
  · rw [← hnow]
    exact not_due_of_fireNext hidle
  · constructor
    · exact fun hother => hother.unique hdrains
    · rintro rfl
      exact hdrains
  · by_contra hinfinite
    have hfires : ∀ n, (cascade n).fireNext? = some (cascade (n + 1)) := by
      simpa using hinfinite
    obtain ⟨-, -, hbound⟩ := cascade_potential h.sound hlives hstart hfires (s.potential + 1)
    omega

/-- A level on which only LSPs take time, with the last instance of its LSP at the time when
that has to be refreshed. -/
def exhausted : LevelState :=
  let config := { Config.default with
    zeroAge := 0, generationDelay := 0, generationInterval := 0, placeholderLifetime := 0 }
  (((start .one config 0).perform (.fire 1)).perform
    (.receiveLsp none (Lsp.make 0 .one 1200 LspId.first 0xFFFFFFFE .none .empty))).perform
      (.advance 900000)

theorem exhausted_reachable :
    Reachable Proper .one
      { Config.default with
        zeroAge := 0, generationDelay := 0, generationInterval := 0, placeholderLifetime := 0 }
      0 exhausted := by
  rw [exhausted]
  apply Reachable.perform _ trivial
  apply Reachable.perform _ trivial
  apply Reachable.perform _ trivial
  exact Reachable.start

/-- The refresh sets off a purge, which is deleted at once, and with that a generation. -/
theorem timers_drain_exhausted :
    (exhausted.database.get? LspId.first).map (·.lsp.seqno) = some 0xFFFFFFFF ∧
      exhausted.fireDue.1 = 3 ∧
      (exhausted.fireDue.2.database.get? LspId.first).map (·.lsp.seqno) = some 1 ∧
      ∀ timer ∈ exhausted.fireDue.2.timers.pending, exhausted.now < timer.due := by
  have hidle : (fireUpTo 3 exhausted).2.fireNext? = none := by
    rw [fireNext?, Option.map_eq_none_iff]
    decide +kernel
  have hcount : (fireUpTo 3 exhausted).1 = 3 := by decide +kernel
  have hsame : exhausted.fireDue = fireUpTo 3 exhausted := by
    apply fireUpTo_of_le hidle
    rw [hcount, fireBound]
    omega
  have hlater := (timers_drain exhausted_reachable (by decide)).1
  refine ⟨by decide +kernel, hsame ▸ hcount, ?_, hlater⟩
  rw [hsame]
  decide +kernel

end LinkState.LevelState
