import LinkState.Proofs.Generation
import LinkState.Proofs.Reception

/-!
# The clock

Time passes between the operations of a level and not during them: only to let it
pass moves the clock.  In particular all timers that are processed in one go fire at
the same time.
-/

namespace LinkState.LevelState

variable {heard : Lsp → Prop} {s t : LevelState}

/-- The clock never goes back. -/
theorem Step.now_le (h : Step heard s t) : s.now ≤ t.now := by
  have hinstalls : ∀ {lsp received flooding}, Installs s lsp received flooding t →
      s.now ≤ t.now := by
    rintro lsp received flooding ⟨counters, history, number, trace, rfl⟩
    exact Nat.le_refl _
  have hsame : t.now = s.now → s.now ≤ t.now := fun hnow => Nat.le_of_eq hnow.symm
  cases h with
  | advance span => exact Nat.le_add_right _ _
  | accept => exact hinstalls (s.accept_installs _ _)
  | recordPurge => exact hinstalls (s.recordPurge_installs _ _)
  | acknowledge => exact hsame (by rw [acknowledge_eq])
  | request => exact hsame (Spares.requestUnknown s _ _).now
  | purge reason stored live zeroAge => exact hinstalls (purge_installs reason stored live zeroAge)
  | forcePurge reason => exact hinstalls (s.forcePurge_installs _ reason)
  | originate _ next => exact hinstalls (originate_installs next)
  | remove stored => exact hsame (Spares.remove stored).now
  | scheduleGeneration pseudonode span =>
      exact hsame (Spares.scheduleGeneration (fun _ => False) s pseudonode span).now
  | cancelGeneration pseudonode =>
      obtain ⟨generators, timers, heq⟩ := s.cancelGeneration_eq pseudonode
      exact hsame (by rw [heq])
  | @defer circuit lsp =>
      obtain ⟨deferred, trace, heq⟩ := s.defer_eq circuit lsp
      exact hsame (by rw [heq])
  | _ => exact hsame rfl

theorem Steps.now_le (h : Steps heard s t) : s.now ≤ t.now :=
  h.invariant (fun hle hstep => Nat.le_trans hle hstep.now_le) (Nat.le_refl _)

/-! ### Purging and generating -/

/-- A fold does not move the clock if none of its rounds does. -/
theorem foldl_now {α : Type} {f : LevelState → α → LevelState} {P : LevelState → Prop}
    (hf : ∀ {t item}, P t → P (f t item) ∧ (f t item).now = t.now) (hs : P s)
    (items : List α) : (items.foldl f s).now = s.now := by
  induction items generalizing s with
  | nil => rfl
  | cons item rest ih =>
      obtain ⟨hround, hnow⟩ := @hf s item hs
      exact (ih hround).trans hnow

theorem purge_now (s : LevelState) (id : LspId) (reason : PurgeReason) :
    (s.purge id reason).now = s.now := by
  have hinstall : ∀ (t : LevelState) (lsp : Lsp) (received : Bool),
      (t.installAndFlood lsp received).now = t.now := by
    intro t lsp received
    obtain ⟨counters, history, number, trace, heq⟩ := t.installAndFlood_installs lsp received
    rw [heq]
  rw [purge]
  split
  · rfl
  · split
    · rfl
    · exact hinstall _ _ _

theorem purgeAll_now (s : LevelState) (ids : List LspId) (reason : PurgeReason) :
    (s.purgeAll ids reason).now = s.now :=
  foldl_now (P := fun _ => True) (fun _ => ⟨trivial, purge_now _ _ reason⟩) trivial ids

theorem generate_now (s : LevelState) (pseudonode : UInt8) :
    (s.generate pseudonode).now = s.now := by
  have hrenewed : ((s.build pseudonode).foldl renew s).now = s.now :=
    foldl_now (P := fun _ => True) (fun _ => ⟨trivial, (renew_spares _ _).now⟩) trivial _
  exact (purgeAll_now _ _ _).trans hrenewed

theorem scheduleGeneration_now (s : LevelState) (pseudonode : UInt8) (span : Nat) :
    (s.scheduleGeneration pseudonode span).now = s.now :=
  (Spares.scheduleGeneration (fun _ => False) s pseudonode span).now

theorem removeGenerator_now (s : LevelState) (pseudonode : UInt8) :
    (s.removeGenerator pseudonode).now = s.now := by
  rw [removeGenerator]
  split
  · rfl
  · simp only [cancel_eq]
    exact purgeAll_now _ _ _

/-! ### Timers -/

theorem fireNext_now (h : s.Consistent) (hfire : s.fireNext? = some t) : t.now = s.now := by
  cases fireNext_fired h hfire with
  | expired stored _ _ _ live => exact (Spares.expire h stored live).now
  | deleted stored => exact (Spares.delete stored).now
  | refreshed => exact (Spares.originate _ _).now
  | generated => exact generate_now _ _

theorem fireUpTo_now (h : Sound heard s) (fuel : Nat) : (fireUpTo fuel s).2.now = s.now := by
  induction fuel generalizing s with
  | zero => rfl
  | succ fuel ih =>
      rw [fireUpTo]
      split
      · rfl
      · rename_i next hnext
        exact (ih (h.steps (fireNext_steps h hnext))).trans (fireNext_now h.consistent hnext)

/-! ### Requests -/

theorem now_follows : Follows Consistent fun s t => t.now = s.now where
  refl := fun _ => rfl
  trans := fun h h' => h'.trans h
  kept := fun hs => hs.steps
  consistent := fun hs => hs
  tell := fun _ _ => rfl
  mark := fun _ _ _ => rfl
  take := fun _ _ => rfl
  receive := fun circuit lsp hs => (Spares.receiveFrom hs circuit lsp).now
  review := fun circuit summary hs => (Spares.review hs circuit summary).now

theorem receiveLsp_now (h : s.Consistent) (circuit : Option CircuitId) (lsp : Lsp) :
    (s.receiveLsp circuit lsp).1.now = s.now :=
  now_follows.receiveAnyLsp h (fun lsp => (Spares.originate s lsp).now) circuit lsp

theorem receiveLspOctets_now (h : s.Consistent) (circuit : Option CircuitId) (octets : Octets) :
    (s.receiveLspOctets circuit octets).1.now = s.now :=
  now_follows.receiveAnyLspOctets h (fun lsp => (Spares.originate s lsp).now) circuit octets

theorem addCircuit_now (s : LevelState) (circuit : Circuit) :
    (s.addCircuit circuit).now = s.now :=
  now_follows.addCircuit s circuit

theorem recordElection_now (s : LevelState) (pseudonode : UInt8) (election : Option Election) :
    (s.recordElection pseudonode election).now = s.now := by
  unfold recordElection
  split
  · dsimp only
    split
    · exact scheduleGeneration_now _ pseudonode _
    · exact removeGenerator_now _ pseudonode
  · exact removeGenerator_now _ pseudonode

theorem setElection_now (h : Sound heard s) (pseudonode : UInt8) (election : Option Election) :
    (s.setElection pseudonode election).now = s.now := by
  have htell : Steps heard s (s.tell (.electionChanged pseudonode election)) := tell_steps s rfl
  simp only [setElection]
  split
  · rfl
  · have hrecord := recordElection_steps (h.steps htell) pseudonode election
    have hconsistent := ((h.steps htell).steps hrecord).consistent
    exact (now_follows.resumeAll hconsistent pseudonode).trans
      (recordElection_now _ pseudonode election)

theorem purgeOwn_now (s : LevelState) : s.purgeOwn.now = s.now := by
  have hcancelled : (s.generators.keys.foldl cancelGeneration s).now = s.now := by
    refine foldl_now (P := fun _ => True) (fun {t pseudonode} _ => ⟨trivial, ?_⟩) trivial _
    obtain ⟨generators, timers, heq⟩ := t.cancelGeneration_eq pseudonode
    rw [heq]
  exact (purgeAll_now _ _ _).trans hcancelled

/-- Only to let time pass moves the clock. -/
theorem perform_now (h : Sound heard s) {operation : Operation}
    (hstays : ∀ span, operation ≠ .advance span) : (s.perform operation).now = s.now := by
  cases operation with
  | receiveLsp circuit lsp => exact receiveLsp_now h.consistent circuit lsp
  | receiveLspOctets circuit octets => exact receiveLspOctets_now h.consistent circuit octets
  | receiveSnp circuit snp => exact now_follows.receiveSnp h.consistent circuit snp
  | receiveSnpOctets circuit octets =>
      exact now_follows.receiveSnpOctets h.consistent circuit octets
  | addCircuit circuit => exact addCircuit_now s circuit
  | removeCircuit => rfl
  | setElection pseudonode election => exact setElection_now h pseudonode election
  | setAdvertisement advertised =>
      show (s.setAdvertisement advertised).now = s.now
      rw [setAdvertisement]
      split
      · rfl
      · exact scheduleGeneration_now _ 0 0
  | purgeOwn => exact purgeOwn_now s
  | purgeLsp id =>
      show (s.purgeLsp id).1.now = s.now
      rw [purgeLsp]
      split
      · exact purge_now s id .removed
      · rfl
  | fire most => exact fireUpTo_now h most
  | page index =>
      obtain ⟨pages, trace, heq⟩ := s.page_state_eq index
      show (s.page index).2.now = s.now
      rw [heq]
  | advance span => exact absurd rfl (hstays span)
  | stop => rfl

end LinkState.LevelState
