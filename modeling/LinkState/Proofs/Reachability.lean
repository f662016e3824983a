import LinkState.Proofs.Decomposition

/-!
# The states that a level reaches

A level starts, and then operations are asked of it in any order, while time
passes in between.  The one thing asked of callers is that an LSP which they
purge by name is not purged already.  A run may also be confined to LSPs of a
given kind and to a level that is never stopped.  What every step and the stop
keep holds in all reachable states.
-/

namespace LinkState.LevelState

/-- What may be asked of a level.  To `fire` is to process some of the timers that
are due, in order, and at most as many as given. -/
inductive Operation
  | receiveLsp (circuit : Option CircuitId) (lsp : Lsp)
  | receiveLspOctets (circuit : Option CircuitId) (octets : Octets)
  | receiveSnp (circuit : CircuitId) (snp : Snp)
  | receiveSnpOctets (circuit : CircuitId) (octets : Octets)
  | addCircuit (circuit : Circuit)
  | removeCircuit (circuit : CircuitId)
  | setElection (pseudonode : UInt8) (election : Option Election)
  | setAdvertisement (advertised : Advertisement)
  | purgeOwn
  | purgeLsp (id : LspId)
  | fire (most : Nat)
  | page (index : Nat)
  | advance (span : Nat)
  | stop

/-- The state after an operation, be it done or refused. -/
def perform (s : LevelState) : Operation → LevelState
  | .receiveLsp circuit lsp => (s.receiveLsp circuit lsp).1
  | .receiveLspOctets circuit octets => (s.receiveLspOctets circuit octets).1
  | .receiveSnp circuit snp => (s.receiveSnp circuit snp).1
  | .receiveSnpOctets circuit octets => (s.receiveSnpOctets circuit octets).1
  | .addCircuit circuit => s.addCircuit circuit
  | .removeCircuit circuit => s.removeCircuit circuit
  | .setElection pseudonode election => s.setElection pseudonode election
  | .setAdvertisement advertised => s.setAdvertisement advertised
  | .purgeOwn => s.purgeOwn
  | .purgeLsp id => (s.purgeLsp id).1
  | .fire most => (fireUpTo most s).2
  | .page index => (s.page index).2
  | .advance span => s.advance span
  | .stop => s.stop

/-- What is left to the callers: an LSP that they purge is not purged already. -/
def Proper (s : LevelState) : Operation → Prop
  | .purgeLsp id => ∀ entry, s.database.get? id = some entry → entry.isPurged = false
  | _ => True

/-- Of which kind an LSP is that an operation hands in from a circuit. -/
def Operation.Hears (heard : Lsp → Prop) : Operation → Prop
  | .receiveLsp (some _) lsp => heard lsp
  | _ => True

/-- What is asked of a level that hears LSPs of one kind only and is never
stopped. -/
structure Running (heard : Lsp → Prop) (s : LevelState) (operation : Operation) : Prop where
  proper : s.Proper operation
  hears : operation.Hears heard
  running : operation ≠ .stop

/-- The states that are reached from the start by operations which the states
before them allow. -/
inductive Reachable (allowed : LevelState → Operation → Prop) (level : Level) (config : Config)
    (now : Nat) : LevelState → Prop
  | start : Reachable allowed level config now (LevelState.start level config now)
  | perform {s : LevelState} {operation : Operation} (h : Reachable allowed level config now s)
      (hallowed : allowed s operation) :
      Reachable allowed level config now (s.perform operation)

variable {allowed : LevelState → Operation → Prop} {heard : Lsp → Prop} {level : Level}
  {config : Config} {now : Nat} {s : LevelState}

theorem receiveLspOctets_steps (h : s.Consistent) (circuit : Option CircuitId) {octets : Octets}
    (hdecoded : ∀ {lsp}, circuit.isSome = true → Pdu.decode s.now octets = .ok (.lsp lsp) →
      heard lsp) :
    Steps heard s (s.receiveLspOctets circuit octets).1 := by
  rw [receiveLspOctets]
  cases hdecode : Pdu.decode s.now octets with
  | error => exact .refl
  | ok pdu =>
      cases circuit with
      | none =>
          cases pdu with
          | lsp lsp => exact receiveLsp_steps h fun hsome => absurd hsome (by simp)
          | snp snp => exact .refl
      | some circuit =>
          have htell : Steps heard s (s.tell (.pduReceived circuit pdu)) := tell_steps s rfl
          apply htell.trans
          cases pdu with
          | lsp lsp => exact receiveLsp_steps (h.tell _) fun hsome => hdecoded hsome hdecode
          | snp snp => exact .refl

theorem receiveSnpOctets_steps (h : Sound heard s) (circuit : CircuitId) (octets : Octets) :
    Steps heard s (s.receiveSnpOctets circuit octets).1 := by
  rw [receiveSnpOctets]
  cases hdecode : Pdu.decode s.now octets with
  | error => exact .refl
  | ok pdu =>
      have htell : Steps heard s (s.tell (.pduReceived circuit pdu)) := tell_steps s rfl
      apply htell.trans
      cases pdu with
      | snp snp => exact receiveSnp_steps (h.steps htell) circuit snp
      | lsp lsp => exact .refl

/-- Every proper operation other than the stop is done by steps. -/
theorem perform_steps (h : Sound heard s) {operation : Operation}
    (hdecoded : ∀ {circuit octets lsp}, operation = .receiveLspOctets (some circuit) octets →
      Pdu.decode s.now octets = .ok (.lsp lsp) → heard lsp)
    (hallowed : s.Running heard operation) : Steps heard s (s.perform operation) := by
  obtain ⟨hproper, hhears, hrunning⟩ := hallowed
  cases operation with
  | receiveLsp circuit lsp =>
      apply receiveLsp_steps h.consistent
      intro hsome
      cases circuit with
      | none => cases hsome
      | some circuit => exact hhears
  | receiveLspOctets circuit octets =>
      apply receiveLspOctets_steps h.consistent circuit
      intro lsp hsome hdecode
      cases circuit with
      | none => cases hsome
      | some circuit => exact hdecoded rfl hdecode
  | receiveSnp circuit snp => exact receiveSnp_steps h circuit snp
  | receiveSnpOctets circuit octets => exact receiveSnpOctets_steps h circuit octets
  | addCircuit circuit => exact addCircuit_steps h circuit
  | removeCircuit circuit => exact .single (.removeCircuit circuit)
  | setElection pseudonode election => exact setElection_steps h pseudonode election
  | setAdvertisement advertised => exact setAdvertisement_steps s advertised
  | purgeOwn => exact purgeOwn_steps h
  | purgeLsp id => exact purgeLsp_steps h.consistent hproper
  | fire most => exact fireUpTo_steps h most
  | page index =>
      obtain ⟨page, built, rfl, heq, -⟩ := s.page_eq index
      show Steps heard s (s.page index).2
      rw [heq]
      exact buildPages_steps _ s
  | advance span => exact .single (.advance span)
  | stop => exact absurd rfl hrunning

theorem start_steps (level : Level) (config : Config) (now : Nat) :
    Steps heard (blank level config now) (start level config now) :=
  .single (.scheduleGeneration 0 _)

theorem Sound.blank (level : Level) (config : Config) (now : Nat) :
    Sound heard (blank level config now) where
  consistent := .start level config now
  deferred := by simp [LevelState.blank]

theorem Sound.stop (s : LevelState) : Sound heard s.stop where
  consistent := .stop s
  deferred := by simp [LevelState.stop]

/-- What holds before anything has happened, and is kept by every step from a
sound state and by the stop, holds in every state that is reached by operations
which are done by steps. -/
theorem Reachable.steps_invariant
    (hperform : ∀ {s operation}, Sound heard s → allowed s operation →
      Steps heard s (s.perform operation) ∨ operation = .stop)
    {P : LevelState → Prop} (hblank : P (blank level config now))
    (hstep : ∀ {s t}, Sound heard s → P s → Step heard s t → P t)
    (hstop : ∀ {s}, allowed s .stop → P s → P s.stop)
    (h : Reachable allowed level config now s) : Sound heard s ∧ P s := by
  have hsteps : ∀ {s t}, Sound heard s ∧ P s → Steps heard s t → Sound heard t ∧ P t :=
    fun hs hst => hst.invariant (P := fun s => Sound heard s ∧ P s)
      (fun hs ht => ⟨hs.1.step ht, hstep hs.1 hs.2 ht⟩) hs
  induction h with
  | start => exact hsteps ⟨.blank level config now, hblank⟩ (start_steps level config now)
  | perform _ hperformed ih =>
      rcases hperform ih.1 hperformed with hperforms | rfl
      · exact hsteps ih hperforms
      · exact ⟨.stop _, hstop hperformed ih.2⟩

/-- The same for runs that hear whatever can be decoded. -/
theorem Reachable.invariant
    (hdecoded : ∀ {now octets lsp}, Pdu.decode now octets = .ok (.lsp lsp) → heard lsp)
    (hallowed : ∀ {s operation}, allowed s operation →
      s.Running heard operation ∨ operation = .stop)
    {P : LevelState → Prop} (hblank : P (blank level config now))
    (hstep : ∀ {s t}, Sound heard s → P s → Step heard s t → P t)
    (hstop : ∀ {s}, allowed s .stop → P s → P s.stop)
    (h : Reachable allowed level config now s) : Sound heard s ∧ P s :=
  h.steps_invariant (fun hs hperformed =>
    (hallowed hperformed).imp_left (perform_steps hs fun _ => hdecoded)) hblank hstep hstop

/-- What is reached by fewer operations is reached by more. -/
theorem Reachable.mono {more : LevelState → Operation → Prop}
    (hmore : ∀ {s operation}, allowed s operation → more s operation)
    (h : Reachable allowed level config now s) : Reachable more level config now s := by
  induction h with
  | start => exact .start
  | perform _ hallowed ih => exact ih.perform (hmore hallowed)

/-- A run of proper operations hears LSPs of any kind. -/
theorem Proper.running {operation : Operation} (h : s.Proper operation) :
    s.Running (fun _ => True) operation ∨ operation = .stop := by
  by_cases hstop : operation = .stop
  · exact .inr hstop
  · refine .inl ⟨h, ?_, hstop⟩
    cases operation with
    | receiveLsp circuit lsp => cases circuit <;> trivial
    | _ => trivial

theorem Reachable.sound (h : Reachable Proper level config now s) : Sound (fun _ => True) s :=
  (h.invariant (P := fun _ => True) (fun _ => trivial) Proper.running trivial
    (fun _ _ _ => trivial) fun _ _ => trivial).1

theorem Reachable.consistent (h : Reachable Proper level config now s) : s.Consistent :=
  h.sound.consistent

/-- The level and its configuration stay as they were given, and no check
fails. -/
theorem Reachable.constant (h : Reachable Proper level config now s) :
    s.level = level ∧ s.config = config ∧ s.fault = none := by
  refine (h.invariant (fun _ => trivial) Proper.running
    (P := fun s => s.level = level ∧ s.config = config ∧ s.fault = none) ⟨rfl, rfl, rfl⟩
    (fun _ hs hstep => ?_) fun _ hs => hs).2
  obtain ⟨hlevel, hconfig, hfault⟩ := hstep.constant
  exact ⟨hlevel.trans hs.1, hconfig.trans hs.2.1, hfault.trans hs.2.2⟩

/-- A level with room for one summary in a page that has originated two fragments
and was asked for the first page. -/
def originated : LevelState :=
  let config := { Config.default with mtu := 51 }
  let fragment : UInt8 → Lsp := fun number =>
    Lsp.make 0 .one 1200 ⟨SystemId.zero, 0, number⟩ 7 .none .empty
  (((start .one config 0).perform (.receiveLsp none (fragment 0))).perform
    (.receiveLsp none (fragment 1))).perform (.page 0)

theorem originated_reachable :
    Reachable Proper .one { Config.default with mtu := 51 } 0 originated := by
  rw [originated]
  refine Reachable.perform ?_ trivial
  refine Reachable.perform ?_ trivial
  exact Reachable.perform Reachable.start trivial

end LinkState.LevelState
