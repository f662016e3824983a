import LinkState.LevelState.Requests
import LinkState.Proofs.Installing

/-!
# What the operations of a level change

Receiving, purging, originating and asking for an LSP each come down to one
installation, with flooding flags set and cleared around it.  The lemmas say
which LSP is installed and which flags are set in the end.  The other operations
leave the database and the pages as they are.
-/

namespace LinkState.LevelState

variable {s : LevelState}

/-- The flags once a newer LSP was received on a circuit. -/
def acceptedFlags (s : LevelState) (circuit : CircuitId) (lsp : Lsp) : Flooding :=
  let others := s.flooding.clear .srm lsp.id circuit
  flooded
    (if s.isPointToPoint circuit then others.set .ssn (s.summaryOf lsp) circuit
    else others.clear .ssn lsp.id circuit)
    (s.summaryOf lsp) (some circuit)

/-- The flags once an LSP is acknowledged on a circuit. -/
def acknowledgedFlags (s : LevelState) (circuit : CircuitId) (lsp : Lsp) : Flooding :=
  if s.isPointToPoint circuit then s.flooding.set .ssn (s.summaryOf lsp) circuit else s.flooding

def placeholder (s : LevelState) (lifetime : UInt16) (id : LspId) : Lsp :=
  Lsp.make s.now s.level lifetime id 0 .none .empty

/-- The purge of an own LSP whose sequence number is not less than that of the
given copy. -/
def forcedPurge (s : LevelState) (lsp : Lsp) : Lsp :=
  Lsp.make s.now s.level 0 lsp.id (max (s.storedSeqno lsp.id) lsp.seqno) lsp.flags
    (.purge s.purgeOriginator none)

def freshInstance (s : LevelState) (lsp : Lsp) (seqno : UInt32) : Lsp :=
  Lsp.make s.now s.level s.config.lifetime lsp.id seqno lsp.flags lsp.tlvs

theorem acknowledge_eq (s : LevelState) (circuit : CircuitId) (lsp : Lsp) :
    s.acknowledge circuit lsp = { s with flooding := s.acknowledgedFlags circuit lsp } := by
  unfold acknowledge acknowledgedFlags
  split <;> rfl

theorem completed_id (s : LevelState) (lsp : Lsp) : (s.completed lsp).id = lsp.id := by
  rw [completed]
  split <;> rfl

theorem completed_seqno (s : LevelState) (lsp : Lsp) : (s.completed lsp).seqno = lsp.seqno := by
  rw [completed]
  split <;> rfl

theorem completed_isExpired (s : LevelState) (lsp : Lsp) :
    (s.completed lsp).isExpired = lsp.isExpired := by
  rw [completed]
  split <;> rfl

theorem completed_of_live {lsp : Lsp} (h : lsp.isExpired = false) : s.completed lsp = lsp := by
  rw [completed, h]
  rfl

/-- A newer LSP is installed as it is completed, with the flags of a reception. -/
theorem accept_installs (s : LevelState) (circuit : CircuitId) (lsp : Lsp) :
    Installs s (s.completed lsp) true (s.acceptedFlags circuit (s.completed lsp))
      (s.accept circuit lsp) := by
  obtain ⟨trace, history, number, heq⟩ := s.install_eq (s.completed lsp) true
  refine ⟨s.counters, history, number, trace, ?_⟩
  have hkind : ((s.install (s.completed lsp) true).clearFlag .srm (s.completed lsp).id
      circuit).isPointToPoint circuit = s.isPointToPoint circuit := by
    rw [heq]
    rfl
  simp only [accept, acceptedFlags, acknowledge, hkind]
  rw [heq]
  cases s.isPointToPoint circuit <;> rfl

theorem recordPurge_installs (s : LevelState) (circuit : CircuitId) (lsp : Lsp) :
    Installs s (s.placeholder 0 lsp.id) true (s.acknowledgedFlags circuit lsp)
      (s.recordPurge circuit lsp) := by
  obtain ⟨trace, history, number, heq⟩ := s.install_eq (s.placeholder 0 lsp.id) true
  refine ⟨s.counters, history, number, trace, ?_⟩
  show (s.install (s.placeholder 0 lsp.id) true).acknowledge circuit lsp = _
  rw [acknowledge_eq, heq]
  rfl

/-- A placeholder for the unknown LSP is installed and marked, so that the LSP is asked for. -/
theorem requestUnknown_installs (s : LevelState) (circuit : CircuitId) {summary : LspSummary}
    (h : summary.lifetime ≠ 0 ∧ summary.checksum ≠ 0 ∧ summary.seqno ≠ 0) :
    Installs s (s.placeholder summary.lifetime summary.id) true
      (s.flooding.set .ssn (s.summaryOf (s.placeholder summary.lifetime summary.id)) circuit)
      (s.requestUnknown circuit summary) := by
  obtain ⟨trace, history, number, heq⟩ :=
    s.install_eq (s.placeholder summary.lifetime summary.id) true
  refine ⟨s.counters, history, number, trace, ?_⟩
  rw [requestUnknown, if_pos h]
  show (s.install (s.placeholder summary.lifetime summary.id) true).setFlag _ _ _ = _
  rw [heq]
  rfl

theorem settleSent_database (s : LevelState) (circuit : CircuitId) (id : LspId) :
    (s.settleSent circuit id).database = s.database := by
  rw [settleSent]
  split <;> rfl

/-- An entry that is not purged, and has no zero age timer, is purged without
any check failing. -/
theorem purge_live {id : LspId} {entry : Entry} (reason : PurgeReason)
    (hstored : s.database.get? id = some entry) (hlive : entry.isPurged = false)
    (hzero : entry.zeroAgeTimer = none) :
    s.purge id reason =
      (s.tell (.lspPurged s.level entry.lsp.mention reason)).installAndFlood
        (s.purgeOf entry.lsp) entry.received := by
  simp only [purge, hstored, hlive, hzero, Option.isSome_none, Bool.or_self, Bool.false_eq_true,
    if_false]
  rfl

theorem purge_installs {id : LspId} {entry : Entry} (reason : PurgeReason)
    (hstored : s.database.get? id = some entry) (hlive : entry.isPurged = false)
    (hzero : entry.zeroAgeTimer = none) :
    Installs s (s.purgeOf entry.lsp) entry.received
      (flooded s.flooding (s.summaryOf (s.purgeOf entry.lsp)) none) (s.purge id reason) := by
  rw [purge_live reason hstored hlive hzero]
  exact installAndFlood_installs _ _ _

theorem forcePurge_installs (s : LevelState) (lsp : Lsp) (reason : PurgeReason) :
    Installs s (s.forcedPurge lsp) false
      (flooded s.flooding (s.summaryOf (s.forcedPurge lsp)) none) (s.forcePurge lsp reason) :=
  installAndFlood_installs (s.tell (.lspPurged s.level (s.forcedPurge lsp).mention reason)) _ _

/-- The sequence number after another does not wrap around. -/
theorem toNat_nextSeqno {seqno next : UInt32} (h : nextSeqno? seqno = some next) :
    next.toNat = seqno.toNat + 1 := by
  rw [nextSeqno?] at h
  split at h
  · cases h
  · rename_i hlast
    obtain rfl := Option.some.inj h
    have hne : seqno.toNat ≠ 0xFFFFFFFF := fun heq => hlast (UInt32.toNat_inj.1 heq)
    have hlt := seqno.toNat_lt
    rw [UInt32.toNat_add]
    exact Nat.mod_eq_of_lt (by simp; omega)

theorem originate_installs {lsp : Lsp} {seqno : UInt32}
    (h : nextSeqno? (max lsp.seqno (s.storedSeqno lsp.id)) = some seqno) :
    Installs s (s.freshInstance lsp seqno) false
      (flooded s.flooding (s.summaryOf (s.freshInstance lsp seqno)) none) (s.originate lsp) := by
  have heq : s.originate lsp =
      (s.tell (.lspChanged .originated s.level (s.freshInstance lsp seqno).mention)).installAndFlood
        (s.freshInstance lsp seqno) false := by
    rw [originate, h]
    rfl
  rw [heq]
  exact installAndFlood_installs _ _ _

theorem toNat_max (a b : UInt32) : (max a b).toNat = max a.toNat b.toNat := by
  by_cases hle : a ≤ b
  · have hmax : max a b = b := if_pos hle
    rw [hmax, Nat.max_eq_right (UInt32.le_iff_toNat_le.1 hle)]
  · have hmax : max a b = a := if_neg hle
    have hless := Nat.lt_of_not_le (mt UInt32.le_iff_toNat_le.2 hle)
    rw [hmax, Nat.max_eq_left (Nat.le_of_lt hless)]

theorem storedSeqno_of_stored {id : LspId} {entry : Entry} (hstored : s.database.get? id = some entry) :
    s.storedSeqno id = entry.lsp.seqno := by
  simp [storedSeqno, hstored]

/-- A stored copy has the greatest sequence number that is known of it. -/
theorem max_storedSeqno {entry : Entry} (hstored : s.database.get? entry.lsp.id = some entry) :
    max entry.lsp.seqno (s.storedSeqno entry.lsp.id) = entry.lsp.seqno := by
  rw [storedSeqno_of_stored hstored, ← UInt32.toNat_inj, toNat_max, Nat.max_self]

theorem nextSeqno?_eq_none {seqno : UInt32} : nextSeqno? seqno = none ↔ seqno = 0xFFFFFFFF := by
  simp [nextSeqno?]

/-- When the sequence numbers of an LSP are used up, a stored copy that is live is
purged. -/
theorem originate_exhausted {lsp : Lsp}
    (hnext : nextSeqno? (max lsp.seqno (s.storedSeqno lsp.id)) = none) :
    ∃ counters trace, s.originate lsp =
      if ((s.database.get? lsp.id).map fun entry => !entry.isPurged).getD false then
        { s with counters := counters, trace := trace }.forcePurge lsp .maxSeqno
      else { s with counters := counters, trace := trace } := by
  simp only [originate, hnext]
  exact ⟨_, _, rfl⟩

/-! ### Generators and their timers -/

theorem generator_of_kept? {pseudonode : UInt8} {handle : Handle}
    (h : s.kept? (.generate pseudonode) = some handle) :
    ∃ generator, s.generators.get? pseudonode = some generator ∧
      generator.timer = some handle :=
  Option.bind_eq_some_iff.1 h

/-- While a generation is pending, no other is scheduled. -/
theorem scheduleGeneration_pending {pseudonode : UInt8} {handle : Handle} (span : Nat)
    (h : s.kept? (.generate pseudonode) = some handle) :
    s.scheduleGeneration pseudonode span = s := by
  obtain ⟨generator, hstored, htimer⟩ := generator_of_kept? h
  simp only [scheduleGeneration, createGenerator, hstored, htimer, Table.insert_of_get? hstored]

/-- If no run is pending, one is scheduled, for which a generator is created if there is none. -/
theorem scheduleGeneration_idle {pseudonode : UInt8} (span : Nat)
    (h : s.kept? (.generate pseudonode) = none) :
    ∃ trace, s.scheduleGeneration pseudonode span =
      { s with
        generators := s.generators.insert pseudonode
          ⟨some (s.timers.schedule s.now
            (s.generationSpan (s.createGenerator pseudonode).1 span) (.generate pseudonode)).1,
            (s.createGenerator pseudonode).1.lastRun⟩
        timers := (s.timers.schedule s.now
          (s.generationSpan (s.createGenerator pseudonode).1 span) (.generate pseudonode)).2
        trace := trace } := by
  cases hstored : s.generators.get? pseudonode with
  | none =>
      exact ⟨(s.tell (.generatorCreated s.level pseudonode)).trace, by
        simp [scheduleGeneration, createGenerator, hstored, tell, schedule, generationSpan]⟩
  | some generator =>
      have htimer : generator.timer = none := by simpa [kept?, hstored] using h
      exact ⟨s.trace, by simp [scheduleGeneration, createGenerator, hstored, htimer, schedule]⟩

theorem scheduleGeneration_eq (s : LevelState) (pseudonode : UInt8) (span : Nat) :
    ∃ generators timers trace, s.scheduleGeneration pseudonode span =
      { s with generators := generators, timers := timers, trace := trace } := by
  cases hkept : s.kept? (.generate pseudonode) with
  | some handle => exact ⟨_, _, _, scheduleGeneration_pending span hkept⟩
  | none =>
      obtain ⟨trace, heq⟩ := scheduleGeneration_idle span hkept
      exact ⟨_, _, trace, heq⟩

theorem cancelGeneration_eq (s : LevelState) (pseudonode : UInt8) :
    ∃ generators timers, s.cancelGeneration pseudonode =
      { s with generators := generators, timers := timers } := by
  cases hstored : s.generators.get? pseudonode with
  | none => exact ⟨s.generators, s.timers, by simp only [cancelGeneration, hstored]⟩
  | some generator =>
      simp only [cancelGeneration, hstored, cancel_eq]
      exact ⟨_, _, rfl⟩

theorem defer_eq (s : LevelState) (circuit : CircuitId) (lsp : Lsp) :
    ∃ deferred trace, s.defer circuit lsp =
      { s with deferred := deferred, trace := trace } := by
  simp only [defer]
  split
  · exact ⟨_, _, rfl⟩
  · exact ⟨_, _, rfl⟩

end LinkState.LevelState
