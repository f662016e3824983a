import LinkState.Proofs.Clock
import LinkState.Proofs.OwnPurge
import LinkState.Proofs.PurgeReasons
import LinkState.Proofs.RefreshOrder

/-!
# Own LSPs do not expire

However late timers are processed, the refresh of a live own LSP comes before the end of
its life, and puts the next instance in its place.  There is one way left in which an own
LSP is purged because its life is over: a purge of it is heard before overdue timers are
processed, and the system is not elected for its pseudonode, so that it leaves the LSP to
the arbitration that any other LSP would be subject to.
-/

namespace LinkState.LevelState

variable {heard : Lsp → Prop} {s t : LevelState} {id : LspId} {lsp : Lsp} {mention : LspMention}
  {allowed : LspMention → PurgeReason → Prop}

/-! ### Timers -/

/-- The life timer of a live own LSP does not fire. -/
theorem Tended.not_popped (h : s.Tended) (hown : s.isOwn id = true) {entry : Entry}
    (hstored : s.database.get? id = some entry) (hlive : entry.isLive = true)
    {timer : Timer TimerEvent} {rest : TimerQueue TimerEvent}
    (hpop : s.timers.pop? s.now = some (timer, rest)) : timer.event ≠ .expire id := by
  intro hevent
  have hconsistent := h.sound.consistent
  obtain ⟨hmem, -⟩ := TimerQueue.pop?_eq_some hconsistent.timers.nodup hpop
  have hkept := hconsistent.timers.kept_of_mem hmem
  rw [hevent, kept?, hstored, Option.bind_some] at hkept
  have hended := h.not_live_of_first hown hstored hkept fun _ hother =>
    TimerQueue.due_le_of_pop? hpop hother
  rw [hlive] at hended
  cases hended

/-- What the refresh of a live own LSP leaves behind: the next instance, which lives for the
whole configured lifetime, or a purge if there is no sequence number left.  It is to be sent
on all circuits. -/
structure Refreshed (s : LevelState) (entry : Entry) (t : LevelState) : Prop where
  next : entry.lsp.seqno ≠ 0xFFFFFFFF →
    t.purges = s.purges ∧ ∃ fresh, t.database.get? entry.lsp.id = some fresh ∧
      fresh.received = false ∧
      fresh.lsp = Lsp.make s.now s.level s.config.lifetime entry.lsp.id (entry.lsp.seqno + 1)
        entry.lsp.flags entry.lsp.tlvs
  last : entry.lsp.seqno = 0xFFFFFFFF →
    ∃ purge, t.database.get? entry.lsp.id = some purge ∧ purge.isPurged = true ∧
      purge.lsp.seqno = 0xFFFFFFFF ∧ t.purges = (purge.lsp.mention, .maxSeqno) :: s.purges
  flooded : ∀ circuit, s.circuits.contains circuit = true →
    t.flooding.isSet .srm circuit entry.lsp.id = true

/-- An LSP that is flooded when it is installed is to be sent on all circuits. -/
theorem Installs.sent {received : Bool} (hflagged : s.Flagged)
    (h : Installs s lsp received (flooded s.flooding (s.summaryOf lsp) none) t)
    (hseqno : lsp.seqno ≠ 0) {circuit : CircuitId} (hcircuit : s.circuits.contains circuit = true) :
    t.flooding.isSet .srm circuit lsp.id = true := by
  refine isSet_of_marks (h.flooded_marks hseqno ?_)
  obtain ⟨counters, history, number, trace, rfl⟩ := h
  rw [← hflagged.circuits circuit] at hcircuit
  rw [Table.contains, get?_flooded, Option.isSome_map]
  exact hcircuit

/-- While there is a greater sequence number, the refresh is the next instance. -/
theorem originate_next (hflagged : s.Flagged) {entry : Entry}
    (hstored : s.database.get? entry.lsp.id = some entry) (hmore : entry.lsp.seqno ≠ 0xFFFFFFFF) :
    Refreshed s entry (s.originate entry.lsp) := by
  have hnext : nextSeqno? (max entry.lsp.seqno (s.storedSeqno entry.lsp.id)) =
      some (entry.lsp.seqno + 1) := by
    rw [max_storedSeqno hstored, nextSeqno?, if_neg hmore]
  have hinstalls := originate_installs hnext
  obtain ⟨fresh, hfresh, hlsp, hreceived⟩ := hinstalls.stored
  have hpurges : (s.originate entry.lsp).purges = s.purges := by
    simp only [originate, hnext, purges_installAndFlood]
    exact purges_silent s rfl
  refine ⟨fun _ => ⟨hpurges, fresh, hfresh, hreceived, hlsp⟩, fun hlast => absurd hlast hmore,
    fun circuit => hinstalls.sent hflagged ?_⟩
  intro hzero
  have hsucc := toNat_nextSeqno hnext
  rw [show entry.lsp.seqno + 1 = 0 from hzero] at hsucc
  cases hsucc

/-- Once the greatest sequence number is used up, the refresh is a purge. -/
theorem originate_last (hflagged : s.Flagged) {entry : Entry}
    (hstored : s.database.get? entry.lsp.id = some entry) (hlive : entry.isLive = true)
    (hlast : entry.lsp.seqno = 0xFFFFFFFF) : Refreshed s entry (s.originate entry.lsp) := by
  have hmax := max_storedSeqno hstored
  set told := (s.count fun c => { c with exhaustedSeqnos := c.exhaustedSeqnos + 1 }).tell
    (.lspChanged .exhausted s.level entry.lsp.mention)
  have heq : s.originate entry.lsp = told.forcePurge entry.lsp .maxSeqno := by
    simp only [originate, hmax, nextSeqno?_eq_none.2 hlast, hstored, Option.map_some,
      (Entry.isLive_iff.1 hlive).1, Bool.not_false, Option.getD_some, if_true]
    rfl
  have hinstalls := told.forcePurge_installs entry.lsp .maxSeqno
  have hseqno : (told.forcedPurge entry.lsp).seqno = 0xFFFFFFFF := by
    rw [storedSeqno_of_stored hstored] at hmax
    rw [← hlast, ← hmax]
    exact congrArg (max · _) (storedSeqno_of_stored hstored)
  rw [heq]
  obtain ⟨purge, hpurge, hlsp, -⟩ := hinstalls.stored
  refine ⟨fun hmore => absurd hlast hmore, fun _ => ⟨purge, hpurge, ?_, hlsp ▸ hseqno, ?_⟩,
    fun circuit => hinstalls.sent ⟨hflagged.circuits⟩ ?_⟩
  · rw [Entry.isPurged, hlsp]
    rfl
  · rw [purges_forcePurge, hlsp]
    exact congrArg _ (purges_silent _ rfl)
  · rw [hseqno]
    decide

theorem Refreshed.of_told {entry : Entry} {event : Event} (h : Refreshed (s.tell event) entry t)
    (silent : event.purge? = none) : Refreshed s entry t where
  next := by
    have hnext := h.next
    rwa [purges_silent s silent] at hnext
  last := by
    have hlast := h.last
    rwa [purges_silent s silent] at hlast
  flooded := h.flooded

/-- A refresh timer that fires belongs to a live own LSP, which is refreshed. -/
theorem refresh_fired (h : s.Tended) (hflagged : s.Flagged) {timer : Timer TimerEvent}
    {rest : TimerQueue TimerEvent} (hpop : s.timers.pop? s.now = some (timer, rest))
    (hevent : timer.event = .refresh id) :
    ∃ entry, s.database.get? id = some entry ∧ s.isOwn id = true ∧ entry.isLive = true ∧
      entry.received = false ∧ Refreshed s entry ({ s with timers := rest }.fire timer) := by
  have hconsistent := h.sound.consistent
  obtain ⟨hmem, -, rfl⟩ := TimerQueue.pop?_eq_some hconsistent.timers.nodup hpop
  obtain ⟨number, due, event⟩ := timer
  obtain rfl : event = .refresh id := hevent
  obtain ⟨entry, hstored, -, hlive, hown, heq⟩ :=
    fire_refresh hconsistent (hconsistent.timers.kept_of_mem hmem)
  obtain ⟨hreceived, -⟩ := h.guarded.made_of_live hstored hown hlive
  refine ⟨entry, hstored, hown, hlive, hreceived, ?_⟩
  rw [heq]
  set told := s.tell (.lspChanged .refreshed s.level entry.lsp.mention)
  have hflagged' : told.Flagged := ⟨hflagged.circuits⟩
  have hstored' : told.database.get? entry.lsp.id = some entry :=
    (hconsistent.keys hstored).symm ▸ hstored
  by_cases hlast : entry.lsp.seqno = 0xFFFFFFFF
  · exact (originate_last hflagged' hstored' hlive hlast).of_told rfl
  · exact (originate_next hflagged' hstored' hlast).of_told rfl

/-! ### Purges of LSPs whose life is over -/

/-- An LSP whose life timer is overdue after some steps was stored before. -/
theorem Steps.stored_of_overdue (hsteps : Steps heard s t) {entry : Entry} {life : Handle}
    (hstored : t.database.get? id = some entry) (hlive : entry.isLive = true)
    (hlife : entry.lifeTimer = some life) (hdue : life.due ≤ s.now) :
    s.database.get? id = some entry := by
  have hkept : s.now ≤ t.now ∧ ∀ id entry, t.database.get? id = some entry → ∀ life,
      entry.isLive = true → entry.lifeTimer = some life → life.due ≤ s.now →
        s.database.get? id = some entry := by
    refine hsteps.invariant (P := fun t => s.now ≤ t.now ∧ ∀ id entry,
      t.database.get? id = some entry → ∀ life, entry.isLive = true →
        entry.lifeTimer = some life → life.due ≤ s.now → s.database.get? id = some entry)
      (fun {t u} ht hstep => ⟨Nat.le_trans ht.1 hstep.now_le, hstep.entries ht.2 ?_⟩)
      ⟨Nat.le_refl _, fun _ _ hstored _ _ _ _ => hstored⟩
    -- The life timer of an LSP that is installed is due later.
    intro lsp received _ life hlive hlife hdue
    obtain ⟨hpurged, hplaceholder⟩ := Entry.isLive_iff.1 hlive
    rw [Entry.isPurged, t.armed_lsp lsp received] at hpurged
    rw [Entry.isPlaceholder, t.armed_lsp lsp received] at hplaceholder
    have hlifetime : lsp.lifetime.toNat ≠ 0 := fun hzero => by
      have hended : lsp.lifetime = 0 := UInt16.toNat_inj.1 hzero
      simp [Lsp.isExpired, hended] at hpurged
    rw [armed_life hlife, lifeSeconds, if_neg (by simpa using hplaceholder), seconds] at hdue
    omega
  exact hkept.2 id entry hstored life hlive hlife hdue

/-- What is overdue after some steps at one time was overdue before. -/
theorem Outlived.earlier (h : t.Outlived lsp mention) (hsteps : Steps heard s t)
    (hsurroundings : t.surroundings = s.surroundings) : s.Outlived lsp mention where
  stored := by
    obtain ⟨entry, hpurge, hmention⟩ := h.stored
    have hnow : t.now = s.now := congrArg Surroundings.now hsurroundings
    obtain ⟨life, hlife, hdue⟩ := hpurge.overdue
    rw [hnow] at hdue
    have hstored := hsteps.stored_of_overdue hpurge.stored
      (Entry.isLive_iff.2 ⟨hpurge.live, hpurge.known⟩) hlife hdue
    exact ⟨entry, ⟨hstored, hpurge.live, hpurge.known, hpurge.expired, hpurge.seqno, life, hlife,
      hdue⟩, hmention⟩
  unelected := fun hown => by
    rw [← supports?_congr hsurroundings]
    exact h.unelected (by rwa [isOwn_congr hsurroundings])

section Lenient

variable (hlenient : Lenient allowed)
include hlenient

/-- The LSPs that were deferred are received one after another. -/
theorem resumeAll_purges (h : s.Orderly) (pseudonode : UInt8)
    (houtlived : ∀ {waiting deferred mention}, s.deferred.get? pseudonode = some waiting →
      deferred ∈ waiting.values → s.Outlived deferred.lsp mention → allowed mention .expired) :
    Purges allowed s (s.resumeAll pseudonode) := by
  rw [resumeAll]
  split
  · exact .refl s
  · rename_i waiting hwaiting
    set taken := { s with deferred := s.deferred.erase pseudonode }
    have htake : Step (fun _ => True) s taken := .takeDeferred pseudonode
    have hround : ∀ {t deferred}, deferred ∈ waiting.values →
        (t.Orderly ∧ Steps (fun _ => True) s t ∧ t.surroundings = s.surroundings) →
        ((t.resume deferred).Orderly ∧ Steps (fun _ => True) s (t.resume deferred) ∧
          (t.resume deferred).surroundings = s.surroundings) ∧
          Purges allowed t (t.resume deferred) := by
      rintro t deferred hmem ⟨horderly, hsteps, hsurroundings⟩
      have hresume : Steps (fun _ => True) t (t.resume deferred) :=
        resume_steps horderly.sound.consistent trivial
      have hstilled := stilled_follows.resume horderly deferred
      refine ⟨⟨horderly.steps hresume, hsteps.trans hresume,
        hstilled.surroundings.trans hsurroundings⟩, ?_⟩
      have hreceived := receiveLsp_purges hlenient horderly.sound.consistent deferred.circuit
        deferred.lsp fun houtlived' =>
          houtlived hwaiting hmem (houtlived'.earlier hsteps hsurroundings)
      rcases tellOutcome_eq (t.receiveLsp (some deferred.circuit) deferred.lsp) with
        heq | ⟨_, heq⟩
      · rw [resume, heq]
        exact hreceived
      · rw [resume, heq]
        exact hreceived.trans (.of_eq (purges_silent _ rfl))
    have hall := Purges.foldl waiting.values
      (Q := fun t => t.Orderly ∧ Steps (fun _ => True) s t ∧ t.surroundings = s.surroundings)
      ⟨h.steps htake.steps, htake.steps, rfl⟩ hround
    exact Purges.trans (.of_eq (purges_congr rfl)) hall

/-- When timers are processed, only LSPs of other systems are found to be at the end of
their lives. -/
theorem fireNext_purges (h : s.Tended)
    (hforeign : ∀ {mention}, s.isOwn mention.id = false → allowed mention .expired)
    (hfire : s.fireNext? = some t) : Purges allowed s t := by
  have hconsistent := h.sound.consistent
  cases fireNext_fired hconsistent hfire with
  | @expired id entry life stored running _ first live =>
      simp only [expire, stored]
      split
      · exact .of_eq (s.purges_delete id)
      · rename_i hknown
        refine .of_told (purges_purge hconsistent .expired stored live) (hforeign ?_)
        have hid : entry.lsp.mention.id = id := hconsistent.keys stored
        rw [hid]
        by_contra hown
        have hended := h.not_live_of_first (by simpa using hown) stored running first
        rw [Entry.isLive_iff.2 ⟨live, by simpa using hknown⟩] at hended
        cases hended
  | @deleted id => exact .of_eq (s.purges_delete id)
  | refreshed =>
      exact Purges.trans (.of_eq (purges_silent s rfl)) (originate_purges hlenient _ _)
  | generated kept due =>
      have hbegin := h.sound.step (.beginGeneration kept due)
      exact Purges.trans (.of_eq (purges_congr rfl)) (generate_purges hlenient hbegin _)

theorem fireUpTo_purges (h : s.Tended)
    (hforeign : ∀ {mention}, s.isOwn mention.id = false → allowed mention .expired)
    (fuel : Nat) : Purges allowed s (fireUpTo fuel s).2 := by
  induction fuel generalizing s with
  | zero => exact .refl s
  | succ fuel ih =>
      rw [fireUpTo]
      split
      · exact .refl s
      · rename_i next hnext
        have hsteps := fireNext_steps h.sound hnext
        refine (fireNext_purges hlenient h hforeign hnext).trans (ih (h.steps hsteps) ?_)
        intro mention hown
        rw [isOwn, hsteps.constant.2.1] at hown
        exact hforeign hown

end Lenient

/-! ### Operations -/

/-- The state in which an operation processes LSPs from the network.  The LSPs that wait for
an election are processed once its outcome is recorded. -/
def hearing (s : LevelState) : Operation → LevelState
  | .setElection pseudonode election =>
      (s.tell (.electionChanged pseudonode election)).recordElection pseudonode election
  | _ => s

/-- The LSPs from the network that an operation processes. -/
def Hears (s : LevelState) (operation : Operation) (lsp : Lsp) : Prop :=
  match operation with
  | .receiveLsp (some _) heard => lsp = heard
  | .receiveLspOctets (some _) octets => Pdu.decode s.now octets = .ok (.lsp lsp)
  | .setElection pseudonode _ =>
      ∃ waiting deferred, (s.hearing operation).deferred.get? pseudonode = some waiting ∧
        deferred ∈ waiting.values ∧ deferred.lsp = lsp
  | _ => False

/-- The purge of an own LSP is heard while this is overdue, in a state in which the system is
not elected for the pseudonode of the LSP. -/
structure PurgedOverdue (s : LevelState) (lsp : Lsp) (mention : LspMention) : Prop where
  id : lsp.id = mention.id
  seqno : lsp.seqno = mention.seqno
  expired : lsp.isExpired = true
  unelected : s.supports? mention.id.pseudonode = some false
  overdue : ∃ entry life, s.database.get? mention.id = some entry ∧ entry.isLive = true ∧
    entry.lifeTimer = some life ∧ life.due ≤ s.now

/-- When an own LSP may be purged because its life is over. -/
def Excused (s : LevelState) (operation : Operation) (mention : LspMention)
    (reason : PurgeReason) : Prop :=
  reason = .expired → s.isOwn mention.id = true →
    ∃ lsp, s.Hears operation lsp ∧ (s.hearing operation).PurgedOverdue lsp mention

theorem excused_lenient (s : LevelState) (operation : Operation) :
    Lenient (s.Excused operation) :=
  fun _ _ hreason hexpired => absurd hexpired hreason

theorem Outlived.purgedOverdue (h : s.Outlived lsp mention) (hconsistent : s.Consistent)
    (hown : s.isOwn mention.id = true) : s.PurgedOverdue lsp mention := by
  obtain ⟨entry, hpurge, rfl⟩ := h.stored
  have hid : entry.lsp.mention.id = lsp.id := hconsistent.keys hpurge.stored
  obtain ⟨life, hlife, hdue⟩ := hpurge.overdue
  rw [hid] at hown
  refine ⟨hid.symm, hpurge.seqno.symm, hpurge.expired, hid ▸ h.unelected hown, entry, life, ?_,
    Entry.isLive_iff.2 ⟨hpurge.live, hpurge.known⟩, hlife, hdue⟩
  rw [hid]
  exact hpurge.stored

theorem receiveOwn_purges (hlenient : Lenient allowed) (s : LevelState) (lsp : Lsp) :
    Purges allowed s (s.receiveLsp none lsp).1 := by
  rcases s.receiveLsp_handedIn lsp with heq | heq
  · rw [heq]
    exact .refl s
  · exact heq ▸ originate_purges hlenient s lsp

theorem receiveOwnOctets_purges (hlenient : Lenient allowed) (s : LevelState) (octets : Octets) :
    Purges allowed s (s.receiveLspOctets none octets).1 := by
  rcases s.receiveLspOctets_handedIn octets with heq | ⟨lsp, heq⟩
  · rw [heq]
    exact .refl s
  · exact heq ▸ originate_purges hlenient s lsp

theorem addCircuit_purges (s : LevelState) (circuit : Circuit) :
    Purges allowed s (s.addCircuit circuit) := by
  have hadded : Purges allowed s { s.tell (.circuitAdded circuit) with
      flooding := s.flooding.addCircuit circuit.id
      circuits := s.circuits.insert circuit.id circuit } := .of_eq (purges_silent s rfl)
  unfold addCircuit
  dsimp only
  split
  · exact hadded.trans (markAll_purges _ circuit.id _)
  · exact hadded

/-- The LSPs that wait for an election are heard in the state in which its outcome is recorded. -/
theorem setElection_purges (h : s.Orderly) (pseudonode : UInt8) (election : Option Election) :
    Purges (s.Excused (.setElection pseudonode election)) s
      (s.setElection pseudonode election) := by
  have htold : Purges (s.Excused (.setElection pseudonode election)) s
      (s.tell (.electionChanged pseudonode election)) := .of_eq (purges_silent s rfl)
  have htell : Steps (fun _ => True) s (s.tell (.electionChanged pseudonode election)) :=
    tell_steps s rfl
  have hlenient := s.excused_lenient (.setElection pseudonode election)
  unfold setElection
  dsimp only
  split
  · exact htold
  · have hsound := (h.steps htell).sound
    have hrecord := recordElection_steps hsound pseudonode election
    have hrecorded := recordElection_purges hlenient hsound.consistent pseudonode election
    refine (htold.trans hrecorded).trans
      (resumeAll_purges hlenient ((h.steps htell).steps hrecord) pseudonode ?_)
    intro waiting deferred mention hwaiting hmem houtlived _ hown
    refine ⟨deferred.lsp, ⟨waiting, deferred, hwaiting, hmem, rfl⟩,
      houtlived.purgedOverdue (hsound.consistent.steps hrecord) ?_⟩
    rwa [isOwn, hrecord.constant.2.1]

theorem purgeOwn_purges (hlenient : Lenient allowed) (h : Sound heard s) :
    Purges allowed s s.purgeOwn := by
  have hcancel : Steps heard s (s.generators.keys.foldl cancelGeneration s) :=
    foldl_steps (fun _ _ _ => .single (.cancelGeneration _)) h
  obtain ⟨generators, timers, heq, hpurge, -⟩ := s.purgeOwn_eq
  have hconsistent := (h.steps hcancel).consistent
  rw [heq] at hconsistent
  rw [hpurge]
  exact Purges.trans (.of_eq (purges_congr rfl))
    (purgeRange_purges hlenient hconsistent _ _ (.refl _))

theorem purgeLsp_purges (hlenient : Lenient allowed) (h : s.Consistent)
    (hlive : ∀ entry, s.database.get? id = some entry → entry.isPurged = false) :
    Purges allowed s (s.purgeLsp id).1 := by
  rw [purgeLsp]
  split
  · rename_i hcontains
    obtain ⟨entry, hstored⟩ := Option.isSome_iff_exists.1 hcontains
    exact purge_purges hlenient h (by decide) hstored (hlive entry hstored)
  · exact .refl s

theorem purges_buildPages (count : Nat) (s : LevelState) :
    (buildPages count s).purges = s.purges := by
  induction count generalizing s with
  | zero => rfl
  | succ count ih =>
      rw [buildPages]
      split
      · rfl
      · rw [ih]
        exact purges_silent _ rfl

/-- No operation purges an LSP at the end of its life where that is not excused. -/
theorem perform_purges (h : s.Tended) {operation : Operation} (hproper : s.Proper operation) :
    Purges (s.Excused operation) s (s.perform operation) := by
  have horderly : s.Orderly := ⟨h.sound, h.guarded⟩
  have hconsistent := h.sound.consistent
  have hlenient := s.excused_lenient operation
  cases operation with
  | receiveLsp circuit lsp =>
      cases circuit with
      | none => exact receiveOwn_purges hlenient s lsp
      | some circuit =>
          exact receiveLsp_purges hlenient hconsistent circuit lsp fun houtlived _ hown =>
            ⟨lsp, rfl, houtlived.purgedOverdue hconsistent hown⟩
  | receiveLspOctets circuit octets =>
      cases circuit with
      | none => exact receiveOwnOctets_purges hlenient s octets
      | some circuit =>
          exact receiveLspOctets_purges hlenient hconsistent circuit
            fun hdecode houtlived _ hown =>
              ⟨_, hdecode, houtlived.purgedOverdue hconsistent hown⟩
  | receiveSnp circuit snp => exact receiveSnp_purges hlenient hconsistent circuit snp
  | receiveSnpOctets circuit octets =>
      exact receiveSnpOctets_purges hlenient hconsistent circuit octets
  | addCircuit circuit => exact addCircuit_purges s circuit
  | removeCircuit circuit => exact .of_eq (purges_silent s rfl)
  | setElection pseudonode election => exact setElection_purges horderly pseudonode election
  | setAdvertisement advertised =>
      show Purges _ s (s.setAdvertisement advertised)
      rw [setAdvertisement]
      split
      · exact .refl s
      · exact .of_eq (purges_scheduleGeneration _ 0 0)
  | purgeOwn => exact purgeOwn_purges hlenient h.sound
  | purgeLsp id => exact purgeLsp_purges hlenient hconsistent hproper
  | fire most =>
      exact fireUpTo_purges hlenient h (fun hforeign _ hown => by simp [hforeign] at hown) most
  | page index =>
      obtain ⟨page, built, hbuilt, heq, -⟩ := s.page_eq index
      show Purges _ s (s.page index).2
      rw [heq, hbuilt]
      exact .of_eq (purges_buildPages _ s)
  | advance span => exact .of_eq rfl
  | stop => exact .of_eq rfl

variable {level : Level} {config : Config} {now : Nat}

/-- In every reachable state both timers of a live own LSP run, and the life timer does not
fire, since the refresh timer is due before.  A refresh timer that fires belongs to such an
LSP, which is replaced by the next instance, or by a purge if there is no sequence number
left.  An own LSP is purged because its life is over only if its purge is heard while it is
overdue, in a state in which the system is not elected for the pseudonode of the LSP. -/
theorem own_lsps_refreshed (h : Reachable Proper level config now s)
    (hlifetime : config.lifetime ≠ 0) :
    (∀ {id entry}, s.isOwn id = true → s.database.get? id = some entry → entry.isLive = true →
      (∃ life refresh, entry.lifeTimer = some life ∧ entry.refreshTimer = some refresh ∧
        refresh.due < life.due) ∧
      ∀ {timer rest}, s.timers.pop? s.now = some (timer, rest) → timer.event ≠ .expire id) ∧
    (∀ {timer rest id}, s.timers.pop? s.now = some (timer, rest) → timer.event = .refresh id →
      ∃ entry, s.database.get? id = some entry ∧ s.isOwn id = true ∧ entry.isLive = true ∧
        entry.received = false ∧ Refreshed s entry ({ s with timers := rest }.fire timer)) ∧
    ∀ {operation}, s.Proper operation →
      Purges (s.Excused operation) s (s.perform operation) := by
  have htended := h.tended hlifetime
  exact ⟨fun hown hstored hlive => ⟨htended.refresh_first hown hstored hlive,
    htended.not_popped hown hstored hlive⟩, refresh_fired htended h.flagged,
    perform_purges htended⟩

/-- An LSP of a pseudonode for which the system is not elected. -/
def handed : Lsp :=
  Lsp.make 0 .one 1200 ⟨SystemId.zero, 5, 0⟩ 6 .none .empty

def handedPurge : Lsp :=
  Lsp.make 0 .one 0 ⟨SystemId.zero, 5, 0⟩ 7 .none .empty

/-- The level originates the LSP.  It processes its timers once, before it hears nothing
until the life of the LSP is over. -/
def overdue : LevelState :=
  ((((attended.perform (.setElection 5 (some ⟨1, false, .empty⟩))).perform
    (.receiveLsp none handed)).perform (.advance 2000)).perform (.fire 1)).perform
      (.advance 1198000)

theorem overdue_reachable : Reachable Proper .one Config.default 0 overdue :=
  .perform (.perform (.perform (.perform (.perform attended_reachable trivial) trivial) trivial)
    trivial) trivial

theorem overdue_live : ∃ entry, overdue.database.get? handed.id = some entry ∧
    entry.isLive = true := by
  have hlive : (overdue.database.get? handed.id).any Entry.isLive = true := by decide +kernel
  obtain ⟨entry, hstored, hentry⟩ := (Option.any_eq_true ..).1 hlive
  exact ⟨entry, hstored, hentry⟩

/-- The next timer to be processed is the one of the refresh. -/
theorem overdue_first : ∃ timer rest, overdue.timers.pop? overdue.now = some (timer, rest) ∧
    timer.event = .refresh handed.id := by
  have hfirst : (overdue.timers.pop? overdue.now).any
      (fun popped => popped.1.event = .refresh handed.id) = true := by decide +kernel
  obtain ⟨⟨timer, rest⟩, hpop, hevent⟩ := (Option.any_eq_true ..).1 hfirst
  exact ⟨timer, rest, hpop, by simpa using hevent⟩

/-- If its timers are processed, the level refreshes the LSP.  If its purge is heard before,
that is excused. -/
theorem own_lsps_refreshed_overdue :
    ∃ entry life refresh, overdue.database.get? handed.id = some entry ∧
      entry.lifeTimer = some life ∧ entry.refreshTimer = some refresh ∧ refresh.due < life.due ∧
      (∃ timer rest, overdue.timers.pop? overdue.now = some (timer, rest) ∧
        timer.event ≠ .expire handed.id ∧
        Refreshed overdue entry ({ overdue with timers := rest }.fire timer)) ∧
      Purges (overdue.Excused (.receiveLsp (some 1) handedPurge)) overdue
        (overdue.perform (.receiveLsp (some 1) handedPurge)) := by
  obtain ⟨htimers, hrefreshed, hpurges⟩ := own_lsps_refreshed overdue_reachable (by decide)
  obtain ⟨entry, hstored, hlive⟩ := overdue_live
  obtain ⟨timer, rest, hpop, hevent⟩ := overdue_first
  obtain ⟨⟨life, refresh, hlife, hrefresh, hdue⟩, hpopped⟩ :=
    htimers (by decide +kernel) hstored hlive
  obtain ⟨refreshed, hstored', -, -, -, hnext⟩ := hrefreshed hpop hevent
  obtain rfl : refreshed = entry := Option.some.inj (hstored'.symm.trans hstored)
  exact ⟨refreshed, life, refresh, hstored, hlife, hrefresh, hdue,
    ⟨timer, rest, hpop, hpopped hpop, hnext⟩, hpurges trivial⟩

/-- If the purge is heard instead, the LSP is purged because its life is over. -/
theorem own_lsp_expires :
    ∃ s operation, Reachable Proper .one Config.default 0 s ∧ s.Proper operation ∧
      s.purges = [] ∧ ∃ mention, s.isOwn mention.id = true ∧
        (s.perform operation).purges = [(mention, .expired)] := by
  refine ⟨overdue, .receiveLsp (some 1) handedPurge, overdue_reachable, trivial,
    by decide +kernel, ⟨handed.id, 7, 27⟩, by decide +kernel, by decide +kernel⟩

end LinkState.LevelState
