import LinkState.Proofs.Shown

/-!
# What comes of the LSP of another system

An LSP of another system is arbitrated against the stored copy.  If that copy is not
overdue, the verdict decides what is stored afterwards, and for each circuit whether the
LSP is to be sent on it and what is to be acknowledged on it, whatever was marked
before.  Nothing changes for any other LSP.
-/

namespace LinkState.LevelState

variable {s t : LevelState} {id : LspId} {circuit : CircuitId} {lsp : Lsp}

/-! ### The verdicts -/

/-- An LSP is a purge of one of which at most a placeholder is stored. -/
def PurgesUnknown (s : LevelState) (lsp : Lsp) : Prop :=
  lsp.isExpired = true ∧ s.known? lsp.id = none

/-- What is to be acknowledged of an LSP once one more is: on a point-to-point circuit
that one. -/
def acknowledging (s : LevelState) (circuit : CircuitId) (lsp : Lsp) (c : CircuitId) :
    Option LspSummary :=
  if c = circuit ∧ s.isPointToPoint circuit = true then some (s.summaryOf lsp)
  else s.noted lsp.id c

/-- What comes of an LSP of another system, by the verdict on it. -/
structure Arbitrated (circuit : CircuitId) (lsp : Lsp) (s t : LevelState) : Prop where
  recorded : s.PurgesUnknown lsp →
    t.Stores (s.placeholder 0 lsp.id) true ∧
      t.Shows lsp.id (fun _ => false) (s.acknowledging circuit lsp)
  newer : ¬ s.PurgesUnknown lsp → s.recency lsp = .newer →
    t.Stores (s.completed lsp) true ∧
      t.Shows lsp.id (fun c => decide (c ≠ circuit ∧ lsp.seqno ≠ 0)) fun c =>
        if c = circuit ∧ s.isPointToPoint circuit = true then some (s.summaryOf (s.completed lsp))
        else none
  confused : ¬ s.PurgesUnknown lsp → s.recency lsp = .same → ∀ stored,
    s.database.get? lsp.id = some stored →
      isConfused stored lsp.lifetime lsp.checksum = true →
        t.Stores (s.purgeOf stored.lsp) true ∧
          t.Shows lsp.id (fun _ => decide (stored.lsp.seqno ≠ 0)) fun _ => none
  same : ¬ s.PurgesUnknown lsp → s.recency lsp = .same →
    (∀ stored, s.database.get? lsp.id = some stored →
      isConfused stored lsp.lifetime lsp.checksum = false) →
        t.database = s.database ∧
          t.Shows lsp.id (fun _ => false) (s.acknowledging circuit lsp)
  older : ¬ s.PurgesUnknown lsp → s.recency lsp = .older →
    t.database = s.database ∧
      t.Shows lsp.id (fun c => decide (c = circuit)) fun c =>
        if c = circuit then none else s.noted lsp.id c

/-! ### From the verdict to what comes of it -/

/-- No stored copy of an LSP is overdue. -/
def InTime (s : LevelState) (id : LspId) : Prop :=
  ∀ life ∈ s.kept? (.expire id), s.now < life.due

theorem stopLife_inTime (h : s.Consistent) (hintime : s.InTime lsp.id) :
    (s.stopLife lsp).1 = true := by
  cases hstop : (s.stopLife lsp).1 with
  | true => rfl
  | false =>
      obtain ⟨entry, life, hstored, hlife, hdue⟩ := stopLife_overdue h hstop
      have hkept : s.kept? (.expire lsp.id) = some life := by simp [kept?, hstored, hlife]
      exact absurd (hintime life hkept) (Nat.not_lt.2 hdue)

/-- An LSP of another system that passes validation is arbitrated. -/
theorem receiveFrom_foreign (hvalid : lsp.Valid) (hforeign : s.isOwn lsp.id = false)
    (circuit : CircuitId) : s.receiveFrom circuit lsp = s.judge circuit lsp := by
  have hpurge : (lsp.isExpired && !lsp.tlvs.allowedInPurge) = false := by
    cases hexpired : lsp.isExpired with
    | true => simp [hvalid.purge hexpired]
    | false => rfl
  simp [receiveFrom, hforeign, hvalid.intact, hpurge]

theorem judge_recorded (h : s.PurgesUnknown lsp) (circuit : CircuitId) :
    s.judge circuit lsp = s.recordPurge circuit lsp := by
  rw [judge, arbitrate, if_pos (by simp [h.1, h.2])]

section Known

variable (hknown : ¬ s.PurgesUnknown lsp)
include hknown

theorem known_of_expired (hexpired : lsp.isExpired = true) : (s.known? lsp.id).isSome = true :=
  Option.isSome_iff_ne_none.2 fun hnone => hknown ⟨hexpired, hnone⟩

theorem judge_newer (hnewer : s.recency lsp = .newer) (hstop : (s.stopLife lsp).1 = true)
    (circuit : CircuitId) : s.judge circuit lsp = s.accept circuit lsp := by
  simp only [judge, arbitrate_eq _ (known_of_expired hknown), hnewer, hstop, if_true]

theorem judge_same (hsame : s.recency lsp = .same) (circuit : CircuitId) :
    s.judge circuit lsp = s.acceptSame circuit lsp (s.database.get? lsp.id) := by
  rw [judge, arbitrate_eq _ (known_of_expired hknown), hsame]

theorem judge_older (holder : s.recency lsp = .older) {entry : Entry}
    (hstored : s.database.get? lsp.id = some entry) (circuit : CircuitId) :
    s.judge circuit lsp = s.answerOlder circuit entry := by
  rw [judge, arbitrate_eq _ (known_of_expired hknown), holder, hstored]

end Known

/-- Only a copy with a lower sequence number is older. -/
theorem ofFields_eq_older {storedSeqno seqno : UInt32} {storedLifetime lifetime : UInt16} :
    Recency.ofFields storedSeqno storedLifetime seqno lifetime = .older ↔ seqno < storedSeqno := by
  constructor
  · intro holder
    rw [Recency.ofFields] at holder
    split_ifs at holder with hnewer hless
    exact hless
  · intro hless
    have hnot : ¬ storedSeqno < seqno := UInt32.not_lt.2 (UInt32.le_of_lt hless)
    rw [Recency.ofFields, if_neg hnot, if_pos hless]

theorem stored_of_older (h : s.recency lsp = .older) :
    ∃ entry, s.database.get? lsp.id = some entry ∧ lsp.seqno < entry.lsp.seqno := by
  cases hstored : s.database.get? lsp.id with
  | none =>
      rw [recency, hstored] at h
      cases h
  | some entry =>
      rw [recency_of_stored hstored, Recency.ofLsp, Recency.compare] at h
      split at h
      · cases h
      · exact ⟨entry, rfl, ofFields_eq_older.1 h⟩

theorem marks_accept (s : LevelState) (circuit c : CircuitId) (lsp : Lsp) :
    (s.accept circuit lsp).flooding.marks c lsp.id =
      (s.flooding.marks c lsp.id).map fun marks =>
        if c = circuit then ⟨false,
          if s.isPointToPoint circuit then some (s.summaryOf (s.completed lsp)) else none⟩
        else (marks.set .srm (s.summaryOf (s.completed lsp))).clear .ssn := by
  rw [(s.accept_installs circuit lsp).flags, ← s.completed_id lsp]
  exact s.marks_acceptedFlags circuit c (s.completed lsp)

/-- A newer LSP is to be sent on all other circuits, and is to be acknowledged on its own one if
that is a point-to-point circuit. -/
theorem accept_shows (hflagged : s.Flagged) (hsendable : s.Sendable)
    (hnewer : s.recency lsp = .newer) (circuit : CircuitId) :
    (s.accept circuit lsp).Shows lsp.id (fun c => decide (c ≠ circuit ∧ lsp.seqno ≠ 0)) fun c =>
      if c = circuit ∧ s.isPointToPoint circuit = true then some (s.summaryOf (s.completed lsp))
      else none := by
  have hinstalls := s.accept_installs circuit lsp
  have hseqno : (s.summaryOf (s.completed lsp)).seqno = lsp.seqno := s.completed_seqno lsp
  refine (hflagged.shows hinstalls.circuits _ (s.marks_accept circuit · lsp)).congr
    (fun c => ?_) fun c => ?_
  · by_cases hc : c = circuit
    · simp [hc]
    · by_cases hzero : lsp.seqno = 0
      · have hunsent : s.sent lsp.id c = false :=
          hsendable.unsent (fun seqno hstored => by_contra fun hne =>
            seqno_ne_zero_of_newer hnewer hstored hne hzero) c
        simp [hc, Marks.set, Marks.clear, hseqno, hzero, hunsent]
      · simp [hc, Marks.set, Marks.clear, hseqno, hzero]
  · by_cases hc : c = circuit <;> simp [hc, Marks.clear]

theorem acknowledgedFlags_shows (hflagged : s.Flagged) (hcircuits : t.circuits = s.circuits)
    (hflooding : t.flooding = s.acknowledgedFlags circuit lsp) :
    t.Shows lsp.id (s.sent lsp.id) (s.acknowledging circuit lsp) := by
  have hmarks : ∀ c, t.flooding.marks c lsp.id =
      (s.flooding.marks c lsp.id).map fun marks =>
        if c = circuit ∧ s.isPointToPoint circuit = true then
          { marks with ssn := some (s.summaryOf lsp) }
        else marks := fun c => by
    rw [hflooding]
    exact s.marks_acknowledgedFlags circuit c lsp
  refine (hflagged.shows hcircuits _ hmarks).congr (fun c => ?_) fun c => ?_
  · split <;> rfl
  · rw [acknowledging]
    split <;> rfl

theorem recordPurge_shows (hflagged : s.Flagged) (hsendable : s.Sendable)
    (hunknown : s.known? lsp.id = none) (circuit : CircuitId) :
    (s.recordPurge circuit lsp).Shows lsp.id (fun _ => false) (s.acknowledging circuit lsp) := by
  have hinstalls := s.recordPurge_installs circuit lsp
  have hzero : ∀ seqno, s.seqno? lsp.id = some seqno → seqno = 0 := by
    intro seqno hstored
    obtain ⟨entry, hentry, rfl⟩ := Option.map_eq_some_iff.1 hstored
    simpa [known?, hentry, Entry.isPlaceholder] using hunknown
  exact (acknowledgedFlags_shows hflagged hinstalls.circuits hinstalls.flags).congr
    (hsendable.unsent hzero) fun _ => rfl

/-- A received copy that is confused with another is purged. -/
theorem resolveConfusion_installs (h : s.Consistent) {stored : Entry}
    (hstored : s.database.get? id = some stored) (hlive : stored.isPurged = false)
    (hreceived : stored.received = true) :
    Installs s (s.purgeOf stored.lsp) true
      (flooded s.flooding (s.summaryOf (s.purgeOf stored.lsp)) none) (s.resolveConfusion id) := by
  have hpurge := purge_installs (s := s.tell (.lspChanged .confused s.level stored.lsp.mention))
    .confusion hstored hlive (zeroAgeTimer_of_live h hstored hlive)
  rw [hreceived] at hpurge
  have heq : s.resolveConfusion id =
      (s.tell (.lspChanged .confused s.level stored.lsp.mention)).purge id .confusion := by
    simp only [resolveConfusion, hstored, hreceived, if_true]
  rw [heq]
  exact hpurge

theorem live_of_confused {stored : Entry} {lifetime checksum : UInt16}
    (h : isConfused stored lifetime checksum = true) : stored.isPurged = false := by
  simp only [isConfused, Bool.and_eq_true, Bool.not_eq_true'] at h
  exact h.1.1

theorem acceptSame_confused {stored : Entry} (hstored : s.database.get? lsp.id = some stored)
    (hconfused : isConfused stored lsp.lifetime lsp.checksum = true) (circuit : CircuitId) :
    s.acceptSame circuit lsp (s.database.get? lsp.id) = s.resolveConfusion lsp.id := by
  rw [acceptSame, hstored]
  exact if_pos hconfused

theorem acceptSame_clear (hclear : ∀ stored, s.database.get? lsp.id = some stored →
      isConfused stored lsp.lifetime lsp.checksum = false) (circuit : CircuitId) :
    s.acceptSame circuit lsp (s.database.get? lsp.id) =
      (s.clearFlags .srm lsp.id none).acknowledge circuit lsp := by
  rw [acceptSame]
  apply if_neg
  cases hstored : s.database.get? lsp.id with
  | none => simp
  | some stored => simp [hclear stored hstored]

/-- The same LSP is not sent any more, and is to be acknowledged on a point-to-point circuit. -/
theorem acceptSame_shows (hflagged : s.Flagged)
    (hclear : ∀ stored, s.database.get? lsp.id = some stored →
      isConfused stored lsp.lifetime lsp.checksum = false) (circuit : CircuitId) :
    (s.acceptSame circuit lsp (s.database.get? lsp.id)).Shows lsp.id (fun _ => false)
      (s.acknowledging circuit lsp) := by
  have heq := acknowledge_eq (s.clearFlags .srm lsp.id none) circuit lsp
  have hcleared : ∀ c, (s.clearFlags .srm lsp.id none).flooding.marks c lsp.id =
      (s.flooding.marks c lsp.id).map fun marks => marks.clear .srm :=
    fun c => s.flooding.marks_clearAll .srm lsp.id none c
  have hmarks : ∀ c, (s.acceptSame circuit lsp (s.database.get? lsp.id)).flooding.marks c lsp.id =
      (s.flooding.marks c lsp.id).map fun marks =>
        if c = circuit ∧ s.isPointToPoint circuit = true then ⟨false, some (s.summaryOf lsp)⟩
        else marks.clear .srm := by
    intro c
    rw [acceptSame_clear hclear, heq]
    have hacknowledged := marks_acknowledgedFlags (s.clearFlags .srm lsp.id none) circuit c lsp
    rw [hcleared, Option.map_map] at hacknowledged
    exact hacknowledged
  have hcircuits : (s.acceptSame circuit lsp (s.database.get? lsp.id)).circuits = s.circuits := by
    rw [acceptSame_clear hclear, heq]
    rfl
  refine (hflagged.shows hcircuits _ hmarks).congr (fun c => ?_) fun c => ?_
  · split <;> rfl
  · rw [acknowledging]
    split <;> rfl

/-- In answer to an older LSP the stored one is to be sent on its circuit only. -/
theorem answerOlder_shows (h : s.Consistent) (hflagged : s.Flagged) {stored : Entry}
    (hstored : s.database.get? id = some stored) (hseqno : stored.lsp.seqno ≠ 0)
    (circuit : CircuitId) :
    (s.answerOlder circuit stored).Shows id (fun c => decide (c = circuit)) fun c =>
      if c = circuit then none else s.noted id c := by
  obtain rfl := h.keys hstored
  have hsummary : (s.summaryOf stored.lsp).seqno ≠ 0 := hseqno
  have hmarks : ∀ c, (s.answerOlder circuit stored).flooding.marks c stored.lsp.id =
      (s.flooding.marks c stored.lsp.id).map fun marks =>
        if c = circuit then ⟨true, none⟩ else marks.clear .srm := by
    intro c
    have hset := s.flooding.marks_set .srm (s.summaryOf stored.lsp) circuit c
    rw [show (s.summaryOf stored.lsp).id = stored.lsp.id from rfl] at hset
    show (((s.flooding.set .srm (s.summaryOf stored.lsp) circuit).clear .ssn stored.lsp.id
      circuit).clearAll .srm stored.lsp.id (some circuit)).marks c stored.lsp.id = _
    rw [Flooding.marks_clearAll, Flooding.marks_clear, hset, Option.map_map, Option.map_map]
    refine Option.map_congr fun marks _ => ?_
    by_cases hc : c = circuit <;> simp [hc, Marks.set, Marks.clear, hsummary]
  have hcircuits : (s.answerOlder circuit stored).circuits = s.circuits := rfl
  refine (hflagged.shows hcircuits _ hmarks).congr (fun c => ?_) fun c => ?_
  · by_cases hc : c = circuit <;> simp [hc, Marks.clear]
  · by_cases hc : c = circuit <;> simp [hc, Marks.clear]

/-- The verdict of the arbitration decides what is stored and what is marked. -/
theorem judge_arbitrated (h : s.Consistent) (hflagged : s.Flagged) (hsendable : s.Sendable)
    (hforeign : s.isOwn lsp.id = false) (hintime : s.InTime lsp.id) (circuit : CircuitId) :
    Arbitrated circuit lsp s (s.judge circuit lsp) where
  recorded := fun hunknown => by
    rw [judge_recorded hunknown]
    exact ⟨(s.recordPurge_installs circuit lsp).stores,
      recordPurge_shows hflagged hsendable hunknown.2 circuit⟩
  newer := fun hknown hnewer => by
    rw [judge_newer hknown hnewer (stopLife_inTime h hintime)]
    exact ⟨(s.accept_installs circuit lsp).stores, accept_shows hflagged hsendable hnewer circuit⟩
  confused := fun hknown hsame stored hstored hconfused => by
    have hinstalls := resolveConfusion_installs h hstored (live_of_confused hconfused)
      (h.received_of_foreign hstored hforeign)
    have hid : (s.purgeOf stored.lsp).id = lsp.id := h.keys hstored
    rw [judge_same hknown hsame, acceptSame_confused hstored hconfused]
    have hkeeps : ∀ seqno, s.seqno? lsp.id = some seqno → seqno ≠ 0 →
        (s.purgeOf stored.lsp).seqno ≠ 0 := by
      intro seqno hseqno
      rw [seqno?_of_stored hstored] at hseqno
      obtain rfl := Option.some.inj hseqno
      exact fun hne => hne
    have hshows := Installs.superseding_shows hflagged hsendable hinstalls hid hkeeps
    exact ⟨hinstalls.stores, hshows⟩
  same := fun hknown hsame hclear => by
    rw [judge_same hknown hsame]
    refine ⟨?_, acceptSame_shows hflagged hclear circuit⟩
    rw [acceptSame_clear hclear, acknowledge_eq]
    rfl
  older := fun hknown holder => by
    obtain ⟨stored, hstored, hless⟩ := stored_of_older holder
    rw [judge_older hknown holder hstored]
    refine ⟨rfl, answerOlder_shows h hflagged hstored ?_ circuit⟩
    exact UInt32.pos_iff_ne_zero.1 (UInt32.lt_of_le_of_lt UInt32.zero_le hless)

/-- A purge that is stored names this system as its originator if it named none, and if
this is configured. -/
theorem completed_tlvs (s : LevelState) (lsp : Lsp) :
    (s.completed lsp).tlvs =
      if lsp.isExpired = true ∧ lsp.tlvs.purgeOriginator = none ∧
          s.config.purgeOriginator = true then
        { lsp.tlvs with purgeOriginator := some ⟨s.config.system, none⟩ }
      else lsp.tlvs := by
  by_cases hnamed : lsp.isExpired = true ∧ lsp.tlvs.purgeOriginator = none ∧
      s.config.purgeOriginator = true
  · rw [completed, if_pos (by simp [hnamed]), if_pos hnamed, purgeOriginator, if_pos hnamed.2.2]
    rfl
  · rw [completed, if_neg hnamed, if_neg (by simpa [and_assoc] using hnamed)]

variable {level : Level} {config : Config} {now : Nat}

/-- In every state that is reached before a level is stopped, an LSP of another system that
passes validation, and comes from a circuit that is known, is accepted for processing.  Unless
the stored copy of it is overdue, the verdict of the arbitration decides what is stored and what
is marked on all circuits: the purge of an unknown LSP is recorded by a placeholder; a newer LSP
is stored and sent on all other circuits; a copy that is confused with the stored one makes this
a purge that is sent on all circuits; another copy of the stored one is acknowledged, and an
older one is answered by the stored one.  Nothing changes for other LSPs. -/
theorem foreign_reception (h : Reachable (Running fun _ => True) level config now s)
    (hcircuit : s.circuits.contains circuit = true) (hlevel : lsp.level = s.level)
    (hvalid : lsp.Valid) (hforeign : s.isOwn lsp.id = false) (hintime : s.InTime lsp.id) :
    ∃ t, s.receiveLsp (some circuit) lsp = (t, none) ∧ Arbitrated circuit lsp s t ∧
      ((s.completed lsp).tlvs =
        if lsp.isExpired = true ∧ lsp.tlvs.purgeOriginator = none ∧
            s.config.purgeOriginator = true then
          { lsp.tlvs with purgeOriginator := some ⟨s.config.system, none⟩ }
        else lsp.tlvs) ∧
      t.circuits = s.circuits ∧ ∀ id, id ≠ lsp.id → t.view id = s.view id := by
  have hproper : Reachable Proper level config now s := h.mono fun hallowed => hallowed.proper
  have hconsistent := hproper.consistent
  have hspares := Spares.receiveFrom hconsistent circuit lsp
  refine ⟨s.receiveFrom circuit lsp, receiveLsp_registered hcircuit hlevel, ?_,
    s.completed_tlvs lsp, hspares.circuits, hspares.view⟩
  rw [receiveFrom_foreign hvalid hforeign]
  exact judge_arbitrated hconsistent hproper.flagged h.sendable hforeign hintime circuit

/-- A newer instance of the LSP that is relayed comes from the other circuit, on which it was to
be sent: now it is to be sent on the circuit from which the old instance came. -/
theorem foreign_reception_relaying :
    let newer := Lsp.make 0 .one 900 ⟨⟨1, 0, 0, 0, 0, 0⟩, 0, 0⟩ 9 .none .empty
    relaying.circuits.contains 2 = true ∧ newer.level = relaying.level ∧ newer.Valid ∧
      relaying.isOwn newer.id = false ∧ relaying.InTime newer.id ∧
      relaying.flooding.isSet .srm 2 newer.id = true ∧
      ∃ t, relaying.receiveLsp (some 2) newer = (t, none) ∧ t.Stores newer true ∧
        t.flooding.isSet .srm 1 newer.id = true ∧ t.flooding.isSet .srm 2 newer.id = false ∧
        t.flooding.acknowledgement? 1 newer.id = none ∧
        t.flooding.acknowledgement? 2 newer.id = some (relaying.summaryOf newer) := by
  intro newer
  have hvalid : newer.Valid := ⟨by decide +kernel, by decide +kernel⟩
  have hcircuit : relaying.circuits.contains 2 = true := by decide +kernel
  have hlevel : newer.level = relaying.level := by decide +kernel
  have hforeign : relaying.isOwn newer.id = false := by decide +kernel
  have hintime : relaying.InTime newer.id := by
    unfold InTime
    decide +kernel
  have hreachable : Reachable (Running fun _ => True) .one Config.default 0 relaying :=
    relaying_reachable.mono fun hallowed =>
      hallowed.proper.running.resolve_right hallowed.running
  obtain ⟨t, hreceive, harbitrated, -, hcircuits, -⟩ :=
    foreign_reception hreachable hcircuit hlevel hvalid hforeign hintime
  have hknown : ¬ relaying.PurgesUnknown newer := fun hpurge => absurd hpurge.1 (by decide +kernel)
  obtain ⟨hstores, hshows⟩ := harbitrated.newer hknown (by decide +kernel)
  have hother := hshows 1 (hcircuits ▸ by decide +kernel)
  have hhere := hshows 2 (hcircuits ▸ hcircuit)
  have hcompleted : relaying.completed newer = newer := completed_of_live (by decide +kernel)
  have hpointToPoint : relaying.isPointToPoint 2 = true := by decide +kernel
  rw [hcompleted] at hstores
  rw [hcompleted] at hhere
  exact ⟨hcircuit, hlevel, hvalid, hforeign, hintime, by decide +kernel, t, hreceive, hstores,
    hother.1.trans (by decide +kernel), hhere.1.trans (by decide), hother.2.trans (by decide),
    hhere.2.trans (if_pos ⟨rfl, hpointToPoint⟩)⟩

/-- What was marked for sending when a level is stopped remains marked, so that the purge of an
LSP which is no longer stored can be recorded while the LSP is still to be sent. -/
theorem foreign_reception_stopped :
    let purge := Lsp.make 0 .one 0 ⟨⟨1, 0, 0, 0, 0, 0⟩, 0, 0⟩ 8 .none .empty
    Reachable Proper .one Config.default 0 (relaying.perform .stop) ∧
      (relaying.perform .stop).circuits.contains 1 = true ∧
      purge.level = (relaying.perform .stop).level ∧ purge.Valid ∧
      (relaying.perform .stop).isOwn purge.id = false ∧
      (relaying.perform .stop).InTime purge.id ∧
      (relaying.perform .stop).PurgesUnknown purge ∧
      ∃ t, (relaying.perform .stop).receiveLsp (some 1) purge = (t, none) ∧
        t.flooding.isSet .srm 2 purge.id = true := by
  intro purge
  have hreachable : Reachable Proper .one Config.default 0 relaying :=
    relaying_reachable.mono fun hallowed => hallowed.proper
  have hcircuit : (relaying.perform .stop).circuits.contains 1 = true := by decide +kernel
  have hlevel : purge.level = (relaying.perform .stop).level := by decide +kernel
  have hintime : (relaying.perform .stop).InTime purge.id := by
    unfold InTime
    decide +kernel
  refine ⟨hreachable.perform trivial, hcircuit, hlevel, ⟨by decide +kernel, by decide +kernel⟩,
    by decide +kernel, hintime, ⟨by decide +kernel, by decide +kernel⟩,
    (relaying.perform .stop).receiveFrom 1 purge, receiveLsp_registered hcircuit hlevel,
    by decide +kernel⟩

end LinkState.LevelState
