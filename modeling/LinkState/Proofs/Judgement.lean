import LinkState.Proofs.Absorption

/-!
# What comes of a received LSP

An LSP that was received is discarded, answered if it is an own one, or
arbitrated against the stored copy.  Each of these comes down to one of a few
changes, listed here with what is known of the LSP and of the stored copy when the
change is made.
-/

namespace LinkState

/-- An LSP passes validation. -/
structure Lsp.Valid (lsp : Lsp) : Prop where
  intact : lsp.checksumValid = true
  purge : lsp.isExpired = true → lsp.tlvs.allowedInPurge = true

namespace LevelState

variable {s t : LevelState} {id : LspId} {circuit : CircuitId} {lsp : Lsp}

theorem zeroAgeTimer_of_live (h : s.Consistent) {entry : Entry}
    (hstored : s.database.get? id = some entry) (hlive : entry.isPurged = false) :
    entry.zeroAgeTimer = none := by
  have hzero := (h.settled hstored).zeroAge
  rw [show entry.lsp.isExpired = false from hlive] at hzero
  simpa using hzero

/-! ### Known copies -/

theorem stored_of_known {entry : Entry} (h : s.known? id = some entry) :
    s.database.get? id = some entry ∧ entry.isPlaceholder = false := by
  obtain ⟨hstored, hknown⟩ := Option.filter_eq_some_iff.1 h
  exact ⟨hstored, by simpa using hknown⟩

theorem known_of_stored {entry : Entry} (hstored : s.database.get? id = some entry)
    (hknown : entry.isPlaceholder = false) : s.known? id = some entry := by
  simp [known?, hstored, Option.filter, hknown]

theorem recency_of_stored {entry : Entry} (h : s.database.get? lsp.id = some entry) :
    s.recency lsp = Recency.ofLsp (some entry.lsp) lsp := by
  rw [recency, h]
  rfl

/-! ### Arbitration -/

/-- What the first arbitration knows when the life timer of the stored copy
cannot be stopped: the received LSP is a purge of that very copy, which is overdue. -/
structure PurgeOfStored (s : LevelState) (lsp : Lsp) (entry : Entry) : Prop where
  stored : s.database.get? lsp.id = some entry
  live : entry.isPurged = false
  known : entry.isPlaceholder = false
  expired : lsp.isExpired = true
  seqno : entry.lsp.seqno = lsp.seqno
  overdue : ∃ life, entry.lifeTimer = some life ∧ life.due ≤ s.now

/-- What arbitration makes of an LSP.  One that is found to be the purge of a
stored copy whose life is over already is treated as the same once that copy is
purged. -/
inductive Judged (s : LevelState) (circuit : CircuitId) (lsp : Lsp) : LevelState → Prop
  | recorded (expired : lsp.isExpired = true) (unknown : s.known? lsp.id = none) :
      Judged s circuit lsp (s.recordPurge circuit lsp)
  | accepted (newer : s.recency lsp = .newer)
      (known : lsp.isExpired = true → (s.known? lsp.id).isSome = true) :
      Judged s circuit lsp (s.accept circuit lsp)
  | outlived {entry : Entry} (purge : s.PurgeOfStored lsp entry) (newer : s.recency lsp = .newer)
      (same : (s.purge lsp.id .expired).recency lsp = .same) :
      Judged s circuit lsp
        ((s.purge lsp.id .expired).acceptSame circuit lsp
          ((s.purge lsp.id .expired).database.get? lsp.id))
  | same (same : s.recency lsp = .same) :
      Judged s circuit lsp (s.acceptSame circuit lsp (s.database.get? lsp.id))
  | older {entry : Entry} (older : s.recency lsp = .older)
      (stored : s.database.get? lsp.id = some entry) :
      Judged s circuit lsp (s.answerOlder circuit entry)

theorem fields_of_newer {storedSeqno seqno : UInt32} {storedLifetime lifetime : UInt16}
    (hnewer : Recency.ofFields storedSeqno storedLifetime seqno lifetime = .newer)
    (hexpired : Recency.ofFields storedSeqno 0 seqno lifetime ≠ .newer) :
    storedSeqno = seqno ∧ lifetime = 0 := by
  rw [Recency.ofFields] at hnewer hexpired
  split_ifs at hnewer hexpired with hless hgreater hlifetimes
  all_goals simp_all
  exact UInt32.le_antisymm hgreater hless

theorem ofFields_of_newer {stored lsp : Lsp} (h : Recency.ofLsp (some stored) lsp = .newer) :
    Recency.ofFields stored.seqno stored.lifetime lsp.seqno lsp.lifetime = .newer := by
  unfold Recency.ofLsp Recency.compare at h
  dsimp only at h
  split at h
  · cases h
  · exact h

theorem expire_known {entry : Entry} (hstored : s.database.get? id = some entry)
    (hknown : entry.isPlaceholder = false) : s.expire id = s.purge id .expired := by
  simp only [expire, hstored, hknown, Bool.false_eq_true, if_false]

/-- Once the stored copy is purged, a purge of it is the same. -/
theorem purged_recency (h : s.Consistent) {entry : Entry} (hpurge : s.PurgeOfStored lsp entry) :
    (s.purge lsp.id .expired).recency lsp = .same ∧
      ((s.purge lsp.id .expired).known? lsp.id).isSome = true := by
  obtain ⟨counters, history, number, trace, heq⟩ := purge_installs .expired hpurge.stored
    hpurge.live (zeroAgeTimer_of_live h hpurge.stored hpurge.live)
  have hid : (s.purgeOf entry.lsp).id = lsp.id := h.keys hpurge.stored
  have hpurged : (s.purge lsp.id .expired).database.get? lsp.id =
      some (s.armed (s.purgeOf entry.lsp) entry.received).1 := by
    rw [heq, ← hid, Table.get?_insert_self]
  have hlsp := s.armed_lsp (s.purgeOf entry.lsp) entry.received
  have hlifetime : lsp.lifetime = 0 := by simpa [Lsp.isExpired] using hpurge.expired
  have hseqno : (s.purgeOf entry.lsp).seqno = lsp.seqno := hpurge.seqno
  have hfields : (s.purgeOf entry.lsp).lifetime = 0 := rfl
  constructor
  · rw [recency_of_stored hpurged, hlsp]
    simp [Recency.ofLsp, Recency.compare, Recency.ofFields, hlifetime, hseqno, hfields]
  · rw [known_of_stored hpurged]
    · rfl
    · rw [Entry.isPlaceholder, hlsp]
      exact hpurge.known

/-- An LSP that is not the purge of an unknown one is arbitrated by its recency. -/
theorem arbitrate_eq (retry : LevelState → LevelState)
    (hknown : lsp.isExpired = true → (s.known? lsp.id).isSome = true) :
    s.arbitrate retry circuit lsp =
      match s.recency lsp with
      | .newer =>
          if (s.stopLife lsp).1 then s.accept circuit lsp
          else retry ((s.stopLife lsp).2.expire lsp.id)
      | .same => s.acceptSame circuit lsp (s.database.get? lsp.id)
      | .older =>
          match s.database.get? lsp.id with
          | some entry => s.answerOlder circuit entry
          | none => s := by
  have hguard : ¬ (lsp.isExpired && (s.known? lsp.id).isNone) = true := by
    cases hexpired : lsp.isExpired with
    | true => simp [Option.isSome_iff_ne_none.1 (hknown hexpired)]
    | false => simp
  rw [arbitrate, if_neg hguard, ← stopLife_accept]
  rfl

/-- If the life timer of the stored copy cannot be stopped, the copy is purged, and the
received LSP is the same as the purge. -/
theorem judge_outlived (h : s.Consistent) (circuit : CircuitId)
    (hknown : lsp.isExpired = true → (s.known? lsp.id).isSome = true)
    (hnewer : s.recency lsp = .newer) (hstop : (s.stopLife lsp).1 = false) :
    ∃ entry, s.PurgeOfStored lsp entry ∧ (s.purge lsp.id .expired).recency lsp = .same ∧
      s.judge circuit lsp =
        (s.purge lsp.id .expired).acceptSame circuit lsp
          ((s.purge lsp.id .expired).database.get? lsp.id) := by
  obtain ⟨⟨entry, hstored, hlive, hexpired⟩, hsame⟩ := stopLife_expired h hstop
  obtain ⟨entry', life, hstored', hlife, hdue⟩ := stopLife_overdue h hstop
  obtain rfl := Option.some.inj (hstored.symm.trans hstored')
  have hfields := recency_of_stored hstored ▸ hnewer
  obtain ⟨hseqno, hzero⟩ := fields_of_newer (ofFields_of_newer hfields) hexpired
  have hpurge : lsp.isExpired = true := by simp [Lsp.isExpired, hzero]
  obtain ⟨known, hsome⟩ := Option.isSome_iff_exists.1 (hknown hpurge)
  obtain ⟨hstored', hplaceholder⟩ := stored_of_known hsome
  obtain rfl := Option.some.inj (hstored.symm.trans hstored')
  have hpurge : s.PurgeOfStored lsp entry :=
    ⟨hstored, hlive, hplaceholder, hpurge, hseqno, life, hlife, hdue⟩
  obtain ⟨hagain, hstill⟩ := purged_recency h hpurge
  refine ⟨entry, hpurge, hagain, ?_⟩
  rw [judge, arbitrate_eq _ hknown, hnewer]
  dsimp only
  rw [hstop, if_neg Bool.false_ne_true, hsame, expire_known hstored hplaceholder,
    arbitrate_eq _ fun _ => hstill, hagain]

/-- Two arbitrations settle every LSP: if the first one finds that the stored copy has expired,
the second one meets the purge of it. -/
theorem judge_judged (h : s.Consistent) (circuit : CircuitId) (lsp : Lsp) :
    Judged s circuit lsp (s.judge circuit lsp) := by
  by_cases hunknown : lsp.isExpired = true ∧ s.known? lsp.id = none
  · have hrecord : s.judge circuit lsp = s.recordPurge circuit lsp := by
      rw [judge, arbitrate, if_pos (by simp [hunknown])]
    rw [hrecord]
    exact .recorded hunknown.1 hunknown.2
  · have hknown : lsp.isExpired = true → (s.known? lsp.id).isSome = true :=
      fun hexpired => Option.isSome_iff_ne_none.2 fun hnone => hunknown ⟨hexpired, hnone⟩
    cases hrecency : s.recency lsp with
    | newer =>
        cases hstop : (s.stopLife lsp).1 with
        | true =>
            rw [judge, arbitrate_eq _ hknown, hrecency]
            dsimp only
            rw [hstop]
            exact .accepted hrecency hknown
        | false =>
            obtain ⟨entry, hpurge, hagain, heq⟩ := judge_outlived h circuit hknown hrecency hstop
            rw [heq]
            exact .outlived hpurge hrecency hagain
    | same =>
        rw [judge, arbitrate_eq _ hknown, hrecency]
        exact .same hrecency
    | older =>
        rw [judge, arbitrate_eq _ hknown, hrecency]
        dsimp only
        cases hstored : s.database.get? lsp.id with
        | none =>
            rw [recency, hstored] at hrecency
            cases hrecency
        | some entry => exact .older hrecency hstored

/-! ### Own LSPs -/

/-- How an own LSP is answered. -/
inductive Answered (s : LevelState) (circuit : CircuitId) (lsp : Lsp) : LevelState → Prop
  | deferred (undecided : s.supports? lsp.id.pseudonode = none) :
      Answered s circuit lsp (s.defer circuit lsp)
  | unsupported (unsupported : s.supports? lsp.id.pseudonode = some false)
      (live : lsp.isExpired = false) : Answered s circuit lsp (s.forcePurge lsp .unsupported)
  | removed (supported : s.supports? lsp.id.pseudonode = some true)
      (live : lsp.isExpired = false)
      (gone : ∀ entry, s.known? lsp.id = some entry → entry.isPurged = true) :
      Answered s circuit lsp (s.forcePurge lsp .removed)
  | superseded {entry : Entry} (supported : s.supports? lsp.id.pseudonode = some true)
      (known : s.known? lsp.id = some entry) (live : entry.isPurged = false)
      (newer : s.recency lsp = .newer) :
      Answered s circuit lsp
        ((s.count fun c => { c with skippedSeqnos := c.skippedSeqnos + 1 }).originate
          { entry.lsp with seqno := lsp.seqno })

/-- What is known when an own LSP is arbitrated like any other. -/
structure Unanswered (s : LevelState) (lsp : Lsp) : Prop where
  decided : ∃ supported, s.supports? lsp.id.pseudonode = some supported
  live : lsp.isExpired = false → s.recency lsp ≠ .newer
  supported : s.supports? lsp.id.pseudonode = some true → ∀ entry,
    s.known? lsp.id = some entry → entry.isPurged = false → s.recency lsp ≠ .newer

/-- A copy that is known is what an LSP is compared with. -/
theorem recency_of_known {entry : Entry} (h : s.known? lsp.id = some entry) :
    Recency.ofLsp ((s.known? lsp.id).map (·.lsp)) lsp = s.recency lsp := by
  rw [recency_of_stored (stored_of_known h).1, h]
  rfl

/-- An own LSP is deferred, purged, or outdone by a newer instance. -/
theorem answered_of_answerOwn (h : s.answerOwn? circuit lsp = some t) :
    Answered s circuit lsp t := by
  rw [answerOwn?] at h
  cases hsupports : s.supports? lsp.id.pseudonode with
  | none =>
      rw [hsupports] at h
      obtain rfl := Option.some.inj h
      exact .deferred hsupports
  | some supported =>
      rw [hsupports] at h
      dsimp only at h
      split at h
      · rename_i hunsupported
        obtain rfl : supported = false := by simpa using hunsupported
        split_ifs at h with hlive
        obtain rfl := Option.some.inj h
        exact .unsupported hsupports (by simpa using hlive)
      · rename_i hsupported
        obtain rfl : supported = true := by simpa using hsupported
        split at h
        · cases h
        · rename_i hnewer
          split at h
          · rename_i entry hknown
            split at h
            · rename_i hpurged
              split_ifs at h with hlive
              obtain rfl := Option.some.inj h
              refine .removed hsupports (by simpa using hlive) fun other hother => ?_
              rw [hknown] at hother
              exact Option.some.inj hother ▸ hpurged
            · rename_i hpurged
              obtain rfl := Option.some.inj h
              rw [recency_of_known hknown, not_not] at hnewer
              exact .superseded hsupports hknown (by simpa using hpurged) hnewer
          · rename_i hunknown
            split_ifs at h with hlive
            obtain rfl := Option.some.inj h
            exact .removed hsupports (by simpa using hlive) (by simp [hunknown])

theorem unanswered_of_answerOwn (h : s.answerOwn? circuit lsp = none) : Unanswered s lsp := by
  rw [answerOwn?] at h
  cases hsupports : s.supports? lsp.id.pseudonode with
  | none =>
      rw [hsupports] at h
      cases h
  | some supported =>
      rw [hsupports] at h
      dsimp only at h
      -- Nothing is unanswered that is newer than a known copy, unless it is a purge.
      have hnot : Recency.ofLsp ((s.known? lsp.id).map (·.lsp)) lsp ≠ .newer →
          s.recency lsp ≠ .newer := by
        intro hnewer
        cases hknown : s.known? lsp.id with
        | none => exact absurd (by rw [hknown]; rfl) hnewer
        | some entry => exact recency_of_known hknown ▸ hnewer
      split at h
      · rename_i hunsupported
        obtain rfl : supported = false := by simpa using hunsupported
        split_ifs at h with hexpired hpurged
        · exact ⟨⟨_, hsupports⟩, by simp [hexpired], by simp [hsupports]⟩
        · simp only [Bool.and_eq_true, decide_eq_true_eq] at hpurged
          exact ⟨⟨_, hsupports⟩, fun _ => hnot hpurged.2, by simp [hsupports]⟩
      · split at h
        · rename_i hnewer
          exact ⟨⟨_, hsupports⟩, fun _ => hnot hnewer, fun _ _ _ _ => hnot hnewer⟩
        · split at h
          · rename_i entry hknown
            split at h
            · rename_i hpurged
              split_ifs at h with hexpired
              exact ⟨⟨_, hsupports⟩, by simp [hexpired], by simp [hknown, hpurged]⟩
            · cases h
          · rename_i hunknown
            split_ifs at h with hexpired
            exact ⟨⟨_, hsupports⟩, by simp [hexpired], by simp [hunknown]⟩

/-! ### Reception -/

/-- What comes of an LSP that was received on a circuit. -/
inductive Received (s : LevelState) (circuit : CircuitId) (lsp : Lsp) : LevelState → Prop
  | discarded (invalid : ¬ lsp.Valid) (counters : Counters) (event : Event)
      (silent : event.changesDatabase = false) :
      Received s circuit lsp ({ s with counters := counters }.tell event)
  | answered {t : LevelState} (counters : Counters) (valid : lsp.Valid)
      (own : s.isOwn lsp.id = true)
      (answered : Answered { s with counters := counters } circuit lsp t) :
      Received s circuit lsp t
  | judged {t : LevelState} (counters : Counters) (valid : lsp.Valid)
      (unanswered : s.isOwn lsp.id = true →
        { s with counters := counters }.answerOwn? circuit lsp = none)
      (judged : Judged { s with counters := counters } circuit lsp t) : Received s circuit lsp t

/-- Purges of own LSPs are counted before anything else. -/
theorem countOwnPurge_eq (s : LevelState) (lsp : Lsp) :
    ∃ counters,
      (if lsp.isExpired && s.isOwn lsp.id then
        s.count fun c => { c with ownPurges := c.ownPurges + 1 } else s) =
        { s with counters := counters } := by
  split
  · exact ⟨_, rfl⟩
  · exact ⟨s.counters, rfl⟩

/-- An LSP that does not pass validation is discarded. -/
theorem receiveFrom_discarded (s : LevelState) (circuit : CircuitId) (hinvalid : ¬ lsp.Valid) :
    ∃ counters reason, s.receiveFrom circuit lsp =
      { s with counters := counters }.tell (.lspDiscarded s.level lsp.mention reason) := by
  obtain ⟨counters, hcounted⟩ := s.countOwnPurge_eq lsp
  unfold receiveFrom
  dsimp only
  rw [hcounted]
  split
  · exact ⟨_, _, rfl⟩
  · rename_i hintact
    split
    · exact ⟨_, _, rfl⟩
    · rename_i hpurge
      exact absurd ⟨by simpa using hintact, by simpa using hpurge⟩ hinvalid

/-- An LSP from a circuit is discarded, answered or judged. -/
theorem receiveFrom_received (h : s.Consistent) (circuit : CircuitId) (lsp : Lsp) :
    Received s circuit lsp (s.receiveFrom circuit lsp) := by
  obtain ⟨counters, hcounted⟩ := s.countOwnPurge_eq lsp
  have hconsistent : { s with counters := counters }.Consistent := h.congr rfl rfl rfl rfl
  unfold receiveFrom
  dsimp only
  rw [hcounted]
  split
  · rename_i hchecksum
    exact .discarded (fun hvalid => by simp [hvalid.intact] at hchecksum) _ _ rfl
  · rename_i hchecksum
    split
    · rename_i hpurge
      simp only [Bool.and_eq_true, Bool.not_eq_true'] at hpurge
      refine .discarded (fun hvalid => ?_) _ _ rfl
      rw [hvalid.purge hpurge.1] at hpurge
      cases hpurge.2
    · rename_i hpurge
      have hvalid : lsp.Valid := ⟨by simpa using hchecksum, by simpa using hpurge⟩
      split
      · rename_i hown
        cases hanswer : { s with counters := counters }.answerOwn? circuit lsp with
        | none => exact .judged counters hvalid (fun _ => hanswer) (judge_judged hconsistent _ _)
        | some t => exact .answered counters hvalid hown (answered_of_answerOwn hanswer)
      · rename_i hown
        exact .judged counters hvalid (fun hcontra => absurd hcontra hown)
          (judge_judged hconsistent _ _)

end LevelState

end LinkState
