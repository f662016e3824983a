import LinkState.Proofs.FloodingInvariant

/-!
# Own LSPs are not overwritten

Whatever the network sends, what is stored under the identity of this system is an
instance that the system has originated, a purge, or a placeholder for an LSP that
it has asked for.  A copy that was received under that identity is at most answered
by a newer instance with the content of the stored one.
-/

namespace LinkState.LevelState

variable {heard : Lsp → Prop} {s t : LevelState} {id : LspId} {circuit : CircuitId} {lsp : Lsp}

/-- An LSP that is accepted under an own LSP ID is a purge. -/
theorem foreign_of_accepted (admitted : s.Admitted heard circuit lsp)
    (newer : s.recency lsp = .newer) (hlive : lsp.isExpired = false) : s.isOwn lsp.id = false := by
  cases hown : s.isOwn lsp.id with
  | false => rfl
  | true =>
      -- A live own LSP that is newer would have been answered.
      have hunanswered := unanswered_of_answerOwn (admitted.unanswered hown)
      exact absurd newer (hunanswered.live hlive)

/-! ### Own LSPs are genuine -/

/-- An entry for an own LSP holds an instance that the system has originated, or
it is a placeholder. -/
inductive Genuine (level : Level) (config : Config) (id : LspId) (entry : Entry) : Prop
  | originated {time : Nat} {seqno : UInt32} {flags : LspFlags} {tlvs : LspTlvs}
      (received : entry.received = false) (nonzero : seqno ≠ 0)
      (made : entry.lsp = Lsp.make time level config.lifetime id seqno flags tlvs)
  | requested (received : entry.received = true) (placeholder : entry.isPlaceholder = true)
      (blank : entry.lsp.tlvs = .empty)

/-- All entries for own LSPs that are not purged are genuine. -/
structure Guarded (s : LevelState) : Prop where
  genuine : ∀ {id entry}, s.database.get? id = some entry → s.isOwn id = true →
    entry.isPurged = false → Genuine s.level s.config id entry

namespace Guarded

theorem blank (level : Level) (config : Config) (now : Nat) :
    (blank level config now).Guarded :=
  ⟨by simp [LevelState.blank]⟩

theorem stop (s : LevelState) : s.stop.Guarded :=
  ⟨by simp [LevelState.stop]⟩

theorem congr (h : s.Guarded) (hlevel : t.level = s.level) (hconfig : t.config = s.config)
    (hdatabase : t.database = s.database) : t.Guarded := by
  refine ⟨fun {id entry} hstored hown hlive => ?_⟩
  rw [hdatabase] at hstored
  rw [isOwn, hconfig] at hown
  rw [hlevel, hconfig]
  exact h.genuine hstored hown hlive

/-- Every step keeps the own LSPs genuine. -/
theorem step (h : s.Guarded) (hstep : Step heard s t) : t.Guarded := by
  obtain ⟨hlevel, hconfig, -⟩ := hstep.constant
  have hentries : ∀ id entry, t.database.get? id = some entry → s.isOwn id = true →
      entry.isPurged = false → Genuine s.level s.config id entry := by
    refine hstep.entries (fun _ _ => h.genuine) fun {lsp received} horigin hown hlive => ?_
    have hlsp := s.armed_lsp lsp received
    rw [Entry.isPurged, hlsp] at hlive
    cases horigin with
    | accepted admitted newer =>
        rw [completed_isExpired] at hlive
        rw [completed_id, foreign_of_accepted admitted newer hlive] at hown
        cases hown
    | placeholder lifetime id =>
        refine .requested (s.armed_received _ _) ?_ ?_
        · rw [Entry.isPlaceholder, hlsp]
          rfl
        · rw [hlsp]
          rfl
    | purged => cases hlive
    | forced => cases hlive
    | originated nonzero => exact .originated (s.armed_received _ _) nonzero hlsp
  refine ⟨fun {id entry} hstored hown hlive => ?_⟩
  rw [isOwn, hconfig] at hown
  rw [hlevel, hconfig]
  exact hentries id entry hstored hown hlive

theorem steps (h : s.Guarded) (hsteps : Steps heard s t) : t.Guarded :=
  hsteps.invariant (fun h hstep => h.step hstep) h

end Guarded

variable {level : Level} {config : Config} {now : Nat}

theorem Reachable.guarded (h : Reachable Proper level config now s) : s.Guarded :=
  (h.invariant (P := Guarded) (fun _ => trivial) Proper.running (.blank level config now)
    (fun _ hguarded hstep => hguarded.step hstep) fun _ _ => .stop _).2

/-- A live entry for an own LSP was originated by this system. -/
theorem Guarded.made_of_live (h : s.Guarded) {entry : Entry}
    (hstored : s.database.get? id = some entry) (hown : s.isOwn id = true)
    (hlive : entry.isLive = true) :
    entry.received = false ∧ ∃ time seqno flags tlvs,
      entry.lsp = Lsp.make time s.level s.config.lifetime id seqno flags tlvs := by
  rw [Entry.isLive_iff] at hlive
  cases h.genuine hstored hown hlive.1 with
  | originated received _ made => exact ⟨received, _, _, _, _, made⟩
  | requested _ placeholder _ =>
      rw [placeholder] at hlive
      cases hlive.2

theorem Guarded.lifetime_ne_zero (h : s.Guarded) {entry : Entry}
    (hstored : s.database.get? id = some entry) (hown : s.isOwn id = true)
    (hlive : entry.isLive = true) : s.config.lifetime ≠ 0 := by
  obtain ⟨-, time, seqno, flags, tlvs, hmade⟩ := h.made_of_live hstored hown hlive
  simp only [Entry.isLive, Entry.isPurged, Lsp.isExpired, hmade, Bool.and_eq_true,
    Bool.not_eq_true', decide_eq_false_iff_not] at hlive
  exact hlive.1

/-! ### Replacing an own LSP -/

/-- An entry is the next instance of a stored LSP after a sequence number, or the
purge that ends its sequence numbers. -/
def Renews (stored : Entry) (seqno : UInt32) (entry : Entry) : Prop :=
  if seqno = 0xFFFFFFFF then entry.isPurged = true ∧ entry.lsp.seqno = 0xFFFFFFFF
  else entry.isLive = true ∧ entry.lsp.flags = stored.lsp.flags ∧
    entry.lsp.tlvs = stored.lsp.tlvs ∧ entry.lsp.seqno = seqno + 1

/-- A live entry is replaced by its next instance. -/
theorem originate_renews (lsp : Lsp) {stored : Entry} {seqno : UInt32}
    (hstored : s.database.get? lsp.id = some stored) (hlive : stored.isPurged = false)
    (hlifetime : s.config.lifetime ≠ 0) (hflags : lsp.flags = stored.lsp.flags)
    (htlvs : lsp.tlvs = stored.lsp.tlvs) (hseqno : max lsp.seqno stored.lsp.seqno = seqno) :
    ∃ entry, (s.originate lsp).database.get? lsp.id = some entry ∧ entry.received = false ∧
      Renews stored seqno entry := by
  have hmax : max lsp.seqno (s.storedSeqno lsp.id) = seqno := by
    rw [storedSeqno, hstored]
    exact hseqno
  unfold Renews
  by_cases hlast : seqno = 0xFFFFFFFF
  · have hnext : nextSeqno? (max lsp.seqno (s.storedSeqno lsp.id)) = none :=
      nextSeqno?_eq_none.2 (hmax.trans hlast)
    obtain ⟨counters, trace, heq⟩ := originate_exhausted hnext
    rw [heq, hstored, Option.map_some, Option.getD_some, hlive, Bool.not_false, if_pos rfl]
    obtain ⟨purged, hpurged, hlsp, hreceived⟩ :=
      (forcePurge_installs { s with counters := counters, trace := trace } lsp .maxSeqno).stored
    refine ⟨purged, hpurged, hreceived, ?_⟩
    rw [if_pos hlast, Entry.isPurged, hlsp]
    refine ⟨rfl, ?_⟩
    have hcomm : max (s.storedSeqno lsp.id) lsp.seqno = seqno := by
      rw [← hmax, ← UInt32.toNat_inj, toNat_max, toNat_max, Nat.max_comm]
    exact hcomm.trans hlast
  · have hnext : nextSeqno? (max lsp.seqno (s.storedSeqno lsp.id)) = some (seqno + 1) := by
      rw [hmax, nextSeqno?, if_neg hlast]
    obtain ⟨entry, hentry, hlsp, hreceived⟩ := (originate_installs hnext).stored
    have hnonzero : seqno + 1 ≠ 0 := by
      intro hzero
      have hnat := toNat_nextSeqno hnext
      rw [hzero] at hnat
      cases hnat
    refine ⟨entry, hentry, hreceived, ?_⟩
    rw [if_neg hlast, Entry.isLive, Entry.isPurged, Entry.isPlaceholder, hlsp]
    refine ⟨?_, hflags, htlvs, rfl⟩
    simp [freshInstance, Lsp.make, Lsp.encode, Lsp.isExpired, hlifetime, hnonzero]

/-- A received copy is as recent as a stored one, and live, but differs from it. -/
structure Confuses (stored lsp : Lsp) : Prop where
  same : Recency.ofLsp (some stored) lsp = .same
  seqno : lsp.seqno = stored.seqno
  live : lsp.isExpired = false
  checksum : lsp.checksum ≠ stored.checksum

theorem Confuses.not_newer {stored lsp : Lsp} (h : Confuses stored lsp) :
    Recency.ofLsp (some stored) lsp ≠ .newer := by
  simp [h.same]

theorem Confuses.not_older {stored lsp : Lsp} (h : Confuses stored lsp) :
    Recency.ofLsp (some stored) lsp ≠ .older := by
  simp [h.same]

theorem le_of_newer {stored lsp : Lsp} (h : Recency.ofLsp (some stored) lsp = .newer) :
    stored.seqno ≤ lsp.seqno := by
  have hfields := ofFields_of_newer h
  rw [Recency.ofFields] at hfields
  split at hfields
  · rename_i hless
    exact UInt32.le_of_lt hless
  · split at hfields
    · cases hfields
    · rename_i hnot
      exact UInt32.not_lt.1 hnot

theorem max_of_le {a b : UInt32} (h : a ≤ b) : max b a = b := by
  rw [← UInt32.toNat_inj, toNat_max]
  exact Nat.max_eq_left (UInt32.le_iff_toNat_le.1 h)

/-- What becomes of a live own LSP when a copy is received. -/
structure Defends (stored : Entry) (lsp : Lsp) (entry : Entry) : Prop where
  own : entry.received = false
  newer : Recency.ofLsp (some stored.lsp) lsp = .newer → Renews stored lsp.seqno entry
  confused : Confuses stored.lsp lsp → Renews stored stored.lsp.seqno entry
  otherwise : Recency.ofLsp (some stored.lsp) lsp ≠ .newer → ¬ Confuses stored.lsp lsp →
    entry = stored

section Defence

variable {stored : Entry} (h : s.Consistent) (hguarded : s.Guarded)
  (hown : s.isOwn lsp.id = true) (hstored : s.database.get? lsp.id = some stored)
  (hlive : stored.isLive = true)

include h hguarded hown hstored hlive

/-- A copy as recent as the stored one leaves it alone, or confuses it and is outdone. -/
theorem acceptSame_defends (hsame : s.recency lsp = .same) (hcarries : lsp.Carries) :
    ∃ entry, (s.acceptSame circuit lsp (s.database.get? lsp.id)).database.get? lsp.id =
      some entry ∧ Defends stored lsp entry := by
  have hlifetime := hguarded.lifetime_ne_zero hstored hown hlive
  obtain ⟨hreceived, time, seqno, flags, tlvs, hmade⟩ := hguarded.made_of_live hstored hown hlive
  rw [Entry.isLive_iff] at hlive
  rw [recency_of_stored hstored] at hsame
  have hseqno : lsp.seqno = stored.lsp.seqno :=
    seqno_of_same hsame (hmade ▸ Lsp.make_carries ..) hcarries
  have hconfused : isConfused stored lsp.lifetime lsp.checksum = true ↔
      Confuses stored.lsp lsp := by
    simp only [isConfused, hlive.1, Bool.not_false, Bool.true_and, Bool.and_eq_true, bne_iff_ne]
    constructor
    · exact fun hboth => ⟨hsame, hseqno, by simpa [Lsp.isExpired] using hboth.1, hboth.2.symm⟩
    · exact fun hboth => ⟨by simpa [Lsp.isExpired] using hboth.live, hboth.checksum.symm⟩
  have hnewer : ¬ Recency.ofLsp (some stored.lsp) lsp = .newer := by simp [hsame]
  rw [acceptSame, hstored, Option.map_some, Option.getD_some]
  split
  · rename_i hcase
    have hid : stored.lsp.id = lsp.id := h.keys hstored
    simp only [resolveConfusion, hstored, hreceived, Bool.false_eq_true, if_false]
    rw [← hid] at hstored ⊢
    obtain ⟨entry, hentry, hown', hrenews⟩ := originate_renews
      (s := (s.tell (.lspChanged .confused s.level stored.lsp.mention)).count fun c =>
        { c with skippedSeqnos := c.skippedSeqnos + 1 }) stored.lsp hstored hlive.1 hlifetime rfl
      rfl (max_of_le (UInt32.le_refl _))
    exact ⟨entry, hentry, hown', fun hcontra => absurd hcontra hnewer, fun _ => hrenews,
      fun _ hnot => absurd (hconfused.1 hcase) hnot⟩
  · rename_i hcase
    rw [acknowledge_eq]
    exact ⟨stored, hstored, hreceived, fun hcontra => absurd hcontra hnewer,
      fun hcontra => absurd (hconfused.2 hcontra) hcase, fun _ _ => rfl⟩

/-- A newer copy is outdone by the next instance. -/
theorem answered_defends (hsupported : s.supports? lsp.id.pseudonode = some true)
    (hanswered : Answered s circuit lsp t) :
    ∃ entry, t.database.get? lsp.id = some entry ∧ Defends stored lsp entry := by
  have hlifetime := hguarded.lifetime_ne_zero hstored hown hlive
  rw [Entry.isLive_iff] at hlive
  have hknown := known_of_stored hstored hlive.2
  cases hanswered with
  | deferred undecided => simp [hsupported] at undecided
  | unsupported unsupported => simp [hsupported] at unsupported
  | removed _ _ gone =>
      rw [gone stored hknown] at hlive
      cases hlive.1
  | superseded _ known _ newer =>
      obtain rfl := Option.some.inj (hknown.symm.trans known)
      rw [recency_of_stored hstored] at newer
      have hmax : max lsp.seqno stored.lsp.seqno = lsp.seqno := max_of_le (le_of_newer newer)
      have hid : stored.lsp.id = lsp.id := h.keys hstored
      rw [← hid] at hstored
      obtain ⟨entry, hentry, hown', hrenews⟩ := originate_renews
        (s := s.count fun c => { c with skippedSeqnos := c.skippedSeqnos + 1 })
        { stored.lsp with seqno := lsp.seqno } hstored hlive.1 hlifetime rfl rfl hmax
      rw [← hid]
      exact ⟨entry, hentry, hown', fun _ => hrenews,
        fun hconfused => absurd newer hconfused.not_newer, fun hnot => absurd newer hnot⟩

/-- A copy that is not newer is judged like any other, and does not replace the stored one. -/
theorem judged_defends (hsupported : s.supports? lsp.id.pseudonode = some true)
    (hunanswered : Unanswered s lsp) (hcarries : lsp.Carries) (hjudged : Judged s circuit lsp t) :
    ∃ entry, t.database.get? lsp.id = some entry ∧ Defends stored lsp entry := by
  have hlive' := hlive
  rw [Entry.isLive_iff] at hlive'
  have hknown := known_of_stored hstored hlive'.2
  have hnewer := hunanswered.supported hsupported stored hknown hlive'.1
  cases hjudged with
  | recorded _ unknown => simp [hknown] at unknown
  | accepted newer => exact absurd newer hnewer
  | outlived _ newer => exact absurd newer hnewer
  | same same => exact acceptSame_defends h hguarded hown hstored hlive same hcarries
  | older older _ =>
      rw [recency_of_stored hstored] at older hnewer
      exact ⟨stored, hstored, (hguarded.made_of_live hstored hown hlive).1,
        fun hcontra => absurd hcontra hnewer,
        fun hconfused => absurd older hconfused.not_older, fun _ _ => rfl⟩

/-- A live own LSP withstands every valid copy that is received. -/
theorem receiveFrom_defends (hsupported : s.supports? lsp.id.pseudonode = some true)
    (hvalid : lsp.Valid) (hcarries : lsp.Carries) :
    ∃ entry, (s.receiveFrom circuit lsp).database.get? lsp.id = some entry ∧
      Defends stored lsp entry := by
  have hconsistent : ∀ counters, { s with counters := counters }.Consistent :=
    fun _ => h.congr rfl rfl rfl rfl
  have hguarded' : ∀ counters, { s with counters := counters }.Guarded :=
    fun _ => hguarded.congr rfl rfl rfl
  have hreceived := receiveFrom_received h circuit lsp
  generalize s.receiveFrom circuit lsp = t at hreceived
  cases hreceived with
  | discarded invalid => exact absurd hvalid invalid
  | answered counters _ _ answered =>
      exact answered_defends (hconsistent counters) (hguarded' counters) hown hstored hlive
        hsupported answered
  | judged counters _ unanswered judged =>
      exact judged_defends (hconsistent counters) (hguarded' counters) hown hstored hlive
        hsupported (unanswered_of_answerOwn (unanswered hown)) hcarries judged

end Defence

/-- In every reachable state, what is stored under an own LSP ID and is live was not
received.  If such an entry is for the system itself, or for a pseudonode for which
it is elected, it withstands every valid copy that is received on a known circuit and
whose octets carry its sequence number, as those do that an LSP was read from: a newer
copy and one that confuses it are answered by the next instance, with the same flags and
fields, or by a purge if there is no greater sequence number, and no other copy changes
the entry. -/
theorem own_lsps_defended (h : Reachable Proper level config now s) :
    (∀ id entry, s.database.get? id = some entry → id.system = config.system →
      entry.isLive = true → entry.received = false) ∧
    ∀ circuit lsp stored, s.circuits.contains circuit = true → lsp.level = level →
      lsp.Valid → lsp.Carries → lsp.id.system = config.system →
      (lsp.id.pseudonode = 0 ∨ ∃ election, s.elections.get? lsp.id.pseudonode = some election ∧
        election.elected = true) →
      s.database.get? lsp.id = some stored → stored.isLive = true →
      ∃ t entry, s.receiveLsp (some circuit) lsp = (t, none) ∧
        t.database.get? lsp.id = some entry ∧ entry.received = false ∧
        (Recency.ofLsp (some stored.lsp) lsp = .newer → Renews stored lsp.seqno entry) ∧
        (Confuses stored.lsp lsp → Renews stored stored.lsp.seqno entry) ∧
        (Recency.ofLsp (some stored.lsp) lsp ≠ .newer → ¬ Confuses stored.lsp lsp →
          entry = stored) := by
  have hconsistent := h.consistent
  have hguarded := h.guarded
  obtain ⟨hlevel, hconfig, -⟩ := h.constant
  have hisOwn : ∀ {id : LspId}, id.system = config.system → s.isOwn id = true := by
    intro id hown
    simp [isOwn, hconfig, hown]
  refine ⟨fun id entry hstored hown hlive => ?_, ?_⟩
  · exact (hguarded.made_of_live hstored (hisOwn hown) hlive).1
  · intro circuit lsp stored hcircuit hlsp hvalid hcarries hown helected hstored hlive
    have hsupported : s.supports? lsp.id.pseudonode = some true := by
      rw [supports?]
      split
      · rfl
      · rename_i hpseudonode
        obtain ⟨election, hstored, helected⟩ := helected.resolve_left hpseudonode
        rw [hstored, Option.map_some, helected]
    obtain ⟨entry, hentry, hdefends⟩ : ∃ entry, (s.receiveFrom circuit lsp).database.get? lsp.id =
        some entry ∧ Defends stored lsp entry :=
      receiveFrom_defends hconsistent hguarded (hisOwn hown) hstored hlive hsupported hvalid
        hcarries
    exact ⟨s.receiveFrom circuit lsp, entry,
      receiveLsp_registered hcircuit (hlsp.trans hlevel.symm), hentry, hdefends.own,
      hdefends.newer, hdefends.confused, hdefends.otherwise⟩

def defending : LevelState :=
  ((start .one Config.default 0).perform (.receiveLsp none
    (Lsp.make 0 .one 1200 ⟨SystemId.zero, 0, 0⟩ 7 .none .empty))).perform
      (.addCircuit ⟨1, "eth1", .broadcast⟩)

theorem defending_reachable : Reachable Proper .one Config.default 0 defending :=
  Reachable.perform (Reachable.perform .start trivial) trivial

/-- A copy with the greatest sequence number ends the sequence numbers of the own
LSP. -/
theorem own_lsps_defended_defending :
    ∃ stored t entry, defending.database.get? LspId.first = some stored ∧
      stored.isLive = true ∧
      defending.receiveLsp (some 1)
        (Lsp.make 5 .one 900 LspId.first 0xFFFFFFFF .none .empty) = (t, none) ∧
      t.database.get? LspId.first = some entry ∧ entry.received = false ∧
      entry.isPurged = true ∧ entry.lsp.seqno = 0xFFFFFFFF := by
  obtain ⟨stored, hstored, hlive, hnewer⟩ : ∃ stored,
      defending.database.get? LspId.first = some stored ∧ stored.isLive = true ∧
        Recency.ofLsp (some stored.lsp)
          (Lsp.make 5 .one 900 LspId.first 0xFFFFFFFF .none .empty) = .newer := by
    refine ⟨_, Option.some_get (h := ?_) |>.symm, ?_, ?_⟩ <;> decide +kernel
  obtain ⟨t, entry, hreceive, hentry, hown, hrenews, -⟩ :=
    (own_lsps_defended defending_reachable).2 1
      (Lsp.make 5 .one 900 LspId.first 0xFFFFFFFF .none .empty) stored (by decide +kernel) rfl
      ⟨by decide +kernel, by decide +kernel⟩ (Lsp.make_carries ..) rfl (.inl rfl) hstored hlive
  exact ⟨stored, t, entry, hstored, hlive, hreceive, hentry, hown, hrenews hnewer⟩

end LinkState.LevelState
