import LinkState.Proofs.Reception
import LinkState.Proofs.Succession

/-!
# Why LSPs are purged

A level tells every purge with the reason for it.  That its life is over is the reason in
two cases: the life timer of an LSP fires, or it is found to be overdue when a purge of the
LSP is received.  Whatever else a level does, it purges for other reasons only.
-/

namespace LinkState

def Event.purge? : Event → Option (LspMention × PurgeReason)
  | .lspPurged _ lsp reason => some (lsp, reason)
  | _ => none

namespace LevelState

variable {s t u : LevelState} {id : LspId} {circuit : CircuitId} {lsp : Lsp}
  {mention : LspMention} {allowed : LspMention → PurgeReason → Prop}

/-- The purges that a level has told, the latest first. -/
def purges (s : LevelState) : List (LspMention × PurgeReason) :=
  s.trace.filterMap Event.purge?

/-- Between two states, only such purges were told as are allowed. -/
def Purges (allowed : LspMention → PurgeReason → Prop) (s t : LevelState) : Prop :=
  ∃ told, t.purges = told ++ s.purges ∧ ∀ purge ∈ told, allowed purge.1 purge.2

/-- Every purge is allowed but those of LSPs whose life is over. -/
def Lenient (allowed : LspMention → PurgeReason → Prop) : Prop :=
  ∀ mention {reason}, reason ≠ .expired → allowed mention reason

namespace Purges

theorem of_eq (h : t.purges = s.purges) : Purges allowed s t :=
  ⟨[], h, fun _ hmem => absurd hmem List.not_mem_nil⟩

theorem refl (s : LevelState) : Purges allowed s s :=
  of_eq rfl

theorem of_told {mention : LspMention} {reason : PurgeReason}
    (h : t.purges = (mention, reason) :: s.purges) (hallowed : allowed mention reason) :
    Purges allowed s t := by
  refine ⟨[(mention, reason)], h, fun purge hmem => ?_⟩
  rw [List.mem_singleton] at hmem
  exact hmem ▸ hallowed

theorem trans (h : Purges allowed s t) (h' : Purges allowed t u) : Purges allowed s u := by
  obtain ⟨told, htold, hall⟩ := h
  obtain ⟨told', htold', hall'⟩ := h'
  refine ⟨told' ++ told, by rw [htold', htold, List.append_assoc], fun purge hmem => ?_⟩
  exact (List.mem_append.1 hmem).elim (hall' purge) (hall purge)

/-- Of several changes in turn, each tells such purges only as are allowed. -/
theorem foldl {α : Type} {f : LevelState → α → LevelState} (items : List α)
    {Q : LevelState → Prop} (hs : Q s)
    (hf : ∀ {t item}, item ∈ items → Q t → Q (f t item) ∧ Purges allowed t (f t item)) :
    Purges allowed s (items.foldl f s) := by
  have hfolded : Q (items.foldl f s) ∧ Purges allowed s (items.foldl f s) := by
    refine List.foldlRecOn (motive := fun t => Q t ∧ Purges allowed s t) items f
      ⟨hs, .refl s⟩ fun t ht item hmem => ?_
    obtain ⟨hround, hpurges⟩ := hf hmem ht.1
    exact ⟨hround, ht.2.trans hpurges⟩
  exact hfolded.2

end Purges

/-! ### What is told -/

theorem purges_congr (h : t.trace = s.trace) : t.purges = s.purges := by
  rw [purges, purges, h]

theorem purges_silent (s : LevelState) {event : Event} (silent : event.purge? = none) :
    (s.tell event).purges = s.purges := by
  simp [purges, tell, silent]

theorem count_purges (s : LevelState) (f : Counters → Counters) : Purges allowed s (s.count f) :=
  .of_eq (purges_congr rfl)

theorem purges_discardPages (s : LevelState) (id : LspId) :
    (s.discardPages id).purges = s.purges := by
  unfold discardPages
  dsimp only
  split
  · exact purges_silent _ rfl
  · rfl

theorem purges_install (s : LevelState) (lsp : Lsp) (received : Bool) :
    (s.install lsp received).purges = s.purges := by
  have htrace : (s.install lsp received).trace =
      ((s.tell ((Change.installed lsp).event s.level)).discardPages lsp.id).trace := by
    simp only [install, store_trace, startRefresh_trace, startLife_trace]
    exact detach_trace _ lsp.id
  rw [purges_congr htrace, purges_discardPages]
  exact purges_silent s rfl

theorem purges_installAndFlood (s : LevelState) (lsp : Lsp) (received : Bool) :
    (s.installAndFlood lsp received).purges = s.purges :=
  s.purges_install lsp received

theorem purges_accept (s : LevelState) (circuit : CircuitId) (lsp : Lsp) :
    (s.accept circuit lsp).purges = s.purges := by
  rw [← purges_install s (s.completed lsp) true]
  apply purges_congr
  simp only [accept, acknowledge_eq]
  generalize s.install (s.completed lsp) true = t
  split <;> rfl

theorem purges_recordPurge (s : LevelState) (circuit : CircuitId) (lsp : Lsp) :
    (s.recordPurge circuit lsp).purges = s.purges := by
  rw [← purges_install s (s.placeholder 0 lsp.id) true]
  apply purges_congr
  rw [recordPurge, acknowledge_eq]
  rfl

theorem purges_requestUnknown (s : LevelState) (circuit : CircuitId) (summary : LspSummary) :
    (s.requestUnknown circuit summary).purges = s.purges := by
  rw [requestUnknown]
  split
  · exact s.purges_install _ true
  · rfl

theorem purges_remove (s : LevelState) (id : LspId) : (s.remove id).purges = s.purges := by
  unfold remove
  dsimp only
  split
  · rw [← purges_discardPages s id]
    exact purges_congr (detach_trace _ id)
  · exact purges_discardPages s id

theorem purges_scheduleGeneration (s : LevelState) (pseudonode : UInt8) (span : Nat) :
    (s.scheduleGeneration pseudonode span).purges = s.purges := by
  have hcreate : (s.createGenerator pseudonode).2.purges = s.purges := by
    unfold createGenerator
    split
    · rfl
    · exact purges_silent _ rfl
  rw [← hcreate]
  unfold scheduleGeneration
  dsimp only
  split <;> rfl

theorem purges_defer (s : LevelState) (circuit : CircuitId) (lsp : Lsp) :
    (s.defer circuit lsp).purges = s.purges := by
  have htell : (s.tell (.lspChanged .deferred s.level lsp.mention)).purges = s.purges :=
    purges_silent s rfl
  rw [← htell]
  unfold defer
  dsimp only
  split <;> rfl

theorem purges_settleSent (s : LevelState) (circuit : CircuitId) (id : LspId) :
    (s.settleSent circuit id).purges = s.purges := by
  rw [settleSent]
  split <;> rfl

theorem markAll_purges (s : LevelState) (circuit : CircuitId) (entries : List Entry) :
    Purges allowed s
      (entries.foldl (fun s entry => s.setFlag .srm (s.summaryOf entry.lsp) circuit) s) :=
  .foldl entries (Q := fun _ => True) trivial fun {_ _} _ _ => ⟨trivial, .of_eq (purges_congr rfl)⟩

theorem purges_delete (s : LevelState) (id : LspId) : (s.delete id).purges = s.purges := by
  rw [← purges_remove s id]
  unfold delete
  split
  · rfl
  · dsimp only
    split
    · rw [purges_scheduleGeneration]
      exact purges_silent _ rfl
    · exact purges_silent _ rfl

theorem purges_purge (h : s.Consistent) {entry : Entry} (reason : PurgeReason)
    (hstored : s.database.get? id = some entry) (hlive : entry.isPurged = false) :
    (s.purge id reason).purges = (entry.lsp.mention, reason) :: s.purges := by
  rw [purge_live reason hstored hlive (zeroAgeTimer_of_live h hstored hlive),
    purges_installAndFlood]
  rfl

theorem purges_forcePurge (s : LevelState) (lsp : Lsp) (reason : PurgeReason) :
    (s.forcePurge lsp reason).purges = ((s.forcedPurge lsp).mention, reason) :: s.purges := by
  rw [forcePurge, purges_installAndFlood]
  rfl

/-! ### Single changes -/

/-- An LSP that is received is the purge of a stored copy that is overdue.  An own copy is
found to be overdue only if the system is not elected for its pseudonode. -/
structure Outlived (s : LevelState) (lsp : Lsp) (mention : LspMention) : Prop where
  stored : ∃ entry, s.PurgeOfStored lsp entry ∧ entry.lsp.mention = mention
  unelected : s.isOwn lsp.id = true → s.supports? lsp.id.pseudonode = some false

theorem Outlived.congr (h : s.Outlived lsp mention) (hconfig : t.config = s.config)
    (hnow : t.now = s.now) (helections : t.elections = s.elections)
    (hdatabase : t.database = s.database) : t.Outlived lsp mention where
  stored := by
    obtain ⟨entry, hpurge, hmention⟩ := h.stored
    exact ⟨entry, ⟨hdatabase ▸ hpurge.stored, hpurge.live, hpurge.known, hpurge.expired,
      hpurge.seqno, hnow ▸ hpurge.overdue⟩, hmention⟩
  unelected := fun hown => by
    rw [isOwn, hconfig] at hown
    rw [supports?, helections]
    exact h.unelected hown

section Lenient

variable (hlenient : Lenient allowed)
include hlenient

theorem purge_purges (h : s.Consistent) {entry : Entry} {reason : PurgeReason}
    (hreason : reason ≠ .expired) (hstored : s.database.get? id = some entry)
    (hlive : entry.isPurged = false) : Purges allowed s (s.purge id reason) :=
  .of_told (purges_purge h reason hstored hlive) (hlenient _ hreason)

theorem forcePurge_purges (s : LevelState) (lsp : Lsp) {reason : PurgeReason}
    (hreason : reason ≠ .expired) : Purges allowed s (s.forcePurge lsp reason) :=
  .of_told (s.purges_forcePurge lsp reason) (hlenient _ hreason)

theorem originate_purges (s : LevelState) (lsp : Lsp) : Purges allowed s (s.originate lsp) := by
  unfold originate
  split
  · have htold : Purges allowed s ((s.count fun c =>
        { c with exhaustedSeqnos := c.exhaustedSeqnos + 1 }).tell
          (.lspChanged .exhausted s.level lsp.mention)) := .of_eq (purges_silent _ rfl)
    dsimp only
    split
    · exact htold.trans (forcePurge_purges hlenient _ lsp (by decide))
    · exact htold
  · refine .of_eq ?_
    dsimp only
    rw [purges_installAndFlood]
    exact purges_silent _ rfl

theorem resolveConfusion_purges (h : s.Consistent) {entry : Entry}
    (hstored : s.database.get? id = some entry) (hlive : entry.isPurged = false) :
    Purges allowed s (s.resolveConfusion id) := by
  have htell : Purges allowed s (s.tell (.lspChanged .confused s.level entry.lsp.mention)) :=
    .of_eq (purges_silent s rfl)
  simp only [resolveConfusion, hstored]
  refine htell.trans ?_
  split
  · exact purge_purges hlenient (h.tell _) (by decide) hstored hlive
  · exact (count_purges _ _).trans (originate_purges hlenient _ entry.lsp)

theorem acceptSame_purges (h : s.Consistent) (circuit : CircuitId) (lsp : Lsp) :
    Purges allowed s (s.acceptSame circuit lsp (s.database.get? lsp.id)) := by
  rw [acceptSame]
  split
  · rename_i hconfused
    cases hstored : s.database.get? lsp.id with
    | none => simp [hstored] at hconfused
    | some entry =>
        simp only [hstored, Option.map_some, Option.getD_some, isConfused, Bool.and_eq_true,
          Bool.not_eq_true'] at hconfused
        exact resolveConfusion_purges hlenient h hstored hconfused.1.1
  · rw [acknowledge_eq]
    exact .of_eq rfl

theorem answered_purges (hanswered : Answered s circuit lsp t) : Purges allowed s t := by
  cases hanswered with
  | deferred => exact .of_eq (s.purges_defer circuit lsp)
  | unsupported => exact forcePurge_purges hlenient s lsp (by decide)
  | removed => exact forcePurge_purges hlenient s lsp (by decide)
  | superseded => exact (count_purges s _).trans (originate_purges hlenient _ _)

/-- Arbitration finds a stored copy to be at the end of its life only when the purge of it is
heard. -/
theorem judged_purges (h : s.Consistent) (hjudged : Judged s circuit lsp t)
    (hunanswered : s.isOwn lsp.id = true → Unanswered s lsp)
    (houtlived : ∀ {mention}, s.Outlived lsp mention → allowed mention .expired) :
    Purges allowed s t := by
  cases hjudged with
  | recorded => exact .of_eq (s.purges_recordPurge circuit lsp)
  | accepted => exact .of_eq (s.purges_accept circuit lsp)
  | @outlived entry purge newer =>
      have hunelected : s.isOwn lsp.id = true → s.supports? lsp.id.pseudonode = some false := by
        intro hown
        obtain ⟨⟨supported, hsupports⟩, -, hsupported⟩ := hunanswered hown
        cases supported with
        | false => exact hsupports
        | true =>
            exact absurd newer (hsupported hsupports entry
              (known_of_stored purge.stored purge.known) purge.live)
      have hpurge : Purges allowed s (s.purge lsp.id .expired) :=
        .of_told (purges_purge h .expired purge.stored purge.live)
          (houtlived ⟨⟨entry, purge, rfl⟩, hunelected⟩)
      have hstep : Step (fun _ => True) s (s.purge lsp.id .expired) :=
        purge_step h .expired purge.stored purge.live
      exact hpurge.trans (acceptSame_purges hlenient (h.step hstep) circuit lsp)
  | same => exact acceptSame_purges hlenient h circuit lsp
  | older => exact .of_eq rfl

theorem receiveFrom_purges (h : s.Consistent) (circuit : CircuitId) (lsp : Lsp)
    (houtlived : ∀ {mention}, s.Outlived lsp mention → allowed mention .expired) :
    Purges allowed s (s.receiveFrom circuit lsp) := by
  have hcount : ∀ counters, Purges allowed s { s with counters := counters } :=
    fun _ => .of_eq (purges_congr rfl)
  by_cases hvalid : lsp.Valid
  · have hreceived := receiveFrom_received h circuit lsp
    have hconsistent : ∀ counters, { s with counters := counters }.Consistent :=
      fun _ => h.congr rfl rfl rfl rfl
    generalize s.receiveFrom circuit lsp = t at hreceived
    cases hreceived with
    | discarded invalid => exact absurd hvalid invalid
    | answered counters _ _ answered =>
        exact (hcount counters).trans (answered_purges hlenient answered)
    | judged counters _ unanswered judged =>
        exact (hcount counters).trans (judged_purges hlenient (hconsistent counters) judged
          (fun hown => unanswered_of_answerOwn (unanswered hown))
          fun houtlived' => houtlived (houtlived'.congr rfl rfl rfl rfl))
  · obtain ⟨counters, reason, heq⟩ := s.receiveFrom_discarded circuit hvalid
    rw [heq]
    exact (hcount counters).trans (.of_eq (purges_silent _ rfl))

/-! ### What is heard from the network -/

theorem receiveLsp_purges (h : s.Consistent) (circuit : CircuitId) (lsp : Lsp)
    (houtlived : ∀ {mention}, s.Outlived lsp mention → allowed mention .expired) :
    Purges allowed s (s.receiveLsp (some circuit) lsp).1 := by
  simp only [receiveLsp]
  split
  · exact .refl s
  · split
    · exact receiveFrom_purges hlenient h circuit lsp houtlived
    · exact .refl s

theorem receiveLspOctets_purges (h : s.Consistent) (circuit : CircuitId) {octets : Octets}
    (houtlived : ∀ {lsp mention}, Pdu.decode s.now octets = .ok (.lsp lsp) →
      s.Outlived lsp mention → allowed mention .expired) :
    Purges allowed s (s.receiveLspOctets (some circuit) octets).1 := by
  rw [receiveLspOctets]
  cases hdecode : Pdu.decode s.now octets with
  | error => exact .refl s
  | ok pdu =>
      have htell : Purges allowed s (s.tell (.pduReceived circuit pdu)) :=
        .of_eq (purges_silent s rfl)
      apply htell.trans
      cases pdu with
      | lsp lsp =>
          exact receiveLsp_purges hlenient (h.tell _) circuit lsp fun hsame =>
            houtlived hdecode (hsame.congr rfl rfl rfl rfl)
      | snp => exact .refl _

theorem review_purges (h : s.Consistent) (circuit : CircuitId) (summary : LspSummary) :
    Purges allowed s (s.review circuit summary) := by
  rw [review]
  cases hstored : s.database.get? summary.id with
  | none => exact .of_eq (s.purges_requestUnknown circuit summary)
  | some entry =>
      dsimp only
      rw [reviewStored]
      split
      · split
        · rename_i hconfused
          simp only [isConfused, Bool.and_eq_true, Bool.not_eq_true'] at hconfused
          exact resolveConfusion_purges hlenient h hstored hconfused.1.1
        · exact .of_eq (s.purges_settleSent circuit summary.id)
      · exact .of_eq (purges_congr rfl)
      · exact .of_eq (purges_settleSent _ circuit summary.id)

theorem reviewAll_purges (h : s.Consistent) (circuit : CircuitId) (snp : Snp) :
    Purges allowed s (s.reviewAll circuit snp) := by
  have hreviews : Purges allowed s
      ((listed snp).values.foldl (fun s summary => s.review circuit summary) s) :=
    .foldl _ h fun {t summary} _ ht =>
      ⟨ht.steps (@review_steps (fun _ => True) _ ht circuit summary),
        review_purges hlenient ht circuit summary⟩
  unfold reviewAll
  dsimp only
  split
  · exact hreviews.trans (markAll_purges _ circuit _)
  · exact hreviews

theorem receiveSnp_purges (h : s.Consistent) (circuit : CircuitId) (snp : Snp) :
    Purges allowed s (s.receiveSnp circuit snp).1 := by
  rw [receiveSnp]
  split
  · exact .refl s
  · split
    · exact .refl s
    · split
      · exact .refl s
      · exact reviewAll_purges hlenient h circuit snp

theorem receiveSnpOctets_purges (h : s.Consistent) (circuit : CircuitId) (octets : Octets) :
    Purges allowed s (s.receiveSnpOctets circuit octets).1 := by
  rw [receiveSnpOctets]
  cases Pdu.decode s.now octets with
  | error => exact .refl s
  | ok pdu =>
      have htell : Purges allowed s (s.tell (.pduReceived circuit pdu)) :=
        .of_eq (purges_silent s rfl)
      apply htell.trans
      cases pdu with
      | snp snp => exact receiveSnp_purges hlenient (h.tell _) circuit snp
      | lsp => exact .refl _

/-! ### Own LSPs -/

theorem purgeAll_purges (h : s.Consistent) {ids : List LspId} (hnodup : ids.Nodup)
    (hlive : ∀ id ∈ ids, ∃ entry, s.database.get? id = some entry ∧ entry.isPurged = false)
    {reason : PurgeReason} (hreason : reason ≠ .expired) :
    Purges allowed s (s.purgeAll ids reason) :=
  purgeAll_induction .refl .trans
    (fun h hstored hentry => purge_purges hlenient h hreason hstored hentry) h hnodup hlive

/-- Some of the live LSPs of a range are purged in turn. -/
theorem purgeRange_purges (h : s.Consistent) (start stop : LspId) {ids : List LspId}
    (hids : ids.Sublist (liveIds (s.database.range start stop))) :
    Purges allowed s (s.purgeAll ids .removed) :=
  purgeAll_purges hlenient h ((liveIds_range_nodup h start stop).sublist hids)
    (fun id hid => liveIds_range_live h start stop id (hids.subset hid)) (by decide)

theorem renewAll_purges (s : LevelState) (lsps : List Lsp) :
    Purges allowed s (lsps.foldl renew s) := by
  refine .foldl lsps (Q := fun _ => True) trivial fun {t lsp} _ _ => ⟨trivial, ?_⟩
  rw [renew]
  split
  · exact .refl t
  · exact originate_purges hlenient t lsp

theorem generate_purges {heard : Lsp → Prop} (h : Sound heard s) (pseudonode : UInt8) :
    Purges allowed s (s.generate pseudonode) := by
  have hsound := h.steps (renewAll_steps h fun lsp (hmem : lsp ∈ s.build pseudonode) =>
    isOwn_of_mem_build hmem)
  have hrenew := renewAll_purges hlenient s (s.build pseudonode)
  set t := (s.build pseudonode).foldl renew s
  set stale := (liveIds (t.database.ofNode ⟨t.config.system, pseudonode⟩)).filter fun id =>
    !(s.build pseudonode).any fun lsp => lsp.id = id
  have hpurge : Purges allowed t (t.purgeAll stale .removed) :=
    purgeRange_purges hlenient hsound.consistent _ _ List.filter_sublist
  exact (hrenew.trans hpurge).trans (.of_eq (purges_congr rfl))

theorem removeGenerator_purges (h : s.Consistent) (pseudonode : UInt8) :
    Purges allowed s (s.removeGenerator pseudonode) := by
  rw [removeGenerator]
  split
  · exact .refl s
  · rename_i generator hstored
    have hkept : s.kept? (.generate pseudonode) = generator.timer := by simp [kept?, hstored]
    have hdropped := h.dropGenerator pseudonode
    rw [hkept] at hdropped
    simp only [cancel_eq]
    have htold : Purges allowed s ({ s with
        generators := s.generators.erase pseudonode
        timers := s.timers.release generator.timer }.tell
          (.generatorRemoved s.level pseudonode)) := .of_eq (purges_silent _ rfl)
    exact htold.trans (purgeRange_purges hlenient (hdropped.tell _) _ _ (.refl _))

theorem recordElection_purges (h : s.Consistent) (pseudonode : UInt8)
    (election : Option Election) : Purges allowed s (s.recordElection pseudonode election) := by
  have helect : ∀ elections, Purges allowed s { s with elections := elections } :=
    fun _ => .of_eq (purges_congr rfl)
  have hconsistent : ∀ elections, { s with elections := elections }.Consistent :=
    fun _ => h.congr rfl rfl rfl rfl
  cases election with
  | none =>
      exact (helect _).trans (removeGenerator_purges hlenient (hconsistent _) pseudonode)
  | some election =>
      simp only [recordElection]
      split
      · exact (helect _).trans (.of_eq (purges_scheduleGeneration _ pseudonode _))
      · exact (helect _).trans (removeGenerator_purges hlenient (hconsistent _) pseudonode)

end Lenient

end LevelState

end LinkState
