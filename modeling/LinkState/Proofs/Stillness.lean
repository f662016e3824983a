import LinkState.Proofs.Generation
import LinkState.Proofs.Reception

/-!
# What is heard brings no own LSP to life

An own LSP that is received is answered by a purge, or by a newer instance of a copy that
is live, and only purges and placeholders are stored as they were received.  So whatever
is heard from the network, no own LSP comes to be live that was not, and no generation is
scheduled or given up.
-/

namespace LinkState.LevelState

variable {s t u : LevelState} {id : LspId} {circuit : CircuitId} {lsp : Lsp}

/-- Between two states, no own LSP has come to be live, and the generators are left
alone. -/
structure Stilled (s t : LevelState) : Prop where
  surroundings : t.surroundings = s.surroundings
  generators : t.generators = s.generators
  published : ∀ {id}, s.isOwn id = true → t.published? id ≠ none → s.published? id ≠ none

theorem isOwn_congr (h : t.surroundings = s.surroundings) (id : LspId) : t.isOwn id = s.isOwn id :=
  congrArg (fun outside : Surroundings => decide (id.system = outside.config.system)) h

theorem published_ne_none {entry : Entry} (hstored : s.database.get? id = some entry)
    (hlive : entry.isLive = true) : s.published? id ≠ none := by
  simp [published_of_stored hstored hlive]

theorem Installs.generators {received : Bool} {flooding : Flooding}
    (h : Installs s lsp received flooding t) : t.generators = s.generators := by
  obtain ⟨counters, history, number, trace, rfl⟩ := h
  rfl

namespace Stilled

theorem trans (h : Stilled s t) (h' : Stilled t u) : Stilled s u where
  surroundings := h'.surroundings.trans h.surroundings
  generators := h'.generators.trans h.generators
  published := fun {id} hown hpublished =>
    h.published hown (h'.published (isOwn_congr h.surroundings id ▸ hown) hpublished)

theorem of_database (hsurroundings : t.surroundings = s.surroundings)
    (hgenerators : t.generators = s.generators) (hdatabase : t.database = s.database) :
    Stilled s t where
  surroundings := hsurroundings
  generators := hgenerators
  published := by
    intro id _ hpublished
    have hsame : t.published? id = s.published? id := published_congr (by rw [hdatabase])
    exact hsame ▸ hpublished

theorem refl (s : LevelState) : Stilled s s :=
  of_database rfl rfl rfl

theorem note (s : LevelState) (counters : Counters) (trace : List Event) :
    Stilled s { s with counters := counters, trace := trace } :=
  of_database rfl rfl rfl

theorem tell (s : LevelState) (event : Event) : Stilled s (s.tell event) :=
  note s s.counters (event :: s.trace)

/-- Only the LSP that is touched can come to be live. -/
theorem of_spares (h : Spares (· = id) s t) (hgenerators : t.generators = s.generators)
    (htouched : s.isOwn id = true → t.published? id ≠ none → s.published? id ≠ none) :
    Stilled s t where
  surroundings := h.surroundings
  generators := hgenerators
  published := by
    intro other hown hpublished
    by_cases hother : other = id
    · subst hother
      exact htouched hown hpublished
    · rwa [published_congr (h.get? hother)] at hpublished

/-- An LSP that is no longer live is no concern. -/
theorem of_silent (h : Spares (· = id) s t) (hgenerators : t.generators = s.generators)
    (hsilent : t.published? id = none) : Stilled s t :=
  of_spares h hgenerators fun _ hpublished => absurd hsilent hpublished

end Stilled

/-! ### Single changes -/

theorem purge_stilled (h : s.Consistent) {entry : Entry} (reason : PurgeReason)
    (hstored : s.database.get? id = some entry) (hlive : entry.isPurged = false) :
    Stilled s (s.purge id reason) :=
  .of_silent (Spares.purge h reason hstored hlive)
    (purge_installs reason hstored hlive (zeroAgeTimer_of_live h hstored hlive)).generators
    (purge_published h reason hstored hlive).1

theorem purgeAll_stilled (h : s.Consistent) {ids : List LspId} (hnodup : ids.Nodup)
    (hlive : ∀ id ∈ ids, ∃ entry, s.database.get? id = some entry ∧ entry.isPurged = false)
    (reason : PurgeReason) : Stilled s (s.purgeAll ids reason) :=
  purgeAll_induction .refl .trans (fun h hstored hentry => purge_stilled h reason hstored hentry)
    h hnodup hlive

/-- Some of the live LSPs of a range are purged in turn. -/
theorem purgeRange_stilled (h : s.Consistent) (start stop : LspId) {ids : List LspId}
    (hids : ids.Sublist (liveIds (s.database.range start stop))) :
    Stilled s (s.purgeAll ids .removed) :=
  purgeAll_stilled h ((liveIds_range_nodup h start stop).sublist hids)
    (fun id hid => liveIds_range_live h start stop id (hids.subset hid)) .removed

theorem forcePurge_stilled (s : LevelState) (lsp : Lsp) (reason : PurgeReason) :
    Stilled s (s.forcePurge lsp reason) :=
  .of_silent (Spares.forcePurge s lsp reason) (s.forcePurge_installs lsp reason).generators
    (s.forcePurge_published lsp reason).1

theorem originate_generators (s : LevelState) (lsp : Lsp) :
    (s.originate lsp).generators = s.generators := by
  cases hnext : nextSeqno? (max lsp.seqno (s.storedSeqno lsp.id)) with
  | some seqno => exact (originate_installs hnext).generators
  | none =>
      obtain ⟨counters, trace, heq⟩ := originate_exhausted hnext
      rw [heq]
      split
      · exact (forcePurge_installs _ lsp .maxSeqno).generators
      · rfl

/-- A new instance of a live LSP. -/
theorem originate_stilled (hlive : s.isOwn lsp.id = true → s.published? lsp.id ≠ none) :
    Stilled s (s.originate lsp) :=
  .of_spares (Spares.originate s lsp) (s.originate_generators lsp) fun hown _ => hlive hown

/-- Nothing starts over unless an own LSP is deleted whose sequence numbers are used up. -/
theorem delete_stilled {entry : Entry} (hstored : s.database.get? id = some entry)
    (hother : ¬ (s.isOwn id = true ∧ entry.lsp.seqno = 0xFFFFFFFF)) : Stilled s (s.delete id) := by
  refine .of_silent (Spares.delete hstored) ?_ (delete_published hstored)
  obtain ⟨trace, heq⟩ := remove_eq hstored
  have hsame : ((s.remove id).tell (.lspChanged .deleted s.level entry.lsp.mention)).isOwn id =
      s.isOwn id := by
    rw [heq]
    rfl
  simp only [delete, hstored, hsame, Bool.and_eq_true, decide_eq_true_eq, if_neg hother]
  rw [heq]
  rfl

theorem expire_stilled (h : s.Consistent) {entry : Entry}
    (hstored : s.database.get? id = some entry) (hlive : entry.isPurged = false) :
    Stilled s (s.expire id) := by
  simp only [expire, hstored]
  split
  · rename_i hplaceholder
    -- A placeholder has the sequence number zero.
    refine delete_stilled hstored ?_
    rintro ⟨-, hlast⟩
    rw [Entry.isPlaceholder, hlast] at hplaceholder
    cases hplaceholder
  · exact purge_stilled h .expired hstored hlive

theorem resolveConfusion_stilled (h : s.Consistent) (hguarded : s.Guarded) {entry : Entry}
    (hstored : s.database.get? id = some entry) (hlive : entry.isPurged = false) :
    Stilled s (s.resolveConfusion id) := by
  have htell := Stilled.tell s (.lspChanged .confused s.level entry.lsp.mention)
  have hid := h.keys hstored
  simp only [resolveConfusion, hstored]
  refine htell.trans ?_
  split
  · exact purge_stilled (h.tell _) .confusion hstored hlive
  · rename_i hreceived
    refine (Stilled.note _ _ _).trans (originate_stilled fun hown => ?_)
    rw [hid] at hown ⊢
    cases hguarded.genuine hstored hown hlive with
    | originated _ nonzero made =>
        refine published_ne_none hstored (Entry.isLive_iff.2 ⟨hlive, ?_⟩)
        rw [Entry.isPlaceholder, made]
        simp [Lsp.make, Lsp.encode, nonzero]
    | requested received => exact absurd received hreceived

theorem acceptSame_stilled (h : s.Consistent) (hguarded : s.Guarded) (circuit : CircuitId)
    (lsp : Lsp) : Stilled s (s.acceptSame circuit lsp (s.database.get? lsp.id)) := by
  rw [acceptSame]
  split
  · rename_i hconfused
    cases hstored : s.database.get? lsp.id with
    | none => simp [hstored] at hconfused
    | some entry =>
        simp only [hstored, Option.map_some, Option.getD_some, isConfused, Bool.and_eq_true,
          Bool.not_eq_true'] at hconfused
        exact resolveConfusion_stilled h hguarded hstored hconfused.1.1
  · rw [acknowledge_eq]
    exact .of_database rfl rfl rfl

/-! ### What is heard from the network -/

theorem answered_stilled (h : s.Consistent) (hanswered : Answered s circuit lsp t) :
    Stilled s t := by
  cases hanswered with
  | deferred =>
      obtain ⟨deferred, trace, heq⟩ := s.defer_eq circuit lsp
      rw [heq]
      exact .of_database rfl rfl rfl
  | unsupported => exact forcePurge_stilled s lsp .unsupported
  | removed => exact forcePurge_stilled s lsp .removed
  | @superseded entry _ known live =>
      obtain ⟨hstored, hplaceholder⟩ := stored_of_known known
      refine (Stilled.note s _ s.trace).trans (originate_stilled fun _ => ?_)
      have hid : entry.lsp.id = lsp.id := h.keys hstored
      exact hid ▸ published_ne_none hstored (Entry.isLive_iff.2 ⟨live, hplaceholder⟩)

/-- Under an own LSP ID only purges and placeholders are stored as received. -/
theorem judged_stilled (h : s.Consistent) (hguarded : s.Guarded)
    (hunanswered : s.isOwn lsp.id = true → Unanswered s lsp) (hjudged : Judged s circuit lsp t) :
    Stilled s t := by
  cases hjudged with
  | recorded =>
      have hinstalls := s.recordPurge_installs circuit lsp
      exact .of_silent (Spares.recordPurge s circuit lsp) hinstalls.generators
        hinstalls.published.2
  | accepted newer =>
      have hinstalls := s.accept_installs circuit lsp
      refine .of_spares (Spares.accept s circuit lsp) hinstalls.generators fun hown hpublished => ?_
      have hexpired : lsp.isExpired = true := by
        cases hcase : lsp.isExpired with
        | true => rfl
        | false => exact absurd newer ((hunanswered hown).live hcase)
      obtain ⟨-, hsilent⟩ := hinstalls.published
      rw [completed_isExpired, hexpired, completed_id, if_neg (by simp)] at hsilent
      exact absurd hsilent hpublished
  | outlived purge =>
      have hstep : Step (fun _ => True) s (s.purge lsp.id .expired) :=
        purge_step h .expired purge.stored purge.live
      exact (purge_stilled h .expired purge.stored purge.live).trans
        (acceptSame_stilled (h.step hstep) (hguarded.step hstep) circuit lsp)
  | same => exact acceptSame_stilled h hguarded circuit lsp
  | older => exact .of_database rfl rfl rfl

/-- An LSP that is heard brings no own LSP to life. -/
theorem receiveFrom_stilled (h : s.Consistent) (hguarded : s.Guarded) (circuit : CircuitId)
    (lsp : Lsp) : Stilled s (s.receiveFrom circuit lsp) := by
  have hreceived := receiveFrom_received h circuit lsp
  have hconsistent : ∀ counters, { s with counters := counters }.Consistent :=
    fun _ => h.congr rfl rfl rfl rfl
  have hguarded' : ∀ counters, { s with counters := counters }.Guarded :=
    fun _ => hguarded.congr rfl rfl rfl
  generalize s.receiveFrom circuit lsp = t at hreceived
  cases hreceived with
  | discarded _ counters event => exact .note s counters (event :: s.trace)
  | answered counters _ _ answered =>
      exact (Stilled.note s counters s.trace).trans
        (answered_stilled (hconsistent counters) answered)
  | judged counters _ unanswered judged =>
      exact (Stilled.note s counters s.trace).trans
        (judged_stilled (hconsistent counters) (hguarded' counters)
          (fun hown => unanswered_of_answerOwn (unanswered hown)) judged)

theorem settleSent_stilled (s : LevelState) (circuit : CircuitId) (id : LspId) :
    Stilled s (s.settleSent circuit id) := by
  rw [settleSent]
  split
  · exact .of_database rfl rfl rfl
  · exact .refl s

/-- A summary brings no own LSP to life: a placeholder is not live, and a confusion is about
LSPs that are. -/
theorem review_stilled (h : s.Consistent) (hguarded : s.Guarded) (circuit : CircuitId)
    (summary : LspSummary) : Stilled s (s.review circuit summary) := by
  rw [review]
  cases hstored : s.database.get? summary.id with
  | none =>
      dsimp only
      by_cases hasked : summary.lifetime ≠ 0 ∧ summary.checksum ≠ 0 ∧ summary.seqno ≠ 0
      · have hinstalls := s.requestUnknown_installs circuit hasked
        have hpublished := hinstalls.published.2
        rw [if_neg fun hcontra => hcontra.2 rfl] at hpublished
        exact .of_silent (Spares.requestUnknown s circuit summary) hinstalls.generators hpublished
      · rw [requestUnknown, if_neg hasked]
        exact .refl s
  | some entry =>
      dsimp only
      rw [reviewStored]
      split
      · split
        · rename_i hconfused
          simp only [isConfused, Bool.and_eq_true, Bool.not_eq_true'] at hconfused
          exact resolveConfusion_stilled h hguarded hstored hconfused.1.1
        · exact settleSent_stilled s circuit summary.id
      · exact .of_database rfl rfl rfl
      · have hset : Stilled s (s.setFlag .ssn (s.summaryOf entry.lsp) circuit) :=
          .of_database rfl rfl rfl
        exact hset.trans (settleSent_stilled _ circuit summary.id)

end LinkState.LevelState
