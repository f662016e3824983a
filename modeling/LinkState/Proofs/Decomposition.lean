import LinkState.Proofs.Judgement

/-!
# Operations as sequences of steps

In a state whose timers fit its database, and that has deferred only LSPs which
were heard, whatever is asked of a level is done by steps.  Received LSPs come
first, then sequence numbers PDUs, timers, and requests of the surroundings.
-/

namespace LinkState.LevelState

variable {heard : Lsp → Prop} {s t u : LevelState} {id : LspId}

/-- The database and the timers fit each other, and all LSPs that wait for the
outcome of an election are own ones that were heard. -/
structure Sound (heard : Lsp → Prop) (s : LevelState) : Prop where
  consistent : s.Consistent
  deferred : ∀ {pseudonode : UInt8} {waiting : Table LspId DeferredLsp} {id : LspId}
    {deferred : DeferredLsp}, s.deferred.get? pseudonode = some waiting →
      waiting.get? id = some deferred → heard deferred.lsp ∧ s.isOwn deferred.lsp.id = true

theorem Consistent.tell (h : s.Consistent) (event : Event) : (s.tell event).Consistent :=
  h.congr rfl rfl rfl rfl

theorem Consistent.count (h : s.Consistent) (f : Counters → Counters) : (s.count f).Consistent :=
  h.congr rfl rfl rfl rfl

namespace Sound

theorem step (h : Sound heard s) (hstep : Step heard s t) : Sound heard t where
  consistent := h.consistent.step hstep
  deferred := by
    intro pseudonode waiting id deferred hwaiting hid
    rw [isOwn, hstep.constant.2.1]
    rcases hstep.deferred hwaiting hid with hheard | ⟨waiting', hwaiting', hid'⟩
    · exact hheard
    · exact h.deferred hwaiting' hid'

theorem steps (h : Sound heard s) (hsteps : Steps heard s t) : Sound heard t :=
  hsteps.invariant (fun h hstep => h.step hstep) h

end Sound

theorem tell_steps (s : LevelState) {event : Event} (silent : event.changesDatabase = false) :
    Steps heard s (s.tell event) :=
  (Step.tell event silent).steps

theorem count_steps (s : LevelState) (f : Counters → Counters) : Steps heard s (s.count f) :=
  (Step.count { f s.counters with touched := true }).steps

/-- A fold is done by steps if each of its rounds is, whatever state the rounds
before it have led to. -/
theorem foldl_steps {α : Type} {f : LevelState → α → LevelState} {items : List α}
    (hf : ∀ {t item}, item ∈ items → Steps heard s t → Sound heard t → Steps heard t (f t item))
    (h : Sound heard s) : Steps heard s (items.foldl f s) := by
  have hfold : ∀ {t : LevelState} (rest : List α), (∀ item ∈ rest, item ∈ items) →
      Steps heard s t → Steps heard s (rest.foldl f t) := by
    intro t rest hsub hst
    induction rest generalizing t with
    | nil => exact hst
    | cons item rest ih =>
        have hround := hf (hsub item List.mem_cons_self) hst (h.steps hst)
        exact ih (fun other hother => hsub other (List.mem_cons_of_mem _ hother))
          (hst.trans hround)
  exact hfold items (fun _ hitem => hitem) .refl

theorem Consistent.steps (h : s.Consistent) (hsteps : Steps heard s t) : t.Consistent :=
  hsteps.invariant (fun h hstep => h.step hstep) h

/-! ### Purging and deleting -/

theorem purge_step (h : s.Consistent) {entry : Entry} (reason : PurgeReason)
    (hstored : s.database.get? id = some entry) (hlive : entry.isPurged = false) :
    Step heard s (s.purge id reason) :=
  .purge reason hstored hlive (zeroAgeTimer_of_live h hstored hlive)

/-- Purging one LSP leaves the entries of the others alone. -/
theorem purge_get?_of_ne (h : s.Consistent) {entry : Entry} (reason : PurgeReason)
    (hstored : s.database.get? id = some entry) (hlive : entry.isPurged = false) {other : LspId}
    (hne : other ≠ id) :
    (s.purge id reason).database.get? other = s.database.get? other := by
  obtain ⟨counters, history, number, trace, heq⟩ :=
    purge_installs reason hstored hlive (zeroAgeTimer_of_live h hstored hlive)
  rw [heq]
  have hid : (s.purgeOf entry.lsp).id = id := h.keys hstored
  exact Table.get?_insert_of_ne _ _ (hid ▸ hne)

/-- Several live LSPs are purged in turn, none of them twice.  What each purge does to a
state, all of them do. -/
theorem purgeAll_induction {R : LevelState → LevelState → Prop} {reason : PurgeReason}
    (hrefl : ∀ s, R s s) (htrans : ∀ {s t u}, R s t → R t u → R s u)
    (hpurge : ∀ {s id entry}, s.Consistent → s.database.get? id = some entry →
      entry.isPurged = false → R s (s.purge id reason))
    (h : s.Consistent) {ids : List LspId} (hnodup : ids.Nodup)
    (hlive : ∀ id ∈ ids, ∃ entry, s.database.get? id = some entry ∧ entry.isPurged = false) :
    R s (s.purgeAll ids reason) := by
  induction ids generalizing s with
  | nil => exact hrefl s
  | cons id rest ih =>
      obtain ⟨hnotin, hrest⟩ := List.nodup_cons.1 hnodup
      obtain ⟨entry, hstored, hentry⟩ := hlive id List.mem_cons_self
      have hstep : Step (fun _ => True) s (s.purge id reason) :=
        purge_step h reason hstored hentry
      refine htrans (hpurge h hstored hentry) (ih (h.step hstep) hrest fun other hother => ?_)
      rw [purge_get?_of_ne h reason hstored hentry fun heq => hnotin (heq ▸ hother)]
      exact hlive other (List.mem_cons_of_mem _ hother)

theorem purgeAll_steps (h : s.Consistent) {ids : List LspId} (hnodup : ids.Nodup)
    (hlive : ∀ id ∈ ids, ∃ entry, s.database.get? id = some entry ∧ entry.isPurged = false)
    (reason : PurgeReason) : Steps heard s (s.purgeAll ids reason) :=
  purgeAll_induction (fun _ => .refl) (fun hst htu => hst.trans htu)
    (fun h hstored hentry => (purge_step h reason hstored hentry).steps) h hnodup hlive

theorem mem_select {database : Database} {condition : LspId → Bool} {entry : Entry} :
    entry ∈ database.select condition ↔
      ∃ id, database.get? id = some entry ∧ condition id = true := by
  simp [Database.select, ← Table.mem_toList]

theorem liveIds_range_live (h : s.Consistent) (start stop : LspId) :
    ∀ id ∈ liveIds (s.database.range start stop),
      ∃ entry, s.database.get? id = some entry ∧ entry.isPurged = false := by
  intro id hid
  obtain ⟨entry, hmem, rfl⟩ := List.mem_map.1 hid
  obtain ⟨hselected, hlive⟩ := List.mem_filter.1 hmem
  obtain ⟨k, hstored, -⟩ := mem_select.1 hselected
  rw [h.keys hstored]
  refine ⟨entry, hstored, ?_⟩
  rw [Entry.isLive_iff] at hlive
  exact hlive.1

theorem select_ids (h : s.Consistent) (condition : LspId → Bool) :
    (s.database.select condition).map (fun entry => entry.lsp.id) =
      s.database.keys.filter condition := by
  have hpairs : ∀ p ∈ s.database.toList.filter fun p => condition p.1, p.2.lsp.id = p.1 :=
    fun p hp => h.keys (Table.mem_toList.1 (List.mem_filter.1 hp).1)
  rw [Database.select, List.map_map, Table.keys, List.filter_map]
  exact List.map_congr_left hpairs

theorem liveIds_range_nodup (h : s.Consistent) (start stop : LspId) :
    (liveIds (s.database.range start stop)).Nodup := by
  have hids : ((s.database.range start stop).map fun entry => entry.lsp.id).Nodup := by
    rw [Database.range, select_ids h]
    exact s.database.nodup_keys.filter _
  exact hids.sublist (List.filter_sublist.map _)

/-- Some of the live LSPs of a range are purged in turn. -/
theorem purgeRange_steps (h : Sound heard s) (start stop : LspId) {ids : List LspId}
    (hids : ids.Sublist (liveIds (s.database.range start stop))) :
    Steps heard s (s.purgeAll ids .removed) :=
  purgeAll_steps h.consistent ((liveIds_range_nodup h.consistent start stop).sublist hids)
    (fun id hid => liveIds_range_live h.consistent start stop id (hids.subset hid)) .removed

theorem purgeNode_steps (h : Sound heard s) (node : NodeId) :
    Steps heard s (s.purgeNode node) :=
  purgeRange_steps h (.ofNode node 0) (.ofNode node 255) (.refl _)

theorem delete_steps {entry : Entry} (hstored : s.database.get? id = some entry)
    (hended : entry.isPlaceholder = true ∨ entry.isPurged = true) :
    Steps heard s (s.delete id) := by
  have hremove : Steps heard s _ := .single (.remove hstored hended)
  simp only [delete, hstored]
  apply hremove.trans
  split
  · exact (Step.scheduleGeneration _ 0).steps
  · exact .refl

theorem expire_steps (h : s.Consistent) {entry : Entry}
    (hstored : s.database.get? id = some entry) (hlive : entry.isPurged = false) :
    Steps heard s (s.expire id) := by
  simp only [expire, hstored]
  split
  · rename_i hplaceholder
    exact delete_steps hstored (.inl hplaceholder)
  · exact (purge_step h .expired hstored hlive).steps

/-! ### Originating -/

theorem originate_steps {lsp : Lsp} (hown : s.isOwn lsp.id = true) :
    Steps heard s (s.originate lsp) := by
  cases hnext : nextSeqno? (max lsp.seqno (s.storedSeqno lsp.id)) with
  | some seqno => exact (Step.originate hown hnext).steps
  | none =>
      have hcount : Steps heard s
          (s.count fun c => { c with exhaustedSeqnos := c.exhaustedSeqnos + 1 }) := count_steps s _
      have htell := hcount.tail (.tell (.lspChanged .exhausted s.level lsp.mention) rfl)
      simp only [originate, hnext]
      apply htell.trans
      split
      · exact .single (.forcePurge .maxSeqno hown)
      · exact .refl

theorem originate_entry_steps (h : s.Consistent) {entry : Entry}
    (hstored : s.database.get? id = some entry) (hreceived : entry.received = false) :
    Steps heard s (s.originate entry.lsp) := by
  apply originate_steps
  rw [h.keys hstored]
  exact h.own hstored hreceived

theorem resolveConfusion_steps (h : s.Consistent) {entry : Entry}
    (hstored : s.database.get? id = some entry) (hlive : entry.isPurged = false) :
    Steps heard s (s.resolveConfusion id) := by
  have htell : Steps heard s (s.tell (.lspChanged .confused s.level entry.lsp.mention)) :=
    tell_steps s rfl
  simp only [resolveConfusion, hstored]
  apply htell.trans
  split
  · exact .single (purge_step (h.tell _) .confusion hstored hlive)
  · rename_i hreceived
    refine .trans (count_steps _ fun c => { c with skippedSeqnos := c.skippedSeqnos + 1 }) ?_
    exact originate_entry_steps ((h.tell _).count _) hstored (by simpa using hreceived)

/-! ### Receiving LSPs -/

/-- The same LSP is acknowledged, or the confusion about it is resolved. -/
theorem acceptSame_steps (h : s.Consistent) {circuit : CircuitId} {lsp : Lsp}
    (hheard : heard lsp) (hsame : s.recency lsp = .same) :
    Steps heard s (s.acceptSame circuit lsp (s.database.get? lsp.id)) := by
  rw [acceptSame]
  split
  · rename_i hconfused
    cases hstored : s.database.get? lsp.id with
    | none => simp [hstored] at hconfused
    | some entry =>
        have hlive : entry.isPurged = false := by
          simp only [hstored, Option.map_some, Option.getD_some, isConfused, Bool.and_eq_true,
            Bool.not_eq_true'] at hconfused
          exact hconfused.1.1
        exact resolveConfusion_steps h hstored hlive
  · have hunmark : Steps heard s (s.clearFlags .srm lsp.id none) :=
      .single (.unmarkAll .srm lsp.id none)
    exact hunmark.tail (.acknowledge hheard hsame)

theorem answerOlder_steps (h : s.Consistent) {circuit : CircuitId} {entry : Entry}
    (hstored : s.database.get? id = some entry) : Steps heard s (s.answerOlder circuit entry) := by
  have hmark : Steps heard s (s.setFlag .srm (s.summaryOf entry.lsp) circuit) :=
    .single (.mark .srm circuit ((h.keys hstored).symm ▸ hstored))
  exact (hmark.tail (.unmark .ssn entry.lsp.id circuit)).tail
    (.unmarkAll .srm entry.lsp.id (some circuit))

theorem Judged.steps (h : s.Consistent) {circuit : CircuitId} {lsp : Lsp}
    (hadmitted : s.Admitted heard circuit lsp) (hjudged : Judged s circuit lsp t) :
    Steps heard s t := by
  cases hjudged with
  | recorded expired unknown => exact .single (.recordPurge hadmitted expired unknown)
  | accepted newer known => exact .single (.accept hadmitted newer known)
  | outlived purge _ same =>
      have hpurge : Step heard s (s.purge lsp.id .expired) :=
        purge_step h .expired purge.stored purge.live
      exact hpurge.steps.trans (acceptSame_steps (h.step hpurge) hadmitted.heard same)
  | same same => exact acceptSame_steps h hadmitted.heard same
  | older _ stored => exact answerOlder_steps h stored

theorem Answered.steps (h : s.Consistent) {circuit : CircuitId} {lsp : Lsp}
    (hregistered : s.circuits.contains circuit = true) (hheard : heard lsp)
    (hown : s.isOwn lsp.id = true) (hanswered : Answered s circuit lsp t) : Steps heard s t := by
  cases hanswered with
  | deferred undecided => exact .single (.defer hregistered hheard hown undecided)
  | unsupported => exact .single (.forcePurge .unsupported hown)
  | removed => exact .single (.forcePurge .removed hown)
  | superseded _ known =>
      refine (count_steps s _).trans (originate_steps ?_)
      have hid := h.keys (stored_of_known known).1
      exact hid ▸ hown

/-- Whatever comes of an LSP from a circuit comes about by steps. -/
theorem receiveFrom_steps (h : s.Consistent) {circuit : CircuitId} {lsp : Lsp}
    (hregistered : s.circuits.contains circuit = true) (hheard : heard lsp)
    (hlevel : lsp.level = s.level) : Steps heard s (s.receiveFrom circuit lsp) := by
  have hcount : ∀ counters, Steps heard s { s with counters := counters } :=
    fun counters => (Step.count counters).steps
  have hconsistent : ∀ counters, { s with counters := counters }.Consistent :=
    fun _ => h.congr rfl rfl rfl rfl
  have hreceived := receiveFrom_received h circuit lsp
  generalize s.receiveFrom circuit lsp = t at hreceived
  cases hreceived with
  | discarded _ counters _ silent => exact (hcount counters).trans (tell_steps _ silent)
  | answered counters _ own answered =>
      exact (hcount counters).trans (answered.steps (hconsistent _) hregistered hheard own)
  | judged counters valid unanswered judged =>
      exact (hcount counters).trans (judged.steps (hconsistent _)
        ⟨hregistered, hheard, hlevel, valid.intact, valid.purge, unanswered⟩)

/-- An LSP of the level that comes from a known circuit is processed. -/
theorem receiveLsp_registered {circuit : CircuitId} {lsp : Lsp}
    (hregistered : s.circuits.contains circuit = true) (hlevel : lsp.level = s.level) :
    s.receiveLsp (some circuit) lsp = (s.receiveFrom circuit lsp, none) := by
  rw [receiveLsp, if_neg fun hother => hother hlevel]
  exact if_pos hregistered

theorem receiveLsp_steps (h : s.Consistent) {circuit : Option CircuitId} {lsp : Lsp}
    (hheard : circuit.isSome = true → heard lsp) :
    Steps heard s (s.receiveLsp circuit lsp).1 := by
  simp only [receiveLsp]
  split
  · exact .refl
  · rename_i hlevel
    split
    · split
      · rename_i hown
        exact originate_steps hown
      · exact .refl
    · split
      · rename_i hregistered
        exact receiveFrom_steps h hregistered (hheard rfl) (not_not.1 hlevel)
      · exact .refl

/-! ### Receiving sequence numbers PDUs -/

theorem settleSent_steps (s : LevelState) (circuit : CircuitId) (id : LspId) :
    Steps heard s (s.settleSent circuit id) := by
  rw [settleSent]
  split
  · exact .single (.unmark .srm id circuit)
  · exact .refl

/-- A summary has an LSP asked for or sent, or reveals a confusion about it. -/
theorem review_steps (h : s.Consistent) (circuit : CircuitId) (summary : LspSummary) :
    Steps heard s (s.review circuit summary) := by
  rw [review]
  cases hstored : s.database.get? summary.id with
  | none => exact .single (.request hstored)
  | some entry =>
      have hid : s.database.get? entry.lsp.id = some entry := (h.keys hstored).symm ▸ hstored
      dsimp only
      rw [reviewStored]
      split
      · split
        · rename_i hconfused
          simp only [isConfused, Bool.and_eq_true, Bool.not_eq_true'] at hconfused
          exact resolveConfusion_steps h hstored hconfused.1.1
        · exact settleSent_steps s circuit summary.id
      · have hunmark : Steps heard s (s.clearFlag .ssn summary.id circuit) :=
          .single (.unmark .ssn summary.id circuit)
        exact hunmark.tail (.mark .srm circuit hid)
      · have hmark : Steps heard s (s.setFlag .ssn (s.summaryOf entry.lsp) circuit) :=
          .single (.mark .ssn circuit hid)
        exact hmark.trans (settleSent_steps _ circuit summary.id)

/-- Marking stored LSPs for sending, as their entries were at first. -/
theorem markAll_steps {entries : List Entry} {circuit : CircuitId}
    (hstored : ∀ entry ∈ entries, s.database.get? entry.lsp.id = some entry) :
    Steps heard s
      (entries.foldl (fun s entry => s.setFlag .srm (s.summaryOf entry.lsp) circuit) s) := by
  induction entries generalizing s with
  | nil => exact .refl
  | cons entry rest ih =>
      have hmark : Steps heard s (s.setFlag .srm (s.summaryOf entry.lsp) circuit) :=
        .single (.mark .srm circuit (hstored entry List.mem_cons_self))
      exact hmark.trans (ih fun other hother => hstored other (List.mem_cons_of_mem _ hother))

theorem sendUnlisted_steps (h : s.Consistent) (circuit : CircuitId) (start stop : LspId)
    (listed : Table LspId LspSummary) :
    Steps heard s (s.sendUnlisted circuit start stop listed) := by
  apply markAll_steps
  intro entry hentry
  obtain ⟨id, hstored, -⟩ := mem_select.1 (List.mem_filter.1 hentry).1
  rw [h.keys hstored]
  exact hstored

theorem receiveSnp_steps (h : Sound heard s) (circuit : CircuitId) (snp : Snp) :
    Steps heard s (s.receiveSnp circuit snp).1 := by
  have hreview : Steps heard s (s.reviewAll circuit snp) := by
    have hsummaries : Steps heard s
        ((listed snp).values.foldl (fun s summary => s.review circuit summary) s) :=
      foldl_steps (fun _ _ h => review_steps h.consistent circuit _) h
    unfold reviewAll
    dsimp only
    split
    · exact hsummaries.trans (sendUnlisted_steps (h.steps hsummaries).consistent _ _ _ _)
    · exact hsummaries
  rw [receiveSnp]
  split
  · exact .refl
  · split
    · exact .refl
    · split
      · exact .refl
      · exact hreview

/-! ### Generating and timers -/

theorem isOwn_of_mem_build {pseudonode : UInt8} {lsp : Lsp} (hmem : lsp ∈ s.build pseudonode) :
    s.isOwn lsp.id = true := by
  rw [build] at hmem
  split at hmem
  · simp at hmem
  · obtain ⟨index, hindex, rfl⟩ := List.mem_mapIdx.1 hmem
    simp [buildFragment, Lsp.make, Lsp.encode, isOwn]

theorem renewAll_steps (h : Sound heard s) {lsps : List Lsp}
    (hown : ∀ lsp ∈ lsps, s.isOwn lsp.id = true) : Steps heard s (lsps.foldl renew s) := by
  refine foldl_steps (fun {t lsp} hmem hst _ => ?_) h
  rw [renew]
  split
  · exact .refl
  · apply originate_steps
    rw [isOwn, hst.constant.2.1]
    exact hown lsp hmem

theorem generate_steps (h : Sound heard s) (pseudonode : UInt8) :
    Steps heard s (s.generate pseudonode) := by
  have hrenew := renewAll_steps h fun lsp (hmem : lsp ∈ s.build pseudonode) =>
    isOwn_of_mem_build hmem
  have hpurge := purgeRange_steps (h.steps hrenew)
    (.ofNode ⟨((s.build pseudonode).foldl renew s).config.system, pseudonode⟩ 0)
    (.ofNode ⟨((s.build pseudonode).foldl renew s).config.system, pseudonode⟩ 255)
    (List.filter_sublist (p := fun id => !(s.build pseudonode).any fun lsp => lsp.id = id))
  exact (hrenew.trans hpurge).tail (.endGeneration pseudonode)

theorem removeGenerator_steps (h : Sound heard s) (pseudonode : UInt8) :
    Steps heard s (s.removeGenerator pseudonode) := by
  cases hstored : s.generators.get? pseudonode with
  | none =>
      simp only [removeGenerator, hstored]
      exact .refl
  | some generator =>
      have hdrop : Steps heard s _ := .single (.dropGenerator pseudonode)
      have htell := hdrop.tail (.tell (.generatorRemoved s.level pseudonode) rfl)
      have hkept : s.kept? (.generate pseudonode) = generator.timer := by simp [kept?, hstored]
      simp only [removeGenerator, hstored, cancel_eq]
      rw [hkept] at htell
      exact htell.trans (purgeNode_steps (h.steps htell) ⟨s.config.system, pseudonode⟩)

/-- A timer that fires acts by steps. -/
theorem fireNext_steps (h : Sound heard s) (hfire : s.fireNext? = some t) :
    Steps heard s t := by
  cases fireNext_fired h.consistent hfire with
  | expired stored _ _ _ live => exact expire_steps h.consistent stored live
  | deleted stored _ _ purged => exact delete_steps stored (.inr purged)
  | refreshed stored _ _ _ own =>
      refine (tell_steps s rfl).trans (originate_steps ?_)
      rw [← h.consistent.keys stored] at own
      exact own
  | @generated pseudonode handle kept due =>
      have hbegin : Step heard s (s.disarmed (.generate pseudonode)) := .beginGeneration kept due
      exact hbegin.steps.trans (generate_steps (h.step hbegin) pseudonode)

theorem fireUpTo_steps (h : Sound heard s) (fuel : Nat) : Steps heard s (fireUpTo fuel s).2 := by
  induction fuel generalizing s with
  | zero => exact .refl
  | succ fuel ih =>
      rw [fireUpTo]
      split
      · exact .refl
      · rename_i next hnext
        have hfire := fireNext_steps h hnext
        exact hfire.trans (ih (h.steps hfire))

/-! ### Requests of the surroundings -/

theorem addCircuit_steps (h : Sound heard s) (circuit : Circuit) :
    Steps heard s (s.addCircuit circuit) := by
  have htell : Steps heard s (s.tell (.circuitAdded circuit)) := tell_steps s rfl
  have hadd := htell.tail (.addCircuit circuit)
  rw [addCircuit]
  dsimp only
  split
  · refine hadd.trans (markAll_steps fun entry hentry => ?_)
    obtain ⟨id, hstored⟩ := Table.mem_values.1 (List.mem_filter.1 hentry).1
    rw [h.consistent.keys hstored]
    exact hstored
  · exact hadd

/-- An error is told in the state that the refused request left. -/
theorem tellOutcome_eq (outcome : Outcome) :
    tellOutcome outcome = outcome.1 ∨
      ∃ error, tellOutcome outcome = outcome.1.tell (.refused error) := by
  obtain ⟨s, _ | error⟩ := outcome
  · exact .inl rfl
  · exact .inr ⟨error, rfl⟩

theorem resume_steps (h : s.Consistent) {deferred : DeferredLsp} (hheard : heard deferred.lsp) :
    Steps heard s (s.resume deferred) := by
  have hreceive : Steps heard s (s.receiveLsp (some deferred.circuit) deferred.lsp).1 :=
    receiveLsp_steps h fun _ => hheard
  rcases tellOutcome_eq (s.receiveLsp (some deferred.circuit) deferred.lsp) with heq | ⟨_, heq⟩
  · rw [resume, heq]
    exact hreceive
  · rw [resume, heq]
    exact hreceive.trans (tell_steps _ rfl)

theorem resumeAll_steps (h : Sound heard s) (pseudonode : UInt8) :
    Steps heard s (s.resumeAll pseudonode) := by
  rw [resumeAll]
  split
  · exact .refl
  · rename_i waiting hwaiting
    have htake : Step heard s { s with deferred := s.deferred.erase pseudonode } :=
      .takeDeferred pseudonode
    refine htake.steps.trans (foldl_steps (fun {t deferred} hmem _ ht => ?_) (h.step htake))
    obtain ⟨id, hid⟩ := Table.mem_values.1 hmem
    exact resume_steps ht.consistent (h.deferred hwaiting hid).1

theorem recordElection_steps (h : Sound heard s) (pseudonode : UInt8)
    (election : Option Election) : Steps heard s (s.recordElection pseudonode election) := by
  have helect : ∀ elections, Step heard s { s with elections := elections } := .elect
  unfold recordElection
  split
  · dsimp only
    split
    · exact (helect _).steps.tail (.scheduleGeneration pseudonode _)
    · exact (helect _).steps.trans (removeGenerator_steps (h.step (helect _)) pseudonode)
  · exact (helect _).steps.trans (removeGenerator_steps (h.step (helect _)) pseudonode)

theorem setElection_steps (h : Sound heard s) (pseudonode : UInt8)
    (election : Option Election) : Steps heard s (s.setElection pseudonode election) := by
  have htell : Steps heard s (s.tell (.electionChanged pseudonode election)) :=
    tell_steps s rfl
  unfold setElection
  dsimp only
  split
  · exact htell
  · have hrecord := htell.trans (recordElection_steps (h.steps htell) pseudonode election)
    exact hrecord.trans (resumeAll_steps (h.steps hrecord) pseudonode)

theorem setAdvertisement_steps (s : LevelState) (advertised : Advertisement) :
    Steps heard s (s.setAdvertisement advertised) := by
  rw [setAdvertisement]
  split
  · exact .refl
  · exact .tail (.single (.advertise advertised)) (.scheduleGeneration 0 0)

theorem purgeOwn_steps (h : Sound heard s) : Steps heard s s.purgeOwn := by
  have hcancel : Steps heard s (s.generators.keys.foldl cancelGeneration s) :=
    foldl_steps (fun _ _ _ => .single (.cancelGeneration _)) h
  exact hcancel.trans (purgeRange_steps (h.steps hcancel) _ _ (.refl _))

theorem purgeLsp_steps (h : s.Consistent)
    (hlive : ∀ entry, s.database.get? id = some entry → entry.isPurged = false) :
    Steps heard s (s.purgeLsp id).1 := by
  rw [purgeLsp]
  split
  · rename_i hcontains
    obtain ⟨entry, hstored⟩ := Option.isSome_iff_exists.1 hcontains
    exact .single (purge_step h .removed hstored (hlive entry hstored))
  · exact .refl

/-! ### Pages -/

theorem buildPages_steps (count : Nat) (s : LevelState) :
    Steps heard s (buildPages count s) := by
  induction count generalizing s with
  | zero => exact .refl
  | succ count ih =>
      rw [buildPages]
      split
      · exact .refl
      · rename_i hincomplete
        exact .trans (.single (.buildPage (by simpa using hincomplete))) (ih s.buildPage)

/-- Building pages leaves everything else alone. -/
theorem buildPages_eq (count : Nat) (s : LevelState) :
    ∃ pages trace, buildPages count s = { s with pages := pages, trace := trace } := by
  induction count generalizing s with
  | zero => exact ⟨s.pages, s.trace, rfl⟩
  | succ count ih =>
      rw [buildPages]
      split
      · exact ⟨s.pages, s.trace, rfl⟩
      · exact ih s.buildPage

theorem buildPages_length (count : Nat) (s : LevelState) :
    s.pages.length ≤ (buildPages count s).pages.length := by
  induction count generalizing s with
  | zero => exact Nat.le_refl _
  | succ count ih =>
      rw [buildPages]
      split
      · exact Nat.le_refl _
      · have hgrows : s.buildPage.pages.length = s.pages.length + 1 := by simp [buildPage, tell]
        have hrest := ih s.buildPage
        omega

/-- Asking for a page builds at least the first one. -/
theorem buildPages_pos (index : Nat) (s : LevelState) :
    0 < (buildPages (index + 1 - s.pages.length) s).pages.length := by
  by_cases hempty : s.pages = []
  · have hincomplete : Page.complete s.pages = false := by
      rw [hempty]
      rfl
    have hgrows := buildPages_length index s.buildPage
    simp only [hempty, List.length_nil, Nat.sub_zero, buildPages]
    rw [if_neg (by rw [hempty] at hincomplete; simp [hincomplete])]
    have hone : s.buildPage.pages.length = 1 := by simp [buildPage, tell, hempty]
    omega
  · exact Nat.lt_of_lt_of_le (List.length_pos_iff.2 hempty) (buildPages_length _ s)

/-- The page that is asked for, after the pages up to it are built. -/
theorem page_eq (s : LevelState) (index : Nat) :
    ∃ page built, built = buildPages (index + 1 - s.pages.length) s ∧
      s.page index = (some page, built) ∧
        built.pages[if index < built.pages.length then index else 0]? = some page := by
  have hpos := buildPages_pos index s
  unfold page
  dsimp only
  generalize buildPages (index + 1 - s.pages.length) s = built at hpos
  split
  · rename_i page hpage
    exact ⟨page, built, rfl, rfl, hpage⟩
  · rename_i hnone
    rw [List.getElem?_eq_none_iff] at hnone
    split at hnone <;> omega

/-- Asking for a page leaves everything else alone, too. -/
theorem page_state_eq (s : LevelState) (index : Nat) :
    ∃ pages trace, (s.page index).2 = { s with pages := pages, trace := trace } := by
  obtain ⟨page, built, hbuilt, heq, -⟩ := s.page_eq index
  rw [heq, hbuilt]
  exact buildPages_eq _ s

end LinkState.LevelState
