import LinkState.Proofs.Convergence
import LinkState.Proofs.Footprint
import LinkState.Proofs.TimerAccounting

/-!
# LSPs do not interfere

Whatever comes of a received LSP is decided by what is seen of that LSP alone.  So a
reception does the same in two states that are alike for the LSP, and leaves them alike.
Receptions of two different LSPs at one time can therefore change places: they have the
same results, and leave states that tell apart only by the numbers of timers and by the
order and the numbers of the log.
-/

namespace LinkState.LevelState

variable {s s' t t' : LevelState} {id : LspId} {circuit : CircuitId} {lsp : Lsp}

/-! ### What is decided alike -/

namespace Alike

theorem purgeOf (h : Alike id s s') (lsp : Lsp) : s'.purgeOf lsp = s.purgeOf lsp := by
  rw [LevelState.purgeOf, LevelState.purgeOf, h.purgeOriginator, h.now]

theorem completed (h : Alike id s s') (lsp : Lsp) : s'.completed lsp = s.completed lsp := by
  rw [LevelState.completed, LevelState.completed, h.purgeOriginator, h.now, h.config]

/-- What is known of the LSP says the same. -/
theorem known (h : Alike id s s') :
    (s'.known? id).map Entry.shape = (s.known? id).map Entry.shape := by
  cases hstored : s.database.get? id with
  | none => rw [known?, known?, hstored, h.absent hstored]
  | some entry =>
      obtain ⟨entry', hstored', hshape⟩ := h.stored hstored
      rw [known?, known?, hstored, hstored', Option.filter_some, Option.filter_some,
        Entry.isPlaceholder_congr hshape]
      split
      · rw [Option.map_some, Option.map_some, hshape]
      · rfl

theorem known_eq_none (h : Alike id s s') : s'.known? id = none ↔ s.known? id = none := by
  rw [← Option.map_eq_none_iff (f := Entry.shape), h.known, Option.map_eq_none_iff]

/-- Whether the life timer of the stored copy can be stopped.  A timer that an entry
waits for is pending, so its number does not matter. -/
theorem stopLife (hs : s.Consistent) (hs' : s'.Consistent) (h : Alike lsp.id s s') :
    (s'.stopLife lsp).1 = (s.stopLife lsp).1 := by
  have hread : ∀ {s : LevelState}, s.Consistent → (s.stopLife lsp).1 =
      ((s.database.get? lsp.id).map fun entry => ((entry.lifeTimer.map (·.due)).map fun due =>
        decide (s.now < due) ||
          Recency.ofFields entry.lsp.seqno 0 lsp.seqno lsp.lifetime = .newer).getD true).getD
            true := by
    intro s hs
    cases hstored : s.database.get? lsp.id with
    | none => simp only [LevelState.stopLife, hstored, Option.map_none, Option.getD_none]
    | some entry =>
        cases hlife : entry.lifeTimer with
        | none => simp [LevelState.stopLife, hstored, hlife]
        | some handle =>
            have hkept : s.kept? (.expire lsp.id) = some handle := by
              rw [kept?, hstored, Option.bind_some, hlife]
            have harmed : s.timers.isArmed handle.number = true :=
              List.any_eq_true.2 ⟨_, (hs.timers.mem_iff _ _).1 hkept, beq_self_eq_true _⟩
            simp [LevelState.stopLife, hstored, hlife, TimerQueue.cancel, harmed]
  rw [hread hs, hread hs', h.now, h.map_stored fun hshape => by
    rw [Entry.life_congr hshape, Entry.lsp_congr hshape]]

end Alike

namespace Twins

/-! ### Purging and originating -/

theorem purge (hs : s.Consistent) (hs' : s'.Consistent) (h : Alike id s s') (reason : PurgeReason)
    {entry : Entry} (hstored : s.database.get? id = some entry) (hlive : entry.isPurged = false) :
    Twins 1 id s (s.purge id reason) s' (s'.purge id reason) := by
  obtain ⟨entry', hstored', hshape⟩ := h.stored hstored
  have hlive' : entry'.isPurged = false := (Entry.isPurged_congr hshape).trans hlive
  rw [purge_live reason hstored hlive (zeroAgeTimer_of_live hs hstored hlive),
    purge_live reason hstored' hlive' (zeroAgeTimer_of_live hs' hstored' hlive')]
  have hid : (s.purgeOf entry.lsp).id = id := hs.keys hstored
  have htold := tell h (.lspPurged s.level entry.lsp.mention reason)
    (.lspPurged s'.level entry'.lsp.mention reason)
  rw [h.purgeOf, Entry.lsp_congr hshape, Entry.received_congr hshape] at *
  subst hid
  exact htold.trans (installAndFlood _ htold.alike entry.received)

theorem forcePurge (h : Alike lsp.id s s') (reason : PurgeReason) :
    Twins 1 lsp.id s (s.forcePurge lsp reason) s' (s'.forcePurge lsp reason) := by
  have hpurge : s'.forcedPurge lsp = s.forcedPurge lsp := by
    rw [forcedPurge, forcedPurge, h.now, h.level, h.storedSeqno, h.purgeOriginator]
  have hforce : ∀ s : LevelState, s.forcePurge lsp reason =
      (s.tell (.lspPurged s.level (s.forcedPurge lsp).mention reason)).installAndFlood
        (s.forcedPurge lsp) false := fun _ => rfl
  rw [hforce, hforce, hpurge]
  have htold := tell h (.lspPurged s.level (s.forcedPurge lsp).mention reason)
    (.lspPurged s'.level (s.forcedPurge lsp).mention reason)
  exact htold.trans (installAndFlood (s.forcedPurge lsp) htold.alike false)

theorem originate (lsp : Lsp) (h : Alike lsp.id s s') :
    Twins 1 lsp.id s (s.originate lsp) s' (s'.originate lsp) := by
  rw [LevelState.originate, LevelState.originate, h.storedSeqno]
  cases nextSeqno? (max lsp.seqno (s.storedSeqno lsp.id)) with
  | some seqno =>
      dsimp only
      rw [h.now, h.level, h.config]
      set fresh := Lsp.make s.now s.level s.config.lifetime lsp.id seqno lsp.flags lsp.tlvs
      have htold := tell h (.lspChanged .originated s.level fresh.mention)
        (.lspChanged .originated s.level fresh.mention)
      exact htold.trans (installAndFlood fresh htold.alike false)
  | none =>
      dsimp only
      have hcounted := count h (fun c => { c with exhaustedSeqnos := c.exhaustedSeqnos + 1 })
        ⟨0, 0, 0, 1, true⟩ fun counters => by simp [Counters.plus]
      have htold := tell hcounted.alike
        (.lspChanged .exhausted s.level lsp.mention) (.lspChanged .exhausted s'.level lsp.mention)
      have hbefore := hcounted.trans htold
      rw [h.map_stored fun hshape => by rw [Entry.isPurged_congr hshape]]
      split
      · exact hbefore.trans (forcePurge hbefore.alike .maxSeqno)
      · exact hbefore.mono (Nat.zero_le 1)

/-! ### Arbitration -/

theorem accept (h : Alike lsp.id s s') (circuit : CircuitId) :
    Twins 1 lsp.id s (s.accept circuit lsp) s' (s'.accept circuit lsp) := by
  have hid := s.completed_id lsp
  unfold LevelState.accept
  dsimp only
  rw [h.completed]
  generalize s.completed lsp = stored at hid ⊢
  rw [← hid] at h ⊢
  have hinstalled :=
    (install stored h true).trans (clearFlag (install stored h true).alike .srm circuit)
  rw [hinstalled.alike.isPointToPoint]
  split
  · have hnoted := hinstalled.trans (acknowledge hinstalled.alike circuit)
    exact hnoted.trans (flood hnoted.alike (some circuit))
  · have hnoted := hinstalled.trans (clearFlag hinstalled.alike .ssn circuit)
    exact hnoted.trans (flood hnoted.alike (some circuit))

theorem recordPurge (h : Alike lsp.id s s') (circuit : CircuitId) :
    Twins 1 lsp.id s (s.recordPurge circuit lsp) s' (s'.recordPurge circuit lsp) := by
  unfold LevelState.recordPurge
  dsimp only
  rw [h.now, h.level]
  set placeholder := Lsp.make s.now s.level 0 lsp.id 0 .none .empty
  have hinstalled : Twins 1 lsp.id s (s.install placeholder true) s'
    (s'.install placeholder true) := install placeholder h true
  exact hinstalled.trans (acknowledge hinstalled.alike circuit)

theorem resolveConfusion (hs : s.Consistent) (hs' : s'.Consistent) (h : Alike id s s')
    {entry : Entry} (hstored : s.database.get? id = some entry) (hlive : entry.isPurged = false) :
    Twins 1 id s (s.resolveConfusion id) s' (s'.resolveConfusion id) := by
  obtain ⟨entry', hstored', hshape⟩ := h.stored hstored
  have htold := tell h (.lspChanged .confused s.level entry.lsp.mention)
    (.lspChanged .confused s'.level entry.lsp.mention)
  simp only [LevelState.resolveConfusion, hstored, hstored']
  rw [Entry.received_congr hshape, Entry.lsp_congr hshape]
  split
  · exact htold.trans (purge (hs.tell _) (hs'.tell _) htold.alike .confusion hstored hlive)
  · have hcounted := htold.trans (count htold.alike
      (fun c => { c with skippedSeqnos := c.skippedSeqnos + 1 }) ⟨0, 0, 1, 0, true⟩
      fun counters => by simp [Counters.plus])
    obtain rfl := hs.keys hstored
    exact hcounted.trans (originate _ hcounted.alike)

theorem acceptSame (hs : s.Consistent) (hs' : s'.Consistent) (h : Alike lsp.id s s')
    (circuit : CircuitId) :
    Twins 1 lsp.id s (s.acceptSame circuit lsp (s.database.get? lsp.id)) s'
      (s'.acceptSame circuit lsp (s'.database.get? lsp.id)) := by
  rw [LevelState.acceptSame, LevelState.acceptSame, h.map_stored fun hshape => by
    rw [isConfused, isConfused, Entry.isPurged_congr hshape, Entry.lsp_congr hshape]]
  split
  · rename_i hconfused
    cases hstored : s.database.get? lsp.id with
    | none => simp [hstored] at hconfused
    | some entry =>
        simp only [hstored, Option.map_some, Option.getD_some, isConfused, Bool.and_eq_true,
          Bool.not_eq_true'] at hconfused
        exact resolveConfusion hs hs' h hstored hconfused.1.1
  · have hcleared := clearFlags h .srm none
    exact (hcleared.trans (acknowledge hcleared.alike circuit)).mono (Nat.zero_le 1)

theorem answerOlder (hs : s.Consistent) (h : Alike id s s') {entry entry' : Entry}
    (hstored : s.database.get? id = some entry) (hshape : entry'.shape = entry.shape)
    (circuit : CircuitId) :
    Twins 0 id s (s.answerOlder circuit entry) s' (s'.answerOlder circuit entry') := by
  obtain rfl := hs.keys hstored
  unfold LevelState.answerOlder
  dsimp only
  rw [Entry.lsp_congr hshape]
  have hset := setFlag h .srm circuit
  have hcleared := hset.trans (clearFlag hset.alike .ssn circuit)
  exact hcleared.trans (clearFlags hcleared.alike .srm (some circuit))

/-- A newer LSP is accepted, unless the stored copy turns out to be overdue. -/
theorem judgeNewer (hs : s.Consistent) (hs' : s'.Consistent) (h : Alike lsp.id s s')
    (circuit : CircuitId) (hknown : lsp.isExpired = true → (s.known? lsp.id).isSome = true)
    (hknown' : lsp.isExpired = true → (s'.known? lsp.id).isSome = true)
    (hrecency : s.recency lsp = .newer) (hrecency' : s'.recency lsp = .newer) :
    Twins 2 lsp.id s (s.judge circuit lsp) s' (s'.judge circuit lsp) := by
  have hstop' := h.stopLife hs hs'
  cases hstop : (s.stopLife lsp).1 with
  | true =>
      rw [hstop] at hstop'
      rw [LevelState.judge, LevelState.judge, arbitrate_eq _ hknown, arbitrate_eq _ hknown',
        hrecency, hrecency']
      dsimp only
      rw [hstop, hstop', if_pos rfl, if_pos rfl]
      exact (accept h circuit).mono (by decide)
  | false =>
      rw [hstop] at hstop'
      obtain ⟨entry, houtlived, -, heq⟩ := judge_outlived hs circuit hknown hrecency hstop
      obtain ⟨entry', houtlived', -, heq'⟩ := judge_outlived hs' circuit hknown' hrecency' hstop'
      have hpurged := purge hs hs' h .expired houtlived.stored houtlived.live
      have hstep : Step (fun _ => True) s (s.purge lsp.id .expired) :=
        purge_step hs .expired houtlived.stored houtlived.live
      have hstep' : Step (fun _ => True) s' (s'.purge lsp.id .expired) :=
        purge_step hs' .expired houtlived'.stored houtlived'.live
      rw [heq, heq']
      exact hpurged.trans (acceptSame (hs.step hstep) (hs'.step hstep') hpurged.alike circuit)

/-- Both arbitrations of an LSP go alike in states that are alike for it. -/
theorem judge (hs : s.Consistent) (hs' : s'.Consistent) (h : Alike lsp.id s s')
    (circuit : CircuitId) :
    Twins 2 lsp.id s (s.judge circuit lsp) s' (s'.judge circuit lsp) := by
  by_cases hunknown : lsp.isExpired = true ∧ s.known? lsp.id = none
  · have hrecord : ∀ {s : LevelState}, s.known? lsp.id = none →
        s.judge circuit lsp = s.recordPurge circuit lsp := fun hnone => by
      rw [LevelState.judge, arbitrate, if_pos (by simp [hunknown.1, hnone])]
    rw [hrecord hunknown.2, hrecord (h.known_eq_none.2 hunknown.2)]
    exact (recordPurge h circuit).mono (by decide)
  · have hknown : lsp.isExpired = true → (s.known? lsp.id).isSome = true :=
      fun hexpired => Option.isSome_iff_ne_none.2 fun hnone => hunknown ⟨hexpired, hnone⟩
    have hknown' : lsp.isExpired = true → (s'.known? lsp.id).isSome = true :=
      fun hexpired => Option.isSome_iff_ne_none.2 fun hnone =>
        hunknown ⟨hexpired, h.known_eq_none.1 hnone⟩
    have hrecency' := h.recency
    cases hrecency : s.recency lsp with
    | newer =>
        rw [hrecency] at hrecency'
        exact judgeNewer hs hs' h circuit hknown hknown' hrecency hrecency'
    | same =>
        rw [hrecency] at hrecency'
        rw [LevelState.judge, LevelState.judge, arbitrate_eq _ hknown, arbitrate_eq _ hknown',
          hrecency, hrecency']
        exact (acceptSame hs hs' h circuit).mono (by decide)
    | older =>
        rw [hrecency] at hrecency'
        rw [LevelState.judge, LevelState.judge, arbitrate_eq _ hknown, arbitrate_eq _ hknown',
          hrecency, hrecency']
        dsimp only
        cases hstored : s.database.get? lsp.id with
        | none =>
            rw [LevelState.recency, hstored] at hrecency
            cases hrecency
        | some entry =>
            obtain ⟨entry', hstored', hshape⟩ := h.stored hstored
            rw [hstored']
            exact (answerOlder hs h hstored hshape circuit).mono (by decide)

/-! ### Reception -/

/-- An own LSP is answered alike, or not at all. -/
theorem answerOwn (hs : s.Consistent) (h : Alike lsp.id s s') (circuit : CircuitId) :
    (s.answerOwn? circuit lsp = none ∧ s'.answerOwn? circuit lsp = none) ∨
      ∃ t t', s.answerOwn? circuit lsp = some t ∧ s'.answerOwn? circuit lsp = some t' ∧
        Twins 1 lsp.id s t s' t' := by
  rw [answerOwn?, answerOwn?, h.supports?]
  cases s.supports? lsp.id.pseudonode with
  | none => exact .inr ⟨_, _, rfl, rfl, (defer h circuit).mono (by decide)⟩
  | some supported =>
      dsimp only
      cases hknown : s.known? lsp.id with
      | none =>
          rw [h.known_eq_none.2 hknown]
          dsimp only [Option.map_none]
          split_ifs
          all_goals first
            | exact .inl ⟨rfl, rfl⟩
            | exact .inr ⟨_, _, rfl, rfl, forcePurge h _⟩
      | some entry =>
          have hknown' := h.known
          rw [hknown, Option.map_some] at hknown'
          obtain ⟨entry', hknown', hshape⟩ := Option.map_eq_some_iff.1 hknown'
          rw [hknown']
          dsimp only [Option.map_some]
          simp only [Entry.lsp_congr hshape, Entry.isPurged_congr hshape]
          have hid : entry.lsp.id = lsp.id := hs.keys (stored_of_known hknown).1
          have hcounted := count h
            (fun c => { c with skippedSeqnos := c.skippedSeqnos + 1 }) ⟨0, 0, 1, 0, true⟩
            fun counters => by simp [Counters.plus]
          have horiginated := originate { entry.lsp with seqno := lsp.seqno }
            (hid.symm ▸ hcounted.alike)
          split_ifs
          all_goals first
            | exact .inl ⟨rfl, rfl⟩
            | exact .inr ⟨_, _, rfl, rfl, forcePurge h _⟩
            | exact .inr ⟨_, _, rfl, rfl, hcounted.trans (hid ▸ horiginated)⟩

theorem receiveFrom (hs : s.Consistent) (hs' : s'.Consistent) (h : Alike lsp.id s s')
    (circuit : CircuitId) :
    Twins 2 lsp.id s (s.receiveFrom circuit lsp) s' (s'.receiveFrom circuit lsp) := by
  have hcounted : Twins 0 lsp.id s
      (if lsp.isExpired && s.isOwn lsp.id then
        s.count fun c => { c with ownPurges := c.ownPurges + 1 } else s) s'
      (if lsp.isExpired && s'.isOwn lsp.id then
        s'.count fun c => { c with ownPurges := c.ownPurges + 1 } else s') := by
    rw [h.isOwn]
    split
    · exact count h _ ⟨0, 1, 0, 0, true⟩ fun counters => by simp [Counters.plus]
    · exact refl h
  obtain ⟨counters, heq⟩ := s.countOwnPurge_eq lsp
  obtain ⟨counters', heq'⟩ := s'.countOwnPurge_eq lsp
  unfold LevelState.receiveFrom
  dsimp only
  rw [heq, heq'] at hcounted ⊢
  have hconsistent : { s with counters := counters }.Consistent := hs.congr rfl rfl rfl rfl
  have hconsistent' : { s' with counters := counters' }.Consistent := hs'.congr rfl rfl rfl rfl
  split
  · have hcorrupted := hcounted.trans (count hcounted.alike
      (fun c => { c with corruptedLsps := c.corruptedLsps + 1 }) ⟨1, 0, 0, 0, true⟩
      fun counters => by simp [Counters.plus])
    exact (hcorrupted.trans (tell hcorrupted.alike _ _)).mono (by decide)
  · split
    · exact (hcounted.trans (tell hcounted.alike _ _)).mono (by decide)
    · have hjudged := judge hconsistent hconsistent' hcounted.alike circuit
      rw [h.isOwn]
      split
      · rcases answerOwn hconsistent hcounted.alike circuit with
          ⟨hanswer, hanswer'⟩ | ⟨t, t', hanswer, hanswer', htwins⟩
        · rw [hanswer, hanswer']
          exact hcounted.trans hjudged
        · rw [hanswer, hanswer']
          exact (hcounted.trans htwins).mono (by decide)
      · exact hcounted.trans hjudged

/-- Whether an LSP is received or refused, and what the error is, is alike too. -/
theorem receiveLsp (hs : s.Consistent) (hs' : s'.Consistent) (h : Alike lsp.id s s')
    (circuit : CircuitId) :
    Twins 2 lsp.id s (s.receiveLsp (some circuit) lsp).1 s'
        (s'.receiveLsp (some circuit) lsp).1 ∧
      (s'.receiveLsp (some circuit) lsp).2 = (s.receiveLsp (some circuit) lsp).2 := by
  have hcircuits : s'.circuits = s.circuits := congrArg Surroundings.circuits h.surroundings
  have hunchanged : Twins 2 lsp.id s s s' s' := (refl h).mono (by decide)
  simp only [LevelState.receiveLsp, h.level, hcircuits]
  split
  · exact ⟨hunchanged, rfl⟩
  · split
    · exact ⟨receiveFrom hs hs' h circuit, rfl⟩
    · exact ⟨hunchanged, rfl⟩

end Twins

/-! ### Changing places -/

def deadline (timer : Timer TimerEvent) : Nat × TimerEvent :=
  (timer.due, timer.event)

/-- Two states tell apart only by the numbers of timers, and by the order and the numbers
of the log. -/
structure Interchangeable (t u : LevelState) : Prop where
  surroundings : u.surroundings = t.surroundings
  entries : ∀ id, (u.database.get? id).map Entry.shape = (t.database.get? id).map Entry.shape
  timers : (u.timers.pending.map deadline).Perm (t.timers.pending.map deadline)
  flooding : u.flooding = t.flooding
  deferred : u.deferred = t.deferred
  generators : u.generators = t.generators
  counters : u.counters = t.counters
  pages : u.pages = t.pages
  history : (u.history.map HistoryItem.unnumbered).Perm (t.history.map HistoryItem.unnumbered)
  lastHistoryNumber : u.lastHistoryNumber = t.lastHistoryNumber
  fault : u.fault = t.fault

/-- Between two states nothing has changed about any LSP but one. -/
structure Untouched (id : LspId) (s t : LevelState) : Prop where
  entries : ∀ other, other ≠ id → t.database.get? other = s.database.get? other
  timers : ∀ timer : Timer TimerEvent, timer.event ≠ .expire id → timer.event ≠ .delete id →
    timer.event ≠ .refresh id → (timer ∈ t.timers.pending ↔ timer ∈ s.timers.pending)
  deferred : ∀ other, other ≠ id → t.deferred? other = s.deferred? other
  marks : ∀ circuit other, other ≠ id →
    t.flooding.marks circuit other = s.flooding.marks circuit other

/-- Copies of different LSPs can be kept in either order. -/
theorem keeping_comm {a b : LspId} (hne : a ≠ b) (deferred : Table UInt8 (Table LspId DeferredLsp))
    (x y : Option DeferredLsp) :
    keeping (keeping deferred a x) b y = keeping (keeping deferred b y) a x := by
  cases x <;> cases y
  · rfl
  · rfl
  · rfl
  · rename_i x y
    ext1 pseudonode
    simp only [keeping, Table.get?_insert, Key.rank_inj]
    by_cases hsame : a.pseudonode = b.pseudonode
    · by_cases hb : pseudonode = b.pseudonode
      · simp only [hsame, hb, if_true, Option.getD_some]
        congr 1
        ext1 id
        simp only [Table.get?_insert, Key.rank_inj]
        split_ifs with hidb hida
        · exact absurd (hida.symm.trans hidb) hne
        · rfl
        · rfl
        · rfl
      · simp [hsame, hb]
    · by_cases hb : pseudonode = b.pseudonode
      · subst hb
        simp [Ne.symm hsame]
      · by_cases ha : pseudonode = a.pseudonode
        · subst ha
          simp [hsame]
        · simp [ha, hb]

theorem deferred_keeping_of_ne {a b : LspId} (hne : a ≠ b) {copy : Option DeferredLsp}
    (hkept : t.deferred = keeping s.deferred b copy) : t.deferred? a = s.deferred? a := by
  rw [deferred?, deferred?, hkept]
  cases copy with
  | none => rfl
  | some copy =>
      by_cases hsame : a.pseudonode = b.pseudonode
      · rw [keeping, hsame, Table.get?_insert_self, Option.bind_some,
          Table.get?_insert_of_ne _ _ hne]
        cases s.deferred.get? b.pseudonode <;> rfl
      · rw [keeping, Table.get?_insert_of_ne _ _ hsame]

namespace Leaves

variable {f : Footprint}

/-- What is done about one LSP is not seen of another. -/
theorem alike (h : Leaves id f s t) {other : LspId} (hne : other ≠ id) : Alike other s t where
  surroundings := h.surroundings
  entry := by rw [h.entries other hne]
  marks := fun circuit => h.marks circuit other hne
  deferred := deferred_keeping_of_ne hne h.deferred

theorem untouched (h : Leaves id f s t) (hs : s.Consistent) (ht : t.Consistent) :
    Untouched id s t where
  entries := h.entries
  timers := by
    intro timer hexpire hdelete hrefresh
    rw [← hs.timers.heldTimers_perm.mem_iff, ← ht.timers.heldTimers_perm.mem_iff, mem_heldTimers,
      mem_heldTimers]
    obtain ⟨number, due, event⟩ := timer
    cases event with
    | expire other => simp only [kept?, h.entries other fun heq => hexpire (heq ▸ rfl)]
    | delete other => simp only [kept?, h.entries other fun heq => hdelete (heq ▸ rfl)]
    | refresh other => simp only [kept?, h.entries other fun heq => hrefresh (heq ▸ rfl)]
    | generate pseudonode => simp only [kept?, h.generators]
  deferred := fun other hne => (h.alike hne).deferred
  marks := h.marks

end Leaves

def deadlinesOf (id : LspId) (shape : Entry.Shape) : List (Nat × TimerEvent) :=
  [shape.life.map (·, .expire id), shape.zeroAge.map (·, .delete id),
    shape.refresh.map (·, .refresh id)].reduceOption

theorem deadlines_eq (id : LspId) (entry : Entry) :
    (entryTimers id entry).map deadline = deadlinesOf id entry.shape := by
  cases hlife : entry.lifeTimer <;> cases hzero : entry.zeroAgeTimer <;>
    cases hrefresh : entry.refreshTimer <;>
    simp [entryTimers, timerFor, deadlinesOf, Entry.shape, deadline, hlife, hzero,
      hrefresh, List.reduceOption]

/-- The timers that are held are due at times that the shapes of the entries tell. -/
theorem heldTimers_deadlines (s : LevelState) :
    s.heldTimers.map deadline =
      ((s.database.map fun _ entry => entry.shape).toList.flatMap fun p => deadlinesOf p.1 p.2) ++
        (s.generators.toList.flatMap fun p => generatorTimers p.1 p.2).map deadline := by
  rw [heldTimers, List.map_append, List.map_flatMap, Table.map, List.flatMap_map]
  simp only [deadlines_eq]

/-- States with the same entries and generators have the same deadlines, in whatever order the
timers were scheduled. -/
theorem deadlines_perm {u : LevelState} (ht : t.Consistent) (hu : u.Consistent)
    (hentries : ∀ id,
      (u.database.get? id).map Entry.shape = (t.database.get? id).map Entry.shape)
    (hgenerators : u.generators = t.generators) :
    (u.timers.pending.map deadline).Perm (t.timers.pending.map deadline) := by
  have hshapes : (u.database.map fun _ entry => entry.shape) =
      t.database.map fun _ entry => entry.shape := by
    ext1 id
    rw [Table.get?_map, Table.get?_map]
    exact hentries id
  have hheld : u.heldTimers.map deadline = t.heldTimers.map deadline := by
    rw [heldTimers_deadlines, heldTimers_deadlines, hshapes, hgenerators]
  refine (hu.timers.heldTimers_perm.symm.map deadline).trans ?_
  rw [hheld]
  exact ht.timers.heldTimers_perm.map deadline

/-- Flags are told by what they are for each LSP on each circuit. -/
theorem flooding_ext {before after : Flooding}
    (h : ∀ circuit id, after.marks circuit id = before.marks circuit id) : after = before := by
  ext1 circuit
  have hmarks := h circuit
  simp only [Flooding.marks] at hmarks
  cases hafter : after.get? circuit with
  | none =>
      rw [hafter] at hmarks
      exact (Option.map_eq_none_iff.1 (hmarks LspId.first).symm).symm
  | some flags =>
      rw [hafter] at hmarks
      obtain ⟨flags', hbefore, -⟩ := Option.map_eq_some_iff.1 (hmarks LspId.first).symm
      simp only [hbefore, Option.map_some, Option.some.injEq, CircuitFlags.marks,
        Marks.mk.injEq] at hmarks
      rw [hbefore]
      congr 1
      obtain ⟨srm, ssn⟩ := flags
      obtain ⟨srm', ssn'⟩ := flags'
      rw [CircuitFlags.mk.injEq]
      refine ⟨Table.ext_get? fun id => ?_, Table.ext_get? fun id => (hmarks id).2⟩
      have hset := (hmarks id).1
      rw [Table.contains, Table.contains] at hset
      dsimp only at hset
      cases hsrm : srm.get? id <;> cases hsrm' : srm'.get? id <;> simp_all

/-! ### The log -/

theorem unnumbered_note (log : Chronicle) (item : ChronicleItem) :
    (log.note item).1.map HistoryItem.unnumbered =
      (item :: log.1.map HistoryItem.unnumbered).take historySize :=
  List.map_take

/-- The latest items come first, as many as are kept. -/
theorem unnumbered_notes (log : Chronicle) {items : List ChronicleItem} (hsome : items ≠ []) :
    (items.foldl Chronicle.note log).1.map HistoryItem.unnumbered =
      (items.reverse ++ log.1.map HistoryItem.unnumbered).take historySize := by
  induction items generalizing log with
  | nil => exact absurd rfl hsome
  | cons item rest ih =>
      rw [List.foldl_cons]
      by_cases hrest : rest = []
      · subst hrest
        exact unnumbered_note log item
      · rw [ih _ hrest, unnumbered_note, List.reverse_cons, List.append_assoc,
          List.singleton_append, List.take_append, List.take_append, List.take_take,
          Nat.min_eq_left (Nat.sub_le _ _)]

/-- The items are numbered in the order in which they are recorded. -/
theorem notes_number (log : Chronicle) (items : List ChronicleItem) :
    (items.foldl Chronicle.note log).2 = log.2 + UInt32.ofNat items.length := by
  induction items generalizing log with
  | nil => exact (UInt32.add_zero _).symm
  | cons item rest ih =>
      rw [List.foldl_cons, ih, List.length_cons, UInt32.ofNat_add, UInt32.add_comm (.ofNat _),
        ← UInt32.add_assoc]
      rfl

/-- As long as all new items are kept, their order decides on that of the log only. -/
theorem notes_perm (log : Chronicle) {a b : List ChronicleItem}
    (hshort : a.length + b.length ≤ historySize) :
    (((a ++ b).foldl Chronicle.note log).1.map HistoryItem.unnumbered).Perm
      (((b ++ a).foldl Chronicle.note log).1.map HistoryItem.unnumbered) := by
  by_cases hnone : a ++ b = []
  · obtain ⟨rfl, rfl⟩ := List.append_eq_nil_iff.1 hnone
    exact .refl _
  · have hnone' : b ++ a ≠ [] := fun hnil =>
      hnone (List.append_eq_nil_iff.2 (List.append_eq_nil_iff.1 hnil).symm)
    have hkept : ∀ items : List ChronicleItem, items.length ≤ historySize →
        ∀ old : List ChronicleItem,
        (items ++ old).take historySize = items ++ old.take (historySize - items.length) :=
      fun items hitems old => by rw [List.take_append, List.take_of_length_le hitems]
    have hlength : (a ++ b).reverse.length = (b ++ a).reverse.length := by
      simp [Nat.add_comm]
    rw [unnumbered_notes log hnone, unnumbered_notes log hnone', hkept _ (by simp; omega),
      hkept _ (by simp; omega), hlength]
    refine List.Perm.append_right _ ?_
    exact ((List.reverse_perm _).trans List.perm_append_comm).trans (List.reverse_perm _).symm

/-! ### Two receptions -/

/-- What is told for each LSP, and changed for two of them in turn, comes out the same in both
orders if it does for these two. -/
theorem eq_in_both_orders {β : Type} {a b : LspId} (hne : a ≠ b)
    {start first second first' second' : LspId → β} (ha : second' a = first a)
    (hb : second b = first' b) (hfirst : ∀ id, id ≠ a → first id = start id)
    (hsecond : ∀ id, id ≠ b → second id = first id)
    (hfirst' : ∀ id, id ≠ b → first' id = start id)
    (hsecond' : ∀ id, id ≠ a → second' id = first' id) (id : LspId) : second' id = second id := by
  by_cases hida : id = a
  · rw [hida, ha, hsecond a hne]
  · by_cases hidb : id = b
    · rw [hidb, hb, hsecond' b hne.symm]
    · rw [hsecond' id hida, hfirst' id hidb, hsecond id hidb, hfirst id hida]

/-- What is done about two LSPs, each alike in both orders, can be done in either order. -/
theorem Twins.interchangeable {a b : LspId} (hne : a ≠ b) {most more : Nat}
    {first second first' second' : LevelState} (ha : Twins most a s first first' second')
    (hb : Twins more b s first' first second) (hshort : most + more ≤ historySize)
    (hconsistent : second.Consistent) (hconsistent' : second'.Consistent) :
    Interchangeable second second' := by
  obtain ⟨halike, f, hf, hsa, hsa'⟩ := ha
  obtain ⟨hblike, g, hg, hsb, hsb'⟩ := hb
  have hentries := eq_in_both_orders (β := Option Entry.Shape) hne halike.entry hblike.entry
    (fun id hid => congrArg _ (hsa.entries id hid)) (fun id hid => congrArg _ (hsb'.entries id hid))
    (fun id hid => congrArg _ (hsb.entries id hid))
    (fun id hid => congrArg _ (hsa'.entries id hid))
  have hmarks := eq_in_both_orders (β := CircuitId → Option Marks) hne (funext halike.marks)
    (funext hblike.marks) (fun id hid => funext fun circuit => hsa.marks circuit id hid)
    (fun id hid => funext fun circuit => hsb'.marks circuit id hid)
    (fun id hid => funext fun circuit => hsb.marks circuit id hid)
    fun id hid => funext fun circuit => hsa'.marks circuit id hid
  have hgenerators : second'.generators = second.generators := by
    rw [hsa'.generators, hsb.generators, hsb'.generators, hsa.generators]
  have hlog : second.log = (f.logged ++ g.logged).foldl Chronicle.note s.log := by
    rw [hsb'.log, hsa.log, List.foldl_append]
  have hlog' : second'.log = (g.logged ++ f.logged).foldl Chronicle.note s.log := by
    rw [hsa'.log, hsb.log, List.foldl_append]
  have hlength : f.logged.length + g.logged.length ≤ historySize := by omega
  exact
    { surroundings := by
        rw [hsa'.surroundings, hsb.surroundings, hsb'.surroundings, hsa.surroundings]
      entries := hentries
      timers := deadlines_perm hconsistent hconsistent' hentries hgenerators
      flooding := flooding_ext fun circuit id => congrFun (hmarks id) circuit
      deferred := by
        rw [hsa'.deferred, hsb.deferred, hsb'.deferred, hsa.deferred, keeping_comm hne]
      generators := hgenerators
      counters := by
        rw [hsa'.counters, hsb.counters, hsb'.counters, hsa.counters, Counters.plus_right_comm]
      pages := by
        rw [hsa'.pages, hsb.pages, hsb'.pages, hsa.pages]
        cases f.discards <;> cases g.discards <;> simp [keepBefore_comm]
      history := by
        have hperm := notes_perm s.log hlength
        rw [← hlog, ← hlog'] at hperm
        exact hperm.symm
      lastHistoryNumber := by
        show second'.log.2 = second.log.2
        rw [hlog, hlog', notes_number, notes_number, List.length_append, List.length_append,
          Nat.add_comm]
      fault := by rw [hsa'.fault, hsb.fault, hsb'.fault, hsa.fault] }

variable {level : Level} {config : Config} {now : Nat}

/-- In every reachable state, receptions of two LSPs with different LSP IDs, whatever LSPs
and circuits these are, can change places: they have the same results, and leave states
that tell apart only by the numbers of timers and by the order and the numbers of the log.
A reception changes nothing about any LSP but the one that is received. -/
theorem receptions_commute (h : Reachable Proper level config now s) {x y : Lsp}
    (hne : x.id ≠ y.id) (c d : CircuitId) :
    let first := s.receiveLsp (some c) x
    let second := first.1.receiveLsp (some d) y
    let first' := s.receiveLsp (some d) y
    let second' := first'.1.receiveLsp (some c) x
    first.2 = second'.2 ∧ second.2 = first'.2 ∧ Interchangeable second.1 second'.1 ∧
      Untouched x.id s first.1 := by
  intro first second first' second'
  have hs := h.consistent
  have hreceive : ∀ {s : LevelState} (circuit : CircuitId) (lsp : Lsp), s.Consistent →
      (s.receiveLsp (some circuit) lsp).1.Consistent := by
    intro s circuit lsp hs
    have hsteps : Steps (fun _ => True) s (s.receiveLsp (some circuit) lsp).1 :=
      receiveLsp_steps hs fun _ => trivial
    exact hs.steps hsteps
  have hfirst : first.1.Consistent := hreceive c x hs
  have hfirst' : first'.1.Consistent := hreceive d y hs
  obtain ⟨⟨-, f, -, hleaves, -⟩, -⟩ := Twins.receiveLsp hs hs (.refl x.id s) c
  obtain ⟨⟨-, g, -, hleaves', -⟩, -⟩ := Twins.receiveLsp hs hs (.refl y.id s) d
  obtain ⟨hx, hresult⟩ := Twins.receiveLsp hs hfirst' (hleaves'.alike hne) c
  obtain ⟨hy, hresult'⟩ := Twins.receiveLsp hs hfirst (hleaves.alike hne.symm) d
  exact ⟨hresult.symm, hresult',
    hx.interchangeable hne hy (by decide) (hreceive d y hfirst) (hreceive c x hfirst'),
    hleaves.untouched hs hfirst⟩

/-- The answer to a request, and a stray copy of an own LSP that comes from the other
circuit. -/
theorem receptions_commute_asking :
    let stray := Lsp.make 0 .one 900 ⟨SystemId.zero, 0, 3⟩ 5 .none .empty
    let first := asking.receiveLsp (some 1) (instanceOf 9)
    let second := first.1.receiveLsp (some 2) stray
    let first' := asking.receiveLsp (some 2) stray
    let second' := first'.1.receiveLsp (some 1) (instanceOf 9)
    (instanceOf 9).id ≠ stray.id ∧ first.2 = second'.2 ∧ second.2 = first'.2 ∧
      Interchangeable second.1 second'.1 ∧ Untouched (instanceOf 9).id asking first.1 :=
  have hne : (instanceOf 9).id ≠ (Lsp.make 0 .one 900 ⟨SystemId.zero, 0, 3⟩ 5 .none .empty).id := by
    decide +kernel
  ⟨hne, receptions_commute (asking_reachable.mono fun h => h.1) hne 1 2⟩

end LinkState.LevelState
