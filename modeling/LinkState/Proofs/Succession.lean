import LinkState.Proofs.OwnLsps

/-!
# How copies of an LSP follow one another

Whatever makes a level install an LSP, the copy that it replaces has no greater
sequence number, and a smaller one if both are live.  The level tells every
installation and every deletion, so that what it tells during an operation accounts
for all copies that came and went.  Each step makes one such change at most.
-/

namespace LinkState

/-- How an LSP that takes the place of a stored copy compares with it. -/
structure Supersedes (stored lsp : Lsp) : Prop where
  /-- No sequence number is less than the one before. -/
  seqno : stored.seqno ≤ lsp.seqno
  /-- From one live copy to the next the sequence number rises, so that what is
  advertised under one number stays as it is. -/
  live : stored.isExpired = false → lsp.isExpired = false → stored.seqno < lsp.seqno
  /-- No placeholder takes the place of an actual LSP. -/
  actual : stored.seqno ≠ 0 → lsp.seqno ≠ 0

namespace Supersedes

variable {stored lsp : Lsp}

theorem of_seqno (hseqno : stored.seqno ≤ lsp.seqno)
    (hlive : stored.isExpired = false → lsp.isExpired = false → stored.seqno < lsp.seqno) :
    Supersedes stored lsp := by
  refine ⟨hseqno, hlive, fun hactual hzero => hactual ?_⟩
  rw [hzero] at hseqno
  exact UInt32.le_zero_iff.1 hseqno

/-- A purge may keep the sequence number of what it purges. -/
theorem of_expired (hseqno : stored.seqno ≤ lsp.seqno) (hexpired : lsp.isExpired = true) :
    Supersedes stored lsp :=
  of_seqno hseqno fun _ hlive => by simp [hexpired] at hlive

theorem of_less (hseqno : stored.seqno < lsp.seqno) : Supersedes stored lsp :=
  of_seqno (UInt32.le_of_lt hseqno) fun _ _ => hseqno

/-- What arbitration finds to be newer may take the place of the stored copy. -/
theorem of_newer (h : Recency.ofLsp (some stored) lsp = .newer) : Supersedes stored lsp := by
  refine of_seqno (LevelState.le_of_newer h) fun hstored hlsp => ?_
  have hfields := LevelState.ofFields_of_newer h
  have hstored' : stored.lifetime ≠ 0 := by simpa [Lsp.isExpired] using hstored
  have hlsp' : lsp.lifetime ≠ 0 := by simpa [Lsp.isExpired] using hlsp
  rw [Recency.ofFields] at hfields
  split_ifs at hfields with hless hgreater hpurge hrevival
  · exact hless
  · exact absurd hpurge.2 hlsp'
  · exact absurd hrevival.1 hstored'

end Supersedes

/-! ### Changes of the database -/

abbrev Copies := LspId → Option Lsp

/-- One change of the LSPs that a database holds. -/
inductive Change
  | installed (lsp : Lsp)
  | deleted (lsp : Lsp)

namespace Change

def event (level : Level) : Change → Event
  | installed lsp => .lspChanged .installed level lsp.mention
  | deleted lsp => .lspChanged .deleted level lsp.mention

def apply (copies : Copies) : Change → Copies
  | installed lsp => Function.update copies lsp.id (some lsp)
  | deleted lsp => Function.update copies lsp.id none

/-- When a change may be made: an LSP is installed over a copy that it supersedes,
and only purges and placeholders are deleted. -/
def Lawful (copies : Copies) : Change → Prop
  | installed lsp => ∀ stored, copies lsp.id = some stored → Supersedes stored lsp
  | deleted lsp => copies lsp.id = some lsp ∧ (lsp.isExpired = true ∨ lsp.seqno = 0)

end Change

namespace LevelState

variable {heard : Lsp → Prop} {s t : LevelState}

def copiesHeld (s : LevelState) : Copies :=
  fun id => (s.database.get? id).map (·.lsp)

/-- What a level has told of changes of its database, the latest first. -/
def changelog (s : LevelState) : List Event :=
  s.trace.filter Event.changesDatabase

theorem copiesHeld_congr (h : t.database = s.database) : t.copiesHeld = s.copiesHeld := by
  funext id
  rw [copiesHeld, copiesHeld, h]

theorem storedSeqno_of_copiesHeld {id : LspId} {lsp : Lsp} (h : s.copiesHeld id = some lsp) :
    s.storedSeqno id = lsp.seqno := by
  obtain ⟨entry, hstored, rfl⟩ := Option.map_eq_some_iff.1 h
  rw [storedSeqno, hstored]
  rfl

theorem Installs.copiesHeld {lsp : Lsp} {received : Bool} {flooding : Flooding}
    (h : Installs s lsp received flooding t) :
    t.copiesHeld = (Change.installed lsp).apply s.copiesHeld := by
  obtain ⟨counters, history, number, trace, rfl⟩ := h
  funext id
  by_cases hid : id = lsp.id
  · subst hid
    rw [LevelState.copiesHeld, Table.get?_insert_self, Option.map_some, s.armed_lsp lsp received]
    simp [Change.apply]
  · simp [LevelState.copiesHeld, Change.apply, hid, Table.get?_insert_of_ne _ _ hid]

theorem copiesHeld_erase {entry : Entry}
    (h : t.database = s.database.erase entry.lsp.id) :
    t.copiesHeld = (Change.deleted entry.lsp).apply s.copiesHeld := by
  funext id
  by_cases hid : id = entry.lsp.id
  · subst hid
    rw [copiesHeld, h, Table.get?_erase_self]
    simp [Change.apply]
  · simp [copiesHeld, Change.apply, hid, h, Table.get?_erase_of_ne _ hid]

/-! ### What is told -/

theorem changelog_congr (h : t.trace = s.trace) : t.changelog = s.changelog := by
  rw [changelog, changelog, h]

theorem changelog_silent (s : LevelState) {event : Event} (silent : event.changesDatabase = false) :
    (s.tell event).changelog = s.changelog := by
  simp [changelog, tell, silent]

theorem changelog_change (s : LevelState) (level : Level) (change : Change) :
    (s.tell (change.event level)).changelog = change.event level :: s.changelog := by
  cases change <;> rfl

theorem changelog_discardPages (s : LevelState) (id : LspId) :
    (s.discardPages id).changelog = s.changelog := by
  unfold discardPages
  dsimp only
  split
  · exact changelog_silent _ rfl
  · rfl

theorem startLife_trace (s : LevelState) (lsp : Lsp) (received : Bool) :
    (s.startLife lsp received).2.trace = s.trace := by
  unfold startLife
  split <;> rfl

theorem startRefresh_trace (s : LevelState) (entry : Entry) :
    (s.startRefresh entry).2.trace = s.trace := by
  unfold startRefresh
  split <;> rfl

theorem store_trace (s : LevelState) (entry : Entry) : (s.store entry).trace = s.trace := by
  unfold store
  dsimp only
  split_ifs <;> rfl

theorem detach_trace (s : LevelState) (id : LspId) : (s.detach id).trace = s.trace := by
  rw [detach_eq]

/-- Every installation is told, and nothing else is told of the database in it. -/
theorem changelog_install (s : LevelState) (lsp : Lsp) (received : Bool) :
    (s.install lsp received).changelog = (Change.installed lsp).event s.level :: s.changelog := by
  have htrace : (s.install lsp received).trace =
      ((s.tell ((Change.installed lsp).event s.level)).discardPages lsp.id).trace := by
    simp only [install, store_trace, startRefresh_trace, startLife_trace]
    exact detach_trace _ lsp.id
  rw [changelog_congr htrace, changelog_discardPages, changelog_change]

theorem changelog_installAndFlood (s : LevelState) (lsp : Lsp) (received : Bool) :
    (s.installAndFlood lsp received).changelog =
      (Change.installed lsp).event s.level :: s.changelog :=
  s.changelog_install lsp received

theorem changelog_accept (s : LevelState) (circuit : CircuitId) (lsp : Lsp) :
    (s.accept circuit lsp).changelog =
      (Change.installed (s.completed lsp)).event s.level :: s.changelog := by
  rw [← changelog_install s (s.completed lsp) true]
  apply changelog_congr
  simp only [accept, acknowledge_eq]
  generalize s.install (s.completed lsp) true = t
  split <;> rfl

theorem changelog_recordPurge (s : LevelState) (circuit : CircuitId) (lsp : Lsp) :
    (s.recordPurge circuit lsp).changelog =
      (Change.installed (s.placeholder 0 lsp.id)).event s.level :: s.changelog := by
  rw [← changelog_install s (s.placeholder 0 lsp.id) true]
  apply changelog_congr
  rw [recordPurge, acknowledge_eq]
  rfl

theorem changelog_remove (s : LevelState) (id : LspId) : (s.remove id).changelog = s.changelog := by
  unfold remove
  dsimp only
  split
  · rw [← changelog_discardPages s id]
    exact changelog_congr (detach_trace _ id)
  · exact changelog_discardPages s id

theorem changelog_scheduleGeneration (s : LevelState) (pseudonode : UInt8) (span : Nat) :
    (s.scheduleGeneration pseudonode span).changelog = s.changelog := by
  have hcreate : (s.createGenerator pseudonode).2.changelog = s.changelog := by
    unfold createGenerator
    split
    · rfl
    · exact changelog_silent _ rfl
  rw [← hcreate]
  unfold scheduleGeneration
  dsimp only
  split <;> rfl

theorem changelog_defer (s : LevelState) (circuit : CircuitId) (lsp : Lsp) :
    (s.defer circuit lsp).changelog = s.changelog := by
  have htell : (s.tell (.lspChanged .deferred s.level lsp.mention)).changelog = s.changelog :=
    changelog_silent s rfl
  rw [← htell]
  unfold defer
  dsimp only
  split <;> rfl

/-! ### What a step changes -/

/-- What a step does to the database, and what it tells of that. -/
inductive Altered (s t : LevelState) : Prop
  | kept (database : t.database = s.database) (changelog : t.changelog = s.changelog)
  | installed {lsp : Lsp} {received : Bool} {flooding : Flooding}
      (installs : Installs s lsp received flooding t)
      (lawful : (Change.installed lsp).Lawful s.copiesHeld)
      (changelog : t.changelog = (Change.installed lsp).event s.level :: s.changelog)
  | deleted {entry : Entry} (database : t.database = s.database.erase entry.lsp.id)
      (lawful : (Change.deleted entry.lsp).Lawful s.copiesHeld)
      (changelog : t.changelog = (Change.deleted entry.lsp).event s.level :: s.changelog)

/-- A purge, forced upon an own LSP, has no smaller sequence number than the stored
copy. -/
theorem forcedPurge_supersedes {lsp stored : Lsp} (hstored : s.copiesHeld lsp.id = some stored) :
    Supersedes stored (s.forcedPurge lsp) := by
  refine .of_expired ?_ rfl
  have hseqno : (s.forcedPurge lsp).seqno = max (s.storedSeqno lsp.id) lsp.seqno := rfl
  rw [hseqno, storedSeqno_of_copiesHeld hstored, UInt32.le_iff_toNat_le, toNat_max]
  exact Nat.le_max_left _ _

/-- A new instance has a greater sequence number than the stored copy. -/
theorem freshInstance_supersedes {lsp stored : Lsp} {seqno : UInt32}
    (hnext : nextSeqno? (max lsp.seqno (s.storedSeqno lsp.id)) = some seqno)
    (hstored : s.copiesHeld lsp.id = some stored) :
    Supersedes stored (s.freshInstance lsp seqno) := by
  refine .of_less ?_
  have hseqno : (s.freshInstance lsp seqno).seqno = seqno := rfl
  rw [hseqno, UInt32.lt_iff_toNat_lt, toNat_nextSeqno hnext, storedSeqno_of_copiesHeld hstored,
    toNat_max]
  exact Nat.lt_succ_of_le (Nat.le_max_right _ _)

/-- An accepted LSP supersedes the stored copy. -/
theorem completed_supersedes {lsp stored : Lsp} (hnewer : s.recency lsp = .newer)
    (hstored : s.copiesHeld lsp.id = some stored) : Supersedes stored (s.completed lsp) := by
  rw [recency, show (s.database.get? lsp.id).map (·.lsp) = some stored from hstored] at hnewer
  have h := Supersedes.of_newer hnewer
  exact .of_seqno (s.completed_seqno lsp ▸ h.seqno)
    (s.completed_seqno lsp ▸ s.completed_isExpired lsp ▸ h.live)

/-- Every step makes one lawful change, which it tells, or none. -/
theorem Step.altered (h : s.Consistent) (hstep : Step heard s t) : Altered s t := by
  cases hstep with
  | tell event silent => exact .kept rfl (changelog_silent s silent)
  | @accept circuit lsp admitted newer =>
      refine .installed (s.accept_installs circuit lsp) (fun stored hstored => ?_)
        (s.changelog_accept circuit lsp)
      rw [completed_id] at hstored
      exact completed_supersedes newer hstored
  | @recordPurge circuit lsp admitted expired unknown =>
      refine .installed (s.recordPurge_installs circuit lsp) (fun stored hstored => ?_)
        (s.changelog_recordPurge circuit lsp)
      -- Only a placeholder may be stored.
      obtain ⟨entry, hentry, rfl⟩ := Option.map_eq_some_iff.1 hstored
      have hzero : entry.isPlaceholder = true := by
        by_contra hknown
        have hsome : s.known? lsp.id = some entry :=
          known_of_stored hentry (by simpa using hknown)
        rw [unknown] at hsome
        cases hsome
      refine .of_expired ?_ rfl
      rw [of_decide_eq_true hzero]
      exact UInt32.zero_le
  | acknowledge => exact .kept (by rw [acknowledge_eq]) (changelog_congr (by rw [acknowledge_eq]))
  | @request circuit summary unknown =>
      by_cases hasked : summary.lifetime ≠ 0 ∧ summary.checksum ≠ 0 ∧ summary.seqno ≠ 0
      · have htold : (s.requestUnknown circuit summary).changelog = (Change.installed
            (s.placeholder summary.lifetime summary.id)).event s.level :: s.changelog := by
          rw [requestUnknown, if_pos hasked, ← changelog_install s _ true]
          rfl
        refine .installed (s.requestUnknown_installs circuit hasked) (fun stored hstored => ?_)
          htold
        obtain ⟨entry, hentry, -⟩ := Option.map_eq_some_iff.1 hstored
        exact absurd (hentry.symm.trans unknown) (by simp)
      · rw [requestUnknown, if_neg hasked]
        exact .kept rfl rfl
  | @purge id entry reason stored live zeroAge =>
      have htold : (s.purge id reason).changelog =
          (Change.installed (s.purgeOf entry.lsp)).event s.level :: s.changelog := by
        rw [purge_live reason stored live zeroAge, changelog_installAndFlood,
          changelog_silent _ rfl]
        rfl
      refine .installed (purge_installs reason stored live zeroAge) (fun copy hcopy => ?_) htold
      have hid : (s.purgeOf entry.lsp).id = id := h.keys stored
      rw [copiesHeld, hid, stored] at hcopy
      obtain rfl := Option.some.inj hcopy
      exact .of_expired (UInt32.le_refl _) rfl
  | @forcePurge lsp reason own =>
      have htold : (s.forcePurge lsp reason).changelog =
          (Change.installed (s.forcedPurge lsp)).event s.level :: s.changelog := by
        rw [LevelState.forcePurge, changelog_installAndFlood, changelog_silent _ rfl]
        rfl
      exact .installed (s.forcePurge_installs lsp reason)
        (fun stored hstored => forcedPurge_supersedes hstored) htold
  | @originate lsp seqno own next =>
      have htold : (s.originate lsp).changelog =
          (Change.installed (s.freshInstance lsp seqno)).event s.level :: s.changelog := by
        simp only [LevelState.originate, next, changelog_installAndFlood]
        rw [changelog_silent _ rfl]
        rfl
      exact .installed (originate_installs next)
        (fun stored hstored => freshInstance_supersedes next hstored) htold
  | @remove id entry stored ended =>
      obtain rfl : entry.lsp.id = id := h.keys stored
      obtain ⟨trace, heq⟩ := remove_eq stored
      refine .deleted (show (s.remove entry.lsp.id).database = _ by rw [heq]) ⟨?_, ?_⟩ ?_
      · rw [copiesHeld, stored]
        rfl
      · exact ended.symm.imp id of_decide_eq_true
      · rw [← s.changelog_remove entry.lsp.id]
        exact changelog_change _ s.level (.deleted entry.lsp)
  | scheduleGeneration pseudonode span =>
      obtain ⟨generators, timers, trace, heq⟩ := s.scheduleGeneration_eq pseudonode span
      exact .kept (by rw [heq]) (s.changelog_scheduleGeneration pseudonode span)
  | cancelGeneration pseudonode =>
      obtain ⟨generators, timers, heq⟩ := s.cancelGeneration_eq pseudonode
      exact .kept (by rw [heq]) (changelog_congr (by rw [heq]))
  | removeCircuit circuit => exact .kept rfl (@changelog_silent s .circuitRemoved rfl)
  | @defer circuit lsp =>
      obtain ⟨deferred, trace, heq⟩ := s.defer_eq circuit lsp
      exact .kept (by rw [heq]) (s.changelog_defer circuit lsp)
  | buildPage => exact .kept rfl (changelog_silent s rfl)
  | _ => exact .kept rfl rfl

/-! ### What an operation changes -/

/-- `t` holds and has told what `s` did. -/
structure Unchanged (s t : LevelState) : Prop where
  copies : t.copiesHeld = s.copiesHeld
  changelog : t.changelog = s.changelog

/-- `t` comes from `s` by a lawful change, which was told. -/
structure Changed (s : LevelState) (change : Change) (t : LevelState) : Prop where
  lawful : change.Lawful s.copiesHeld
  copies : t.copiesHeld = change.apply s.copiesHeld
  changelog : t.changelog = change.event s.level :: s.changelog

theorem Altered.changes (h : Altered s t) : Unchanged s t ∨ ∃ change, Changed s change t := by
  cases h with
  | kept database changelog => exact .inl ⟨copiesHeld_congr database, changelog⟩
  | installed installs lawful changelog =>
      exact .inr ⟨_, lawful, installs.copiesHeld, changelog⟩
  | deleted database lawful changelog =>
      exact .inr ⟨_, lawful, copiesHeld_erase database, changelog⟩

/-- Steps lead from one state to another, each with no change or a lawful one.  The
latest change is the first. -/
inductive Succession (heard : Lsp → Prop) (s : LevelState) : List Change → LevelState → Prop
  | refl : Succession heard s [] s
  | unchanged {changes : List Change} {t u : LevelState} (h : Succession heard s changes t)
      (hstep : Step heard t u) (hsame : Unchanged t u) : Succession heard s changes u
  | changed {change : Change} {changes : List Change} {t u : LevelState}
      (h : Succession heard s changes t) (hstep : Step heard t u) (hchange : Changed t change u) :
      Succession heard s (change :: changes) u

/-- Steps from a sound state are such a succession, and its changes are all that is told
of the database. -/
theorem Steps.succession (h : Sound heard s) (hsteps : Steps heard s t) :
    ∃ changes, Succession heard s changes t ∧
      t.changelog = changes.map (Change.event s.level) ++ s.changelog := by
  induction hsteps with
  | refl => exact ⟨[], .refl, rfl⟩
  | @tail t u hbefore hlast ih =>
      obtain ⟨changes, hchanges, htold⟩ := ih
      rcases (hlast.altered (h.steps hbefore).consistent).changes with
        hsame | ⟨change, hchange⟩
      · exact ⟨changes, hchanges.unchanged hlast hsame, hsame.changelog.trans htold⟩
      · refine ⟨change :: changes, hchanges.changed hlast hchange, ?_⟩
        rw [hchange.changelog, htold, (Steps.constant hbefore).1]
        rfl

variable {level : Level} {config : Config} {now : Nat}

/-- Whatever is asked of a level in a reachable state, it does in steps, in each of which
it installs or deletes at most one LSP, and all that it tells of installations and
deletions are these changes.  Each LSP that is installed supersedes the copy that it
replaces: the sequence number is no smaller, and greater if both are live, and no
placeholder takes the place of an actual LSP.  The stop installs nothing. -/
theorem sequence_numbers_rise (h : Reachable Proper level config now s) {operation : Operation}
    (hproper : s.Proper operation) :
    (operation ≠ .stop → ∃ changes,
      Succession (fun _ => True) s changes (s.perform operation) ∧
      (s.perform operation).changelog = changes.map (Change.event level) ++ s.changelog) ∧
    (operation = .stop → (s.perform operation).changelog = s.changelog) := by
  rcases hproper.running with hrunning | rfl
  · refine ⟨fun _ => ?_, fun hstop => absurd hstop hrunning.running⟩
    rw [← h.constant.1]
    exact Steps.succession h.sound (perform_steps h.sound (fun _ _ => trivial) hrunning)
  · exact ⟨fun hcontra => absurd rfl hcontra, fun _ => rfl⟩

/-- An own LSP that is handed in once more takes the place of the stored instance. -/
theorem sequence_numbers_rise_own :
    let lsp := Lsp.make 0 .one 1200 ⟨SystemId.zero, 0, 0⟩ 7 .none .empty
    ∃ changes, Succession (fun _ => True) originated changes
        (originated.perform (.receiveLsp none lsp)) ∧
      (originated.perform (.receiveLsp none lsp)).changelog =
        changes.map (Change.event .one) ++ originated.changelog := by
  intro lsp
  exact (@sequence_numbers_rise originated .one { Config.default with mtu := 51 } 0
    originated_reachable (.receiveLsp none lsp) trivial).1 (by simp)

end LevelState

end LinkState
