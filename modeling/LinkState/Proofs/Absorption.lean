import LinkState.Proofs.Consistency

/-!
# Giving up a timer before its entry goes

A timer that fires, or a life timer that is stopped, is forgotten by its entry
before the entry is replaced or removed.  Replacing and removing cancel the
timers of the entry anyway, so that the outcome is the one without forgetting
first.
-/

namespace LinkState

namespace TimerQueue

variable {ε : Type}

theorem release_comm (queue : TimerQueue ε) (a b : Option Handle) :
    (queue.release a).release b = (queue.release b).release a := by
  cases a <;> cases b <;> simp only [release]
  exact remove_comm queue _ _

end TimerQueue

namespace LevelState

variable {s t : LevelState} {id : LspId}

/-- Two states differ, besides in the timers, in the entry of one LSP only: in
both it holds the same copy of the LSP. -/
structure Resembles (s : LevelState) (id : LspId) (t : LevelState) : Prop where
  rest : t = { s with database := t.database, timers := t.timers }
  erased : t.database.erase id = s.database.erase id
  without : t.timersWithout id = s.timersWithout id
  lsp : (t.database.get? id).map (·.lsp) = (s.database.get? id).map (·.lsp)

namespace Resembles

theorem tell (h : Resembles s id t) (event : Event) :
    Resembles (s.tell event) id (t.tell event) := by
  refine ⟨?_, h.erased, h.without, h.lsp⟩
  rw [h.rest]
  rfl

/-- The entry in which they differ is cut out together with its timers. -/
theorem detach (h : Resembles s id t) :
    (t.discardPages id).detach id = (s.discardPages id).detach id := by
  obtain ⟨hrest, herased, hwithout, -⟩ := h
  generalize t.database = database at hrest herased
  generalize t.timers = timers at hrest
  subst hrest
  have hdiscard : { s with database := database, timers := timers }.discardPages id =
      { s.discardPages id with database := database, timers := timers } := by
    by_cases hshort : (Page.keepBefore s.pages id).length < s.pages.length <;>
      simp only [discardPages, LevelState.tell, hshort, if_true, if_false]
  obtain ⟨trace, heq⟩ := s.discardPages_eq id
  rw [detach_eq, detach_eq, hdiscard, heq]
  show { s with
    database := database.erase id
    timers := { s with database := database, timers := timers }.timersWithout id
    pages := Page.keepBefore s.pages id
    trace := trace } = _
  rw [herased, hwithout]
  rfl

theorem install (h : Resembles s id t) {lsp : Lsp} (hid : lsp.id = id) (received : Bool) :
    t.install lsp received = s.install lsp received := by
  subst hid
  have hlevel : t.level = s.level := by rw [h.rest]
  have hchange : contentChange (t.database.get? lsp.id) lsp =
      contentChange (s.database.get? lsp.id) lsp := by
    have hlsp := h.lsp
    cases ht : t.database.get? lsp.id <;> cases hs : s.database.get? lsp.id <;>
      rw [ht, hs] at hlsp <;> simp_all [contentChange]
  have hdetach := (h.tell (.lspChanged .installed s.level lsp.mention)).detach
  simp only [LevelState.install, hchange, hlevel, hdetach]

/-- Nor is anything left of the difference once the entry is removed. -/
theorem remove (h : Resembles s id t) {entry : Entry} (hstored : s.database.get? id = some entry) :
    t.remove id = s.remove id := by
  have hstored' : ∃ entry', t.database.get? id = some entry' := by
    have hlsp := h.lsp
    rw [hstored] at hlsp
    cases ht : t.database.get? id <;> simp_all
  obtain ⟨entry', hstored'⟩ := hstored'
  have hremove : ∀ {u : LevelState} {e : Entry}, u.database.get? id = some e →
      u.remove id =
        { (u.discardPages id).detach id with
          flooding := ((u.discardPages id).detach id).flooding.removeLsp id } := by
    intro u e hu
    have hkept : (u.discardPages id).database = u.database := by
      obtain ⟨trace, heq⟩ := u.discardPages_eq id
      rw [heq]
    simp only [LevelState.remove, hkept, hu]
  rw [hremove hstored', hremove hstored, h.detach]

theorem installAndFlood (h : Resembles s id t) {lsp : Lsp} (hid : lsp.id = id)
    (received : Bool) : t.installAndFlood lsp received = s.installAndFlood lsp received := by
  rw [LevelState.installAndFlood, LevelState.installAndFlood, h.install hid]

theorem storedSeqno (h : Resembles s id t) : t.storedSeqno id = s.storedSeqno id := by
  have hseqno := congrArg (Option.map Lsp.seqno) h.lsp
  simp only [Option.map_map] at hseqno
  exact congrArg (fun seqno => seqno.getD 0) hseqno

theorem forcePurge (h : Resembles s id t) {lsp : Lsp} (hid : lsp.id = id)
    (reason : PurgeReason) : t.forcePurge lsp reason = s.forcePurge lsp reason := by
  have hpurge : t.forcedPurge lsp = s.forcedPurge lsp := by
    rw [forcedPurge, forcedPurge, hid, h.storedSeqno, h.rest]
    rfl
  show (t.tell (.lspPurged t.level (t.forcedPurge lsp).mention reason)).installAndFlood
    (t.forcedPurge lsp) false = _
  have hlevel : t.level = s.level := by rw [h.rest]
  rw [hpurge, hlevel]
  exact (h.tell _).installAndFlood (show (s.forcedPurge lsp).id = id from hid) false

/-- If a live copy is stored, originating replaces it in any case. -/
theorem originate (h : Resembles s id t) {lsp : Lsp} (hid : lsp.id = id) {entry : Entry}
    (hstored : s.database.get? id = some entry) (hlive : entry.isPurged = false) :
    t.originate lsp = s.originate lsp := by
  subst hid
  have hlevel : t.level = s.level := by rw [h.rest]
  obtain ⟨entry', hstored', hlsp⟩ : ∃ entry', t.database.get? lsp.id = some entry' ∧
      entry'.lsp = entry.lsp := by
    have hlsp := h.lsp
    rw [hstored] at hlsp
    cases ht : t.database.get? lsp.id <;> simp_all
  have hlive' : entry'.isPurged = false := by
    rw [Entry.isPurged, hlsp]
    exact hlive
  simp only [LevelState.originate, h.storedSeqno]
  cases hnext : nextSeqno? (max lsp.seqno (s.storedSeqno lsp.id)) with
  | none =>
      have hcount : ∀ f, Resembles (s.count f) lsp.id (t.count f) := by
        intro f
        refine ⟨?_, h.erased, h.without, h.lsp⟩
        rw [h.rest]
        rfl
      simp only [hstored, hstored', hlive, hlive', Option.map_some, Option.getD_some,
        Bool.not_false, if_true]
      have hcountLevel : ∀ f, (t.count f).level = (s.count f).level := fun _ => hlevel
      rw [hcountLevel]
      exact ((hcount _).tell _).forcePurge rfl .maxSeqno
  | some seqno =>
      have hfresh : t.freshInstance lsp seqno = s.freshInstance lsp seqno := by
        rw [freshInstance, freshInstance, h.rest]
      show (t.tell (.lspChanged .originated t.level (t.freshInstance lsp seqno).mention)
        ).installAndFlood (t.freshInstance lsp seqno) false = _
      rw [hfresh, hlevel]
      exact (h.tell _).installAndFlood (show (s.freshInstance lsp seqno).id = lsp.id from rfl) false

theorem accept (h : Resembles s id t) {lsp : Lsp} (hid : lsp.id = id) (circuit : CircuitId) :
    t.accept circuit lsp = s.accept circuit lsp := by
  have hcompleted : t.completed lsp = s.completed lsp := by
    rw [h.rest]
    rfl
  have hinstall := h.install ((s.completed_id lsp).trans hid) true
  simp only [LevelState.accept, hcompleted, hinstall]

theorem delete (h : Resembles s id t) {entry : Entry} (hstored : s.database.get? id = some entry) :
    t.delete id = s.delete id := by
  have hlevel : t.level = s.level := by rw [h.rest]
  obtain ⟨entry', hstored', hlsp⟩ : ∃ entry', t.database.get? id = some entry' ∧
      entry'.lsp = entry.lsp := by
    have hlsp := h.lsp
    rw [hstored] at hlsp
    cases ht : t.database.get? id <;> simp_all
  simp only [LevelState.delete, hstored, hstored', hlsp, hlevel, h.remove hstored]

end Resembles

/-! ### Forgetting resembles -/

theorem disarmed_expire (s : LevelState) (id : LspId) :
    Resembles s id (s.disarmed (.expire id)) where
  rest := rfl
  erased := Table.erase_modify _ _ _
  without := by
    simp only [timersWithout, kept?, disarmed, Table.get?_modify, if_true]
    cases s.database.get? id <;> rfl
  lsp := by
    simp only [disarmed, Table.get?_modify, if_true]
    cases s.database.get? id <;> rfl

theorem disarmed_delete (s : LevelState) (id : LspId) :
    Resembles s id (s.disarmed (.delete id)) where
  rest := rfl
  erased := Table.erase_modify _ _ _
  without := by
    simp only [timersWithout, kept?, disarmed, Table.get?_modify, if_true]
    cases hstored : s.database.get? id with
    | none => rfl
    | some entry =>
        simp only [Option.map_some, Option.bind_some]
        rw [s.timers.release_comm entry.zeroAgeTimer]
        rfl
  lsp := by
    simp only [disarmed, Table.get?_modify, if_true]
    cases s.database.get? id <;> rfl

theorem disarmed_refresh (s : LevelState) (id : LspId) :
    Resembles s id (s.disarmed (.refresh id)) where
  rest := rfl
  erased := Table.erase_modify _ _ _
  without := by
    simp only [timersWithout, kept?, disarmed, Table.get?_modify, if_true]
    cases hstored : s.database.get? id with
    | none => rfl
    | some entry =>
        simp only [Option.map_some, Option.bind_some]
        rw [s.timers.release_comm entry.refreshTimer,
          (s.timers.release entry.lifeTimer).release_comm entry.refreshTimer]
        rfl
  lsp := by
    simp only [disarmed, Table.get?_modify, if_true]
    cases s.database.get? id <;> rfl

/-! ### Timers that fire -/

/-- A life timer is that of an entry which is not purged, so that no zero age timer runs for it. -/
theorem entry_of_lifeTimer (h : s.Consistent) {handle : Handle}
    (hkept : s.kept? (.expire id) = some handle) :
    ∃ entry, s.database.get? id = some entry ∧ entry.lifeTimer = some handle ∧
      entry.isPurged = false ∧ entry.zeroAgeTimer = none := by
  obtain ⟨entry, hstored, htimer⟩ := Option.bind_eq_some_iff.1 hkept
  have hsettled := h.settled hstored
  have hlive : entry.lsp.isExpired = false := by
    have hlife := hsettled.life
    rw [htimer] at hlife
    simpa using hlife
  refine ⟨entry, hstored, htimer, hlive, ?_⟩
  have hzero := hsettled.zeroAge
  rw [hlive] at hzero
  simpa using hzero

/-- It makes no difference whether the timer that fired is forgotten first: expiring an entry
cancels its timers. -/
theorem expire_disarmed (h : s.Consistent) {handle : Handle}
    (hkept : s.kept? (.expire id) = some handle) :
    (s.disarmed (.expire id)).expire id = s.expire id := by
  obtain ⟨entry, hstored, -, hlive, hzero⟩ := entry_of_lifeTimer h hkept
  have hresembles := s.disarmed_expire id
  have hstored' : (s.disarmed (.expire id)).database.get? id =
      some { entry with lifeTimer := none } := by
    simp [disarmed, Table.get?_modify, hstored]
  simp only [expire, hstored, hstored', Entry.isPlaceholder, hresembles.delete hstored]
  congr 1
  have hid : (s.purgeOf entry.lsp).id = id := h.keys hstored
  rw [purge_live .expired hstored' hlive hzero, purge_live .expired hstored hlive hzero]
  exact (hresembles.tell _).installAndFlood hid _

theorem fire_expire (h : s.Consistent) {handle : Handle}
    (hkept : s.kept? (.expire id) = some handle) :
    { s with timers := s.timers.remove handle.number }.fire
      ⟨handle.number, handle.due, .expire id⟩ = s.expire id := by
  rw [← expire_disarmed h hkept]
  obtain ⟨entry, hstored, htimer, -⟩ := entry_of_lifeTimer h hkept
  simp only [fire, onExpire, hstored, htimer, isTimer, Option.map_some, Option.getD_some,
    beq_self_eq_true, if_true, disarmed, hkept]
  rfl

/-- The zero age timer of an entry fires, and the entry is deleted. -/
theorem fire_delete (h : s.Consistent) {handle : Handle}
    (hkept : s.kept? (.delete id) = some handle) :
    { s with timers := s.timers.remove handle.number }.fire
      ⟨handle.number, handle.due, .delete id⟩ = s.delete id := by
  obtain ⟨entry, hstored, htimer⟩ := Option.bind_eq_some_iff.1 hkept
  have hpurged : entry.isPurged = true := by
    have hzero := (h.settled hstored).zeroAge
    rw [htimer] at hzero
    exact hzero.symm
  rw [← (s.disarmed_delete id).delete hstored]
  simp only [fire, onDelete, hstored, htimer, hpurged, isTimer, Option.map_some,
    Option.getD_some, beq_self_eq_true, Bool.and_self, if_true, disarmed, hkept]
  rfl

/-- The entry whose refresh timer runs. -/
theorem entry_of_refreshTimer (h : s.Consistent) {handle : Handle}
    (hkept : s.kept? (.refresh id) = some handle) :
    ∃ entry, s.database.get? id = some entry ∧ entry.refreshTimer = some handle ∧
      entry.isLive = true ∧ s.isOwn id = true := by
  obtain ⟨entry, hstored, htimer⟩ := Option.bind_eq_some_iff.1 hkept
  have hrefresh := (h.settled hstored).refresh
  rw [htimer] at hrefresh
  simp only [Option.isSome_some, isRefreshed, Bool.true_eq, Bool.and_eq_true, Bool.not_eq_true',
    decide_eq_true_eq] at hrefresh
  obtain ⟨⟨-, hsystem⟩, hlive, hseqno⟩ := hrefresh
  refine ⟨entry, hstored, htimer, ?_, ?_⟩
  · simpa [Entry.isLive, Entry.isPurged, Entry.isPlaceholder, hlive] using hseqno
  · rw [h.keys hstored] at hsystem
    simpa [isOwn] using hsystem

/-- The refresh timer of an entry fires, and its LSP, which is live and an own one, is
originated anew. -/
theorem fire_refresh (h : s.Consistent) {handle : Handle}
    (hkept : s.kept? (.refresh id) = some handle) :
    ∃ entry, s.database.get? id = some entry ∧ entry.refreshTimer = some handle ∧
      entry.isLive = true ∧ s.isOwn id = true ∧
      { s with timers := s.timers.remove handle.number }.fire
        ⟨handle.number, handle.due, .refresh id⟩ =
          (s.tell (.lspChanged .refreshed s.level entry.lsp.mention)).originate entry.lsp := by
  obtain ⟨entry, hstored, htimer, hlive, hown⟩ := entry_of_refreshTimer h hkept
  refine ⟨entry, hstored, htimer, hlive, hown, ?_⟩
  rw [Entry.isLive_iff] at hlive
  rw [← ((s.disarmed_refresh id).tell _).originate (h.keys hstored) hstored hlive.1]
  simp only [fire, onRefresh, hstored, htimer, isTimer, Option.map_some, Option.getD_some,
    beq_self_eq_true, if_true, disarmed, hkept]
  rfl

theorem fire_generate {pseudonode : UInt8} {handle : Handle}
    (hkept : s.kept? (.generate pseudonode) = some handle) :
    { s with timers := s.timers.remove handle.number }.fire
      ⟨handle.number, handle.due, .generate pseudonode⟩ =
        (s.disarmed (.generate pseudonode)).generate pseudonode := by
  obtain ⟨generator, hstored, htimer⟩ := generator_of_kept? hkept
  simp only [fire, onGenerate, hstored, htimer, isTimer, Option.map_some, Option.getD_some,
    beq_self_eq_true, if_true, disarmed, hkept]
  rfl

/-- What the timer that is due first sets off. -/
inductive Fired (s : LevelState) : LevelState → Prop
  | expired {id : LspId} {entry : Entry} {life : Handle}
      (stored : s.database.get? id = some entry) (running : entry.lifeTimer = some life)
      (due : life.due ≤ s.now) (first : ∀ timer ∈ s.timers.pending, life.due ≤ timer.due)
      (live : entry.isPurged = false) : Fired s (s.expire id)
  | deleted {id : LspId} {entry : Entry} {zeroAge : Handle}
      (stored : s.database.get? id = some entry) (running : entry.zeroAgeTimer = some zeroAge)
      (due : zeroAge.due ≤ s.now) (purged : entry.isPurged = true) : Fired s (s.delete id)
  | refreshed {id : LspId} {entry : Entry} {refresh : Handle}
      (stored : s.database.get? id = some entry) (running : entry.refreshTimer = some refresh)
      (due : refresh.due ≤ s.now) (live : entry.isLive = true) (own : s.isOwn id = true) :
      Fired s ((s.tell (.lspChanged .refreshed s.level entry.lsp.mention)).originate entry.lsp)
  | generated {pseudonode : UInt8} {handle : Handle}
      (kept : s.kept? (.generate pseudonode) = some handle) (due : handle.due ≤ s.now) :
      Fired s ((s.disarmed (.generate pseudonode)).generate pseudonode)

/-- The timer that fires first is of one of four kinds, and sets off what that kind is for. -/
theorem fireNext_fired (h : s.Consistent) (hfire : s.fireNext? = some t) : Fired s t := by
  obtain ⟨⟨timer, rest⟩, hpop, hfired⟩ := Option.map_eq_some_iff.1 hfire
  obtain ⟨hmem, hdue, rfl⟩ := TimerQueue.pop?_eq_some h.timers.nodup hpop
  have hkept := h.timers.kept_of_mem hmem
  have hfirst : ∀ other ∈ s.timers.pending, timer.due ≤ other.due :=
    fun _ hother => TimerQueue.due_le_of_pop? hpop hother
  obtain ⟨number, due, event⟩ := timer
  subst hfired
  dsimp only at hkept hdue hfirst ⊢
  cases event with
  | expire id =>
      obtain ⟨entry, hstored, htimer, hlive, -⟩ := entry_of_lifeTimer h hkept
      rw [fire_expire h hkept]
      exact .expired hstored htimer hdue hfirst hlive
  | delete id =>
      obtain ⟨entry, hstored, htimer⟩ := Option.bind_eq_some_iff.1 hkept
      have hzero := (h.settled hstored).zeroAge
      rw [htimer] at hzero
      rw [fire_delete h hkept]
      exact .deleted hstored htimer hdue hzero.symm
  | refresh id =>
      obtain ⟨entry, hstored, htimer, hlive, hown, heq⟩ := fire_refresh h hkept
      rw [heq]
      exact .refreshed hstored htimer hdue hlive hown
  | generate pseudonode =>
      rw [fire_generate hkept]
      exact .generated hkept hdue

/-! ### Life timers that are stopped -/

/-- Stopping a life timer is forgetting it, unless there is none. -/
theorem stopLife_cases (s : LevelState) (lsp : Lsp) :
    s.stopLife lsp = (true, s) ∨
      ∃ entry handle, s.database.get? lsp.id = some entry ∧ entry.lifeTimer = some handle ∧
        s.stopLife lsp =
          (s.timers.isArmed handle.number && s.now < handle.due ||
            Recency.ofFields entry.lsp.seqno 0 lsp.seqno lsp.lifetime = .newer,
            s.disarmed (.expire lsp.id)) := by
  cases hstored : s.database.get? lsp.id with
  | none =>
      left
      simp only [stopLife, hstored]
  | some entry =>
      cases htimer : entry.lifeTimer with
      | none =>
          left
          simp only [stopLife, hstored, htimer]
      | some handle =>
          right
          refine ⟨entry, handle, rfl, htimer, ?_⟩
          simp only [stopLife, hstored, htimer, TimerQueue.cancel, disarmed, kept?,
            Option.bind_some, TimerQueue.release]

theorem stopLife_accept (s : LevelState) (circuit : CircuitId) (lsp : Lsp) :
    (s.stopLife lsp).2.accept circuit lsp = s.accept circuit lsp := by
  rcases s.stopLife_cases lsp with heq | ⟨entry, handle, -, -, heq⟩
  · rw [heq]
  · rw [heq]
    exact (s.disarmed_expire lsp.id).accept rfl circuit

/-- A life timer that cannot be stopped belongs to a live copy, and the received
LSP is no newer than that copy once expired. -/
theorem stopLife_expired (h : s.Consistent) {lsp : Lsp} (hstop : (s.stopLife lsp).1 = false) :
    (∃ entry, s.database.get? lsp.id = some entry ∧ entry.isPurged = false ∧
      Recency.ofFields entry.lsp.seqno 0 lsp.seqno lsp.lifetime ≠ .newer) ∧
      (s.stopLife lsp).2.expire lsp.id = s.expire lsp.id := by
  rcases s.stopLife_cases lsp with heq | ⟨entry, handle, hstored, htimer, heq⟩
  · rw [heq] at hstop
    cases hstop
  · have hkept : s.kept? (.expire lsp.id) = some handle := by simp [kept?, hstored, htimer]
    obtain ⟨entry', hstored', -, hlive, -⟩ := entry_of_lifeTimer h hkept
    obtain rfl : entry = entry' := Option.some.inj (hstored.symm.trans hstored')
    rw [heq] at hstop ⊢
    simp only [Bool.or_eq_false_iff, decide_eq_false_iff_not] at hstop
    exact ⟨⟨entry, hstored, hlive, hstop.2⟩, expire_disarmed h hkept⟩

/-- A life timer that cannot be stopped is due. -/
theorem stopLife_overdue (h : s.Consistent) {lsp : Lsp} (hstop : (s.stopLife lsp).1 = false) :
    ∃ entry life, s.database.get? lsp.id = some entry ∧ entry.lifeTimer = some life ∧
      life.due ≤ s.now := by
  rcases s.stopLife_cases lsp with heq | ⟨entry, life, hstored, hlife, heq⟩
  · rw [heq] at hstop
    cases hstop
  · refine ⟨entry, life, hstored, hlife, ?_⟩
    have hkept : s.kept? (.expire lsp.id) = some life := by simp [kept?, hstored, hlife]
    have harmed : s.timers.isArmed life.number = true :=
      List.any_eq_true.2 ⟨_, (h.timers.mem_iff _ _).1 hkept, beq_self_eq_true _⟩
    rw [heq] at hstop
    simp only [harmed, Bool.true_and, Bool.or_eq_false_iff, decide_eq_false_iff_not] at hstop
    exact Nat.le_of_not_lt hstop.1

end LevelState

end LinkState
