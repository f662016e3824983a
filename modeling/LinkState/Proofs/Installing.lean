import LinkState.LevelState.Install
import LinkState.Proofs.Table
import LinkState.Proofs.TimerQueue

/-!
# What installing and removing change

Installing an LSP puts one entry in place of the stored copy, with the timers
that `armed` starts for it after those of the stored copy are cancelled, and
discards pages.  Removing an LSP erases its entry, its timers and its flooding
flags, and discards the same pages.  Nothing else of the state changes but the
record of what happened.
-/

namespace LinkState

namespace Entry

variable {entry : Entry}

theorem isLive_iff :
    entry.isLive = true ↔ entry.isPurged = false ∧ entry.isPlaceholder = false := by
  simp [isLive]

theorem not_live_of_purged (h : entry.isPurged = true) : entry.isLive = false := by
  simp [isLive, h]

end Entry

namespace LevelState

/-- The handle that is kept of the timer for an event. -/
def kept? (s : LevelState) : TimerEvent → Option Handle
  | .expire id => (s.database.get? id).bind (·.lifeTimer)
  | .delete id => (s.database.get? id).bind (·.zeroAgeTimer)
  | .refresh id => (s.database.get? id).bind (·.refreshTimer)
  | .generate pseudonode => (s.generators.get? pseudonode).bind (·.timer)

def timersWithout (s : LevelState) (id : LspId) : TimerQueue TimerEvent :=
  ((s.timers.release (s.kept? (.expire id))).release (s.kept? (.delete id))).release
    (s.kept? (.refresh id))

/-- Whether a system refreshes an LSP: it originated the LSP, which is live. -/
def isRefreshed (system : SystemId) (lsp : Lsp) (received : Bool) : Bool :=
  !received && lsp.id.system = system && (!lsp.isExpired && lsp.seqno ≠ 0)

/-- The entry for an LSP, and the timers with those that are started for it. -/
def arm (s : LevelState) (lsp : Lsp) (received : Bool) : Entry × TimerQueue TimerEvent :=
  if lsp.lifetime = 0 then
    let zeroAge := s.timers.schedule s.now (seconds s.config.zeroAge.toNat) (.delete lsp.id)
    (⟨lsp, received, none, some zeroAge.1, none⟩, zeroAge.2)
  else
    let life := s.timers.schedule s.now (seconds (s.lifeSeconds lsp)) (.expire lsp.id)
    if isRefreshed s.config.system lsp received then
      let refresh := life.2.schedule s.now (seconds s.config.refreshSeconds) (.refresh lsp.id)
      (⟨lsp, received, some life.1, none, some refresh.1⟩, refresh.2)
    else (⟨lsp, received, some life.1, none, none⟩, life.2)

/-- The entry under which an LSP is installed, and the timers once those of the
stored copy are cancelled and its own are started. -/
def armed (s : LevelState) (lsp : Lsp) (received : Bool) : Entry × TimerQueue TimerEvent :=
  { s with timers := s.timersWithout lsp.id }.arm lsp received

theorem cancel_eq (s : LevelState) (handle : Option Handle) :
    s.cancel handle = { s with timers := s.timers.release handle } := by
  cases handle <;> rfl

theorem detach_eq (s : LevelState) (id : LspId) :
    s.detach id = { s with database := s.database.erase id, timers := s.timersWithout id } := by
  cases hstored : s.database.get? id with
  | none =>
      simp only [detach, hstored, timersWithout, kept?, Option.bind_none, TimerQueue.release,
        Table.erase_of_get?_eq_none hstored]
  | some entry =>
      simp only [detach, hstored, timersWithout, kept?, Option.bind_some, cancelEntry, cancel_eq]

theorem discardPages_eq (s : LevelState) (id : LspId) :
    ∃ trace, s.discardPages id =
      { s with pages := Page.keepBefore s.pages id, trace := trace } := by
  unfold discardPages
  dsimp only
  split
  · exact ⟨_, rfl⟩
  · rename_i hshort
    have hall : Page.keepBefore s.pages id = s.pages :=
      (List.takeWhile_prefix _).eq_of_length_le (Nat.le_of_not_lt hshort)
    exact ⟨s.trace, by rw [hall]⟩

theorem startLife_purged (s : LevelState) {lsp : Lsp} (received : Bool) (h : lsp.lifetime = 0) :
    s.startLife lsp received =
      (⟨lsp, received, none, some (s.schedule (seconds s.config.zeroAge.toNat) (.delete lsp.id)).1,
        none⟩, (s.schedule (seconds s.config.zeroAge.toNat) (.delete lsp.id)).2) := by
  rw [startLife, if_pos h]

theorem startLife_live (s : LevelState) {lsp : Lsp} (received : Bool) (h : lsp.lifetime ≠ 0) :
    s.startLife lsp received =
      (⟨lsp, received, some (s.schedule (seconds (s.lifeSeconds lsp)) (.expire lsp.id)).1, none,
        none⟩, (s.schedule (seconds (s.lifeSeconds lsp)) (.expire lsp.id)).2) := by
  rw [startLife, if_neg h]

theorem startRefresh_own (s : LevelState) {entry : Entry}
    (h : isRefreshed s.config.system entry.lsp entry.received = true) :
    s.startRefresh entry =
      (⟨entry.lsp, entry.received, entry.lifeTimer, entry.zeroAgeTimer,
          some (s.schedule (seconds s.config.refreshSeconds) (.refresh entry.lsp.id)).1⟩,
        (s.schedule (seconds s.config.refreshSeconds) (.refresh entry.lsp.id)).2) := by
  rw [startRefresh, if_pos]
  simpa [isRefreshed, isOwn, Entry.isLive, Entry.isPurged, Entry.isPlaceholder] using h

theorem startRefresh_other (s : LevelState) {entry : Entry}
    (h : isRefreshed s.config.system entry.lsp entry.received = false) :
    s.startRefresh entry = (entry, s) := by
  rw [startRefresh, if_neg]
  simpa [isRefreshed, isOwn, Entry.isLive, Entry.isPurged, Entry.isPlaceholder] using h

/-- With exactly one of its two lifetime timers running, and no copy stored, an
entry is stored without any check failing. -/
theorem store_eq (s : LevelState) {entry : Entry}
    (hone : entry.lifeTimer.isSome ≠ entry.zeroAgeTimer.isSome)
    (hfree : s.database.get? entry.lsp.id = none) :
    s.store entry = { s with database := s.database.insert entry.lsp.id entry } := by
  have hcontains : s.database.contains entry.lsp.id = false := by
    rw [Table.contains, hfree]
    rfl
  simp [store, if_neg hone, hcontains]

/-- The timers that are started one after the other are those of the armed entry. -/
theorem store_arm (s : LevelState) (lsp : Lsp) (received : Bool)
    (hfree : s.database.get? lsp.id = none) :
    ((s.startLife lsp received).2.startRefresh (s.startLife lsp received).1).2.store
        ((s.startLife lsp received).2.startRefresh (s.startLife lsp received).1).1 =
      { s with
        database := s.database.insert lsp.id (s.arm lsp received).1
        timers := (s.arm lsp received).2 } := by
  by_cases hlife : lsp.lifetime = 0
  · have hrefresh : isRefreshed s.config.system lsp received = false := by
      simp [isRefreshed, Lsp.isExpired, hlife]
    rw [startLife_purged s received hlife, startRefresh_other _ hrefresh, arm, if_pos hlife,
      store_eq _ (by simp) (by simpa [schedule] using hfree)]
    rfl
  · rw [startLife_live s received hlife, arm, if_neg hlife]
    cases hrefresh : isRefreshed s.config.system lsp received with
    | true =>
        rw [startRefresh_own _ hrefresh, store_eq _ (by simp) (by simpa [schedule] using hfree)]
        rfl
    | false =>
        rw [startRefresh_other _ hrefresh, store_eq _ (by simp) (by simpa [schedule] using hfree)]
        rfl

/-- Installing an LSP changes its entry, its timers, the pages behind it and the records, and
nothing else. -/
theorem install_eq (s : LevelState) (lsp : Lsp) (received : Bool) :
    ∃ trace history number, s.install lsp received =
      { s with
        database := s.database.insert lsp.id (s.armed lsp received).1
        timers := (s.armed lsp received).2
        pages := Page.keepBefore s.pages lsp.id
        history := history
        lastHistoryNumber := number
        trace := trace } := by
  obtain ⟨trace, hdiscard⟩ :=
    (s.tell (.lspChanged .installed s.level lsp.mention)).discardPages_eq lsp.id
  refine ⟨trace, (⟨s.lastHistoryNumber + 1, lsp.id, lsp.seqno, received,
    contentChange (s.database.get? lsp.id) lsp⟩ :: s.history).take historySize,
    s.lastHistoryNumber + 1, ?_⟩
  simp only [install]
  rw [store_arm, hdiscard, detach_eq]
  · simp only [record, tell]
    rw [Table.insert_erase]
    rfl
  · rw [hdiscard, detach_eq]
    exact Table.get?_erase_self _ _

/-- An entry is removed together with its timers, its flags, and the pages that describe it. -/
theorem remove_eq {s : LevelState} {id : LspId} {entry : Entry}
    (h : s.database.get? id = some entry) :
    ∃ trace, s.remove id =
      { s with
        database := s.database.erase id
        timers := s.timersWithout id
        pages := Page.keepBefore s.pages id
        flooding := s.flooding.removeLsp id
        trace := trace } := by
  obtain ⟨trace, hdiscard⟩ := s.discardPages_eq id
  refine ⟨trace, ?_⟩
  simp only [remove]
  rw [hdiscard, detach_eq]
  simp only [h]
  rfl

/-! ### Installing as one change -/

/-- The flags once an LSP is marked for sending on all circuits but one, and no
longer for acknowledgement on those. -/
def flooded (flooding : Flooding) (summary : LspSummary) (except : Option CircuitId) : Flooding :=
  (flooding.setAll .srm summary except).clearAll .ssn summary.id except

/-- `t` is `s` with an LSP installed, with the given flooding flags, and with
other records of what happened. -/
def Installs (s : LevelState) (lsp : Lsp) (received : Bool) (flooding : Flooding)
    (t : LevelState) : Prop :=
  ∃ counters history number trace, t =
    { s with
      database := s.database.insert lsp.id (s.armed lsp received).1
      timers := (s.armed lsp received).2
      pages := Page.keepBefore s.pages lsp.id
      flooding := flooding
      counters := counters
      history := history
      lastHistoryNumber := number
      trace := trace }

theorem installAndFlood_installs (s : LevelState) (lsp : Lsp) (received : Bool) :
    Installs s lsp received (flooded s.flooding (s.summaryOf lsp) none)
      (s.installAndFlood lsp received) := by
  obtain ⟨trace, history, number, heq⟩ := s.install_eq lsp received
  refine ⟨s.counters, history, number, trace, ?_⟩
  rw [installAndFlood, heq]
  rfl

/-! ### The new entry -/

theorem arm_lsp (s : LevelState) (lsp : Lsp) (received : Bool) :
    (s.arm lsp received).1.lsp = lsp := by
  rw [arm]
  dsimp only
  split_ifs <;> rfl

theorem arm_received (s : LevelState) (lsp : Lsp) (received : Bool) :
    (s.arm lsp received).1.received = received := by
  rw [arm]
  dsimp only
  split_ifs <;> rfl

/-- The timers of an entry fit its LSP: its life timer runs while it is live,
its zero age timer once it is purged, and its refresh timer while it is a live
LSP that this system originated. -/
structure Settled (system : SystemId) (entry : Entry) : Prop where
  life : entry.lifeTimer.isSome = !entry.lsp.isExpired
  zeroAge : entry.zeroAgeTimer.isSome = entry.lsp.isExpired
  refresh : entry.refreshTimer.isSome = isRefreshed system entry.lsp entry.received

theorem arm_settled (s : LevelState) (lsp : Lsp) (received : Bool) :
    Settled s.config.system (s.arm lsp received).1 := by
  rw [arm]
  dsimp only
  split_ifs with hlife hrefresh
  · constructor <;> simp [isRefreshed, Lsp.isExpired, hlife]
  · constructor <;> simp [hrefresh, Lsp.isExpired, hlife]
  · constructor <;> simp [hrefresh, Lsp.isExpired, hlife]

theorem armed_lsp (s : LevelState) (lsp : Lsp) (received : Bool) :
    (s.armed lsp received).1.lsp = lsp :=
  arm_lsp _ lsp received

theorem armed_received (s : LevelState) (lsp : Lsp) (received : Bool) :
    (s.armed lsp received).1.received = received :=
  arm_received _ lsp received

theorem armed_settled (s : LevelState) (lsp : Lsp) (received : Bool) :
    Settled s.config.system (s.armed lsp received).1 :=
  arm_settled { s with timers := s.timersWithout lsp.id } lsp received

theorem armed_life {s : LevelState} {lsp : Lsp} {received : Bool} {life : Handle}
    (h : (s.armed lsp received).1.lifeTimer = some life) :
    life.due = s.now + seconds (s.lifeSeconds lsp) := by
  simp only [armed, arm] at h
  split_ifs at h
  all_goals
    cases h
    rfl

theorem armed_refresh {s : LevelState} {lsp : Lsp} {received : Bool} {refresh : Handle}
    (h : (s.armed lsp received).1.refreshTimer = some refresh) :
    refresh.due = s.now + seconds s.config.refreshSeconds := by
  simp only [armed, arm] at h
  split_ifs at h
  cases h
  rfl

theorem Installs.stored {s t : LevelState} {lsp : Lsp} {received : Bool} {flooding : Flooding}
    (h : Installs s lsp received flooding t) :
    ∃ entry, t.database.get? lsp.id = some entry ∧ entry.lsp = lsp ∧ entry.received = received := by
  obtain ⟨counters, history, number, trace, rfl⟩ := h
  exact ⟨_, Table.get?_insert_self _ _ _, s.armed_lsp lsp received, s.armed_received lsp received⟩

/-! ### Matching timers -/

/-- The pending timers are exactly those that an entry or a generator waits
for. -/
def TimersMatch (s : LevelState) : Prop :=
  s.timers.Matches s.kept?

/-- What is kept if the entry of an LSP has the given timers. -/
def keptWith (s : LevelState) (id : LspId) (life zeroAge refresh : Option Handle) :
    TimerEvent → Option Handle
  | .expire k => if k = id then life else s.kept? (.expire k)
  | .delete k => if k = id then zeroAge else s.kept? (.delete k)
  | .refresh k => if k = id then refresh else s.kept? (.refresh k)
  | .generate pseudonode => s.kept? (.generate pseudonode)

theorem keptWith_update_expire (s : LevelState) (id : LspId) (a b c d : Option Handle) :
    Function.update (s.keptWith id a b c) (.expire id) d = s.keptWith id d b c := by
  funext event
  cases event <;> simp [keptWith, Function.update_apply]
  split_ifs <;> rfl

theorem keptWith_update_delete (s : LevelState) (id : LspId) (a b c d : Option Handle) :
    Function.update (s.keptWith id a b c) (.delete id) d = s.keptWith id a d c := by
  funext event
  cases event <;> simp [keptWith, Function.update_apply]
  split_ifs <;> rfl

theorem keptWith_update_refresh (s : LevelState) (id : LspId) (a b c d : Option Handle) :
    Function.update (s.keptWith id a b c) (.refresh id) d = s.keptWith id a b d := by
  funext event
  cases event <;> simp [keptWith, Function.update_apply]
  split_ifs <;> rfl

theorem keptWith_self (s : LevelState) (id : LspId) :
    s.keptWith id (s.kept? (.expire id)) (s.kept? (.delete id)) (s.kept? (.refresh id)) =
      s.kept? := by
  funext event
  cases event <;> simp only [keptWith]
  all_goals split_ifs with h <;> simp [h]

theorem kept?_insert (s : LevelState) (id : LspId) (entry : Entry)
    (timers : TimerQueue TimerEvent) :
    { s with database := s.database.insert id entry, timers := timers }.kept? =
      s.keptWith id entry.lifeTimer entry.zeroAgeTimer entry.refreshTimer := by
  funext event
  cases event <;> simp only [keptWith, kept?, Table.get?_insert, Key.rank_inj]
  all_goals split_ifs <;> rfl

theorem kept?_erase (s : LevelState) (id : LspId) (timers : TimerQueue TimerEvent) :
    { s with database := s.database.erase id, timers := timers }.kept? =
      s.keptWith id none none none := by
  funext event
  cases event <;> simp only [keptWith, kept?, Table.get?_erase, Key.rank_inj]
  all_goals split_ifs <;> rfl

theorem TimersMatch.without {s : LevelState} (h : s.TimersMatch) (id : LspId) :
    (s.timersWithout id).Matches (s.keptWith id none none none) := by
  have hlife := TimerQueue.Matches.release h (.expire id)
  have hzero := hlife.release (.delete id)
  rw [Function.update_of_ne (by simp)] at hzero
  have hrefresh := hzero.release (.refresh id)
  rw [Function.update_of_ne (by simp), Function.update_of_ne (by simp)] at hrefresh
  have hkept : Function.update (Function.update (Function.update s.kept? (.expire id) none)
      (.delete id) none) (.refresh id) none = s.keptWith id none none none := by
    conv_lhs => rw [← keptWith_self s id]
    rw [keptWith_update_expire, keptWith_update_delete, keptWith_update_refresh]
  exact hkept ▸ hrefresh

/-- The timers match again once the new entry holds its own. -/
theorem TimersMatch.armed {s : LevelState} (h : s.TimersMatch) (lsp : Lsp) (received : Bool) :
    (s.armed lsp received).2.Matches
      (s.keptWith lsp.id (s.armed lsp received).1.lifeTimer (s.armed lsp received).1.zeroAgeTimer
        (s.armed lsp received).1.refreshTimer) := by
  have hwithout := h.without lsp.id
  unfold LevelState.armed arm
  dsimp only
  split_ifs
  · have hzero := hwithout.schedule (.delete lsp.id) (by simp [keptWith]) s.now
      (seconds s.config.zeroAge.toNat)
    rw [keptWith_update_delete] at hzero
    exact hzero
  · have hlife := hwithout.schedule (.expire lsp.id) (by simp [keptWith]) s.now
      (seconds (s.lifeSeconds lsp))
    rw [keptWith_update_expire] at hlife
    have hrefresh := hlife.schedule (.refresh lsp.id) (by simp [keptWith]) s.now
      (seconds s.config.refreshSeconds)
    rw [keptWith_update_refresh] at hrefresh
    exact hrefresh
  · have hlife := hwithout.schedule (.expire lsp.id) (by simp [keptWith]) s.now
      (seconds (s.lifeSeconds lsp))
    rw [keptWith_update_expire] at hlife
    exact hlife

theorem TimersMatch.remove {s : LevelState} (h : s.TimersMatch) {id : LspId} {entry : Entry}
    (hstored : s.database.get? id = some entry) : (s.remove id).TimersMatch := by
  obtain ⟨trace, heq⟩ := remove_eq hstored
  have hwithout := h.without id
  rw [← kept?_erase s id (s.timersWithout id)] at hwithout
  rw [heq]
  exact hwithout

end LevelState

end LinkState
