import LinkState.Proofs.Draining
import LinkState.Proofs.Lifetimes
import LinkState.Proofs.Succession

/-!
# No entry outstays its time

A level tells every installation, and so it is known of each entry when it was
installed.  The timer that ends its life, or the time it is kept as a purge, runs from
then on.  Once all due timers are processed, no entry is older than its span, and one
that is not replaced is gone when its span is over.
-/

namespace LinkState

/-- The seconds for which an LSP is stored unless it is replaced. -/
def Lsp.span (config : Config) (lsp : Lsp) : Nat :=
  if lsp.isExpired then config.zeroAge.toNat
  else if lsp.seqno = 0 then min lsp.lifetime.toNat config.placeholderLifetime.toNat
  else lsp.lifetime.toNat

def Event.installs? : Event → Option LspId
  | .lspChanged .installed _ lsp => some lsp.id
  | _ => none

/-- What was told, with the times, the latest first. -/
abbrev Log := List (Nat × Event)

/-- The time at which an LSP was installed last. -/
def installedAt? (log : Log) (id : LspId) : Option Nat :=
  (log.find? fun told => told.2.installs? = some id).map (·.1)

theorem installedAt?_append (first second : Log) (id : LspId) :
    installedAt? (first ++ second) id =
      (installedAt? first id).or (installedAt? second id) := by
  simp only [installedAt?, List.find?_append, Option.map_or]

namespace LevelState

variable {heard : Lsp → Prop} {s t u : LevelState} {id : LspId} {log : Log}

def stamped (s : LevelState) (events : List Event) : Log :=
  events.map fun event => (s.now, event)

/-- What a level tells of its database in an operation. -/
def logOf (s : LevelState) (operation : Operation) : Log :=
  let told := (s.perform operation).changelog
  s.stamped (told.take (told.length - s.changelog.length))

theorem logOf_eq {operation : Operation} {events : List Event}
    (h : (s.perform operation).changelog = events ++ s.changelog) :
    s.logOf operation = s.stamped events := by
  simp only [logOf, h, List.length_append, Nat.add_sub_cancel]
  rw [List.take_left']
  rfl

/-- A run from one state to another, with what is told of the database meanwhile. -/
inductive Run (allowed : LevelState → Operation → Prop) (s : LevelState) :
    Log → LevelState → Prop
  | refl : Run allowed s [] s
  | perform {log : Log} {t : LevelState} {operation : Operation} (h : Run allowed s log t)
      (hallowed : allowed t operation) :
      Run allowed s (t.logOf operation ++ log) (t.perform operation)

/-! ### Times of installation -/

/-- The timer of an entry runs since a time that is past. -/
structure Since (s : LevelState) (entry : Entry) (time : Nat) : Prop where
  past : time ≤ s.now
  due : ∀ handle, entry.lifeTimer = some handle ∨ entry.zeroAgeTimer = some handle →
    handle.due = time + seconds (entry.lsp.span s.config)

/-- The timers of all entries run since the LSPs were installed. -/
def Aged (s : LevelState) (log : Log) : Prop :=
  ∀ id entry, s.database.get? id = some entry →
    ∃ time, installedAt? log id = some time ∧ Since s entry time

theorem Since.congr {entry : Entry} {time : Nat} (h : Since s entry time)
    (hnow : s.now ≤ t.now) (hconfig : t.config = s.config) : Since t entry time where
  past := Nat.le_trans h.past hnow
  due := hconfig ▸ h.due

/-- The timer of a new entry starts with its installation. -/
theorem armed_since (s : LevelState) (lsp : Lsp) (received : Bool) :
    Since s (s.armed lsp received).1 s.now where
  past := Nat.le_refl _
  due := by
    intro handle hhandle
    rw [s.armed_lsp lsp received]
    simp only [armed, arm] at hhandle
    split_ifs at hhandle with hpurged
    all_goals simp only [Option.some.injEq, or_false, false_or] at hhandle
    all_goals subst hhandle
    · simp [Lsp.span, Lsp.isExpired, hpurged, TimerQueue.schedule]
    · simp [Lsp.span, Lsp.isExpired, hpurged, lifeSeconds, TimerQueue.schedule]
    · simp [Lsp.span, Lsp.isExpired, hpurged, lifeSeconds, TimerQueue.schedule]

/-- What was told on the way from one state to another accounts for the entries. -/
structure Accounts (s t : LevelState) (told : Log) : Prop where
  aged : ∀ {log}, Aged s log → Aged t (told ++ log)
  unreplaced : ∀ {id}, installedAt? told id = none →
    t.copiesHeld id = none ∨ t.copiesHeld id = s.copiesHeld id

namespace Accounts

theorem refl (s : LevelState) : Accounts s s [] :=
  ⟨fun h => h, fun _ => .inr rfl⟩

theorem trans {first second : Log} (h : Accounts s t first) (h' : Accounts t u second) :
    Accounts s u (second ++ first) where
  aged := fun haged => by
    rw [List.append_assoc]
    exact h'.aged (h.aged haged)
  unreplaced := fun {id} hnone => by
    rw [installedAt?_append, Option.or_eq_none_iff] at hnone
    rcases h'.unreplaced hnone.1 with hgone | hsame
    · exact .inl hgone
    · rw [hsame]
      exact h.unreplaced hnone.2

theorem of_empty (h : t.database = Table.empty) (told : Log) : Accounts s t told where
  aged := fun _ id entry hstored => by simp [h] at hstored
  unreplaced := fun _ => .inl (by simp [copiesHeld, h])

theorem of_kept (hdatabase : t.database = s.database) (hnow : s.now ≤ t.now)
    (hconfig : t.config = s.config) : Accounts s t [] where
  aged := fun haged id entry hstored => by
    obtain ⟨time, htime, hsince⟩ := haged id entry (hdatabase ▸ hstored)
    exact ⟨time, htime, hsince.congr hnow hconfig⟩
  unreplaced := fun _ => .inr (congrFun (copiesHeld_congr hdatabase) _)

end Accounts

/-- What a step tells accounts for what it does. -/
theorem Altered.accounts (h : Altered s t) (hnow : s.now ≤ t.now) (hconfig : t.config = s.config) :
    ∃ events, t.changelog = events ++ s.changelog ∧ Accounts s t (s.stamped events) := by
  cases h with
  | kept database changelog => exact ⟨[], changelog, .of_kept database hnow hconfig⟩
  | @installed lsp received flooding installs lawful changelog =>
      refine ⟨[(Change.installed lsp).event s.level], changelog, ?_⟩
      have hother : ∀ {id}, id ≠ lsp.id → installedAt? (s.stamped
          [(Change.installed lsp).event s.level]) id = none := by
        intro id hid
        simp [installedAt?, stamped, Change.event, Event.installs?, Lsp.mention, hid.symm]
      have hthis : installedAt? (s.stamped [(Change.installed lsp).event s.level]) lsp.id =
          some s.now := by
        simp [installedAt?, stamped, Change.event, Event.installs?, Lsp.mention]
      refine ⟨fun haged id entry hstored => ?_, fun {id} hnone => ?_⟩
      · rw [installedAt?_append]
        obtain ⟨counters, history, number, trace, rfl⟩ := installs
        by_cases hid : id = lsp.id
        · subst hid
          rw [Table.get?_insert_self] at hstored
          obtain rfl := Option.some.inj hstored
          refine ⟨s.now, by rw [hthis]; rfl, (s.armed_since lsp received).congr ?_ rfl⟩
          exact Nat.le_refl _
        · rw [Table.get?_insert_of_ne _ _ hid] at hstored
          obtain ⟨time, htime, hsince⟩ := haged id entry hstored
          exact ⟨time, by rw [hother hid]; exact htime, hsince.congr (Nat.le_refl _) rfl⟩
      · right
        have hid : id ≠ lsp.id := fun heq => by
          rw [heq, hthis] at hnone
          cases hnone
        rw [installs.copiesHeld]
        simp [Change.apply, hid]
  | @deleted entry database lawful changelog =>
      refine ⟨[(Change.deleted entry.lsp).event s.level], changelog, ?_⟩
      have hnone : ∀ id, installedAt? (s.stamped
          [(Change.deleted entry.lsp).event s.level]) id = none := by
        intro id
        simp [installedAt?, stamped, Change.event, Event.installs?]
      refine ⟨fun haged id entry' hstored => ?_, fun {id} _ => ?_⟩
      · rw [installedAt?_append, hnone]
        rw [database, Table.get?_erase] at hstored
        split at hstored
        · cases hstored
        · obtain ⟨time, htime, hsince⟩ := haged id entry' hstored
          exact ⟨time, htime, hsince.congr hnow hconfig⟩
      · rw [copiesHeld_erase database]
        by_cases hid : id = entry.lsp.id
        · exact .inl (by simp [Change.apply, hid])
        · exact .inr (by simp [Change.apply, hid])

/-- So does what is told in steps that take no time. -/
theorem Steps.accounts (h : Sound heard s) (hsteps : Steps heard s t) (hnow : t.now = s.now) :
    ∃ events, t.changelog = events ++ s.changelog ∧ Accounts s t (s.stamped events) := by
  induction hsteps with
  | refl => exact ⟨[], rfl, .refl s⟩
  | @tail t u hbefore hlast ih =>
      have hle := Steps.now_le hbefore
      have hle' := hlast.now_le
      have hstays : t.now = s.now := by omega
      obtain ⟨events, htold, haccounts⟩ := ih hstays
      obtain ⟨more, htold', haccounts'⟩ :=
        (hlast.altered (h.steps hbefore).consistent).accounts hle' hlast.constant.2.1
      refine ⟨more ++ events, by rw [htold', htold, List.append_assoc], ?_⟩
      have hstamped : s.stamped (more ++ events) = t.stamped more ++ s.stamped events := by
        simp only [stamped, List.map_append, hstays]
      rw [hstamped]
      exact haccounts.trans haccounts'

/-! ### Runs -/

/-- Whatever is asked of a level, what is told meanwhile accounts for the entries afterwards. -/
theorem perform_accounts (h : Sound (fun _ => True) s) {operation : Operation}
    (hproper : s.Proper operation) :
    Accounts s (s.perform operation) (s.logOf operation) := by
  by_cases hadvance : ∃ span, operation = .advance span
  · obtain ⟨span, rfl⟩ := hadvance
    have hnone : s.logOf (.advance span) = [] := @logOf_eq s (.advance span) [] rfl
    rw [hnone]
    exact .of_kept rfl (Nat.le_add_right _ _) rfl
  · rcases hproper.running with hrunning | rfl
    · have hnow : (s.perform operation).now = s.now :=
        perform_now h fun span hcontra => hadvance ⟨span, hcontra⟩
      obtain ⟨events, htold, haccounts⟩ :=
        Steps.accounts h (perform_steps h (fun _ _ => trivial) hrunning) hnow
      rw [logOf_eq htold]
      exact haccounts
    · exact .of_empty rfl _

variable {level : Level} {config : Config} {now : Nat}
  {allowed : LevelState → Operation → Prop}

theorem Run.reachable (hrun : Run allowed s log t) (h : Reachable allowed level config now s) :
    Reachable allowed level config now t := by
  induction hrun with
  | refl => exact h
  | perform _ hallowed ih => exact ih.perform hallowed

theorem Run.mono {more : LevelState → Operation → Prop}
    (hmore : ∀ {s operation}, allowed s operation → more s operation) (hrun : Run allowed s log t) :
    Run more s log t := by
  induction hrun with
  | refl => exact .refl
  | perform _ hallowed ih => exact ih.perform (hmore hallowed)

/-- Whatever LSPs are handed in, what is told accounts for what is done. -/
theorem Run.accounts_of_proper (hrun : Run Proper s log t)
    (h : Reachable Proper level config now s) : Accounts s t log := by
  induction hrun with
  | refl => exact .refl s
  | perform hbefore hallowed ih =>
      exact ih.trans (perform_accounts (hbefore.reachable h).sound hallowed)

theorem Run.accounts (hrun : Run Timely s log t) (h : Reachable Timely level config now s) :
    Accounts s t log :=
  (hrun.mono Timely.proper).accounts_of_proper (h.mono Timely.proper)

theorem start_aged (level : Level) (config : Config) (now : Nat) :
    Aged (start level config now) [] := by
  obtain ⟨generators, timers, trace, heq⟩ := (blank level config now).scheduleGeneration_eq 0
    (seconds ((blank level config now).config.delaySeconds 0))
  intro id entry hstored
  have hempty : (start level config now).database = Table.empty := by
    rw [start, startGenerator, heq]
    rfl
  simp [hempty] at hstored

/-! ### Entries and their spans -/

/-- While no timer is overdue, every entry is younger than its span. -/
theorem Aged.younger (haged : Aged s log) (h : s.Consistent)
    (hdue : ∀ timer ∈ s.timers.pending, s.now < timer.due) {entry : Entry}
    (hstored : s.database.get? id = some entry) :
    ∃ time, installedAt? log id = some time ∧ time ≤ s.now ∧
      s.now < time + seconds (entry.lsp.span s.config) := by
  obtain ⟨time, htime, hsince⟩ := haged id entry hstored
  refine ⟨time, htime, hsince.past, ?_⟩
  have hsettled := h.settled hstored
  cases hexpired : entry.lsp.isExpired with
  | false =>
      obtain ⟨life, hlife⟩ : ∃ life, entry.lifeTimer = some life :=
        Option.isSome_iff_exists.1 (by simp [hsettled.life, hexpired])
      have hkept : s.kept? (.expire id) = some life := by
        rw [kept?, hstored, Option.bind_some, hlife]
      rw [← hsince.due life (.inl hlife)]
      exact hdue _ ((h.timers.mem_iff _ _).1 hkept)
  | true =>
      obtain ⟨zeroAge, hzeroAge⟩ : ∃ zeroAge, entry.zeroAgeTimer = some zeroAge :=
        Option.isSome_iff_exists.1 (by simp [hsettled.zeroAge, hexpired])
      have hkept : s.kept? (.delete id) = some zeroAge := by
        rw [kept?, hstored, Option.bind_some, hzeroAge]
      rw [← hsince.due zeroAge (.inr hzeroAge)]
      exact hdue _ ((h.timers.mem_iff _ _).1 hkept)

/-- Processing all due timers leaves none that is due, and takes no time. -/
theorem Reachable.fire_drained (hlifetime : config.lifetime ≠ 1)
    (h : Reachable Proper level config now s) :
    (s.perform (.fire s.fireBound)).now = s.now ∧
      ∀ timer ∈ (s.perform (.fire s.fireBound)).timers.pending, s.now < timer.due := by
  -- The bound is a large number, which must not be computed.
  have hfire : ∀ most, s.perform (.fire most) = (fireUpTo most s).2 := fun _ => rfl
  have hconfig : s.config.lifetime ≠ 1 := h.constant.2.1 ▸ hlifetime
  have hdrains := fireUpTo_drains h.sound hconfig (potential_le_fireBound h.consistent)
  have hnow := fireUpTo_now h.sound s.fireBound
  rw [hfire]
  generalize (fireUpTo s.fireBound s).2 = t at hdrains hnow ⊢
  exact ⟨hnow, hnow ▸ not_due_of_fireNext hdrains⟩

/-- An entry that was stored at some time and not replaced since then is gone, or it is
younger than its span. -/
theorem Accounts.gone_or_younger {told : Log} (h : Accounts s t told) (haged : Aged s log)
    (hconsistent : t.Consistent) (hdue : ∀ timer ∈ t.timers.pending, t.now < timer.due)
    {entry : Entry} (hstored : s.database.get? id = some entry)
    (hnone : installedAt? told id = none) :
    t.database.get? id = none ∨ t.now < s.now + seconds (entry.lsp.span t.config) := by
  rcases h.unreplaced hnone with hgone | hsame
  · exact .inl (Option.map_eq_none_iff.1 hgone)
  · right
    obtain ⟨time, htime, hsince⟩ := haged id entry hstored
    rw [copiesHeld, copiesHeld, hstored] at hsame
    obtain ⟨entry', hstored', hlsp⟩ := Option.map_eq_some_iff.1 hsame
    obtain ⟨time', htime', -, hyounger⟩ := (h.aged haged).younger hconsistent hdue hstored'
    rw [installedAt?_append, hnone, Option.none_or, htime] at htime'
    obtain rfl := Option.some.inj htime'
    rw [hlsp] at hyounger
    exact Nat.lt_of_lt_of_le hyounger (Nat.add_le_add_right hsince.past _)

/-- Unless own LSPs live for one second only, and if LSPs are handed in from circuits when
they are made, in every run all due timers can be processed at any time.  From then on
every entry was installed less than its span ago: its lifetime if it is live, no more
than is configured if it is a placeholder, and the zero age lifetime if it is purged.
Nothing is left of the lifetime of an entry just if it is purged.  And in whatever way a
run goes on, an entry is gone once the timers are processed after its span, unless its LSP
was installed anew meanwhile, as it is when the life of an actual LSP ends. -/
theorem no_entry_outstays (hlifetime : config.lifetime ≠ 1)
    (h : Run Timely (start level config now) log s) :
    let done := s.perform (.fire s.fireBound)
    (∀ id entry, done.database.get? id = some entry →
      (∃ time, installedAt? (s.logOf (.fire s.fireBound) ++ log) id = some time ∧
        time ≤ s.now ∧ s.now < time + seconds (entry.lsp.span config)) ∧
      (entry.lsp.remaining s.now = 0 ↔ entry.isPurged = true)) ∧
    ∀ id entry more later, s.database.get? id = some entry → Run Timely s more later →
      s.now + seconds (entry.lsp.span config) ≤ later.now →
      (later.perform (.fire later.fireBound)).database.get? id = none ∨
        installedAt? (later.logOf (.fire later.fireBound) ++ more) id ≠ none := by
  intro done
  have hs : Reachable Timely level config now s := h.reachable .start
  have haged : Aged s log := by
    have hall := (h.accounts .start).aged (start_aged level config now)
    rwa [List.append_nil] at hall
  -- Processing the timers of a state is one more operation of its run.
  have hfired : ∀ {told : Log} {t : LevelState}, Run Timely s told t →
      (t.perform (.fire t.fireBound)).now = t.now ∧
        (∀ timer ∈ (t.perform (.fire t.fireBound)).timers.pending, t.now < timer.due) ∧
        Reachable Timely level config now (t.perform (.fire t.fireBound)) ∧
        Accounts s (t.perform (.fire t.fireBound)) (t.logOf (.fire t.fireBound) ++ told) := by
    intro told t hrun
    have hfire := @Run.perform Timely s told t (.fire t.fireBound) hrun trivial
    obtain ⟨hnow, hdue⟩ := ((hrun.reachable hs).mono Timely.proper).fire_drained hlifetime
    exact ⟨hnow, hdue, hfire.reachable hs, hfire.accounts hs⟩
  constructor
  · intro id entry hstored
    obtain ⟨hnow, hdue, hreachable, haccounts⟩ := hfired .refl
    rw [List.append_nil] at haccounts
    have hdone : s.perform (.fire s.fireBound) = done := rfl
    rw [hdone] at hnow hdue hreachable haccounts
    clear_value done
    have hproper := hreachable.mono Timely.proper
    rw [← hnow] at hdue ⊢
    have hyounger := (haccounts.aged haged).younger hproper.consistent hdue hstored
    rw [hproper.constant.2.1] at hyounger
    exact ⟨hyounger,
      hreachable.fresh.remaining_eq_zero hproper.consistent hdue hstored (Nat.le_refl _)⟩
  · intro id entry more later hstored hmore hover
    obtain ⟨hnow, hdue, hreachable, haccounts⟩ := hfired hmore
    have hproper := hreachable.mono Timely.proper
    by_cases hnone : installedAt? (later.logOf (.fire later.fireBound) ++ more) id = none
    · left
      rw [← hnow] at hdue hover
      rcases haccounts.gone_or_younger haged hproper.consistent hdue hstored hnone with
        hgone | hyounger
      · exact hgone
      · rw [hproper.constant.2.1] at hyounger
        exact absurd hyounger (Nat.not_lt.2 hover)
    · exact .inr hnone

/-- A level that has originated an LSP and purged it at once. -/
def retiring : LevelState :=
  ((start .one Config.default 0).perform (.receiveLsp none
    (Lsp.make 0 .one 1200 ⟨SystemId.zero, 0, 0⟩ 7 .none .empty))).perform .purgeOwn

/-- The purge is stored, and is gone after a minute unless it is replaced. -/
theorem no_entry_outstays_retiring :
    ∃ entry, retiring.database.get? ⟨SystemId.zero, 0, 0⟩ = some entry ∧
      entry.isPurged = true ∧ ∃ log, Run Timely (start .one Config.default 0) log retiring ∧
      let later := retiring.advance 60000
      (later.perform (.fire later.fireBound)).database.get? ⟨SystemId.zero, 0, 0⟩ = none ∨
        installedAt? (later.logOf (.fire later.fireBound) ++
          (retiring.logOf (.advance 60000) ++ [])) ⟨SystemId.zero, 0, 0⟩ ≠ none := by
  obtain ⟨entry, hstored⟩ : ∃ entry,
      retiring.database.get? ⟨SystemId.zero, 0, 0⟩ = some entry :=
    Option.isSome_iff_exists.1 (by decide +kernel)
  have hpurged : entry.isPurged = true := by
    have hall : (retiring.database.get? ⟨SystemId.zero, 0, 0⟩).all Entry.isPurged = true := by
      decide +kernel
    simpa [hstored] using hall
  have hrun : Run Timely (start .one Config.default 0) _ retiring :=
    (Run.refl.perform trivial).perform trivial
  refine ⟨entry, hstored, hpurged, _, hrun, ?_⟩
  have hspan : seconds (entry.lsp.span Config.default) = 60000 := by
    rw [Lsp.span, if_pos (show entry.lsp.isExpired = true from hpurged)]
    rfl
  refine (@no_entry_outstays retiring _ .one Config.default 0 (by decide) hrun).2 _ entry _ _
    hstored (@Run.perform Timely retiring [] retiring (.advance 60000) .refl trivial) ?_
  rw [hspan]
  exact Nat.le_refl _

end LevelState

end LinkState
