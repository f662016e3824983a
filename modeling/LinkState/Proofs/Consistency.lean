import LinkState.Proofs.Step

/-!
# Consistency of the database with the timers

Every entry is stored under the ID of its LSP, has the timers that its LSP calls
for, and carries the system ID of this system unless it was received.  The
pending timers are exactly those that entries and generators wait for.  Every
step keeps this, and no step makes a check fail.
-/

namespace LinkState.LevelState

variable {heard : Lsp → Prop} {s t : LevelState}

/-- The database and the timers fit each other. -/
structure Consistent (s : LevelState) : Prop where
  keys : ∀ {id entry}, s.database.get? id = some entry → entry.lsp.id = id
  settled : ∀ {id entry}, s.database.get? id = some entry →
    Settled s.config.system entry
  own : ∀ {id entry}, s.database.get? id = some entry → entry.received = false →
    s.isOwn id = true
  timers : s.TimersMatch

namespace Consistent

/-- A stored LSP of another system was received. -/
theorem received_of_foreign (h : s.Consistent) {id : LspId} {entry : Entry}
    (hstored : s.database.get? id = some entry) (hforeign : s.isOwn id = false) :
    entry.received = true := by
  cases hreceived : entry.received with
  | true => rfl
  | false =>
      have hown := h.own hstored hreceived
      rw [hforeign] at hown
      cases hown

theorem start (level : Level) (config : Config) (now : Nat) :
    (blank level config now).Consistent where
  keys := by simp [blank]
  settled := by simp [blank]
  own := by simp [blank]
  timers := by
    have hkept : (blank level config now).kept? = fun _ => none := by
      funext event
      cases event <;> rfl
    rw [TimersMatch, hkept]
    exact .of_pending_eq_nil rfl

/-- Nothing is left of database, generators and timers after the stop. -/
theorem stop (s : LevelState) : s.stop.Consistent where
  keys := by simp [LevelState.stop]
  settled := by simp [LevelState.stop]
  own := by simp [LevelState.stop]
  timers := by
    have hkept : s.stop.kept? = fun _ => none := by
      funext event
      cases event <;> rfl
    rw [TimersMatch, hkept]
    exact .of_pending_eq_nil rfl

/-- A change that leaves configuration and database alone, with the timers
following. -/
theorem rearranged (h : s.Consistent) (hconfig : t.config = s.config)
    (hdatabase : t.database = s.database) (hmatch : t.TimersMatch) : t.Consistent := by
  refine ⟨fun hid => h.keys (hdatabase ▸ hid), fun hid => ?_, fun hid hreceived => ?_, hmatch⟩
  · rw [hconfig]
    exact h.settled (hdatabase ▸ hid)
  · rw [isOwn, hconfig]
    exact h.own (hdatabase ▸ hid) hreceived

/-- Only the configuration, the database, the generators and the timers
matter. -/
theorem congr (h : s.Consistent) (hconfig : t.config = s.config)
    (hdatabase : t.database = s.database) (hgenerators : t.generators = s.generators)
    (htimers : t.timers = s.timers) : t.Consistent := by
  apply h.rearranged hconfig hdatabase
  have hkept : t.kept? = s.kept? := by
    funext event
    cases event <;> simp only [kept?, hdatabase, hgenerators]
  rw [TimersMatch, hkept, htimers]
  exact h.timers

/-- Installing an LSP keeps them fitting: the timers of the stored copy go, and those that the
new entry waits for come. -/
theorem installs (h : s.Consistent) {lsp : Lsp} {received : Bool} {flooding : Flooding}
    (hinstalls : Installs s lsp received flooding t)
    (hown : received = false → s.isOwn lsp.id = true) : t.Consistent := by
  obtain ⟨counters, history, number, trace, rfl⟩ := hinstalls
  have htimers := h.timers.armed lsp received
  rw [← kept?_insert s lsp.id _ (s.armed lsp received).2] at htimers
  have hstored : ∀ {id entry}, (s.database.insert lsp.id (s.armed lsp received).1).get? id =
      some entry → id = lsp.id ∧ entry = (s.armed lsp received).1 ∨
        s.database.get? id = some entry := by
    intro id entry hid
    by_cases hk : id = lsp.id
    · subst hk
      rw [Table.get?_insert_self] at hid
      exact .inl ⟨rfl, (Option.some.inj hid).symm⟩
    · rw [Table.get?_insert_of_ne _ _ hk] at hid
      exact .inr hid
  refine ⟨fun hid => ?_, fun hid => ?_, fun hid hreceived => ?_, htimers⟩
  · rcases hstored hid with ⟨rfl, rfl⟩ | hold
    · exact congrArg Lsp.id (s.armed_lsp lsp received)
    · exact h.keys hold
  · rcases hstored hid with ⟨rfl, rfl⟩ | hold
    · exact s.armed_settled lsp received
    · exact h.settled hold
  · rcases hstored hid with ⟨rfl, rfl⟩ | hold
    · exact hown ((s.armed_received lsp received).symm.trans hreceived)
    · exact h.own hold hreceived

/-- An entry is removed together with the timers that it waits for. -/
theorem remove (h : s.Consistent) {id : LspId} {entry : Entry}
    (hstored : s.database.get? id = some entry) : (s.remove id).Consistent := by
  have htimers := h.timers.remove hstored
  obtain ⟨trace, heq⟩ := remove_eq hstored
  rw [heq] at htimers ⊢
  have hold : ∀ {k e}, (s.database.erase id).get? k = some e → s.database.get? k = some e := by
    intro k e hk
    rw [Table.get?_erase] at hk
    split at hk
    · cases hk
    · exact hk
  exact ⟨fun hk => h.keys (hold hk), fun hk => h.settled (hold hk),
    fun hk => h.own (hold hk), htimers⟩

/-- A change of what is kept for one pseudonode, with the timers following. -/
theorem regenerate (h : s.Consistent) {pseudonode : UInt8} {handle : Option Handle}
    (hmatch : t.timers.Matches (Function.update s.kept? (.generate pseudonode) handle))
    (hthis : (t.generators.get? pseudonode).bind (·.timer) = handle)
    (hothers : ∀ k, k ≠ pseudonode → t.generators.get? k = s.generators.get? k)
    (hconfig : t.config = s.config) (hdatabase : t.database = s.database) : t.Consistent := by
  apply h.rearranged hconfig hdatabase
  have hkept : t.kept? = Function.update s.kept? (.generate pseudonode) handle := by
    funext event
    cases event with
    | generate k =>
        by_cases hk : k = pseudonode
        · subst hk
          simp [kept?, hthis]
        · simp [kept?, hothers k hk, hk]
    | _ => simp [kept?, hdatabase]
  rw [TimersMatch, hkept]
  exact hmatch

/-! ### Generators -/

theorem scheduleGeneration (h : s.Consistent) (pseudonode : UInt8) (span : Nat) :
    (s.scheduleGeneration pseudonode span).Consistent := by
  cases hkept : s.kept? (.generate pseudonode) with
  | some handle =>
      rw [scheduleGeneration_pending span hkept]
      exact h
  | none =>
      obtain ⟨trace, heq⟩ := scheduleGeneration_idle span hkept
      have hmatch := h.timers.schedule (.generate pseudonode) hkept s.now
        (s.generationSpan (s.createGenerator pseudonode).1 span)
      rw [heq]
      refine h.regenerate hmatch ?_ (fun k hk => ?_) rfl rfl
      · rw [Table.get?_insert_self]
        rfl
      · exact Table.get?_insert_of_ne _ _ hk

theorem dropGenerator (h : s.Consistent) (pseudonode : UInt8) :
    { s with
      timers := s.timers.release (s.kept? (.generate pseudonode))
      generators := s.generators.erase pseudonode }.Consistent := by
  refine h.regenerate (TimerQueue.Matches.release h.timers (.generate pseudonode)) ?_
    (fun k hk => ?_) rfl rfl
  · rw [Table.get?_erase_self]
    rfl
  · exact Table.get?_erase_of_ne _ hk

theorem beginGeneration (h : s.Consistent) (pseudonode : UInt8) :
    (s.disarmed (.generate pseudonode)).Consistent := by
  refine h.regenerate (TimerQueue.Matches.release h.timers (.generate pseudonode)) ?_
    (fun k hk => ?_) rfl rfl
  · simp only [disarmed, Table.get?_modify, if_true]
    cases s.generators.get? pseudonode <;> rfl
  · simp [disarmed, Table.get?_modify, hk]

theorem endGeneration (h : s.Consistent) (pseudonode : UInt8) (lastRun : Option Nat) :
    { s with
      generators := s.generators.modify pseudonode fun generator =>
        { generator with lastRun := lastRun } }.Consistent := by
  have hmatch : s.timers.Matches
      (Function.update s.kept? (.generate pseudonode) (s.kept? (.generate pseudonode))) := by
    rw [Function.update_eq_self]
    exact h.timers
  refine h.regenerate hmatch ?_ (fun k hk => ?_) rfl rfl
  · simp only [kept?, Table.get?_modify, if_true]
    cases s.generators.get? pseudonode <;> rfl
  · simp [Table.get?_modify, hk]

/-- A generator whose timer is cancelled waits for none. -/
theorem cancelGeneration (h : s.Consistent) (pseudonode : UInt8) :
    (s.cancelGeneration pseudonode).Consistent := by
  cases hstored : s.generators.get? pseudonode with
  | none =>
      simp only [LevelState.cancelGeneration, hstored]
      exact h
  | some generator =>
      have hmatch := TimerQueue.Matches.release h.timers (.generate pseudonode)
      have hkept : s.kept? (.generate pseudonode) = generator.timer := by simp [kept?, hstored]
      simp only [LevelState.cancelGeneration, hstored, cancel_eq]
      rw [hkept] at hmatch
      refine h.regenerate hmatch ?_ (fun k hk => ?_) rfl rfl
      · rw [Table.get?_insert_self]
        rfl
      · exact Table.get?_insert_of_ne _ _ hk

/-- Every step keeps the database and the timers consistent. -/
theorem step (h : s.Consistent) (hstep : Step heard s t) : t.Consistent := by
  cases hstep with
  | accept => exact h.installs (s.accept_installs _ _) (by simp)
  | recordPurge => exact h.installs (s.recordPurge_installs _ _) (by simp)
  | acknowledge =>
      rw [acknowledge_eq]
      exact h.congr rfl rfl rfl rfl
  | @request circuit summary =>
      by_cases hasked : summary.lifetime ≠ 0 ∧ summary.checksum ≠ 0 ∧ summary.seqno ≠ 0
      · exact h.installs (s.requestUnknown_installs _ hasked) (by simp)
      · rwa [requestUnknown, if_neg hasked]
  | @purge id entry reason stored live zeroAge =>
      apply h.installs (purge_installs reason stored live zeroAge)
      intro hreceived
      have hid : (s.purgeOf entry.lsp).id = id := h.keys stored
      rw [hid]
      exact h.own stored hreceived
  | forcePurge reason own => exact h.installs (s.forcePurge_installs _ reason) fun _ => own
  | originate own next => exact h.installs (originate_installs next) fun _ => own
  | remove stored => exact (h.remove stored).congr rfl rfl rfl rfl
  | scheduleGeneration => exact h.scheduleGeneration _ _
  | beginGeneration => exact h.beginGeneration _
  | endGeneration => exact h.endGeneration _ _
  | cancelGeneration => exact h.cancelGeneration _
  | dropGenerator => exact h.dropGenerator _
  | @defer circuit lsp =>
      obtain ⟨deferred, trace, heq⟩ := s.defer_eq circuit lsp
      rw [heq]
      exact h.congr rfl rfl rfl rfl
  | _ => exact h.congr rfl rfl rfl rfl

end Consistent

end LinkState.LevelState
