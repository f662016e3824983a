import LinkState.Proofs.FloodingInvariant
import LinkState.Proofs.Footprint

/-!
# What is marked for sending can be sent

What an operation makes of the flags of the LSP it is about is told circuit by
circuit.  An LSP that is marked for sending is stored with a sequence number other than
zero, whatever octets were heard.  An LSP that is installed and flooded is therefore
marked for sending on all circuits, or with the sequence number zero on none.
-/

namespace LinkState

/-! ### Flags circuit by circuit -/

namespace Flooding

variable {before after : Flooding} {id : LspId}

/-- The flags of an LSP follow those of each circuit. -/
theorem marks_of_get? {f : CircuitId → CircuitFlags → CircuitFlags}
    (g : CircuitId → Marks → Marks)
    (hget : ∀ circuit, after.get? circuit = (before.get? circuit).map (f circuit))
    (hmarks : ∀ circuit flags, (f circuit flags).marks id = g circuit (flags.marks id))
    (circuit : CircuitId) :
    after.marks circuit id = (before.marks circuit id).map (g circuit) := by
  rw [marks, marks, hget, Option.map_map, Option.map_map]
  exact Option.map_congr fun flags _ => hmarks circuit flags

theorem marks_set (flooding : Flooding) (flag : Flag) (summary : LspSummary)
    (circuit c : CircuitId) :
    (flooding.set flag summary circuit).marks c summary.id =
      (flooding.marks c summary.id).map fun marks =>
        if c = circuit then marks.set flag summary else marks := by
  refine marks_of_get? (fun c marks => if c = circuit then marks.set flag summary else marks)
    (fun c => get?_set flooding flag summary circuit c) (fun c flags => ?_) c
  split
  · exact flags.marks_set flag summary
  · rfl

theorem marks_clear (flooding : Flooding) (flag : Flag) (id : LspId) (circuit c : CircuitId) :
    (flooding.clear flag id circuit).marks c id =
      (flooding.marks c id).map fun marks =>
        if c = circuit then marks.clear flag else marks := by
  refine marks_of_get? (fun c marks => if c = circuit then marks.clear flag else marks)
    (fun c => get?_clear flooding flag id circuit c) (fun c flags => ?_) c
  split
  · exact flags.marks_clear flag id
  · rfl

theorem marks_clearAll (flooding : Flooding) (flag : Flag) (id : LspId)
    (except : Option CircuitId) (c : CircuitId) :
    (flooding.clearAll flag id except).marks c id =
      (flooding.marks c id).map fun marks =>
        if some c = except then marks else marks.clear flag := by
  refine marks_of_get? (fun c marks => if some c = except then marks else marks.clear flag)
    (fun c => get?_clearAll flooding flag id except c) (fun c flags => ?_) c
  split
  · rfl
  · exact flags.marks_clear flag id

end Flooding

namespace LevelState

variable {heard : Lsp → Prop} {s t : LevelState} {id : LspId} {lsp : Lsp}

theorem marks_flooded (flooding : Flooding) (summary : LspSummary) (except : Option CircuitId)
    (c : CircuitId) :
    (flooded flooding summary except).marks c summary.id =
      (flooding.marks c summary.id).map fun marks =>
        if some c = except then marks else (marks.set .srm summary).clear .ssn := by
  refine Flooding.marks_of_get?
    (fun c marks => if some c = except then marks else (marks.set .srm summary).clear .ssn)
    (fun c => get?_flooded flooding summary except c) (fun c flags => ?_) c
  split
  · rfl
  · rw [CircuitFlags.marks_clear, CircuitFlags.marks_set]

theorem marks_acceptedFlags (s : LevelState) (circuit c : CircuitId) (lsp : Lsp) :
    (s.acceptedFlags circuit lsp).marks c lsp.id =
      (s.flooding.marks c lsp.id).map fun marks =>
        if c = circuit then
          ⟨false, if s.isPointToPoint circuit then some (s.summaryOf lsp) else none⟩
        else (marks.set .srm (s.summaryOf lsp)).clear .ssn := by
  refine Flooding.marks_of_get?
    (fun c marks => if c = circuit then
        ⟨false, if s.isPointToPoint circuit then some (s.summaryOf lsp) else none⟩
      else (marks.set .srm (s.summaryOf lsp)).clear .ssn)
    (fun c => s.get?_acceptedFlags circuit c lsp) (fun c flags => ?_) c
  have hset : ∀ flags : CircuitFlags, ∀ flag, (flags.set flag (s.summaryOf lsp)).marks lsp.id =
      (flags.marks lsp.id).set flag (s.summaryOf lsp) := fun flags flag => flags.marks_set flag _
  by_cases hc : c = circuit
  · rw [if_pos hc, if_pos hc]
    split
    · rw [hset, CircuitFlags.marks_clear]
      rfl
    · rw [CircuitFlags.marks_clear, CircuitFlags.marks_clear]
      rfl
  · rw [if_neg hc, if_neg hc, CircuitFlags.marks_clear, hset]

theorem marks_acknowledgedFlags (s : LevelState) (circuit c : CircuitId) (lsp : Lsp) :
    (s.acknowledgedFlags circuit lsp).marks c lsp.id =
      (s.flooding.marks c lsp.id).map fun marks =>
        if c = circuit ∧ s.isPointToPoint circuit = true then
          { marks with ssn := some (s.summaryOf lsp) }
        else marks := by
  refine Flooding.marks_of_get?
    (fun c marks => if c = circuit ∧ s.isPointToPoint circuit = true then
      { marks with ssn := some (s.summaryOf lsp) } else marks)
    (fun c => s.get?_acknowledgedFlags circuit c lsp) (fun c flags => ?_) c
  split
  · exact flags.marks_set .ssn (s.summaryOf lsp)
  · rfl

/-! ### What is stored of what is marked -/

/-- An LSP that is marked for sending is stored with a sequence number other than
zero. -/
structure Sendable (s : LevelState) : Prop where
  stored : ∀ {circuit id marks}, s.flooding.marks circuit id = some marks → marks.srm = true →
    ∃ seqno, s.seqno? id = some seqno ∧ seqno ≠ 0

namespace Sendable

theorem blank (level : Level) (config : Config) (now : Nat) :
    (blank level config now).Sendable where
  stored := fun hmarks => by cases hmarks

/-- Once an LSP is flooded whose sequence number is not zero if that of the stored copy
is not, it is marked for sending just if its sequence number is not zero. -/
theorem superseded (h : s.Sendable) (summary : LspSummary) {c : CircuitId} {marks : Marks}
    (hmarks : s.flooding.marks c summary.id = some marks)
    (hnewer : ∀ seqno, s.seqno? summary.id = some seqno → seqno ≠ 0 → summary.seqno ≠ 0) :
    (marks.set .srm summary).clear .ssn = ⟨summary.seqno ≠ 0, none⟩ := by
  by_cases hzero : summary.seqno = 0
  · have hunset : marks.srm = false := by
      cases hset : marks.srm with
      | false => rfl
      | true =>
          obtain ⟨seqno, hstored, hseqno⟩ := h.stored hmarks hset
          exact absurd hzero (hnewer seqno hstored hseqno)
    simp [Marks.set, Marks.clear, hzero, hunset]
  · simp [Marks.set, Marks.clear, hzero]

/-- Nothing more is marked for sending, and the same is stored. -/
theorem keep (h : s.Sendable)
    (hmarks : ∀ {c id marks}, t.flooding.marks c id = some marks → marks.srm = true →
      ∃ before, s.flooding.marks c id = some before ∧ before.srm = true)
    (hseqno : t.seqno? = s.seqno?) : t.Sendable where
  stored := fun hset hsrm => by
    obtain ⟨before, hbefore, hsrm'⟩ := hmarks hset hsrm
    rw [hseqno]
    exact h.stored hbefore hsrm'

theorem congr (h : s.Sendable) (hflooding : t.flooding = s.flooding)
    (hdatabase : t.database = s.database) : t.Sendable := by
  refine h.keep (fun hset hsrm => ⟨_, hflooding ▸ hset, hsrm⟩) ?_
  funext id
  rw [LevelState.seqno?, LevelState.seqno?, hdatabase]

/-- The flags of one LSP are changed, which is still stored if it is marked for
sending. -/
theorem reflag (h : s.Sendable) {flooding : Flooding}
    (hconfined : Flooding.Confined id s.flooding flooding)
    (hset : ∀ {c marks}, flooding.marks c id = some marks → marks.srm = true →
      ∃ seqno, s.seqno? id = some seqno ∧ seqno ≠ 0) :
    { s with flooding := flooding }.Sendable where
  stored := fun {c other marks} hmarks hsrm => by
    by_cases hid : other = id
    · subst hid
      exact hset hmarks hsrm
    · have hbefore := (hconfined.marks c other hid).symm.trans hmarks
      exact h.stored hbefore hsrm

theorem installs (h : s.Sendable) {received : Bool} {flooding : Flooding}
    (hinstalls : Installs s lsp received flooding t)
    (hconfined : Flooding.Confined lsp.id s.flooding flooding)
    (hset : ∀ {c marks}, flooding.marks c lsp.id = some marks → marks.srm = true →
      lsp.seqno ≠ 0) : t.Sendable := by
  have hseqno := hinstalls.seqno?
  obtain ⟨counters, history, number, trace, rfl⟩ := hinstalls
  refine ⟨fun {c other marks} hmarks hsrm => ?_⟩
  rw [hseqno]
  by_cases hid : other = lsp.id
  · subst hid
    exact ⟨lsp.seqno, Function.update_self _ _ _, hset hmarks hsrm⟩
  · rw [Function.update_of_ne hid]
    exact h.stored ((hconfined.marks c other hid).symm.trans hmarks) hsrm

theorem installs_flooded (h : s.Sendable) {received : Bool}
    (hinstalls : Installs s lsp received (flooded s.flooding (s.summaryOf lsp) none) t)
    (hnewer : ∀ seqno, s.seqno? lsp.id = some seqno → seqno ≠ 0 → lsp.seqno ≠ 0) :
    t.Sendable := by
  refine h.installs hinstalls (flooded_confined _ (s.summaryOf lsp) none) fun hmarks hsrm => ?_
  have hflooded := marks_flooded s.flooding (s.summaryOf lsp) none
  rw [show lsp.id = (s.summaryOf lsp).id from rfl, hflooded, Option.map_eq_some_iff] at hmarks
  obtain ⟨before, hbefore, rfl⟩ := hmarks
  rw [if_neg (by simp), h.superseded _ hbefore hnewer] at hsrm
  exact of_decide_eq_true hsrm

theorem accept (h : s.Sendable) (circuit : CircuitId) (hnewer : s.recency lsp = .newer) :
    (s.accept circuit lsp).Sendable := by
  have hid := s.completed_id lsp
  have hkeeps : ∀ seqno, s.seqno? (s.completed lsp).id = some seqno → seqno ≠ 0 →
      (s.completed lsp).seqno ≠ 0 := by
    intro seqno hstored hseqno
    rw [completed_seqno]
    exact seqno_ne_zero_of_newer hnewer (hid ▸ hstored) hseqno
  refine h.installs (s.accept_installs circuit lsp)
    (s.acceptedFlags_confined circuit _) fun {c marks} hmarks hsrm => ?_
  rw [marks_acceptedFlags, Option.map_eq_some_iff] at hmarks
  obtain ⟨before, hbefore, rfl⟩ := hmarks
  by_cases hc : c = circuit
  · rw [if_pos hc] at hsrm
    cases hsrm
  · rw [if_neg hc, h.superseded (s.summaryOf (s.completed lsp)) hbefore hkeeps] at hsrm
    exact of_decide_eq_true hsrm

/-- A placeholder takes the place of nothing or of a placeholder, which is not marked
for sending. -/
theorem unmarked (h : s.Sendable) {circuit : CircuitId} {marks : Marks}
    (hunknown : s.known? id = none) (hmarks : s.flooding.marks circuit id = some marks) :
    marks.srm = false := by
  cases hset : marks.srm with
  | false => rfl
  | true =>
      obtain ⟨seqno, hstored, hseqno⟩ := h.stored hmarks hset
      obtain ⟨entry, hentry, rfl⟩ := Option.map_eq_some_iff.1 hstored
      exact absurd (known_of_stored hentry (by simpa [Entry.isPlaceholder] using hseqno))
        (by simp [hunknown])

theorem recordPurge (h : s.Sendable) (circuit : CircuitId) (hunknown : s.known? lsp.id = none) :
    (s.recordPurge circuit lsp).Sendable := by
  refine h.installs (s.recordPurge_installs circuit lsp)
    (s.acknowledgedFlags_confined circuit lsp) fun {c marks} hmarks hsrm => ?_
  have hmarks' : (s.acknowledgedFlags circuit lsp).marks c lsp.id = some marks := hmarks
  rw [marks_acknowledgedFlags, Option.map_eq_some_iff] at hmarks'
  obtain ⟨before, hbefore, rfl⟩ := hmarks'
  have hunset := h.unmarked hunknown hbefore
  split at hsrm <;> simp [hunset] at hsrm

theorem request (h : s.Sendable) (circuit : CircuitId) {summary : LspSummary}
    (hunknown : s.database.get? summary.id = none) :
    (s.requestUnknown circuit summary).Sendable := by
  have hunknown' : s.known? summary.id = none := by simp [known?, hunknown]
  by_cases hasked : summary.lifetime ≠ 0 ∧ summary.checksum ≠ 0 ∧ summary.seqno ≠ 0
  · refine h.installs (s.requestUnknown_installs circuit hasked)
      (Flooding.set_confined _ .ssn (s.summaryOf (s.placeholder _ summary.id)) circuit)
      fun {c marks} hmarks hsrm => ?_
    have hset := s.flooding.marks_set .ssn
      (s.summaryOf (s.placeholder summary.lifetime summary.id)) circuit c
    obtain ⟨before, hbefore, rfl⟩ := Option.map_eq_some_iff.1 (hset.symm.trans hmarks)
    have hunset := h.unmarked hunknown' hbefore
    split at hsrm <;> simp [Marks.set, hunset] at hsrm
  · rwa [requestUnknown, if_neg hasked]

theorem acknowledge (h : s.Sendable) (circuit : CircuitId) (lsp : Lsp) :
    (s.acknowledge circuit lsp).Sendable := by
  rw [acknowledge_eq]
  refine h.reflag (s.acknowledgedFlags_confined circuit lsp) fun {c marks} hmarks hsrm => ?_
  rw [marks_acknowledgedFlags, Option.map_eq_some_iff] at hmarks
  obtain ⟨before, hbefore, rfl⟩ := hmarks
  refine h.stored hbefore ?_
  split at hsrm <;> exact hsrm

theorem purge (h : s.Sendable) {entry : Entry} (reason : PurgeReason)
    (hkey : entry.lsp.id = id) (hstored : s.database.get? id = some entry)
    (hlive : entry.isPurged = false) (hzero : entry.zeroAgeTimer = none) :
    (s.purge id reason).Sendable := by
  apply h.installs_flooded (purge_installs reason hstored hlive hzero)
  intro seqno hseqno
  rw [show (s.purgeOf entry.lsp).id = id from hkey, seqno?_of_stored hstored] at hseqno
  obtain rfl := Option.some.inj hseqno
  exact fun hne => hne

theorem forcePurge (h : s.Sendable) (lsp : Lsp) (reason : PurgeReason) :
    (s.forcePurge lsp reason).Sendable := by
  apply h.installs_flooded (s.forcePurge_installs lsp reason)
  intro seqno hstored hseqno
  have hseqno' : s.storedSeqno lsp.id = seqno := congrArg (·.getD 0) hstored
  show max (s.storedSeqno lsp.id) lsp.seqno ≠ 0
  rw [hseqno']
  exact max_ne_zero hseqno

theorem originate (h : s.Sendable) {seqno : UInt32}
    (hnext : nextSeqno? (max lsp.seqno (s.storedSeqno lsp.id)) = some seqno) :
    (s.originate lsp).Sendable := by
  apply h.installs_flooded (originate_installs hnext)
  intro _ _ _ hzero
  have hnat := toNat_nextSeqno hnext
  rw [show seqno = 0 from hzero] at hnat
  cases hnat

theorem remove (h : s.Sendable) {entry : Entry} (hstored : s.database.get? id = some entry) :
    (s.remove id).Sendable := by
  have hspares := Spares.remove hstored
  refine ⟨fun {c other marks} hmarks hsrm => ?_⟩
  by_cases hid : other = id
  · subst hid
    obtain ⟨trace, heq⟩ := remove_eq hstored
    rw [heq] at hmarks
    have hcleared : (s.flooding.removeLsp other).marks c other = some marks := hmarks
    rw [Flooding.marks, Flooding.get?_removeLsp, Option.map_map, Option.map_eq_some_iff] at hcleared
    obtain ⟨flags, -, rfl⟩ := hcleared
    simp [CircuitFlags.marks_clear, Marks.clear] at hsrm
  · have hview := hspares.view other hid
    have hseqno : (s.remove id).seqno? other = s.seqno? other := by
      rw [LevelState.seqno?, LevelState.seqno?, hspares.get? hid]
    rw [hseqno]
    exact h.stored ((congrFun (congrArg View.marks hview) c).symm.trans hmarks) hsrm

theorem mark (h : s.Sendable) (flag : Flag) {entry : Entry} (circuit : CircuitId)
    (hstored : s.database.get? entry.lsp.id = some entry) :
    (s.setFlag flag (s.summaryOf entry.lsp) circuit).Sendable := by
  refine h.reflag (Flooding.set_confined _ flag (s.summaryOf entry.lsp) circuit)
    fun {c marks} hmarks hsrm => ?_
  rw [Flooding.marks_set, Option.map_eq_some_iff] at hmarks
  obtain ⟨before, hbefore, rfl⟩ := hmarks
  cases hset : before.srm with
  | true => exact h.stored hbefore hset
  | false =>
      split at hsrm
      · cases flag with
        | srm =>
            rw [Marks.set] at hsrm
            split at hsrm
            · simp [hset] at hsrm
            · rename_i hseqno
              exact ⟨entry.lsp.seqno, seqno?_of_stored hstored, hseqno⟩
        | ssn => simp [Marks.set, hset] at hsrm
      · simp [hset] at hsrm

theorem unmark (h : s.Sendable) (flag : Flag) {flooding : Flooding} {f : CircuitId → Prop}
    [DecidablePred f] (hconfined : Flooding.Confined id s.flooding flooding)
    (hmarks : ∀ c, flooding.marks c id =
      (s.flooding.marks c id).map fun marks => if f c then marks else marks.clear flag) :
    { s with flooding := flooding }.Sendable := by
  refine h.reflag hconfined fun {c marks} hset hsrm => ?_
  rw [hmarks, Option.map_eq_some_iff] at hset
  obtain ⟨before, hbefore, rfl⟩ := hset
  refine h.stored hbefore ?_
  split at hsrm
  · exact hsrm
  · cases flag with
    | srm => cases hsrm
    | ssn => exact hsrm

theorem addCircuit (h : s.Sendable) (circuit : Circuit) :
    { s with
      flooding := s.flooding.addCircuit circuit.id
      circuits := s.circuits.insert circuit.id circuit }.Sendable := by
  refine h.keep (fun {c id marks} hset hsrm => ⟨marks, ?_, hsrm⟩) rfl
  have hset' : (s.flooding.addCircuit circuit.id).marks c id = some marks := hset
  rw [Flooding.addCircuit] at hset'
  split at hset'
  · exact hset'
  · by_cases hc : c = circuit.id
    · rw [hc, Flooding.marks, Table.get?_insert_self] at hset'
      obtain rfl := Option.some.inj hset'
      cases hsrm
    · rwa [Flooding.marks, Table.get?_insert_of_ne _ _ hc] at hset'

theorem removeCircuit (h : s.Sendable) (circuit : CircuitId) :
    (s.removeCircuit circuit).Sendable := by
  refine h.keep (fun {c id marks} hset hsrm => ⟨marks, ?_, hsrm⟩) rfl
  have hset' : Flooding.marks (s.flooding.erase circuit) c id = some marks := hset
  rw [Flooding.marks, Table.get?_erase] at hset'
  split at hset'
  · cases hset'
  · exact hset'

/-- No step marks an LSP for sending of which there is nothing to send. -/
theorem step (h : s.Sendable) (hconsistent : s.Consistent) (hstep : Step heard s t) :
    t.Sendable := by
  cases hstep with
  | accept _ newer => exact h.accept _ newer
  | recordPurge _ _ unknown => exact h.recordPurge _ unknown
  | acknowledge => exact h.acknowledge _ _
  | request unknown => exact h.request _ unknown
  | purge reason stored live zeroAge =>
      exact h.purge reason (hconsistent.keys stored) stored live zeroAge
  | forcePurge reason => exact h.forcePurge _ reason
  | originate _ next => exact h.originate next
  | remove stored => exact (h.remove stored).congr rfl rfl
  | mark flag circuit stored => exact h.mark flag circuit stored
  | unmark flag id circuit =>
      refine h.unmark flag (f := fun c => ¬ c = circuit) (Flooding.clear_confined _ flag id circuit)
        fun c => ?_
      simp only [Flooding.marks_clear, ite_not]
  | unmarkAll flag id except =>
      exact h.unmark flag (f := fun c => some c = except)
        (Flooding.clearAll_confined _ flag id except)
        fun c => Flooding.marks_clearAll _ flag id except c
  | scheduleGeneration pseudonode span =>
      obtain ⟨generators, timers, trace, heq⟩ := s.scheduleGeneration_eq pseudonode span
      rw [heq]
      exact h.congr rfl rfl
  | cancelGeneration pseudonode =>
      obtain ⟨generators, timers, heq⟩ := s.cancelGeneration_eq pseudonode
      rw [heq]
      exact h.congr rfl rfl
  | @defer circuit lsp =>
      obtain ⟨deferred, trace, heq⟩ := s.defer_eq circuit lsp
      rw [heq]
      exact h.congr rfl rfl
  | addCircuit circuit => exact h.addCircuit circuit
  | removeCircuit circuit => exact h.removeCircuit circuit
  | _ => exact h.congr rfl rfl

end Sendable

variable {level : Level} {config : Config} {now : Nat}

/-- Until a level is stopped, what is marked for sending can be sent. -/
theorem Reachable.sendable (h : Reachable (Running fun _ => True) level config now s) :
    s.Sendable :=
  (h.invariant (P := Sendable) (fun _ => trivial) .inl (.blank level config now)
    (fun hsound hs hstep => hs.step hsound.consistent hstep)
    fun hallowed _ => absurd rfl hallowed.running).2

end LevelState

end LinkState
