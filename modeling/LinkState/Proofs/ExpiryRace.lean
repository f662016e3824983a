import LinkState.Proofs.ForeignLsps
import LinkState.Proofs.MirroredTimers
import LinkState.Proofs.Transit

/-!
# A newer copy and the end of the stored one

When a newer copy of an LSP of another system comes in, the life of the stored copy can be
over while its timer has not fired yet.  What comes of the new copy then does not depend on
which of the two is dealt with first: the reception makes up for the timer where that makes
a difference, and stops the timer for good.
-/

namespace LinkState

/-! ### Timers that are scheduled later -/

namespace TimerQueue

variable {ε : Type} {queue later last : TimerQueue ε}

/-- All timers that came to be pending were scheduled after the ones of the first queue. -/
structure Continues (queue later : TimerQueue ε) : Prop where
  next : queue.nextNumber ≤ later.nextNumber
  pending : ∀ timer ∈ later.pending, timer ∈ queue.pending ∨ queue.nextNumber ≤ timer.number

namespace Continues

theorem refl (queue : TimerQueue ε) : queue.Continues queue :=
  ⟨Nat.le_refl _, fun _ hmem => .inl hmem⟩

theorem trans (h : queue.Continues later) (h' : later.Continues last) : queue.Continues last where
  next := Nat.le_trans h.next h'.next
  pending := fun timer hmem =>
    (h'.pending timer hmem).elim (h.pending timer) fun hnew => .inr (Nat.le_trans h.next hnew)

theorem schedule (queue : TimerQueue ε) (now span : Nat) (event : ε) :
    queue.Continues (queue.schedule now span event).2 where
  next := Nat.le_succ _
  pending := fun _ hmem => (mem_schedule.1 hmem).elim
    (fun heq => .inr (heq ▸ Nat.le_refl _)) .inl

theorem release (queue : TimerQueue ε) (handle : Option Handle) :
    queue.Continues (queue.release handle) := by
  cases handle with
  | none => exact refl queue
  | some handle => exact ⟨Nat.le_refl _, fun _ hmem => .inl (mem_remove.1 hmem).1⟩

theorem clear (queue : TimerQueue ε) : queue.Continues queue.clear.2 :=
  ⟨Nat.le_refl _, fun _ hmem => absurd hmem List.not_mem_nil⟩

/-- A timer that is no longer pending is never pending again. -/
theorem not_armed (h : queue.Continues later) {number : Nat} (hold : number < queue.nextNumber)
    (hended : queue.isArmed number = false) : later.isArmed number = false := by
  rw [isArmed, List.any_eq_false] at hended ⊢
  intro timer hmem hnumber
  rcases h.pending timer hmem with hkept | hnew
  · exact hended timer hkept hnumber
  · rw [beq_iff_eq] at hnumber
    omega

end Continues

end TimerQueue

namespace LevelState

variable {heard : Lsp → Prop} {s s' t u : LevelState} {circuit : CircuitId} {lsp : Lsp}
  {entry : Entry} {life : Handle} {log : Log}

theorem timersWithout_continues (s : LevelState) (id : LspId) :
    s.timers.Continues (s.timersWithout id) :=
  ((TimerQueue.Continues.release _ _).trans (.release _ _)).trans (.release _ _)

theorem Installs.continues {received : Bool} {flooding : Flooding}
    (h : Installs s lsp received flooding t) : s.timers.Continues t.timers := by
  obtain ⟨counters, history, number, trace, rfl⟩ := h
  have hwithout := s.timersWithout_continues lsp.id
  show s.timers.Continues (s.armed lsp received).2
  unfold armed arm
  dsimp only
  split_ifs
  · exact hwithout.trans (.schedule _ _ _ _)
  · exact (hwithout.trans (.schedule _ _ _ _)).trans (.schedule _ _ _ _)
  · exact hwithout.trans (.schedule _ _ _ _)

/-- No step schedules a timer under a number that was given out before. -/
theorem Step.continues (hstep : Step heard s t) : s.timers.Continues t.timers := by
  cases hstep with
  | accept => exact (s.accept_installs _ _).continues
  | recordPurge => exact (s.recordPurge_installs _ _).continues
  | acknowledge =>
      rw [acknowledge_eq]
      exact .refl _
  | @request circuit summary =>
      by_cases hasked : summary.lifetime ≠ 0 ∧ summary.checksum ≠ 0 ∧ summary.seqno ≠ 0
      · exact (s.requestUnknown_installs _ hasked).continues
      · rw [requestUnknown, if_neg hasked]
        exact .refl _
  | purge reason stored live zeroAge => exact (purge_installs reason stored live zeroAge).continues
  | forcePurge reason => exact (s.forcePurge_installs _ reason).continues
  | originate _ next => exact (originate_installs next).continues
  | @remove id _ stored =>
      obtain ⟨trace, heq⟩ := remove_eq stored
      rw [heq]
      exact s.timersWithout_continues id
  | scheduleGeneration pseudonode span =>
      cases hkept : s.kept? (.generate pseudonode) with
      | some handle =>
          rw [scheduleGeneration_pending span hkept]
          exact .refl _
      | none =>
          obtain ⟨trace, heq⟩ := scheduleGeneration_idle span hkept
          rw [heq]
          exact .schedule _ _ _ _
  | beginGeneration => exact .release _ _
  | cancelGeneration pseudonode =>
      cases hstored : s.generators.get? pseudonode with
      | none =>
          simp only [LevelState.cancelGeneration, hstored]
          exact .refl _
      | some generator =>
          simp only [LevelState.cancelGeneration, hstored, cancel_eq]
          exact .release _ _
  | dropGenerator => exact .release _ _
  | @defer circuit lsp =>
      obtain ⟨deferred, trace, heq⟩ := s.defer_eq circuit lsp
      rw [heq]
      exact .refl _
  | _ => exact .refl _

theorem Steps.continues (hsteps : Steps heard s t) : s.timers.Continues t.timers := by
  induction hsteps with
  | refl => exact .refl _
  | tail _ hlast ih => exact ih.trans hlast.continues

theorem Run.continues (hrun : Run Proper s log t) (h : Sound (fun _ => True) s) :
    Sound (fun _ => True) t ∧ s.timers.Continues t.timers := by
  induction hrun with
  | refl => exact ⟨h, .refl _⟩
  | @perform log t operation _ hallowed ih =>
      obtain ⟨hsound, hcontinues⟩ := ih
      rcases hallowed.running with hrunning | rfl
      · have hsteps := perform_steps hsound (fun _ _ => trivial) hrunning
        exact ⟨hsound.steps hsteps, hcontinues.trans hsteps.continues⟩
      · exact ⟨.stop t, hcontinues.trans (.clear _)⟩

/-! ### The reception of one LSP -/

theorem agenda_acceptSame (h : s.Consistent) (hforeign : s.isOwn lsp.id = false)
    (circuit : CircuitId) :
    agenda (apartFrom lsp.id)
        (s.acceptSame circuit lsp (s.database.get? lsp.id)).timers =
      agenda (apartFrom lsp.id) s.timers := by
  by_cases hclear : ∀ stored, s.database.get? lsp.id = some stored →
      isConfused stored lsp.lifetime lsp.checksum = false
  · rw [acceptSame_clear hclear, acknowledge_eq]
    rfl
  · push Not at hclear
    obtain ⟨stored, hstored, hconfused⟩ := hclear
    have hconfused : isConfused stored lsp.lifetime lsp.checksum = true := by simpa using hconfused
    rw [acceptSame_confused hstored hconfused]
    exact (resolveConfusion_installs h hstored (live_of_confused hconfused)
      (h.received_of_foreign hstored hforeign)).agenda_apart apartFrom_apart h.timers
        (h.keys hstored)

/-- Arbitration of an LSP of another system changes the agenda of that LSP only. -/
theorem Judged.agenda (h : s.Consistent) (hforeign : s.isOwn lsp.id = false)
    (hjudged : Judged s circuit lsp t) :
    agenda (apartFrom lsp.id) t.timers = agenda (apartFrom lsp.id) s.timers := by
  cases hjudged with
  | recorded => exact (s.recordPurge_installs circuit lsp).agenda_apart apartFrom_apart h.timers rfl
  | accepted =>
      exact (s.accept_installs circuit lsp).agenda_apart apartFrom_apart h.timers
        (s.completed_id lsp)
  | outlived purge =>
      have hpurged := mirrors_purge h hforeign purge.stored purge.live .expired
      exact (agenda_acceptSame hpurged.consistent' ((hpurged.isOwn _).trans hforeign)
        circuit).trans hpurged.agenda
  | same => exact agenda_acceptSame h hforeign circuit
  | older => rfl

/-- A reception is not seen in the mirror of the other LSPs. -/
theorem mirrors_judge (h : s.Consistent) (hforeign : s.isOwn lsp.id = false)
    (hadmitted : s.Admitted heard circuit lsp) : Mirrors lsp.id s (s.judge circuit lsp) := by
  have hjudged := judge_judged h circuit lsp
  obtain ⟨-, f, -, hleaves, -⟩ := Twins.judge h h (.refl lsp.id s) circuit
  exact .of_leaves h (h.steps (hjudged.steps h hadmitted)) hforeign hleaves
    (hjudged.agenda h hforeign)

/-- Flags that do not depend on those that were there before. -/
theorem marks_map_const {flooding flooding' : Flooding} {c : CircuitId}
    (hflagged : flooding'.contains c = flooding.contains c) (id : LspId) (new : Marks) :
    (flooding'.marks c id).map (fun _ => new) = (flooding.marks c id).map fun _ => new := by
  rw [Table.contains, Table.contains] at hflagged
  rw [Flooding.marks, Flooding.marks]
  cases hflags : flooding.get? c <;> cases hflags' : flooding'.get? c <;> simp_all

/-- A numbered LSP that is accepted leaves none of the flags that it had before. -/
theorem marks_accept_of_numbered (s : LevelState) (circuit c : CircuitId)
    (hnumbered : lsp.seqno ≠ 0) :
    (s.accept circuit lsp).flooding.marks c lsp.id =
      (s.flooding.marks c lsp.id).map fun _ =>
        if c = circuit then ⟨false,
          if s.isPointToPoint circuit then some (s.summaryOf (s.completed lsp)) else none⟩
        else ⟨true, none⟩ := by
  have hseqno : (s.summaryOf (s.completed lsp)).seqno ≠ 0 :=
    (s.completed_seqno lsp).trans_ne hnumbered
  rw [marks_accept]
  exact Option.map_congr fun marks _ => by simp [Marks.set, Marks.clear, hseqno]

/-- What is accepted replaces whatever was there. -/
theorem accept_alike (hsurroundings : s'.surroundings = s.surroundings)
    (hflagged : ∀ c, s'.flooding.contains c = s.flooding.contains c)
    (hdeferred : s'.deferred? lsp.id = s.deferred? lsp.id) (hnumbered : lsp.seqno ≠ 0)
    (circuit : CircuitId) : Alike lsp.id (s.accept circuit lsp) (s'.accept circuit lsp) := by
  have hconfig : s'.config = s.config := congrArg Surroundings.config hsurroundings
  have hnow : s'.now = s.now := congrArg Surroundings.now hsurroundings
  have hcircuits : s'.circuits = s.circuits := congrArg Surroundings.circuits hsurroundings
  have hcompleted : s'.completed lsp = s.completed lsp := by
    rw [completed, completed, purgeOriginator, purgeOriginator, hconfig, hnow]
  have hsame : (s'.accept circuit lsp).surroundings = (s.accept circuit lsp).surroundings := by
    rw [(Spares.accept s' circuit lsp).surroundings, (Spares.accept s circuit lsp).surroundings,
      hsurroundings]
  have hinstalls := s.accept_installs circuit lsp
  have hinstalls' := s'.accept_installs circuit lsp
  constructor
  · exact hsame
  · have hstores := hinstalls.stores
    have hstores' := hinstalls'.stores
    rw [Stores, completed_id] at hstores hstores'
    rw [hstores, hstores', hcompleted, newShape_congr hsame]
  · intro c
    rw [marks_accept_of_numbered s' circuit c hnumbered, marks_map_const (hflagged c),
      marks_accept_of_numbered s circuit c hnumbered, hcompleted, isPointToPoint, isPointToPoint,
      hcircuits, summaryOf, summaryOf, hnow]
  · obtain ⟨counters, history, number, trace, heq⟩ := hinstalls
    obtain ⟨counters', history', number', trace', heq'⟩ := hinstalls'
    rw [heq, heq']
    exact hdeferred

/-! ### Copies whose life is over -/

/-- An LSP of another system is newer than the stored copy, whose life is over while its timer
has not fired yet. -/
structure Outruns (s : LevelState) (lsp : Lsp) (entry : Entry) (life : Handle) : Prop where
  foreign : s.isOwn lsp.id = false
  newer : s.recency lsp = .newer
  stored : s.database.get? lsp.id = some entry
  known : entry.isPlaceholder = false
  running : entry.lifeTimer = some life
  due : life.due ≤ s.now

/-- What is newer than a live copy without having a greater sequence number is a purge, and not
newer than a purge. -/
theorem not_newer_of_expired {storedSeqno seqno : UInt32} {storedLifetime lifetime : UInt16}
    (hnewer : Recency.ofFields storedSeqno storedLifetime seqno lifetime = .newer)
    (hlive : storedLifetime ≠ 0) (hnotless : ¬ storedSeqno < seqno) :
    Recency.ofFields storedSeqno 0 seqno lifetime ≠ .newer := by
  rw [Recency.ofFields] at hnewer ⊢
  split_ifs at hnewer ⊢ with hgreater hpurge
  all_goals simp_all

namespace Outruns

theorem kept (h : s.Outruns lsp entry life) : s.kept? (.expire lsp.id) = some life := by
  rw [kept?, h.stored, Option.bind_some, h.running]

theorem live (h : s.Outruns lsp entry life) (hs : s.Consistent) : entry.isPurged = false := by
  obtain ⟨entry', hstored, -, hlive, -⟩ := entry_of_lifeTimer hs h.kept
  obtain rfl := Option.some.inj (h.stored.symm.trans hstored)
  exact hlive

theorem not_unknown (h : s.Outruns lsp entry life) : ¬ s.PurgesUnknown lsp := by
  rintro ⟨-, hunknown⟩
  rw [known_of_stored h.stored h.known] at hunknown
  cases hunknown

/-- The purge that takes the place of the stored copy. -/
theorem purged (h : s.Outruns lsp entry life) (hs : s.Consistent) :
    (s.purge lsp.id .expired).Consistent ∧
      ∃ purge, (s.purge lsp.id .expired).database.get? lsp.id = some purge ∧
        purge.lsp = s.purgeOf entry.lsp ∧ purge.lifeTimer = none := by
  have hlive := h.live hs
  have hstep : Step (fun _ => True) s (s.purge lsp.id .expired) :=
    purge_step hs .expired h.stored hlive
  have hinstalls := purge_installs .expired h.stored hlive (zeroAgeTimer_of_live hs h.stored hlive)
  obtain ⟨purge, hpurge, hlsp, -⟩ := hinstalls.stored
  rw [show (s.purgeOf entry.lsp).id = lsp.id from hs.keys h.stored] at hpurge
  have hlife := ((hs.step hstep).settled hpurge).life
  rw [hlsp, show (s.purgeOf entry.lsp).isExpired = true from rfl] at hlife
  exact ⟨hs.step hstep, purge, hpurge, hlsp, by simpa using hlife⟩

/-- A copy with a greater sequence number is accepted whether the stored copy has been purged
or not. -/
theorem judge_greater (h : s.Outruns lsp entry life) (hs : s.Consistent) (hcarries : lsp.Carries)
    (hless : entry.lsp.seqno < lsp.seqno) (circuit : CircuitId) :
    s.judge circuit lsp = s.accept circuit lsp ∧
      (s.purge lsp.id .expired).judge circuit lsp =
        (s.purge lsp.id .expired).accept circuit lsp := by
  have hfields : ∀ lifetime, Recency.ofFields entry.lsp.seqno lifetime lsp.seqno lsp.lifetime =
      .newer := fun lifetime => by rw [Recency.ofFields, if_pos hless]
  constructor
  · refine judge_newer h.not_unknown h.newer ?_ circuit
    simp [stopLife, h.stored, h.running, hfields]
  · obtain ⟨-, purge, hpurge, hlsp, hlife⟩ := h.purged hs
    have hknown : (s.purge lsp.id .expired).known? lsp.id = some purge := by
      refine known_of_stored hpurge ?_
      rw [Entry.isPlaceholder, hlsp]
      exact h.known
    refine judge_newer (fun hunknown => ?_) ?_ ?_ circuit
    · rw [hunknown.2] at hknown
      cases hknown
    · have hpurges : (s.purgeOf entry.lsp).Carries := Lsp.encode_carries _ s.now
      have hraw : lsp.raw ≠ (s.purgeOf entry.lsp).raw := fun hraw => by
        have hsame := hcarries.seqno_eq hpurges hraw
        rw [hsame] at hless
        exact UInt32.lt_irrefl _ hless
      rw [recency_of_stored hpurge, hlsp]
      simp only [Recency.ofLsp, Recency.compare, Option.some.injEq, hraw, and_false, if_false]
      exact hfields 0
    · simp [stopLife, hpurge, hlife]

/-- A purge with the same sequence number is the same as the purge of the stored copy. -/
theorem judge_same (h : s.Outruns lsp entry life) (hs : s.Consistent)
    (hnotless : ¬ entry.lsp.seqno < lsp.seqno) (circuit : CircuitId) :
    s.judge circuit lsp = (s.purge lsp.id .expired).judge circuit lsp ∧
      s.judge circuit lsp =
        ((s.purge lsp.id .expired).clearFlags .srm lsp.id none).acknowledge circuit lsp := by
  have hlive := h.live hs
  have hfields := ofFields_of_newer (recency_of_stored h.stored ▸ h.newer)
  have hstop : (s.stopLife lsp).1 = false := by
    have hlifetime : entry.lsp.lifetime ≠ 0 := of_decide_eq_false hlive
    have hexpired := not_newer_of_expired hfields hlifetime hnotless
    have hover : ¬ s.now < life.due := Nat.not_lt.2 h.due
    simp [stopLife, h.stored, h.running, hexpired, hover]
  obtain ⟨entry', hpurge, hsame, heq⟩ := judge_outlived hs circuit
    (known_of_expired h.not_unknown) h.newer hstop
  obtain ⟨-, hknown⟩ := purged_recency hs hpurge
  obtain ⟨-, purge, hstored, hlsp, -⟩ := h.purged hs
  constructor
  · rw [heq, LevelState.judge_same (fun hunknown => ?_) hsame]
    rw [hunknown.2] at hknown
    cases hknown
  · rw [heq, acceptSame_clear fun stored hstored' => ?_]
    obtain rfl := Option.some.inj (hstored.symm.trans hstored')
    rw [isConfused, Entry.isPurged, hlsp]
    rfl

theorem numbered (hless : entry.lsp.seqno < lsp.seqno) : lsp.seqno ≠ 0 := by
  intro hzero
  rw [hzero, UInt32.lt_iff_toNat_lt] at hless
  exact absurd hless (Nat.not_lt_zero _)

/-- What comes of the newer copy does not depend on whether the stored one has been purged. -/
theorem judge_alike (h : s.Outruns lsp entry life) (hs : s.Consistent) (hcarries : lsp.Carries)
    (circuit : CircuitId) :
    Alike lsp.id (s.judge circuit lsp) ((s.purge lsp.id .expired).judge circuit lsp) := by
  by_cases hless : entry.lsp.seqno < lsp.seqno
  · obtain ⟨heq, heq'⟩ := h.judge_greater hs hcarries hless circuit
    have hspares := Spares.purge hs .expired h.stored (h.live hs)
    have hdeferred : (s.purge lsp.id .expired).deferred = s.deferred :=
      congrArg Deferral.deferred (s.deferral_purge lsp.id .expired)
    rw [heq, heq']
    refine accept_alike hspares.surroundings hspares.flagged ?_ (numbered hless) circuit
    rw [deferred?, deferred?, hdeferred]
  · rw [← (h.judge_same hs hless circuit).1]
    exact .refl _ _

/-- Nothing is due for the LSP once the newer copy has come in. -/
theorem judge_quiet (h : s.Outruns lsp entry life) (hs : s.Consistent) (hcarries : lsp.Carries)
    (hzeroAge : s.config.zeroAge ≠ 0) (circuit : CircuitId) :
    (s.judge circuit lsp).Quiet lsp.id := by
  by_cases hless : entry.lsp.seqno < lsp.seqno
  · have hinstalls := s.accept_installs circuit lsp
    have hid := s.completed_id lsp
    have hquiet := hinstalls.quiet hzeroAge (hid ▸ h.foreign)
      ((s.completed_seqno lsp).trans_ne (numbered hless))
    rw [(h.judge_greater hs hcarries hless circuit).1, ← hid]
    exact hquiet
  · have hquiet := purge_quiet hs h.foreign hzeroAge h.stored (h.live hs) h.known .expired
    rw [(h.judge_same hs hless circuit).2, acknowledge_eq]
    exact hquiet

/-- The timer of the stored copy is given up. -/
theorem not_armed (h : s.Outruns lsp entry life) (hs : s.Consistent) (ht : t.Consistent)
    (hnow : t.now = s.now) (hcontinues : s.timers.Continues t.timers) (hquiet : t.Quiet lsp.id) :
    t.timers.isArmed life.number = false := by
  have hrunning := (hs.timers.mem_iff _ _).1 h.kept
  rw [TimerQueue.isArmed, List.any_eq_false]
  intro timer hmem hnumber
  rw [beq_iff_eq] at hnumber
  rcases hcontinues.pending timer hmem with hold | hnew
  · have htimer := TimerQueue.eq_of_number_eq hs.timers.nodup hold hrunning hnumber
    have hconcerns : timer.event.concerns lsp.id = true := by simp [htimer, TimerEvent.concerns]
    have hlater := hquiet.not_due hconcerns (ht.timers.kept_of_mem hmem)
    rw [htimer, hnow] at hlater
    exact Nat.not_lt.2 h.due hlater
  · have hfresh := s.timers.fresh _ hrunning
    dsimp only at hfresh
    omega

end Outruns

/-- The second arbitration is the last one, whatever would come after it. -/
theorem arbitrate_twice (h : s.Consistent) (circuit : CircuitId) (lsp : Lsp)
    (retry : LevelState → LevelState) :
    s.arbitrate (fun s => s.arbitrate retry circuit lsp) circuit lsp = s.judge circuit lsp := by
  by_cases hunknown : s.PurgesUnknown lsp
  · rw [judge_recorded hunknown, arbitrate, if_pos (by simp [hunknown.1, hunknown.2])]
  · have hknown := known_of_expired hunknown
    rw [judge, arbitrate_eq _ hknown, arbitrate_eq _ hknown]
    cases hrecency : s.recency lsp with
    | newer =>
        cases hstop : (s.stopLife lsp).1 with
        | true => rfl
        | false =>
            obtain ⟨entry, hpurge, hagain, -⟩ := judge_outlived h circuit hknown hrecency hstop
            have hexpire : (s.stopLife lsp).2.expire lsp.id = s.purge lsp.id .expired :=
              (stopLife_expired h hstop).2.trans (expire_known hpurge.stored hpurge.known)
            have hstill := (purged_recency h hpurge).2
            simp only [Bool.false_eq_true, if_false, hexpire]
            rw [arbitrate_eq _ fun _ => hstill, arbitrate_eq _ fun _ => hstill, hagain]
    | same => rfl
    | older => rfl

/-! ### Both orders -/

/-- What is asked of an LSP that comes in on a circuit. -/
structure Arrives (s : LevelState) (circuit : CircuitId) (lsp : Lsp) : Prop where
  registered : s.circuits.contains circuit = true
  level : lsp.level = s.level
  valid : lsp.Valid
  carries : lsp.Carries

namespace Arrives

theorem congr (h : s.Arrives circuit lsp) (hsurroundings : t.surroundings = s.surroundings) :
    t.Arrives circuit lsp where
  registered := by
    rw [show t.circuits = s.circuits from congrArg Surroundings.circuits hsurroundings]
    exact h.registered
  level := h.level.trans (congrArg Surroundings.level hsurroundings).symm
  valid := h.valid
  carries := h.carries

theorem admitted (h : s.Arrives circuit lsp) (hforeign : s.isOwn lsp.id = false) :
    s.Admitted (fun _ => True) circuit lsp where
  registered := h.registered
  heard := trivial
  level := h.level
  intact := h.valid.intact
  purge := h.valid.purge
  unanswered := fun hown => absurd (hforeign.symm.trans hown) Bool.false_ne_true

theorem receiveLsp (h : s.Arrives circuit lsp) (hforeign : s.isOwn lsp.id = false) :
    s.receiveLsp (some circuit) lsp = (s.judge circuit lsp, none) := by
  rw [receiveLsp_registered h.registered h.level, receiveFrom_foreign h.valid hforeign]

end Arrives

namespace Outruns

theorem sound (h : s.Outruns lsp entry life) (hs : Sound (fun _ => True) s)
    (harrives : s.Arrives circuit lsp) : Sound (fun _ => True) (s.judge circuit lsp) :=
  hs.steps ((judge_judged hs.consistent circuit lsp).steps hs.consistent
    (harrives.admitted h.foreign))

/-- In both orders, the same is seen of every LSP. -/
theorem alike (h : s.Outruns lsp entry life) (hs : Sound (fun _ => True) s)
    (harrives : s.Arrives circuit lsp) (hzeroAge : s.config.zeroAge ≠ 0)
    (hdrains : Drains s t) (hdrains' : Drains (s.judge circuit lsp) u) :
    t.receiveLsp (some circuit) lsp = (t.judge circuit lsp, none) ∧
      ∀ id, Alike id (t.judge circuit lsp) u := by
  -- The timers are processed first, and the stored copy is purged.
  have ht := hdrains.sound hs
  have hoverdue := hdrains.overdue hs h.foreign hzeroAge h.stored h.known h.kept h.due
  have hpurged := Spares.purge hs.consistent .expired h.stored (h.live hs.consistent)
  have hsurroundings := hoverdue.surroundings.trans hpurged.surroundings
  have harrives' := harrives.congr hsurroundings
  have hforeign' := (isOwn_congr hsurroundings lsp.id).trans h.foreign
  have hanswered := mirrors_judge ht.consistent hforeign' (harrives'.admitted hforeign')
  -- The copy is received first, and nothing is due for the LSP any more.
  have hreceived := mirrors_judge hs.consistent h.foreign (harrives.admitted h.foreign)
  have hj := h.sound hs harrives
  have hquiet := h.judge_quiet hs.consistent harrives.carries hzeroAge circuit
  have hmirrors := hdrains.mirrors hreceived hs hj hquiet hdrains'
  refine ⟨harrives'.receiveLsp hforeign', fun id => ?_⟩
  by_cases hid : id = lsp.id
  · subst hid
    have hjudged := h.judge_alike hs.consistent harrives.carries circuit
    have hagain := (Twins.judge (h.purged hs.consistent).1 ht.consistent hoverdue circuit).alike
    exact (hjudged.trans hagain).symm.trans
      (hdrains'.alike hj ((hreceived.isOwn _).trans h.foreign) hquiet)
  · exact (hanswered.symm.trans hmirrors).others id hid

/-- The life timer of the stored copy is never pending again. -/
theorem spent (h : s.Outruns lsp entry life) (hs : Sound (fun _ => True) s)
    (harrives : s.Arrives circuit lsp) (hzeroAge : s.config.zeroAge ≠ 0)
    (hrun : Run Proper (s.judge circuit lsp) log t) : t.timers.isArmed life.number = false := by
  have hsteps := (judge_judged hs.consistent circuit lsp).steps hs.consistent
    (harrives.admitted h.foreign)
  have hreceived := mirrors_judge hs.consistent h.foreign (harrives.admitted h.foreign)
  have hj := h.sound hs harrives
  have hquiet := h.judge_quiet hs.consistent harrives.carries hzeroAge circuit
  have hcontinues := Steps.continues hsteps
  have hissued := s.timers.fresh _ ((hs.consistent.timers.mem_iff _ _).1 h.kept)
  exact (hrun.continues hj).2.not_armed (Nat.lt_of_lt_of_le hissued hcontinues.next)
    (h.not_armed hs.consistent hj.consistent hreceived.now hcontinues hquiet)

end Outruns

variable {level : Level} {config : Config} {now : Nat}

/-- In every reachable state of a level that keeps purges for some time and does not originate
LSPs for one second only: if a newer copy of an LSP of another system comes in while the life of
the stored copy is over and its timer has not fired yet, then receiving the copy and processing
all timers that are due gives the same entries, with the same kinds of timers due at the same
times, and the same flooding flags as processing the timers first.  The stored copy is
arbitrated twice at most, and its life timer is never pending again. -/
theorem expiry_race (h : Reachable Proper level config now s) (hzeroAge : config.zeroAge ≠ 0)
    (hlifetime : config.lifetime ≠ 1) (harrives : s.Arrives circuit lsp)
    (houtruns : s.Outruns lsp entry life) :
    ∃ received answered, s.receiveLsp (some circuit) lsp = (received, none) ∧
      s.fireDue.2.receiveLsp (some circuit) lsp = (answered, none) ∧
      (∀ id, (received.fireDue.2.database.get? id).map Entry.shape =
        (answered.database.get? id).map Entry.shape) ∧
      received.fireDue.2.flooding = answered.flooding ∧
      (∀ retry, s.arbitrate (fun s => s.arbitrate retry circuit lsp) circuit lsp = received) ∧
      ∀ log t, Run Proper received log t → t.timers.isArmed life.number = false := by
  have hs := h.sound
  obtain ⟨-, hconfig, -⟩ := h.constant
  rw [← hconfig] at hzeroAge hlifetime
  have hj := houtruns.sound hs harrives
  have hreceived := mirrors_judge hs.consistent houtruns.foreign
    (harrives.admitted houtruns.foreign)
  obtain ⟨hanswered, halike⟩ := houtruns.alike hs harrives hzeroAge (fireDue_drains hs hlifetime)
    (fireDue_drains hj (hreceived.config ▸ hlifetime))
  exact ⟨s.judge circuit lsp, s.fireDue.2.judge circuit lsp,
    harrives.receiveLsp houtruns.foreign, hanswered, fun id => (halike id).entry,
    flooding_ext fun circuit id => (halike id).marks circuit,
    arbitrate_twice hs.consistent circuit lsp,
    fun _ _ hrun => houtruns.spent hs harrives hzeroAge hrun⟩

def brief : Lsp :=
  Lsp.make 0 .one 5 ⟨⟨1, 0, 0, 0, 0, 0⟩, 0, 0⟩ 7 .none .empty

/-- The life of the LSP is over, and no timer has fired since it was received. -/
def lingering : LevelState :=
  (attached.perform (.receiveLsp (some 1) brief)).perform (.advance 5000)

/-- A purge of the very copy that is stored comes in, and is the same as what the timer would
have left. -/
theorem expiry_race_lingering :
    let purge := Lsp.make 5000 .one 0 brief.id 7 .none .empty
    lingering.Arrives 1 purge ∧
      lingering.Outruns purge ⟨brief, true, some ⟨1, 5000⟩, none, none⟩ ⟨1, 5000⟩ ∧
      ∃ received answered, lingering.receiveLsp (some 1) purge = (received, none) ∧
        lingering.fireDue.2.receiveLsp (some 1) purge = (answered, none) ∧
        (∀ id, (received.fireDue.2.database.get? id).map Entry.shape =
          (answered.database.get? id).map Entry.shape) ∧
        received.fireDue.2.flooding = answered.flooding ∧
        received.timers.isArmed 1 = false := by
  intro purge
  have hreachable : Reachable Proper .one Config.default 0 lingering :=
    Reachable.perform (.perform (.perform .start trivial) trivial) trivial
  have harrives : lingering.Arrives 1 purge :=
    ⟨by decide +kernel, by decide +kernel, ⟨by decide +kernel, by decide +kernel⟩,
      Lsp.make_carries _ _ _ _ _ _ _⟩
  have houtruns : lingering.Outruns purge ⟨brief, true, some ⟨1, 5000⟩, none, none⟩ ⟨1, 5000⟩ :=
    ⟨by decide +kernel, by decide +kernel, by decide +kernel, by decide +kernel, rfl,
      by decide +kernel⟩
  obtain ⟨received, answered, hreceived, hanswered, hentries, hflooding, -, hspent⟩ :=
    expiry_race hreachable (by decide) (by decide) harrives houtruns
  exact ⟨harrives, houtruns, received, answered, hreceived, hanswered, hentries, hflooding,
    hspent [] received .refl⟩

end LevelState

end LinkState
