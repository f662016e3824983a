import LinkState.Proofs.Ageing
import LinkState.Proofs.Elections
import LinkState.Proofs.FloodingInvariant

/-!
# Purging all own LSPs

Once a system has purged its own LSPs, none of them is live, and none is about to be
generated.  Unless the system advertises something new, is elected, or hands in an own
LSP itself, none comes back to life, with one exception: when an own LSP is deleted that
has used up its sequence numbers, its generation starts over.
-/

namespace LinkState.LevelState

variable {heard : Lsp → Prop} {s t u : LevelState} {id : LspId} {pseudonode : UInt8} {log : Log}

/-! ### The purge -/

theorem mem_liveIds_ofSystem (h : s.Consistent) :
    id ∈ liveIds (s.database.ofSystem s.config.system) ↔
      ∃ entry, s.database.get? id = some entry ∧ s.isOwn id = true ∧ entry.isLive = true := by
  have hrange : ∀ entry, entry ∈ s.database.ofSystem s.config.system ↔
      ∃ id, s.database.get? id = some entry ∧ s.isOwn id = true := by
    intro entry
    rw [Database.ofSystem, Database.range, mem_select]
    simp only [decide_eq_true_eq, LspId.within_system_iff, isOwn]
  rw [liveIds, List.mem_map]
  constructor
  · rintro ⟨entry, hmem, rfl⟩
    obtain ⟨hentry, hlive⟩ := List.mem_filter.1 hmem
    obtain ⟨id, hstored, hown⟩ := (hrange entry).1 hentry
    rw [h.keys hstored]
    exact ⟨entry, hstored, hown, hlive⟩
  · rintro ⟨entry, hstored, hown, hlive⟩
    exact ⟨entry, List.mem_filter.2 ⟨(hrange entry).2 ⟨id, hstored, hown⟩, hlive⟩, h.keys hstored⟩

/-- An LSP that is flooded on all circuits is marked for sending on each. -/
theorem Installs.flooded_marks {lsp : Lsp} {received : Bool} {circuit : CircuitId}
    (h : Installs s lsp received (flooded s.flooding (s.summaryOf lsp) none) t)
    (hseqno : lsp.seqno ≠ 0) (hcircuit : t.flooding.contains circuit = true) :
    t.flooding.marks circuit lsp.id = some ⟨true, none⟩ := by
  obtain ⟨counters, history, number, trace, rfl⟩ := h
  obtain ⟨flags, hflags⟩ := Option.isSome_iff_exists.1 hcircuit
  rw [get?_flooded] at hflags
  obtain ⟨before, hbefore, -⟩ := Option.map_eq_some_iff.1 hflags
  have hset : (before.set .srm (s.summaryOf lsp)).marks lsp.id =
      ⟨true, (before.marks lsp.id).ssn⟩ := before.marks_set_srm hseqno
  have hid : (s.summaryOf lsp).id = lsp.id := rfl
  rw [Flooding.marks, get?_flooded, hbefore, Option.map_some, if_neg (by simp), Option.map_some,
    hid, CircuitFlags.marks_clear_ssn, hset]

theorem isSet_of_marks {flooding : Flooding} {circuit : CircuitId} {ssn : Option LspSummary}
    (h : flooding.marks circuit id = some ⟨true, ssn⟩) :
    flooding.isSet .srm circuit id = true := by
  obtain ⟨flags, hflags, hset⟩ := Option.map_eq_some_iff.1 h
  rw [Flooding.isSet, hflags]
  exact congrArg Marks.srm hset

/-- A purge of a live LSP is flooded on all circuits. -/
structure Flooded (seqno : UInt32) (t : LevelState) (id : LspId) : Prop where
  stored : ∃ purge, t.database.get? id = some purge ∧ purge.isPurged = true ∧
    purge.lsp.seqno = seqno
  marked : ∀ circuit, t.flooding.contains circuit = true →
    t.flooding.marks circuit id = some ⟨true, none⟩

theorem Spares.marked {touched : LspId → Prop} (h : Spares touched t u) (hid : ¬ touched id)
    (hmarked : ∀ circuit, t.flooding.contains circuit = true →
      t.flooding.marks circuit id = some ⟨true, none⟩) :
    ∀ circuit, u.flooding.contains circuit = true →
      u.flooding.marks circuit id = some ⟨true, none⟩ := by
  intro circuit hcircuit
  have hmarks := congrFun (congrArg View.marks (h.view id hid)) circuit
  exact hmarks.trans (hmarked circuit ((h.flagged circuit).symm.trans hcircuit))

/-- A purge stays flooded while nothing is done about the LSP. -/
theorem Flooded.spared {touched : LspId → Prop} {seqno : UInt32} (h : Flooded seqno t id)
    (hspares : Spares touched t u) (hid : ¬ touched id) : Flooded seqno u id where
  stored := hspares.get? hid ▸ h.stored
  marked := hspares.marked hid h.marked

/-- The purge of a live LSP is to be sent on all circuits, since its sequence number is not
zero. -/
theorem purge_flooded (h : s.Consistent) {entry : Entry} (reason : PurgeReason)
    (hstored : s.database.get? id = some entry) (hlive : entry.isLive = true) :
    Flooded entry.lsp.seqno (s.purge id reason) id := by
  obtain ⟨hentry, hknown⟩ := Entry.isLive_iff.1 hlive
  have hinstalls := purge_installs reason hstored hentry (zeroAgeTimer_of_live h hstored hentry)
  have hid : (s.purgeOf entry.lsp).id = id := h.keys hstored
  have hseqno : (s.purgeOf entry.lsp).seqno ≠ 0 := by
    show entry.lsp.seqno ≠ 0
    simpa [Entry.isPlaceholder] using hknown
  constructor
  · obtain ⟨purge, hpurge, hlsp, -⟩ := hinstalls.stored
    refine ⟨purge, hid ▸ hpurge, ?_, ?_⟩
    · rw [Entry.isPurged, hlsp]
      rfl
    · rw [hlsp]
      rfl
  · intro circuit hcircuit
    exact hid ▸ hinstalls.flooded_marks hseqno hcircuit

/-- Of several LSPs that are purged in turn, each is flooded in the end. -/
theorem purgeAll_flooded (h : s.Consistent) {ids : List LspId} (hnodup : ids.Nodup)
    (hlive : ∀ id ∈ ids, ∃ entry, s.database.get? id = some entry ∧ entry.isLive = true)
    (reason : PurgeReason) {entry : Entry} (hid : id ∈ ids)
    (hstored : s.database.get? id = some entry) :
    Flooded entry.lsp.seqno (s.purgeAll ids reason) id := by
  induction ids generalizing s with
  | nil => cases hid
  | cons first rest ih =>
      obtain ⟨hnotin, hrest⟩ := List.nodup_cons.1 hnodup
      obtain ⟨found, hfound, hfirst⟩ := hlive first List.mem_cons_self
      have hpurged := (Entry.isLive_iff.1 hfirst).1
      have hstep : Step (fun _ => True) s (s.purge first reason) :=
        purge_step h reason hfound hpurged
      have hspares := Spares.purge h reason hfound hpurged
      have hlater : ∀ other ∈ rest, ∃ entry,
          (s.purge first reason).database.get? other = some entry ∧ entry.isLive = true := by
        intro other hother
        rw [hspares.get? fun heq => hnotin (heq ▸ hother)]
        exact hlive other (List.mem_cons_of_mem _ hother)
      rcases List.mem_cons.1 hid with rfl | hmem
      · -- The purges that follow are of other LSPs.
        obtain rfl := Option.some.inj (hfound.symm.trans hstored)
        have hflooded := purge_flooded h reason hfound hfirst
        obtain ⟨-, hothers, -⟩ := purgeAll_spares (h.step hstep) hrest
          (fun other hother => (hlater other hother).imp fun _ hentry =>
            ⟨hentry.1, (Entry.isLive_iff.1 hentry.2).1⟩) reason
        exact hflooded.spared hothers hnotin
      · refine ih (h.step hstep) hrest hlater hmem ?_
        rw [hspares.get? fun heq => hnotin (heq ▸ hmem)]
        exact hstored

/-! ### Generations that are cancelled -/

theorem kept?_cancelGeneration (s : LevelState) (pseudonode other : UInt8) :
    (s.cancelGeneration pseudonode).kept? (.generate other) =
      if other = pseudonode then none else s.kept? (.generate other) := by
  cases hstored : s.generators.get? pseudonode with
  | none =>
      simp only [cancelGeneration, hstored]
      split
      · rename_i heq
        rw [heq, kept?, hstored]
        rfl
      · rfl
  | some generator =>
      simp only [cancelGeneration, hstored, kept?]
      by_cases heq : other = pseudonode
      · rw [if_pos heq, heq, Table.get?_insert_self]
        rfl
      · rw [if_neg heq, Table.get?_insert_of_ne _ _ heq]

theorem kept?_foldl_cancelGeneration (pseudonodes : List UInt8) (s : LevelState) (other : UInt8) :
    (pseudonodes.foldl cancelGeneration s).kept? (.generate other) =
      if other ∈ pseudonodes then none else s.kept? (.generate other) := by
  induction pseudonodes generalizing s with
  | nil => simp
  | cons first rest ih =>
      rw [List.foldl_cons, ih, kept?_cancelGeneration]
      by_cases hrest : other ∈ rest
      · simp [hrest]
      · by_cases hfirst : other = first <;> simp [hrest, hfirst]

/-- Once the generations of all generators are cancelled, none is pending. -/
theorem not_pending_of_cancelled (s : LevelState) (pseudonode : UInt8) :
    ¬ (s.generators.keys.foldl cancelGeneration s).Pending pseudonode := by
  rw [Pending, kept?_foldl_cancelGeneration]
  split
  · simp
  · rename_i hnone
    have hunknown : s.generators.get? pseudonode = none := by
      refine Option.eq_none_iff_forall_ne_some.2 fun generator hstored => hnone ?_
      exact List.mem_map.2 ⟨_, Table.mem_toList.2 hstored, rfl⟩
    simp [kept?, hunknown]

theorem foldl_cancelGeneration_eq (pseudonodes : List UInt8) (s : LevelState) :
    ∃ generators timers, pseudonodes.foldl cancelGeneration s =
      { s with generators := generators, timers := timers } := by
  induction pseudonodes generalizing s with
  | nil => exact ⟨s.generators, s.timers, rfl⟩
  | cons first rest ih =>
      obtain ⟨generators, timers, hfirst⟩ := s.cancelGeneration_eq first
      obtain ⟨generators', timers', hrest⟩ := ih (s.cancelGeneration first)
      refine ⟨generators', timers', ?_⟩
      rw [List.foldl_cons, hrest, hfirst]

/-- What the purge of all own LSPs leaves behind: none is live, none is going to be
generated, and each that was live is purged, with the purge marked for sending on all
circuits. -/
structure OwnPurged (s t : LevelState) : Prop where
  silent : ∀ {id entry}, t.isOwn id = true → t.database.get? id = some entry →
    entry.isLive = false
  idle : ∀ timer ∈ t.timers.pending, ∀ pseudonode, timer.event ≠ .generate pseudonode
  flooded : ∀ {id entry}, s.isOwn id = true → s.database.get? id = some entry →
    entry.isLive = true →
      ∃ purge, t.database.get? id = some purge ∧ purge.isPurged = true ∧
        purge.lsp.seqno = entry.lsp.seqno ∧
        ∀ circuit, s.circuits.contains circuit = true → t.flooding.isSet .srm circuit id = true

theorem not_live_of_silent {entry : Entry} (hsilent : s.published? id = none)
    (hstored : s.database.get? id = some entry) : entry.isLive = false := by
  by_contra hlive
  exact published_ne_none hstored (by simpa using hlive) hsilent

/-- What purging the live LSPs of the system does. -/
theorem purgeAll_ofSystem (h : s.Consistent) {t : LevelState}
    (hpurge : t = s.purgeAll (liveIds (s.database.ofSystem s.config.system)) .removed) :
    Stilled s t ∧ (∀ circuit, t.flooding.contains circuit = s.flooding.contains circuit) ∧
      (∀ id, s.isOwn id = true → t.published? id = none) ∧
      ∀ id entry, s.isOwn id = true → s.database.get? id = some entry → entry.isLive = true →
        Flooded entry.lsp.seqno t id := by
  subst hpurge
  have hids := fun id => @mem_liveIds_ofSystem s id h
  have hnodup : (liveIds (s.database.ofSystem s.config.system)).Nodup := liveIds_range_nodup h _ _
  generalize liveIds (s.database.ofSystem s.config.system) = ids at hids hnodup ⊢
  have hlive : ∀ id ∈ ids, ∃ entry, s.database.get? id = some entry ∧ entry.isLive = true := by
    intro id hid
    obtain ⟨entry, hstored, -, hentry⟩ := (hids id).1 hid
    exact ⟨entry, hstored, hentry⟩
  have hunpurged : ∀ id ∈ ids, ∃ entry, s.database.get? id = some entry ∧ entry.isPurged = false :=
    fun id hid => (hlive id hid).imp fun _ hentry => ⟨hentry.1, (Entry.isLive_iff.1 hentry.2).1⟩
  obtain ⟨-, hspares, hsilent⟩ := purgeAll_spares h hnodup hunpurged .removed
  have hstilled := purgeAll_stilled h hnodup hunpurged .removed
  refine ⟨hstilled, hspares.flagged, fun id hown => ?_, fun id entry hown hstored hentry => ?_⟩
  · by_contra hpublished
    obtain ⟨body, hbody⟩ := Option.ne_none_iff_exists'.1 (hstilled.published hown hpublished)
    obtain ⟨entry, hentry, -⟩ := Option.map_eq_some_iff.1 hbody
    obtain ⟨hstored, hentry⟩ := Option.filter_eq_some_iff.1 hentry
    exact hpublished (hsilent id ((hids id).2 ⟨entry, hstored, hown, hentry⟩))
  · exact purgeAll_flooded h hnodup hlive .removed ((hids id).2 ⟨entry, hstored, hown, hentry⟩)
      hstored

/-- The purge of all own LSPs cancels their generation first. -/
theorem purgeOwn_eq (s : LevelState) :
    ∃ generators timers, let cancelled := { s with generators := generators, timers := timers }
      s.generators.keys.foldl cancelGeneration s = cancelled ∧
      s.purgeOwn =
        cancelled.purgeAll (liveIds (s.database.ofSystem s.config.system)) .removed ∧
      ∀ pseudonode, ¬ cancelled.Pending pseudonode := by
  obtain ⟨generators, timers, heq⟩ := foldl_cancelGeneration_eq s.generators.keys s
  refine ⟨generators, timers, heq, ?_, fun pseudonode => ?_⟩
  · rw [purgeOwn, heq]
  · rw [← heq]
    exact s.not_pending_of_cancelled pseudonode

/-- All live own LSPs are purged, and no run of a generator is left that would renew them. -/
theorem purgeOwn_ownPurged (h : s.Orderly) (hflagged : s.Flagged) : OwnPurged s s.purgeOwn := by
  have hcancel : Steps (fun _ => True) s (s.generators.keys.foldl cancelGeneration s) :=
    foldl_steps (fun _ _ _ => .single (.cancelGeneration _)) h.sound
  obtain ⟨generators, timers, heq, hpurge, hidle⟩ := s.purgeOwn_eq
  have hconsistent := (h.steps hcancel).sound.consistent
  rw [heq] at hconsistent
  obtain ⟨hstilled, hcircuits, hsilent, hflooded⟩ := purgeAll_ofSystem hconsistent hpurge
  constructor
  · intro id entry hown hstored
    rw [isOwn_congr hstilled.surroundings] at hown
    exact not_live_of_silent (hsilent id hown) hstored
  · intro timer htimer pseudonode hevent
    have hpurged : s.purgeOwn.Consistent := (h.steps (purgeOwn_steps h.sound)).sound.consistent
    have hkept := hpurged.timers.kept_of_mem htimer
    rw [hevent, kept?, hstilled.generators] at hkept
    refine hidle pseudonode ?_
    rw [Pending, kept?, hkept]
    rfl
  · intro id entry hown hstored hentry
    have hpurged := hflooded id entry hown hstored hentry
    obtain ⟨purge, hstored, hexpired, hseqno⟩ := hpurged.stored
    refine ⟨purge, hstored, hexpired, hseqno, fun circuit hcircuit => ?_⟩
    have hcontains : s.purgeOwn.flooding.contains circuit = true :=
      (hcircuits circuit).trans ((hflagged.circuits circuit).trans hcircuit)
    exact isSet_of_marks (hpurged.marked circuit hcontains)

/-! ### At rest -/

/-- The own LSPs of a pseudonode are at rest: none is live, and no generation is pending. -/
structure AtRest (pseudonode : UInt8) (s : LevelState) : Prop where
  idle : ¬ s.Pending pseudonode
  silent : ∀ {id}, s.isOwn id = true → id.pseudonode = pseudonode → s.published? id = none

/-- An own LSP of a pseudonode was deleted that had used up its sequence numbers, by which
the generation of the pseudonode starts over. -/
def StartsOver (level : Level) (config : Config) (pseudonode : UInt8) (event : Event) : Prop :=
  ∃ lsp : Lsp, event = (Change.deleted lsp).event level ∧
    lsp.id.node = ⟨config.system, pseudonode⟩ ∧ lsp.seqno = 0xFFFFFFFF

/-- Between two states the own LSPs of a pseudonode stay at rest, unless it was told that
they start over. -/
structure Rests (pseudonode : UInt8) (s t : LevelState) : Prop where
  level : t.level = s.level
  config : t.config = s.config
  rests : ∃ events, t.changelog = events ++ s.changelog ∧
    (s.AtRest pseudonode → t.AtRest pseudonode ∨
      ∃ event ∈ events, StartsOver s.level s.config pseudonode event)

theorem AtRest.congr (h : s.AtRest pseudonode) (hconfig : t.config = s.config)
    (hgenerators : t.generators = s.generators) (hdatabase : t.database = s.database) :
    t.AtRest pseudonode where
  idle := by
    rw [Pending, kept?, hgenerators]
    exact h.idle
  silent := by
    intro id hown hid
    rw [isOwn, hconfig] at hown
    rw [published?, hdatabase]
    exact h.silent hown hid

theorem AtRest.stilled (h : s.AtRest pseudonode) (hst : Stilled s t) : t.AtRest pseudonode where
  idle := by
    rw [Pending, kept?, hst.generators]
    exact h.idle
  silent := by
    intro id hown hid
    rw [isOwn_congr hst.surroundings] at hown
    by_contra hpublished
    exact hst.published hown hpublished (h.silent hown hid)

namespace Rests

theorem refl (pseudonode : UInt8) (s : LevelState) : Rests pseudonode s s :=
  ⟨rfl, rfl, [], rfl, .inl⟩

theorem trans (h : Rests pseudonode s t) (h' : Rests pseudonode t u) : Rests pseudonode s u := by
  obtain ⟨hlevel, hconfig, events, htold, hrests⟩ := h
  obtain ⟨hlevel', hconfig', events', htold', hrests'⟩ := h'
  refine ⟨hlevel'.trans hlevel, hconfig'.trans hconfig, events' ++ events, ?_, fun hs => ?_⟩
  · rw [htold', htold, List.append_assoc]
  · rw [hlevel, hconfig] at hrests'
    rcases hrests hs with ht | ⟨event, hevent, hover⟩
    · refine (hrests' ht).imp_right ?_
      rintro ⟨event, hevent, hover⟩
      exact ⟨event, List.mem_append_left _ hevent, hover⟩
    · exact .inr ⟨event, List.mem_append_right _ hevent, hover⟩

/-- What is done in steps is told; the own LSPs may just stay at rest. -/
theorem of_atRest (h : Sound heard s) (hsteps : Steps heard s t)
    (hrest : s.AtRest pseudonode → t.AtRest pseudonode) : Rests pseudonode s t := by
  obtain ⟨changes, -, htold⟩ := Steps.succession h hsteps
  exact ⟨hsteps.constant.1, hsteps.constant.2.1, _, htold, fun hs => .inl (hrest hs)⟩

end Rests

/-! ### Timers -/

theorem changelog_delete {entry : Entry} (hstored : s.database.get? id = some entry) :
    (s.delete id).changelog = (Change.deleted entry.lsp).event s.level :: s.changelog := by
  rw [← changelog_remove s id, ← changelog_change (s.remove id) s.level (.deleted entry.lsp)]
  simp only [delete, hstored]
  split
  · exact changelog_scheduleGeneration _ _ 0
  · rfl

/-- A generation is scheduled for one pseudonode only. -/
theorem kept?_scheduleGeneration (s : LevelState) {pseudonode other : UInt8}
    (hother : other ≠ pseudonode) (span : Nat) :
    (s.scheduleGeneration pseudonode span).kept? (.generate other) =
      s.kept? (.generate other) := by
  cases hkept : s.kept? (.generate pseudonode) with
  | some handle => rw [scheduleGeneration_pending span hkept]
  | none =>
      obtain ⟨trace, heq⟩ := scheduleGeneration_idle span hkept
      rw [heq, kept?, Table.get?_insert_of_ne _ _ hother]
      rfl

theorem kept?_delete {entry : Entry} (hstored : s.database.get? id = some entry)
    (hother : pseudonode ≠ id.pseudonode) :
    (s.delete id).kept? (.generate pseudonode) = s.kept? (.generate pseudonode) := by
  have hremoved : (s.remove id).kept? (.generate pseudonode) = s.kept? (.generate pseudonode) := by
    obtain ⟨trace, heq⟩ := remove_eq hstored
    rw [heq]
    rfl
  simp only [delete, hstored]
  split
  · rw [kept?_scheduleGeneration _ hother 0]
    exact hremoved
  · exact hremoved

/-- A purge that is deleted stays away, unless it had used up its sequence numbers. -/
theorem delete_rests (h : s.Orderly) {entry : Entry} (hstored : s.database.get? id = some entry)
    (hpurged : entry.isPurged = true) : Rests pseudonode s (s.delete id) := by
  have hsteps : Steps (fun _ => True) s (s.delete id) := delete_steps hstored (.inr hpurged)
  by_cases hover : s.isOwn id = true ∧ entry.lsp.seqno = 0xFFFFFFFF
  · obtain ⟨hown, hlast⟩ := hover
    refine ⟨hsteps.constant.1, hsteps.constant.2.1, [_], changelog_delete hstored, fun hs => ?_⟩
    by_cases hid : id.pseudonode = pseudonode
    · refine .inr ⟨_, List.mem_singleton_self _, entry.lsp, rfl, ?_, hlast⟩
      rw [h.sound.consistent.keys hstored, LspId.node, of_decide_eq_true hown, hid]
    · left
      have hspares := Spares.delete hstored
      constructor
      · rw [Pending, kept?_delete hstored fun heq => hid heq.symm]
        exact hs.idle
      · intro other hother hnode
        rw [isOwn_congr hspares.surroundings] at hother
        rw [published_congr (hspares.get? fun heq => hid (heq ▸ hnode))]
        exact hs.silent hother hnode
  · exact .of_atRest h.sound hsteps fun hs => hs.stilled (delete_stilled hstored hover)

theorem renewAll_spares (s : LevelState) (pseudonode : UInt8) :
    Spares (fun id => id.node = ⟨s.config.system, pseudonode⟩) s
      ((s.build pseudonode).foldl renew s) ∧
      ((s.build pseudonode).foldl renew s).generators = s.generators := by
  refine List.foldlRecOn (motive := fun t =>
    Spares (fun id => id.node = ⟨s.config.system, pseudonode⟩) s t ∧
      t.generators = s.generators) _ _ ⟨.refl _ s, rfl⟩ fun t ht lsp hmem => ?_
  have hnode := (built_of_mem hmem).node
  refine ⟨ht.1.trans ((renew_spares t lsp).mono fun _ hid => hid ▸ hnode), ?_⟩
  rw [← ht.2, renew]
  split
  · rfl
  · exact t.originate_generators lsp

/-- A generation concerns the LSPs of one node, and leaves the generators alone until it is
over. -/
theorem generate_eq (h : Sound heard s) (pseudonode : UInt8) :
    ∃ t, Spares (fun id => id.node = ⟨s.config.system, pseudonode⟩) s t ∧
      t.generators = s.generators ∧
      s.generate pseudonode =
        { t with
          generators := t.generators.modify pseudonode fun generator =>
            { generator with lastRun := some t.now } } := by
  have hrenew := s.renewAll_spares pseudonode
  have hsound := h.steps (renewAll_steps h fun lsp (hmem : lsp ∈ s.build pseudonode) =>
    isOwn_of_mem_build hmem)
  generalize hrenewed : (s.build pseudonode).foldl renew s = t at hrenew hsound
  set stale := (liveIds (t.database.ofNode ⟨t.config.system, pseudonode⟩)).filter fun id =>
    !(s.build pseudonode).any fun lsp => lsp.id = id with hstale
  have hsub : stale.Sublist (liveIds (t.database.ofNode ⟨t.config.system, pseudonode⟩)) :=
    List.filter_sublist
  have hpurge := purgeRange_stilled hsound.consistent _ _ hsub
  obtain ⟨-, hpurged, -⟩ := purgeNode_published hsound.consistent ⟨t.config.system, pseudonode⟩
    fun id => (s.build pseudonode).any fun lsp => lsp.id = id
  rw [← hstale, hrenew.1.config] at hpurged
  refine ⟨t.purgeAll stale .removed, hrenew.1.trans (hpurged.mono fun id hid => hid.1),
    hpurge.generators.trans hrenew.2, ?_⟩
  rw [generate, hrenewed]

/-- A generation concerns the LSPs of one node, and no other generation. -/
theorem generate_spares (h : Sound heard s) (pseudonode : UInt8) :
    Spares (fun id => id.node = ⟨s.config.system, pseudonode⟩) s (s.generate pseudonode) ∧
      ∀ other, (s.generate pseudonode).kept? (.generate other) = s.kept? (.generate other) := by
  obtain ⟨t, hspares, hgenerators, heq⟩ := generate_eq h pseudonode
  rw [heq]
  refine ⟨hspares.trans
    ((endGeneration_spares t pseudonode _).mono fun _ hid => hid.elim), fun other => ?_⟩
  rw [kept?, kept?, ← hgenerators, Table.get?_modify_eq_map]
  cases t.generators.get? other with
  | none => rfl
  | some generator => by_cases hother : other = pseudonode <;> simp [hother]

theorem generate_atRest (h : s.AtRest pseudonode) (hsound : Sound heard s) {other : UInt8}
    (hother : pseudonode ≠ other) : (s.generate other).AtRest pseudonode := by
  obtain ⟨hspares, hkept⟩ := generate_spares hsound other
  constructor
  · rw [Pending, hkept]
    exact h.idle
  · intro id hown hid
    rw [isOwn_congr hspares.surroundings] at hown
    rw [published_congr (hspares.get? fun hnode =>
      hother (hid.symm.trans (congrArg NodeId.pseudonode hnode)))]
    exact h.silent hown hid

theorem fireNext_rests (h : s.Orderly) (hfire : s.fireNext? = some t) :
    Rests pseudonode s t := by
  have hsteps := fireNext_steps h.sound hfire
  cases fireNext_fired h.sound.consistent hfire with
  | expired stored _ _ _ live =>
      exact .of_atRest h.sound hsteps fun hs =>
        hs.stilled (expire_stilled h.sound.consistent stored live)
  | deleted stored _ _ purged => exact delete_rests h stored purged
  | refreshed stored _ _ live _ =>
      refine .of_atRest h.sound hsteps fun hs => hs.stilled ?_
      refine (Stilled.tell s _).trans (originate_stilled fun _ => ?_)
      rw [← h.sound.consistent.keys stored] at stored
      exact published_ne_none stored live
  | @generated other handle kept due =>
      refine .of_atRest h.sound hsteps fun hs => ?_
      have hother : pseudonode ≠ other := by
        rintro rfl
        exact hs.idle (by simp [Pending, kept])
      have hbegin : Step (fun _ => True) s (s.disarmed (.generate other)) :=
        .beginGeneration kept due
      have hdisarmed : (s.disarmed (.generate other)).AtRest pseudonode := by
        refine ⟨?_, hs.silent⟩
        simp only [Pending, kept?, disarmed, Table.get?_modify, Key.rank_inj, hother, if_false]
        exact hs.idle
      exact generate_atRest hdisarmed (h.sound.step hbegin) hother

theorem fireUpTo_rests (h : s.Orderly) (fuel : Nat) : Rests pseudonode s (fireUpTo fuel s).2 := by
  induction fuel generalizing s with
  | zero => exact .refl pseudonode s
  | succ fuel ih =>
      rw [fireUpTo]
      split
      · exact .refl pseudonode s
      · rename_i next hnext
        exact (fireNext_rests h hnext).trans (ih (h.steps (fireNext_steps h.sound hnext)))

/-! ### Runs -/

/-- What may be asked of a level that makes no own LSPs known by itself: it advertises
nothing else, hears of no election, and hands in no LSP. -/
def Passive (s : LevelState) : Operation → Prop
  | .receiveLsp none _ | .receiveLspOctets none _ | .setElection _ _ | .setAdvertisement _
  | .stop => False
  | operation => s.Proper operation

theorem Passive.running {operation : Operation} (h : s.Passive operation) :
    s.Running (fun _ => True) operation := by
  cases operation with
  | receiveLsp circuit lsp =>
      cases circuit with
      | none => cases h
      | some circuit => exact ⟨trivial, trivial, nofun⟩
  | purgeLsp id => exact ⟨h, trivial, nofun⟩
  | stop => cases h
  | _ => exact ⟨trivial, trivial, nofun⟩

theorem addCircuit_atRest (h : s.AtRest pseudonode) (circuit : Circuit) :
    (s.addCircuit circuit).AtRest pseudonode := by
  have hadded : { s.tell (.circuitAdded circuit) with
      flooding := s.flooding.addCircuit circuit.id
      circuits := s.circuits.insert circuit.id circuit }.AtRest pseudonode := h.congr rfl rfl rfl
  exact hadded.stilled (stilled_follows.addCircuit s circuit)

/-- The purge of all own LSPs puts those of every pseudonode at rest. -/
theorem purgeOwn_atRest (h : s.Orderly) (pseudonode : UInt8) : s.purgeOwn.AtRest pseudonode := by
  have hcancel : Steps (fun _ => True) s (s.generators.keys.foldl cancelGeneration s) :=
    foldl_steps (fun _ _ _ => .single (.cancelGeneration _)) h.sound
  obtain ⟨generators, timers, heq, hpurge, hidle⟩ := s.purgeOwn_eq
  have hconsistent := (h.steps hcancel).sound.consistent
  rw [heq] at hconsistent
  obtain ⟨hstilled, -, hsilent, -⟩ := purgeAll_ofSystem hconsistent hpurge
  constructor
  · rw [Pending, kept?, hstilled.generators]
    exact hidle pseudonode
  · intro id hown _
    rw [isOwn_congr hstilled.surroundings] at hown
    exact hsilent id hown

/-- Own LSPs at rest stay so in whatever is asked of a passive level. -/
theorem perform_rests (h : s.Orderly) {operation : Operation} (hallowed : s.Passive operation)
    (pseudonode : UInt8) : Rests pseudonode s (s.perform operation) := by
  have hsteps := perform_steps h.sound (fun _ _ => trivial) hallowed.running
  cases operation with
  | receiveLsp circuit lsp =>
      cases circuit with
      | none => cases hallowed
      | some circuit =>
          exact .of_atRest h.sound hsteps fun hs =>
            hs.stilled (stilled_follows.receiveLsp h circuit lsp)
  | receiveLspOctets circuit octets =>
      cases circuit with
      | none => cases hallowed
      | some circuit =>
          exact .of_atRest h.sound hsteps fun hs =>
            hs.stilled (stilled_follows.receiveLspOctets h circuit octets)
  | receiveSnp circuit snp =>
      exact .of_atRest h.sound hsteps fun hs =>
        hs.stilled (stilled_follows.receiveSnp h circuit snp)
  | receiveSnpOctets circuit octets =>
      exact .of_atRest h.sound hsteps fun hs =>
        hs.stilled (stilled_follows.receiveSnpOctets h circuit octets)
  | addCircuit circuit => exact .of_atRest h.sound hsteps fun hs => addCircuit_atRest hs circuit
  | removeCircuit circuit => exact .of_atRest h.sound hsteps fun hs => hs.congr rfl rfl rfl
  | setElection => cases hallowed
  | setAdvertisement => cases hallowed
  | purgeOwn => exact .of_atRest h.sound hsteps fun _ => purgeOwn_atRest h pseudonode
  | purgeLsp id =>
      refine .of_atRest h.sound hsteps fun hs => hs.stilled ?_
      exact purgeLsp_stilled h.sound.consistent hallowed
  | fire most => exact fireUpTo_rests h most
  | page index =>
      obtain ⟨pages, trace, heq⟩ := s.page_state_eq index
      refine .of_atRest h.sound hsteps fun hs => ?_
      show (s.page index).2.AtRest pseudonode
      rw [heq]
      exact hs.congr rfl rfl rfl
  | advance span => exact .of_atRest h.sound hsteps fun hs => hs.congr rfl rfl rfl
  | stop => cases hallowed

/-- The own LSPs of a pseudonode that are at rest stay so for a whole run, unless they start
over. -/
theorem Run.rests (hrun : Run Passive s log t) (h : s.Orderly) (hs : s.AtRest pseudonode) :
    t.Orderly ∧ t.level = s.level ∧ t.config = s.config ∧
      (t.AtRest pseudonode ∨
        ∃ told ∈ log, StartsOver s.level s.config pseudonode told.2) := by
  induction hrun with
  | refl => exact ⟨h, rfl, rfl, .inl hs⟩
  | @perform log t operation _ hallowed ih =>
      obtain ⟨horderly, hlevel, hconfig, hrests⟩ := ih
      obtain ⟨hlevel', hconfig', events, htold, hnext⟩ :=
        perform_rests horderly hallowed pseudonode
      refine ⟨horderly.steps (perform_steps horderly.sound (fun _ _ => trivial) hallowed.running),
        hlevel'.trans hlevel, hconfig'.trans hconfig, ?_⟩
      rw [logOf_eq htold]
      rcases hrests with hrest | ⟨told, hmem, hover⟩
      · rcases hnext hrest with hrest | ⟨event, hmem, hover⟩
        · exact .inl hrest
        · rw [hlevel, hconfig] at hover
          exact .inr ⟨(t.now, event), List.mem_append_left _ (List.mem_map_of_mem hmem), hover⟩
      · exact .inr ⟨told, List.mem_append_right _ hmem, hover⟩

variable {level : Level} {config : Config} {now : Nat}

/-- Right after all own LSPs are purged in a reachable state, none is live, none is going to
be generated, and each that was purged is to be sent on all circuits.  In whatever run of a
passive level follows, a live own LSP implies that an own LSP of the same pseudonode was
deleted that had used up its sequence numbers. -/
theorem own_purge_lasts (h : Reachable Proper level config now s) :
    OwnPurged s s.purgeOwn ∧
      ∀ {log t}, Run Passive s.purgeOwn log t → ∀ {id entry}, t.isOwn id = true →
        t.database.get? id = some entry → entry.isLive = true →
          ∃ told ∈ log, StartsOver level config id.pseudonode told.2 := by
  have horderly : s.Orderly := ⟨h.sound, h.guarded⟩
  have hsteps : Steps (fun _ => True) s s.purgeOwn := purgeOwn_steps h.sound
  refine ⟨purgeOwn_ownPurged horderly h.flagged, fun hrun id entry hown hstored hlive => ?_⟩
  obtain ⟨-, hlevel, hconfig, hrests⟩ :=
    hrun.rests (horderly.steps hsteps) (purgeOwn_atRest horderly id.pseudonode)
  have hconstant : s.purgeOwn.level = level ∧ s.purgeOwn.config = config :=
    ⟨hsteps.constant.1.trans h.constant.1, hsteps.constant.2.1.trans h.constant.2.1⟩
  rw [hconstant.1, hconstant.2] at hrests
  refine hrests.resolve_left fun hrest => ?_
  exact published_ne_none hstored hlive (hrest.silent hown rfl)

/-- A level with a circuit that has not generated anything yet. -/
def attended : LevelState :=
  (start .one Config.default 0).perform (.addCircuit ⟨1, "eth1", .broadcast⟩)

theorem attended_reachable : Reachable Proper .one Config.default 0 attended :=
  Reachable.perform Reachable.start trivial

/-- A stray copy of its first fragment, with the greatest sequence number. -/
def stray : Lsp :=
  Lsp.make 0 .one 1200 ⟨SystemId.zero, 0, 0⟩ 0xFFFFFFFF .none .empty

/-- The level purges its own LSPs, hears the stray copy, and deletes the purge of it. -/
def revived : LevelState :=
  ((attended.purgeOwn.perform (.receiveLsp (some 1) stray)).perform (.advance 60000)).perform
    (.fire 2)

theorem revived_run : ∃ log, Run Passive attended.purgeOwn log revived :=
  ⟨_, .perform (.perform (.perform .refl trivial) trivial) trivial⟩

theorem revived_live : ∃ entry, revived.database.get? ⟨SystemId.zero, 0, 0⟩ = some entry ∧
    entry.isLive = true := by
  have hlive : (revived.database.get? ⟨SystemId.zero, 0, 0⟩).any Entry.isLive = true := by
    decide +kernel
  cases hstored : revived.database.get? ⟨SystemId.zero, 0, 0⟩ with
  | none =>
      rw [hstored] at hlive
      cases hlive
  | some entry =>
      rw [hstored] at hlive
      exact ⟨entry, rfl, hlive⟩

/-- The purge of the stray copy is deleted, by which the system starts over. -/
theorem own_purge_lasts_revived :
    OwnPurged attended attended.purgeOwn ∧ ∃ log, Run Passive attended.purgeOwn log revived ∧
      ∃ told ∈ log, StartsOver .one Config.default 0 told.2 := by
  obtain ⟨hpurged, hlasts⟩ := own_purge_lasts attended_reachable
  obtain ⟨log, hrun⟩ := revived_run
  obtain ⟨entry, hstored, hlive⟩ := revived_live
  exact ⟨hpurged, log, hrun, hlasts hrun (by decide +kernel) hstored hlive⟩

/-- A live own LSP can come back although nobody asked the level for one. -/
theorem own_purge_not_permanent :
    ∃ s log t, Reachable Proper .one Config.default 0 s ∧ Run Passive s.purgeOwn log t ∧
      ∃ id entry, t.isOwn id = true ∧ t.database.get? id = some entry ∧ entry.isLive = true := by
  obtain ⟨log, hrun⟩ := revived_run
  obtain ⟨entry, hstored, hlive⟩ := revived_live
  exact ⟨attended, log, revived, attended_reachable, hrun, _, entry, by decide +kernel, hstored,
    hlive⟩

end LinkState.LevelState
