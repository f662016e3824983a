import LinkState.Proofs.Agenda
import LinkState.Proofs.GenerationSpacing

/-!
# What does not depend on one LSP of another system

Two states mirror each other if they differ in what they hold of one LSP of another system
at most, and in the numbers of timers.  What timers set off about all that is mirrored comes
out the same in both states, in the same order.  What is done about that one LSP is not
seen in the mirror.
-/

namespace LinkState

/-- What a generator says: the time at which it is due, and the time of its last run. -/
def Generator.shape (generator : Generator) : Option Nat × Option Nat :=
  (generator.timer.map (·.due), generator.lastRun)

/-- A change that depends on what a generator says keeps two tables of generators alike. -/
theorem Generator.shapes_modify {generators generators' : Table UInt8 Generator}
    {f : Generator → Generator}
    (hchange : ∀ {generator generator' : Generator},
      generator'.shape = generator.shape → (f generator').shape = (f generator).shape)
    (h : ∀ pseudonode, (generators'.get? pseudonode).map Generator.shape =
      (generators.get? pseudonode).map Generator.shape) (pseudonode other : UInt8) :
    ((generators'.modify pseudonode f).get? other).map Generator.shape =
      ((generators.modify pseudonode f).get? other).map Generator.shape := by
  have hother := h other
  rw [Table.get?_modify_eq_map, Table.get?_modify_eq_map]
  cases hstored : generators.get? other with
  | none =>
      rw [hstored, Option.map_none, Option.map_eq_none_iff] at hother
      rw [hother, Option.map_none, Option.map_none]
  | some generator =>
      rw [hstored, Option.map_some] at hother
      obtain ⟨generator', hstored', hshape⟩ := Option.map_eq_some_iff.1 hother
      simp only [hstored', Option.map_some, Option.some.injEq]
      split
      · exact hchange hshape
      · exact hshape

theorem Flooding.removeLsp_local (id : LspId) :
    Flooding.Local id fun flooding => flooding.removeLsp id :=
  (Flooding.clearAll_local .srm id none).comp (Flooding.clearAll_local .ssn id none)

namespace LevelState

variable {s s' t t' u : LevelState} {x id : LspId} {lsp : Lsp}

def apartFrom (x : LspId) (event : TimerEvent) : Bool :=
  !event.concerns x

theorem apartFrom_apart (event : TimerEvent) (h : event.concerns x = true) :
    apartFrom x event = false := by
  rw [apartFrom, h]
  rfl

/-- Two states differ at most in what they hold of one LSP of another system, and in the
numbers of timers. -/
structure Mirrors (x : LspId) (s s' : LevelState) : Prop where
  consistent : s.Consistent
  consistent' : s'.Consistent
  foreign : s.isOwn x = false
  surroundings : s'.surroundings = s.surroundings
  others : ∀ id, id ≠ x → Alike id s s'
  generators : ∀ pseudonode, (s'.generators.get? pseudonode).map Generator.shape =
    (s.generators.get? pseudonode).map Generator.shape
  agenda : agenda (apartFrom x) s'.timers = agenda (apartFrom x) s.timers

/-- The same LSP is removed. -/
theorem Twins.remove (h : Alike id s s') {entry entry' : Entry}
    (hstored : s.database.get? id = some entry) (hstored' : s'.database.get? id = some entry') :
    Twins 0 id s (s.remove id) s' (s'.remove id) := by
  have hleaves : ∀ {s : LevelState} {entry : Entry}, s.database.get? id = some entry →
      Leaves id ⟨Counters.zero, true, [], none⟩ s (s.remove id) := by
    intro s entry hstored
    obtain ⟨trace, heq⟩ := remove_eq hstored
    rw [heq]
    exact
      { surroundings := rfl
        entries := fun other hne => Table.get?_erase_of_ne _ hne
        marks := fun circuit other hne =>
          (Flooding.removeLsp_confined s.flooding id).marks circuit other hne
        generators := rfl
        deferred := rfl
        counters := s.counters.plus_zero.symm
        pages := rfl
        log := rfl
        fault := rfl }
  refine ⟨?_, _, Nat.le_refl _, hleaves hstored, hleaves hstored'⟩
  obtain ⟨trace, heq⟩ := remove_eq hstored
  obtain ⟨trace', heq'⟩ := remove_eq hstored'
  rw [heq, heq']
  exact
    { surroundings := h.surroundings
      entry := by rw [Table.get?_erase_self, Table.get?_erase_self]
      marks := (Flooding.removeLsp_local id).congr h.marks
      deferred := h.deferred }

namespace Mirrors

theorem level (h : Mirrors x s s') : s'.level = s.level :=
  congrArg Surroundings.level h.surroundings

theorem config (h : Mirrors x s s') : s'.config = s.config :=
  congrArg Surroundings.config h.surroundings

theorem now (h : Mirrors x s s') : s'.now = s.now :=
  congrArg Surroundings.now h.surroundings

theorem isOwn (h : Mirrors x s s') (id : LspId) : s'.isOwn id = s.isOwn id := by
  rw [LevelState.isOwn, LevelState.isOwn, h.config]

theorem symm (h : Mirrors x s s') : Mirrors x s' s where
  consistent := h.consistent'
  consistent' := h.consistent
  foreign := (h.isOwn x).trans h.foreign
  surroundings := h.surroundings.symm
  others := fun id hne => (h.others id hne).symm
  generators := fun pseudonode => (h.generators pseudonode).symm
  agenda := h.agenda.symm

theorem trans (h : Mirrors x s t) (h' : Mirrors x t u) : Mirrors x s u where
  consistent := h.consistent
  consistent' := h'.consistent'
  foreign := h.foreign
  surroundings := h'.surroundings.trans h.surroundings
  others := fun id hne => (h.others id hne).trans (h'.others id hne)
  generators := fun pseudonode => (h'.generators pseudonode).trans (h.generators pseudonode)
  agenda := h'.agenda.trans h.agenda

theorem ne_of_own (h : Mirrors x s s') (hown : s.isOwn id = true) : id ≠ x := by
  rintro rfl
  rw [h.foreign] at hown
  cases hown

/-- Records of what happened are not mirrored. -/
theorem note (h : Mirrors x s s') (counters counters' : Counters) (pages pages' : List Page)
    (trace trace' : List Event) (fault fault' : Option Fault) :
    Mirrors x { s with counters := counters, pages := pages, trace := trace, fault := fault }
      { s' with counters := counters', pages := pages', trace := trace', fault := fault' } where
  consistent := h.consistent.congr rfl rfl rfl rfl
  consistent' := h.consistent'.congr rfl rfl rfl rfl
  foreign := h.foreign
  surroundings := h.surroundings
  others := fun id hne =>
    ⟨h.surroundings, (h.others id hne).entry, (h.others id hne).marks, (h.others id hne).deferred⟩
  generators := h.generators
  agenda := h.agenda

theorem tell (h : Mirrors x s s') (event event' : Event) :
    Mirrors x (s.tell event) (s'.tell event') :=
  h.note s.counters s'.counters s.pages s'.pages _ _ s.fault s'.fault

/-- What is done about one LSP alone is not seen in the mirror of the others. -/
theorem of_leaves {f : Footprint} (hs : s.Consistent) (ht : t.Consistent)
    (hforeign : s.isOwn x = false) (hleaves : Leaves x f s t)
    (hagenda : LevelState.agenda (apartFrom x) t.timers =
      LevelState.agenda (apartFrom x) s.timers) : Mirrors x s t where
  consistent := hs
  consistent' := ht
  foreign := hforeign
  surroundings := hleaves.surroundings
  others := fun _ hne => hleaves.alike hne
  generators := fun pseudonode => by rw [hleaves.generators]
  agenda := hagenda

/-- What is mirrored of an LSP is still mirrored once the same is done about it. -/
theorem of_twins {most : Nat} (h : Mirrors x s s') (hne : id ≠ x)
    (htwins : Twins most id s t s' t') (ht : t.Consistent) (ht' : t'.Consistent)
    (hagenda : LevelState.agenda (apartFrom x) t'.timers =
      LevelState.agenda (apartFrom x) t.timers) : Mirrors x t t' := by
  obtain ⟨halike, f, -, hleaves, hleaves'⟩ := htwins
  exact
    { consistent := ht
      consistent' := ht'
      foreign := ((hleaves.alike (Ne.symm hne)).isOwn x).trans h.foreign
      surroundings := by rw [hleaves'.surroundings, h.surroundings, hleaves.surroundings]
      others := fun other hother => by
        by_cases hid : other = id
        · exact hid ▸ halike
        · exact ((hleaves.alike hid).symm.trans (h.others other hother)).trans (hleaves'.alike hid)
      generators := fun pseudonode => by
        rw [hleaves'.generators, h.generators, hleaves.generators]
      agenda := hagenda }

/-! ### Purging and originating -/

theorem purge (h : Mirrors x s s') (hne : id ≠ x) (reason : PurgeReason) :
    Mirrors x (s.purge id reason) (s'.purge id reason) := by
  have halike := h.others id hne
  cases hstored : s.database.get? id with
  | none =>
      simp only [LevelState.purge, hstored, halike.absent hstored]
      exact h
  | some entry =>
      obtain ⟨entry', hstored', hshape⟩ := halike.stored hstored
      have hpurged := Entry.isPurged_congr hshape
      cases hlive : entry.isPurged with
      | true =>
          simp only [LevelState.purge, hstored, hstored', hpurged, hlive, Bool.or_true, if_true]
          exact h.note s.counters s'.counters s.pages s'.pages s.trace s'.trace _ _
      | false =>
          rw [hlive] at hpurged
          have hstep : Step (fun _ => True) s (s.purge id reason) :=
            purge_step h.consistent reason hstored hlive
          have hstep' : Step (fun _ => True) s' (s'.purge id reason) :=
            purge_step h.consistent' reason hstored' hpurged
          have hinstalls := purge_installs reason hstored hlive
            (zeroAgeTimer_of_live h.consistent hstored hlive)
          have hinstalls' := purge_installs reason hstored' hpurged
            (zeroAgeTimer_of_live h.consistent' hstored' hpurged)
          rw [halike.purgeOf, Entry.lsp_congr hshape, Entry.received_congr hshape] at hinstalls'
          exact h.of_twins hne (Twins.purge h.consistent h.consistent' halike reason hstored hlive)
            (h.consistent.step hstep) (h.consistent'.step hstep')
            (hinstalls.agenda_congr h.consistent.timers h.consistent'.timers h.now h.config
              h.agenda hinstalls')

theorem forcePurge (h : Mirrors x s s') (hown : s.isOwn lsp.id = true) (reason : PurgeReason) :
    Mirrors x (s.forcePurge lsp reason) (s'.forcePurge lsp reason) := by
  have hne := h.ne_of_own hown
  have halike := h.others lsp.id hne
  have hpurge : s'.forcedPurge lsp = s.forcedPurge lsp := by
    rw [forcedPurge, forcedPurge, h.now, h.level, halike.storedSeqno, halike.purgeOriginator]
  have hstep : Step (fun _ => True) s (s.forcePurge lsp reason) := .forcePurge reason hown
  have hstep' : Step (fun _ => True) s' (s'.forcePurge lsp reason) :=
    .forcePurge reason ((h.isOwn lsp.id).trans hown)
  have hinstalls' := s'.forcePurge_installs lsp reason
  rw [hpurge] at hinstalls'
  exact h.of_twins hne (Twins.forcePurge halike reason) (h.consistent.step hstep)
    (h.consistent'.step hstep')
    ((s.forcePurge_installs lsp reason).agenda_congr h.consistent.timers h.consistent'.timers h.now
      h.config h.agenda hinstalls')

theorem originate (h : Mirrors x s s') (hown : s.isOwn lsp.id = true) :
    Mirrors x (s.originate lsp) (s'.originate lsp) := by
  have hne := h.ne_of_own hown
  have halike := h.others lsp.id hne
  cases hnext : nextSeqno? (max lsp.seqno (s.storedSeqno lsp.id)) with
  | some seqno =>
      have hnext' : nextSeqno? (max lsp.seqno (s'.storedSeqno lsp.id)) = some seqno := by
        rw [halike.storedSeqno, hnext]
      have hfresh : s'.freshInstance lsp seqno = s.freshInstance lsp seqno := by
        rw [freshInstance, freshInstance, h.now, h.level, h.config]
      have hstep : Step (fun _ => True) s (s.originate lsp) := .originate hown hnext
      have hstep' : Step (fun _ => True) s' (s'.originate lsp) :=
        .originate ((h.isOwn lsp.id).trans hown) hnext'
      have hinstalls' := originate_installs hnext'
      rw [hfresh] at hinstalls'
      exact h.of_twins hne (Twins.originate lsp halike) (h.consistent.step hstep)
        (h.consistent'.step hstep')
        ((originate_installs hnext).agenda_congr h.consistent.timers h.consistent'.timers h.now
          h.config h.agenda hinstalls')
  | none =>
      have hnext' : nextSeqno? (max lsp.seqno (s'.storedSeqno lsp.id)) = none := by
        rw [halike.storedSeqno, hnext]
      obtain ⟨counters, trace, heq⟩ := originate_exhausted hnext
      obtain ⟨counters', trace', heq'⟩ := originate_exhausted hnext'
      have hnoted := h.note counters counters' s.pages s'.pages trace trace' s.fault s'.fault
      rw [heq, heq', halike.map_stored fun hshape => by rw [Entry.isPurged_congr hshape]]
      split
      · exact hnoted.forcePurge hown .maxSeqno
      · exact hnoted

/-! ### Generators -/

theorem pending (h : Mirrors x s s') (pseudonode : UInt8) :
    (s'.kept? (.generate pseudonode)).map (·.due) =
      (s.kept? (.generate pseudonode)).map (·.due) := by
  have hread : ∀ s : LevelState, (s.kept? (.generate pseudonode)).map (·.due) =
      ((s.generators.get? pseudonode).map Generator.shape).bind Prod.fst := fun s => by
    rw [kept?]
    cases s.generators.get? pseudonode <;> rfl
  rw [hread, hread, h.generators]

theorem lastRun (h : Mirrors x s s') (pseudonode : UInt8) :
    s'.lastRun? pseudonode = s.lastRun? pseudonode := by
  have hread : ∀ s : LevelState, s.lastRun? pseudonode =
      ((s.generators.get? pseudonode).map Generator.shape).bind Prod.snd := fun s => by
    rw [lastRun?]
    cases s.generators.get? pseudonode <;> rfl
  rw [hread, hread, h.generators]

theorem generationSpan (h : Mirrors x s s') (pseudonode : UInt8) (span : Nat) :
    s'.generationSpan (s'.createGenerator pseudonode).1 span =
      s.generationSpan (s.createGenerator pseudonode).1 span := by
  rw [LevelState.generationSpan, LevelState.generationSpan, createGenerator_lastRun,
    createGenerator_lastRun, h.lastRun, h.config, h.now]

theorem scheduleGeneration (h : Mirrors x s s') (pseudonode : UInt8) (span : Nat) :
    Mirrors x (s.scheduleGeneration pseudonode span) (s'.scheduleGeneration pseudonode span) := by
  have hconsistent := h.consistent.scheduleGeneration pseudonode span
  have hconsistent' := h.consistent'.scheduleGeneration pseudonode span
  have hpending := h.pending pseudonode
  cases hkept : s.kept? (.generate pseudonode) with
  | some handle =>
      rw [hkept] at hpending
      obtain ⟨handle', hkept', -⟩ := Option.map_eq_some_iff.1 hpending
      rw [scheduleGeneration_pending span hkept, scheduleGeneration_pending span hkept']
      exact h
  | none =>
      rw [hkept] at hpending
      have hkept' := Option.map_eq_none_iff.1 hpending
      obtain ⟨trace, heq⟩ := scheduleGeneration_idle span hkept
      obtain ⟨trace', heq'⟩ := scheduleGeneration_idle span hkept'
      rw [heq] at hconsistent ⊢
      rw [heq'] at hconsistent' ⊢
      refine ⟨hconsistent, hconsistent', h.foreign, h.surroundings, fun id hne =>
        ⟨h.surroundings, (h.others id hne).entry, (h.others id hne).marks,
          (h.others id hne).deferred⟩, fun other => ?_, ?_⟩
      · by_cases hother : other = pseudonode
        · subst hother
          simp only [Table.get?_insert_self, Option.map_some, Generator.shape,
            TimerQueue.schedule, h.generationSpan, h.now, createGenerator_lastRun, h.lastRun]
        · rw [Table.get?_insert_of_ne _ _ hother, Table.get?_insert_of_ne _ _ hother]
          exact h.generators other
      · rw [h.generationSpan, h.now]
        exact agenda_schedule_congr h.agenda _ _ _

/-! ### Deleting -/

theorem remove (h : Mirrors x s s') (hne : id ≠ x) : Mirrors x (s.remove id) (s'.remove id) := by
  have halike := h.others id hne
  cases hstored : s.database.get? id with
  | none =>
      have hremove : ∀ {s : LevelState}, s.database.get? id = none →
          ∃ trace, s.remove id =
            { s with pages := Page.keepBefore s.pages id, trace := trace } := by
        intro s hstored
        obtain ⟨trace, hdiscard⟩ := s.discardPages_eq id
        refine ⟨trace, ?_⟩
        simp only [LevelState.remove, hdiscard, hstored]
      obtain ⟨trace, heq⟩ := hremove hstored
      obtain ⟨trace', heq'⟩ := hremove (halike.absent hstored)
      rw [heq, heq']
      exact h.note s.counters s'.counters _ _ trace trace' s.fault s'.fault
  | some entry =>
      obtain ⟨entry', hstored', -⟩ := halike.stored hstored
      refine h.of_twins hne (Twins.remove halike hstored hstored') (h.consistent.remove hstored)
        (h.consistent'.remove hstored') ?_
      obtain ⟨trace, heq⟩ := remove_eq hstored
      obtain ⟨trace', heq'⟩ := remove_eq hstored'
      rw [heq, heq']
      show LevelState.agenda _ (s'.timersWithout id) = LevelState.agenda _ (s.timersWithout id)
      rw [agenda_timersWithout h.consistent.timers, agenda_timersWithout h.consistent'.timers,
        h.agenda]

theorem delete (h : Mirrors x s s') (hne : id ≠ x) : Mirrors x (s.delete id) (s'.delete id) := by
  have halike := h.others id hne
  have hremoved := h.remove hne
  cases hstored : s.database.get? id with
  | none =>
      simp only [LevelState.delete, hstored, halike.absent hstored]
      exact hremoved
  | some entry =>
      obtain ⟨entry', hstored', hshape⟩ := halike.stored hstored
      have htold := hremoved.tell (.lspChanged .deleted s.level entry.lsp.mention)
        (.lspChanged .deleted s'.level entry'.lsp.mention)
      rw [Entry.lsp_congr hshape] at htold
      have hown := htold.isOwn id
      simp only [LevelState.delete, hstored, hstored', Entry.lsp_congr hshape]
      rw [hown]
      split
      · exact htold.scheduleGeneration id.pseudonode 0
      · exact htold

theorem expire (h : Mirrors x s s') (hne : id ≠ x) : Mirrors x (s.expire id) (s'.expire id) := by
  have halike := h.others id hne
  cases hstored : s.database.get? id with
  | none =>
      simp only [LevelState.expire, hstored, halike.absent hstored]
      exact h
  | some entry =>
      obtain ⟨entry', hstored', hshape⟩ := halike.stored hstored
      simp only [LevelState.expire, hstored, hstored', Entry.isPlaceholder_congr hshape]
      split
      · exact h.delete hne
      · exact h.purge hne .expired

/-! ### Generating -/

theorem published (h : Mirrors x s s') (hne : id ≠ x) : s'.published? id = s.published? id := by
  have hread : ∀ s : LevelState, s.published? id =
      ((s.database.get? id).map Entry.shape).bind fun shape =>
        if !shape.lsp.isExpired && shape.lsp.seqno ≠ 0 then some shape.lsp.body else none := by
    intro s
    cases hstored : s.database.get? id with
    | none => simp [published?, hstored]
    | some entry =>
        simp [published?, hstored, Option.filter_some, Entry.isLive, Entry.isPurged,
          Entry.isPlaceholder, Entry.shape, apply_ite (Option.map _)]
  rw [hread, hread, (h.others id hne).entry]

theorem publishedBy (h : Mirrors x s s') (pseudonode : UInt8) :
    s'.publishedBy ⟨s.config.system, pseudonode⟩ = s.publishedBy ⟨s.config.system, pseudonode⟩ := by
  refine Table.eq_of_sorted (publishedBy_sorted h.consistent' _) (publishedBy_sorted h.consistent _)
    fun ⟨id, body⟩ => ?_
  rw [mem_publishedBy h.consistent', mem_publishedBy h.consistent]
  refine and_congr_right fun hnode => ?_
  rw [h.published (h.ne_of_own (decide_eq_true (congrArg NodeId.system hnode)))]

/-- Fragments are built from what is mirrored. -/
theorem build (h : Mirrors x s s') (pseudonode : UInt8) :
    s'.build pseudonode = s.build pseudonode := by
  have helections : s'.elections = s.elections := congrArg Surroundings.elections h.surroundings
  have hadvertised : s'.advertised = s.advertised :=
    congrArg Surroundings.advertised h.surroundings
  have hfragment : s'.buildFragment pseudonode = s.buildFragment pseudonode := by
    funext tlvs index
    have hown : s.isOwn ⟨s.config.system, pseudonode, UInt8.ofNat index⟩ = true := by
      simp [LevelState.isOwn]
    simp only [buildFragment, ownFlags, h.now, h.level, h.config, hadvertised,
      (h.others _ (h.ne_of_own hown)).storedSeqno]
  simp only [LevelState.build, ownTlvs?, fragmentRoom, h.level, h.config, helections, hadvertised,
    hfragment]

theorem renew (h : Mirrors x s s') (hown : s.isOwn lsp.id = true) :
    Mirrors x (s.renew lsp) (s'.renew lsp) := by
  have hcurrent : s'.isCurrent lsp = s.isCurrent lsp := by
    have hread : ∀ s : LevelState, s.isCurrent lsp =
        ((s.database.get? lsp.id).map fun entry => !entry.isPurged && entry.lsp.flags = lsp.flags &&
          entry.lsp.tlvs = lsp.tlvs).getD false := fun s => by
      rw [isCurrent]
      cases s.database.get? lsp.id <;> rfl
    rw [hread, hread, (h.others _ (h.ne_of_own hown)).map_stored fun hshape => by
      rw [Entry.isPurged_congr hshape, Entry.lsp_congr hshape]]
  rw [LevelState.renew, LevelState.renew, hcurrent]
  split
  · exact h
  · exact h.originate hown

theorem renewAll (h : Mirrors x s s') {lsps : List Lsp}
    (hown : ∀ lsp ∈ lsps, s.isOwn lsp.id = true) :
    Mirrors x (lsps.foldl LevelState.renew s) (lsps.foldl LevelState.renew s') := by
  induction lsps generalizing s s' with
  | nil => exact h
  | cons first rest ih =>
      refine ih (h.renew (hown first List.mem_cons_self)) fun lsp hmem => ?_
      rw [isOwn_congr (renew_spares s first).surroundings]
      exact hown lsp (List.mem_cons_of_mem _ hmem)

theorem purgeAll (h : Mirrors x s s') {ids : List LspId} (hne : ∀ id ∈ ids, id ≠ x)
    (reason : PurgeReason) : Mirrors x (s.purgeAll ids reason) (s'.purgeAll ids reason) := by
  induction ids generalizing s s' with
  | nil => exact h
  | cons first rest ih =>
      exact ih (h.purge (hne first List.mem_cons_self) reason) fun id hmem =>
        hne id (List.mem_cons_of_mem _ hmem)

theorem beginGeneration (h : Mirrors x s s') (pseudonode : UInt8) :
    Mirrors x (s.disarmed (.generate pseudonode)) (s'.disarmed (.generate pseudonode)) where
  consistent := h.consistent.beginGeneration pseudonode
  consistent' := h.consistent'.beginGeneration pseudonode
  foreign := h.foreign
  surroundings := h.surroundings
  others := fun id hne =>
    ⟨h.surroundings, (h.others id hne).entry, (h.others id hne).marks, (h.others id hne).deferred⟩
  generators := by
    refine Generator.shapes_modify (fun hshape => ?_) h.generators pseudonode
    have hlastRun := congrArg Prod.snd hshape
    exact Prod.ext rfl hlastRun
  agenda := by
    show LevelState.agenda _ (s'.timers.release (s'.kept? (.generate pseudonode))) =
      LevelState.agenda _ (s.timers.release (s.kept? (.generate pseudonode)))
    rw [agenda_release h.consistent.timers, agenda_release h.consistent'.timers, h.agenda]

theorem endGeneration (h : Mirrors x s s') (pseudonode : UInt8) (lastRun : Option Nat) :
    Mirrors x
      { s with
        generators := s.generators.modify pseudonode fun generator =>
          { generator with lastRun := lastRun } }
      { s' with
        generators := s'.generators.modify pseudonode fun generator =>
          { generator with lastRun := lastRun } } where
  consistent := h.consistent.endGeneration pseudonode lastRun
  consistent' := h.consistent'.endGeneration pseudonode lastRun
  foreign := h.foreign
  surroundings := h.surroundings
  others := fun id hne =>
    ⟨h.surroundings, (h.others id hne).entry, (h.others id hne).marks, (h.others id hne).deferred⟩
  generators := by
    refine Generator.shapes_modify (fun hshape => ?_) h.generators pseudonode
    have hdue := congrArg Prod.fst hshape
    exact Prod.ext hdue rfl
  agenda := h.agenda

/-- A whole generation is mirrored. -/
theorem generate (h : Mirrors x s s') (pseudonode : UInt8) :
    Mirrors x (s.generate pseudonode) (s'.generate pseudonode) := by
  have hrenewed := h.renewAll fun lsp (hmem : lsp ∈ s.build pseudonode) => isOwn_of_mem_build hmem
  unfold LevelState.generate
  dsimp only
  rw [h.build]
  generalize hlsps : s.build pseudonode = lsps at hrenewed ⊢
  generalize lsps.foldl LevelState.renew s = t at hrenewed ⊢
  generalize lsps.foldl LevelState.renew s' = t' at hrenewed ⊢
  rw [hrenewed.config, liveIds_ofNode, liveIds_ofNode, hrenewed.publishedBy]
  set stale := ((t.publishedBy ⟨t.config.system, pseudonode⟩).map (·.1)).filter fun id =>
    !lsps.any fun lsp => lsp.id = id
  have hstale : ∀ id ∈ stale, id ≠ x := by
    intro id hid
    obtain ⟨⟨id, body⟩, hmem, rfl⟩ := List.mem_map.1 (List.mem_filter.1 hid).1
    have hnode := ((mem_publishedBy hrenewed.consistent).1 hmem).1
    exact hrenewed.ne_of_own (decide_eq_true (congrArg NodeId.system hnode))
  have hpurged := hrenewed.purgeAll hstale .removed
  have hended := hpurged.endGeneration pseudonode (some (t.purgeAll stale .removed).now)
  rw [hpurged.now] at hended ⊢
  exact hended

end Mirrors

end LevelState

end LinkState
