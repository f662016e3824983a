import LinkState.Proofs.Clock
import LinkState.Proofs.TimerAccounting

/-!
# Processing timers comes to an end

A timer that fires may start others that are due at once: a purge that is kept for no
time is deleted, and the deletion may set off a generation.  What can still follow is
bounded by the sequence numbers that are left behind and by the timers that are due.
Every timer that fires lowers this potential, unless own LSPs live for one second only,
and so all due timers are processed in the end.
-/

namespace LinkState

def isDue (now : Nat) (timer : Option Handle) : Bool :=
  timer.any fun handle => handle.due ≤ now

theorem isDue_eq_true {now : Nat} {handle : Handle} (h : handle.due ≤ now) :
    isDue now (some handle) = true := by
  simp [isDue, h]

/-! ### Potentials -/

/-- What an entry may still set off.  Its deletion makes up for a generation by the
sequence number alone, which must have been used up. -/
def Entry.potential (now : Nat) (entry : Entry) : Nat :=
  entry.lsp.seqno.toNat +
    if entry.isPurged then if isDue now entry.zeroAgeTimer then 1 else 0
    else if isDue now entry.lifeTimer || isDue now entry.refreshTimer then 3 else 1

/-- What a generator may set off: two for each fragment, and one for the run. -/
def Generator.potential (now : Nat) (generator : Generator) : Nat :=
  if isDue now generator.timer then 2 * LevelState.maxFragments + 1 else 0

namespace Entry

variable {entry : Entry}

theorem potential_le_of_purged (now : Nat) (h : entry.isPurged = true) :
    entry.potential now ≤ entry.lsp.seqno.toNat + 1 := by
  rw [potential, if_pos h]
  split <;> omega

theorem le_potential_of_live (now : Nat) (h : entry.isPurged = false) :
    entry.lsp.seqno.toNat + 1 ≤ entry.potential now := by
  simp only [potential, h, Bool.false_eq_true, if_false]
  split <;> omega

theorem le_potential (now : Nat) (entry : Entry) :
    entry.lsp.seqno.toNat ≤ entry.potential now :=
  Nat.le_add_right _ _

theorem potential_of_due {now : Nat} (h : entry.isPurged = false)
    (hdue : isDue now entry.lifeTimer = true ∨ isDue now entry.refreshTimer = true) :
    entry.potential now = entry.lsp.seqno.toNat + 3 := by
  have hany : (isDue now entry.lifeTimer || isDue now entry.refreshTimer) = true := by
    simpa using hdue
  rw [potential, h, if_neg Bool.false_ne_true, if_pos hany]

theorem potential_le (now : Nat) (entry : Entry) :
    entry.potential now ≤ entry.lsp.seqno.toNat + 3 := by
  rw [potential]
  split_ifs <;> omega

end Entry

namespace LevelState

variable {heard : Lsp → Prop} {s t : LevelState} {id : LspId} {lsp : Lsp} {pseudonode : UInt8}

/-- What the timers that are due may set off, and those that they start. -/
def potential (s : LevelState) : Nat :=
  s.database.total (Entry.potential s.now) + s.generators.total (Generator.potential s.now)

def potentialOf (s : LevelState) (id : LspId) : Nat :=
  ((s.database.get? id).map (Entry.potential s.now)).getD 0

theorem potentialOf_stored {entry : Entry} (h : s.database.get? id = some entry) :
    s.potentialOf id = entry.potential s.now := by
  rw [potentialOf, h]
  rfl

theorem potential_congr (hnow : t.now = s.now) (hdatabase : t.database = s.database)
    (hgenerators : t.generators = s.generators) : t.potential = s.potential := by
  rw [potential, potential, hnow, hdatabase, hgenerators]

/-! ### Installing and removing -/

theorem total_erase (s : LevelState) (id : LspId) :
    s.database.total (Entry.potential s.now) =
      s.potentialOf id + (s.database.erase id).total (Entry.potential s.now) := by
  cases hstored : s.database.get? id with
  | none =>
      rw [potentialOf, hstored, Table.erase_of_get?_eq_none hstored]
      exact (Nat.zero_add _).symm
  | some entry => rw [potentialOf_stored hstored, Table.total_eq_erase hstored]

/-- An installation exchanges the potential of one entry. -/
theorem Installs.potential {received : Bool} {flooding : Flooding}
    (h : Installs s lsp received flooding t) :
    t.potential + s.potentialOf lsp.id =
      s.potential + (s.armed lsp received).1.potential s.now := by
  obtain ⟨counters, history, number, trace, rfl⟩ := h
  have htotal := s.total_erase lsp.id
  simp only [LevelState.potential, Table.total_insert]
  omega

theorem remove_potential {entry : Entry} (h : s.database.get? id = some entry) :
    (s.remove id).potential + entry.potential s.now = s.potential := by
  have htotal := s.total_erase id
  rw [potentialOf_stored h] at htotal
  obtain ⟨trace, heq⟩ := remove_eq h
  simp only [heq, LevelState.potential]
  omega

/-- A purge that was just installed may be due at once. -/
theorem armed_potential_of_expired (received : Bool) (h : lsp.isExpired = true) :
    (s.armed lsp received).1.potential s.now ≤ lsp.seqno.toNat + 1 := by
  have hlsp := s.armed_lsp lsp received
  have hpurged : (s.armed lsp received).1.isPurged = true := by
    rw [Entry.isPurged, hlsp]
    exact h
  have hle := Entry.potential_le_of_purged s.now hpurged
  rwa [hlsp] at hle

/-- Neither the life nor the refresh of a new instance is due at once. -/
theorem freshInstance_potential (lsp : Lsp) {seqno : UInt32} (hlifetime : s.config.lifetime ≠ 1)
    (hseqno : seqno ≠ 0) :
    (s.armed (s.freshInstance lsp seqno) false).1.potential s.now ≤ seqno.toNat + 1 := by
  have hsame : (s.freshInstance lsp seqno).lifetime = s.config.lifetime := rfl
  cases hexpired : (s.freshInstance lsp seqno).isExpired with
  | true => exact armed_potential_of_expired false hexpired
  | false =>
      have htwo : 2 ≤ s.config.lifetime.toNat := by
        have hzero : s.config.lifetime.toNat ≠ 0 := fun hzero => by
          have : s.config.lifetime = 0 := UInt16.toNat_inj.1 hzero
          simp [Lsp.isExpired, hsame, this] at hexpired
        have hone : s.config.lifetime.toNat ≠ 1 := fun hone => hlifetime (UInt16.toNat_inj.1 hone)
        omega
      have hlife : isDue s.now (s.armed (s.freshInstance lsp seqno) false).1.lifeTimer = false := by
        cases htimer : (s.armed (s.freshInstance lsp seqno) false).1.lifeTimer with
        | none => rfl
        | some life =>
            have hdue := armed_life htimer
            rw [lifeSeconds, if_neg (show (s.freshInstance lsp seqno).seqno ≠ 0 from hseqno),
              hsame, seconds] at hdue
            simp only [isDue, Option.any_some, decide_eq_false_iff_not]
            omega
      have hrefresh : isDue s.now (s.armed (s.freshInstance lsp seqno) false).1.refreshTimer =
          false := by
        cases htimer : (s.armed (s.freshInstance lsp seqno) false).1.refreshTimer with
        | none => rfl
        | some refresh =>
            have hdue := armed_refresh htimer
            rw [Config.refreshSeconds, seconds] at hdue
            simp only [isDue, Option.any_some, decide_eq_false_iff_not]
            omega
      have hlsp := s.armed_lsp (s.freshInstance lsp seqno) false
      rw [Entry.potential, Entry.isPurged, hlife, hrefresh, hlsp, hexpired]
      exact Nat.le_refl _

/-! ### Purging, deleting and originating -/

/-- A purge does not raise the potential, and lowers it if the life of the entry is
over. -/
theorem purge_potential (h : s.Consistent) {entry : Entry} (reason : PurgeReason)
    (hstored : s.database.get? id = some entry) (hlive : entry.isPurged = false) :
    (s.purge id reason).potential + entry.potential s.now ≤
      s.potential + (entry.lsp.seqno.toNat + 1) := by
  have hinstalls :=
    purge_installs reason hstored hlive (zeroAgeTimer_of_live h hstored hlive)
  have hnew : (s.armed (s.purgeOf entry.lsp) entry.received).1.potential s.now ≤
      entry.lsp.seqno.toNat + 1 := armed_potential_of_expired entry.received rfl
  have hid : (s.purgeOf entry.lsp).id = id := h.keys hstored
  have hexchange := hinstalls.potential
  rw [hid, potentialOf_stored hstored] at hexchange
  omega

/-- A run that comes to be scheduled may set off two for each fragment, and one for itself. -/
theorem scheduleGeneration_potential (s : LevelState) (pseudonode : UInt8) (span : Nat) :
    (s.scheduleGeneration pseudonode span).potential ≤
      s.potential + (2 * maxFragments + 1) := by
  cases hkept : s.kept? (.generate pseudonode) with
  | some handle =>
      rw [scheduleGeneration_pending span hkept]
      exact Nat.le_add_right _ _
  | none =>
      obtain ⟨trace, heq⟩ := scheduleGeneration_idle span hkept
      have hnew : ∀ generator : Generator, generator.potential s.now ≤ 2 * maxFragments + 1 := by
        intro generator
        rw [Generator.potential]
        split <;> omega
      have hothers : (s.generators.erase pseudonode).total (Generator.potential s.now) ≤
          s.generators.total (Generator.potential s.now) := by
        cases hstored : s.generators.get? pseudonode with
        | none => exact Nat.le_of_eq (by rw [Table.erase_of_get?_eq_none hstored])
        | some generator =>
            rw [Table.total_eq_erase hstored]
            exact Nat.le_add_left _ _
      simp only [heq, potential, Table.total_insert]
      have := hnew ⟨some (s.timers.schedule s.now
            (s.generationSpan (s.createGenerator pseudonode).1 span) (.generate pseudonode)).1,
            (s.createGenerator pseudonode).1.lastRun⟩
      omega

/-- A deletion lowers the potential: if it sets off a generation, the sequence numbers of
the LSP were used up. -/
theorem delete_potential {entry : Entry} (hstored : s.database.get? id = some entry)
    (hpos : 0 < entry.potential s.now) : (s.delete id).potential < s.potential := by
  have hremove := remove_potential hstored
  simp only [delete, hstored]
  split
  · rename_i hrestart
    have hlast : entry.lsp.seqno = 0xFFFFFFFF := by
      simp only [Bool.and_eq_true, decide_eq_true_eq] at hrestart
      exact hrestart.2
    have hle := entry.le_potential s.now
    rw [hlast] at hle
    have hlarge : (0xFFFFFFFF : UInt32).toNat = 0xFFFFFFFF := rfl
    have hfragments : maxFragments = 256 := rfl
    have hschedule := scheduleGeneration_potential
      ((s.remove id).tell (.lspChanged .deleted s.level entry.lsp.mention)) id.pseudonode 0
    have htell : ((s.remove id).tell (.lspChanged .deleted s.level entry.lsp.mention)).potential =
        (s.remove id).potential := rfl
    omega
  · show (s.remove id).potential < s.potential
    omega

/-- The purge that ends the sequence numbers of an LSP is no more than due at once. -/
theorem forcePurge_potential (reason : PurgeReason) (hseqno : lsp.seqno = s.storedSeqno lsp.id) :
    (s.forcePurge lsp reason).potential + s.potentialOf lsp.id ≤
      s.potential + ((s.storedSeqno lsp.id).toNat + 1) := by
  have hexchange := (s.forcePurge_installs lsp reason).potential
  have hnew : (s.armed (s.forcedPurge lsp) false).1.potential s.now ≤
      (s.forcedPurge lsp).seqno.toNat + 1 := armed_potential_of_expired false rfl
  have hsame : (s.forcedPurge lsp).seqno = s.storedSeqno lsp.id := by
    show max (s.storedSeqno lsp.id) lsp.seqno = s.storedSeqno lsp.id
    rw [hseqno, max_of_le (UInt32.le_refl _)]
  rw [hsame] at hnew
  rw [show (s.forcedPurge lsp).id = lsp.id from rfl] at hexchange
  omega

/-- A new instance raises the sequence number by one, and a purge that is due at once may
count as one more. -/
theorem originate_potential (hlifetime : s.config.lifetime ≠ 1)
    (hseqno : lsp.seqno = s.storedSeqno lsp.id) :
    (s.originate lsp).potential + s.potentialOf lsp.id ≤
      s.potential + ((s.storedSeqno lsp.id).toNat + 2) := by
  cases hnext : nextSeqno? (max lsp.seqno (s.storedSeqno lsp.id)) with
  | some seqno =>
      have hnat := toNat_nextSeqno hnext
      have hnonzero : seqno ≠ 0 := fun hzero => by
        rw [hzero] at hnat
        cases hnat
      have hexchange := (originate_installs hnext).potential
      have hnew := s.freshInstance_potential lsp hlifetime hnonzero
      rw [show (s.freshInstance lsp seqno).id = lsp.id from rfl] at hexchange
      rw [hseqno, max_of_le (UInt32.le_refl _)] at hnat
      omega
  | none =>
      obtain ⟨counters, trace, heq⟩ := originate_exhausted hnext
      rw [heq]
      split
      · have hforced := @forcePurge_potential { s with counters := counters, trace := trace } lsp
          .maxSeqno hseqno
        exact Nat.le_trans hforced (Nat.le_succ _)
      · rename_i hnotlive
        -- Nothing is stored, or a purge.
        have hle : s.potentialOf lsp.id ≤ (s.storedSeqno lsp.id).toNat + 1 := by
          cases hstored : s.database.get? lsp.id with
          | none =>
              rw [potentialOf, hstored]
              exact Nat.zero_le _
          | some entry =>
              have hpurged : entry.isPurged = true := by simpa [hstored] using hnotlive
              rw [potentialOf_stored hstored, storedSeqno_of_stored hstored]
              exact Entry.potential_le_of_purged s.now hpurged
        show s.potential + s.potentialOf lsp.id ≤ _
        omega

theorem storedSeqno_le_potentialOf (s : LevelState) (id : LspId) :
    (s.storedSeqno id).toNat ≤ s.potentialOf id := by
  cases hstored : s.database.get? id with
  | none =>
      rw [storedSeqno, hstored]
      exact Nat.zero_le _
  | some entry =>
      rw [storedSeqno_of_stored hstored, potentialOf_stored hstored]
      exact entry.le_potential s.now

/-! ### Generations -/

theorem renew_potential (hlifetime : s.config.lifetime ≠ 1) (hbuilt : s.Built pseudonode lsp) :
    (s.renew lsp).potential ≤ s.potential + 2 := by
  rw [renew]
  split
  · exact Nat.le_add_right _ _
  · have horiginate := originate_potential hlifetime hbuilt.seqno
    have hle := s.storedSeqno_le_potentialOf lsp.id
    omega

/-- Renewing fragments may set off two more for each of them. -/
theorem renewAll_potential (hlifetime : s.config.lifetime ≠ 1) {lsps : List Lsp}
    (hnodup : (lsps.map (·.id)).Nodup) (hbuilt : ∀ lsp ∈ lsps, s.Built pseudonode lsp) :
    (lsps.foldl renew s).potential ≤ s.potential + 2 * lsps.length := by
  induction lsps generalizing s with
  | nil => exact Nat.le_refl _
  | cons first rest ih =>
      obtain ⟨hnotin, hrest⟩ := List.nodup_cons.1 hnodup
      have hrenew := renew_spares s first
      have hfirst := renew_potential hlifetime (hbuilt first List.mem_cons_self)
      have hlater := ih (s := s.renew first) (hrenew.config ▸ hlifetime) hrest
        fun lsp hmem => (hbuilt lsp (List.mem_cons_of_mem _ hmem)).congr hrenew.config
          (hrenew.get? fun hid => hnotin (List.mem_map.2 ⟨lsp, hmem, hid⟩))
      rw [List.foldl_cons, List.length_cons]
      omega

theorem purgeAll_potential (h : s.Consistent) {ids : List LspId} (hnodup : ids.Nodup)
    (hlive : ∀ id ∈ ids, ∃ entry, s.database.get? id = some entry ∧ entry.isPurged = false)
    (reason : PurgeReason) : (s.purgeAll ids reason).potential ≤ s.potential := by
  refine purgeAll_induction (R := fun s t => t.potential ≤ s.potential) (fun _ => Nat.le_refl _)
    (fun hst htu => Nat.le_trans htu hst) (fun {s id entry} h hstored hentry => ?_) h hnodup hlive
  have hpurge := purge_potential h reason hstored hentry
  have hle := Entry.le_potential_of_live s.now hentry
  omega

theorem modify_generators_potential {generator : Generator} (f : Generator → Generator)
    (hstored : s.generators.get? pseudonode = some generator) :
    (s.generators.modify pseudonode f).total (Generator.potential s.now) +
        generator.potential s.now =
      s.generators.total (Generator.potential s.now) + (f generator).potential s.now := by
  have hmodified : (s.generators.modify pseudonode f).get? pseudonode = some (f generator) := by
    rw [Table.get?_modify_eq_map, hstored]
    simp
  rw [Table.total_eq_erase hmodified, Table.erase_modify, Table.total_eq_erase hstored]
  omega

/-- A run that is due is paid for when it begins. -/
theorem beginGeneration_potential {handle : Handle}
    (hkept : s.kept? (.generate pseudonode) = some handle) (hdue : handle.due ≤ s.now) :
    (s.disarmed (.generate pseudonode)).potential + (2 * maxFragments + 1) = s.potential := by
  obtain ⟨generator, hstored, htimer⟩ := generator_of_kept? hkept
  have hmodify := modify_generators_potential (s := s)
    (fun generator => { generator with timer := none }) hstored
  have hold : generator.potential s.now = 2 * maxFragments + 1 := by
    rw [Generator.potential, htimer, if_pos (isDue_eq_true hdue)]
  have hnew : ({ generator with timer := none } : Generator).potential s.now = 0 := rfl
  rw [hold, hnew] at hmodify
  simp only [potential, disarmed]
  omega

/-- To note the time of a run sets nothing off. -/
theorem endGeneration_potential (s : LevelState) (pseudonode : UInt8) (lastRun : Option Nat) :
    { s with
      generators := s.generators.modify pseudonode fun generator =>
        { generator with lastRun := lastRun } }.potential = s.potential := by
  cases hstored : s.generators.get? pseudonode with
  | none =>
      have hsame : (s.generators.modify pseudonode fun generator =>
          { generator with lastRun := lastRun }) = s.generators := by
        ext1 k
        rw [Table.get?_modify_eq_map]
        by_cases hk : k = pseudonode
        · rw [hk, hstored]
          rfl
        · simp [hk]
      exact potential_congr rfl rfl hsame
  | some generator =>
      have hmodify := modify_generators_potential (s := s)
        (fun generator => { generator with lastRun := lastRun }) hstored
      have hsame : ({ generator with lastRun := lastRun } : Generator).potential s.now =
          generator.potential s.now := rfl
      simp only [potential]
      omega

/-- A generation that is due lowers the potential. -/
theorem generate_potential (h : Sound heard s) (hlifetime : s.config.lifetime ≠ 1)
    {handle : Handle} (hkept : s.kept? (.generate pseudonode) = some handle)
    (hdue : handle.due ≤ s.now) :
    ((s.disarmed (.generate pseudonode)).generate pseudonode).potential < s.potential := by
  have hbegin := beginGeneration_potential hkept hdue
  have hsound : Sound heard (s.disarmed (.generate pseudonode)) :=
    h.step (.beginGeneration hkept hdue)
  have hconfig : (s.disarmed (.generate pseudonode)).config = s.config := rfl
  generalize s.disarmed (.generate pseudonode) = t at hbegin hsound hconfig ⊢
  have hlength := t.build_length_le pseudonode
  have hbuilt : ∀ lsp ∈ t.build pseudonode, t.Built pseudonode lsp := fun _ => built_of_mem
  have hrenew := renewAll_potential (hconfig ▸ hlifetime) (t.build_nodup pseudonode) hbuilt
  have hrenewed : ((t.build pseudonode).foldl renew t).Consistent :=
    (hsound.steps (renewAll_steps hsound fun lsp hmem => (hbuilt lsp hmem).own)).consistent
  simp only [generate, endGeneration_potential]
  generalize (t.build pseudonode).foldl renew t = u at hrenew hrenewed
  have hpurge := purgeAll_potential hrenewed
    ((liveIds_range_nodup hrenewed (.ofNode ⟨u.config.system, pseudonode⟩ 0)
      (.ofNode ⟨u.config.system, pseudonode⟩ 255)).sublist
      (List.filter_sublist (p := fun id => !(t.build pseudonode).any fun lsp => lsp.id = id)))
    (fun id hid => liveIds_range_live hrenewed _ _ id (List.filter_sublist.subset hid)) .removed
  refine Nat.lt_of_le_of_lt hpurge ?_
  omega

/-! ### Timers that fire -/

/-- Every timer that fires lowers the potential. -/
theorem fireNext_potential (h : Sound heard s) (hlifetime : s.config.lifetime ≠ 1)
    (hfire : s.fireNext? = some t) : t.potential < s.potential := by
  cases fireNext_fired h.consistent hfire with
  | @expired id entry life stored running due _ live =>
      have hdue : entry.potential s.now = entry.lsp.seqno.toNat + 3 :=
        Entry.potential_of_due live (.inl (running ▸ isDue_eq_true due))
      simp only [expire, stored]
      split
      · exact delete_potential stored (by omega)
      · have hpurge := purge_potential h.consistent .expired stored live
        omega
  | @deleted id entry zeroAge stored running due purged =>
      refine delete_potential stored ?_
      rw [Entry.potential, if_pos purged, running, if_pos (isDue_eq_true due)]
      omega
  | @refreshed id entry refresh stored running due live own =>
      rw [Entry.isLive_iff] at live
      have hdue : entry.potential s.now = entry.lsp.seqno.toNat + 3 :=
        Entry.potential_of_due live.1 (.inr (running ▸ isDue_eq_true due))
      have hid : entry.lsp.id = id := h.consistent.keys stored
      rw [← hid] at stored
      have horiginate := @originate_potential
        (s.tell (.lspChanged .refreshed s.level entry.lsp.mention)) entry.lsp hlifetime
        (storedSeqno_of_stored stored).symm
      have hof : (s.tell (.lspChanged .refreshed s.level entry.lsp.mention)).potentialOf
          entry.lsp.id = entry.potential s.now := potentialOf_stored stored
      have hseqno : (s.tell (.lspChanged .refreshed s.level entry.lsp.mention)).storedSeqno
          entry.lsp.id = entry.lsp.seqno := storedSeqno_of_stored stored
      have hsame : (s.tell (.lspChanged .refreshed s.level entry.lsp.mention)).potential =
          s.potential := rfl
      rw [hof, hseqno] at horiginate
      omega
  | generated kept due => exact generate_potential h hlifetime kept due

/-- Given as many timers to process as the potential says, none is due in the end. -/
theorem fireUpTo_drains (h : Sound heard s) (hlifetime : s.config.lifetime ≠ 1) {fuel : Nat}
    (hfuel : s.potential ≤ fuel) : (fireUpTo fuel s).2.fireNext? = none := by
  induction fuel generalizing s with
  | zero =>
      cases hfire : s.fireNext? with
      | none => exact hfire
      | some t =>
          have hless := fireNext_potential h hlifetime hfire
          omega
  | succ fuel ih =>
      rw [fireUpTo]
      cases hfire : s.fireNext? with
      | none => exact hfire
      | some t =>
          have hless := fireNext_potential h hlifetime hfire
          have hsteps := fireNext_steps h hfire
          have hconfig : t.config = s.config := (Steps.constant hsteps).2.1
          exact ih (h.steps hsteps) (hconfig ▸ hlifetime) (by omega)

/-- If no timer fires, none is due: the first one is the earliest. -/
theorem not_due_of_fireNext (h : s.fireNext? = none) :
    ∀ timer ∈ s.timers.pending, s.now < timer.due := by
  have hpop : s.timers.pop? s.now = none := Option.map_eq_none_iff.1 h
  intro timer hmem
  cases hpending : s.timers.pending with
  | nil =>
      rw [hpending] at hmem
      cases hmem
  | cons first rest =>
      refine Nat.lt_of_not_le fun hdue => ?_
      have hfirst := TimerQueue.due_le_of_first hpending hmem
      obtain ⟨others, hsome⟩ := TimerQueue.pop?_of_due hpending (Nat.le_trans hfirst hdue)
      rw [hpop] at hsome
      cases hsome

/-- Every entry waits for a timer, one that ends its life or one that ends the time it is kept. -/
theorem entryTimers_pos (id : LspId) {system : SystemId} {entry : Entry}
    (h : Settled system entry) : 0 < (entryTimers id entry).length := by
  have hlife := h.life
  have hzero := h.zeroAge
  rw [entryTimers]
  cases hexpired : entry.lsp.isExpired with
  | false =>
      rw [hexpired] at hlife
      obtain ⟨life, heq⟩ := Option.isSome_iff_exists.1 hlife
      simp [heq, timerFor]
  | true =>
      rw [hexpired] at hzero
      obtain ⟨zeroAge, heq⟩ := Option.isSome_iff_exists.1 hzero
      cases entry.lifeTimer <;> simp [heq, timerFor]

/-- Each pending timer makes up for the potential of an entry or of a generator. -/
theorem potential_le_fireBound (h : s.Consistent) : s.potential ≤ s.fireBound := by
  have hentries : s.database.total (Entry.potential s.now) ≤
      0x10000000000 * (s.database.toList.flatMap fun p => entryTimers p.1 p.2).length := by
    refine Table.total_le_flatMap fun p hmem => ?_
    have hpos := entryTimers_pos p.1 (h.settled (Table.mem_toList.1 hmem))
    have hle := p.2.potential_le s.now
    have hlt := p.2.lsp.seqno.toNat_lt
    omega
  have hgenerators : s.generators.total (Generator.potential s.now) ≤
      0x10000000000 * (s.generators.toList.flatMap fun p => generatorTimers p.1 p.2).length := by
    refine Table.total_le_flatMap fun p _ => ?_
    rw [Generator.potential]
    split
    · rename_i hdue
      cases htimer : p.2.timer with
      | none => simp [htimer, isDue] at hdue
      | some handle =>
          have hone : (generatorTimers p.1 p.2).length = 1 := by
            simp [generatorTimers, htimer, timerFor]
          rw [hone]
          decide
    · exact Nat.zero_le _
  have hsize : s.timers.size = s.heldTimers.length := h.timers.heldTimers_perm.length_eq.symm
  rw [potential, fireBound, hsize, heldTimers, List.length_append]
  omega

end LevelState

end LinkState
