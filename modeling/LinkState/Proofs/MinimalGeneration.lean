import LinkState.Proofs.Agenda
import LinkState.Proofs.OwnPurge

/-!
# A generation does no more than it has to

What is published as it would be built is left alone by a generation, with its timers and
its flags.  Each other fragment gets the next sequence number and is sent on all circuits, or
is left purged if there is no next one.  What is not built any more is purged.  No other LSP is
concerned, and a generation right after another finds nothing to do.
-/

namespace LinkState

/-- Two lists of timers in the order in which they fire that hold the same timers are the same
list. -/
theorem Timer.eq_of_ordered {ε : Type} {first second : List (Timer ε)}
    (hfirst : first.Pairwise Before) (hsecond : second.Pairwise Before)
    (h : ∀ timer, timer ∈ first ↔ timer ∈ second) : first = second := by
  have hasymm : ∀ {a b : Timer ε}, a.Before b → b.Before a → False := by
    intro a b hab hba
    unfold Before at hab hba
    omega
  have hnodup {list : List (Timer ε)} (hlist : list.Pairwise Before) : list.Nodup := by
    apply hlist.imp
    rintro a _ hbefore rfl
    exact hasymm hbefore hbefore
  have hperm := (List.perm_ext_iff_of_nodup (hnodup hfirst) (hnodup hsecond)).2 h
  exact hperm.eq_of_pairwise (fun _ _ _ _ hab hba => (hasymm hab hba).elim) hfirst hsecond

namespace LevelState

variable {heard : Lsp → Prop} {s t u : LevelState} {id : LspId} {pseudonode : UInt8} {lsp : Lsp}
  {lifetime : UInt16} {seqno : UInt32} {body : LspFlags × LspTlvs} {touched : LspId → Prop}

/-! ### LSPs that are left alone -/

/-- The pending timers of the entry of an LSP, in the order in which they fire. -/
def timersOf (s : LevelState) (id : LspId) : List (Timer TimerEvent) :=
  s.timers.pending.filter fun timer => timer.event.concerns id

/-- Between two states nothing was done about an LSP: its entry, its flags on all circuits and
its timers are the same. -/
structure LeftAlone (s t : LevelState) (id : LspId) : Prop where
  view : t.view id = s.view id
  timers : t.timersOf id = s.timersOf id

theorem mem_timersOf (h : s.Consistent) {timer : Timer TimerEvent} :
    timer ∈ s.timersOf id ↔
      s.kept? timer.event = some ⟨timer.number, timer.due⟩ ∧ timer.event.concerns id = true := by
  rw [timersOf, List.mem_filter, ← h.timers.heldTimers_perm.mem_iff, mem_heldTimers]

/-- The entry of an LSP tells its timers. -/
theorem timersOf_congr (hs : s.Consistent) (ht : t.Consistent)
    (hstored : t.database.get? id = s.database.get? id) : t.timersOf id = s.timersOf id := by
  have hkept : ∀ event : TimerEvent, event.concerns id = true → t.kept? event = s.kept? event := by
    intro event hevent
    cases event with
    | expire other | delete other | refresh other =>
        obtain rfl : other = id := of_decide_eq_true hevent
        simp only [kept?, hstored]
    | generate => cases hevent
  apply Timer.eq_of_ordered (t.timers.ordered.filter _) (s.timers.ordered.filter _)
  intro timer
  rw [← timersOf, ← timersOf, mem_timersOf hs, mem_timersOf ht]
  exact and_congr_left fun hevent => by rw [hkept timer.event hevent]

theorem Spares.leftAlone (h : Spares touched s t) (hs : s.Consistent) (ht : t.Consistent)
    (hid : ¬ touched id) : LeftAlone s t id where
  view := h.view id hid
  timers := timersOf_congr hs ht (h.get? hid)

/-! ### What becomes of a fragment -/

/-- A new instance of an LSP is stored, with the sequence number after another, and is to be
sent on all circuits. -/
structure Renewed (lifetime : UInt16) (seqno : UInt32) (body : LspFlags × LspTlvs)
    (t : LevelState) (id : LspId) : Prop where
  stored : ∃ entry, t.database.get? id = some entry ∧ entry.isLive = true ∧
    entry.received = false ∧ entry.lsp.lifetime = lifetime ∧
    entry.lsp.seqno.toNat = seqno.toNat + 1 ∧ entry.lsp.body = body
  marked : ∀ circuit, t.flooding.contains circuit = true →
    t.flooding.marks circuit id = some ⟨true, none⟩

/-- An LSP is purged, and has used up its sequence numbers. -/
structure Spent (t : LevelState) (id : LspId) : Prop where
  stored : ∃ entry, t.database.get? id = some entry ∧ entry.isPurged = true ∧
    entry.lsp.seqno = 0xFFFFFFFF

theorem Renewed.spared (h : Renewed lifetime seqno body t id) (hspares : Spares touched t u)
    (hid : ¬ touched id) : Renewed lifetime seqno body u id where
  stored := hspares.get? hid ▸ h.stored
  marked := hspares.marked hid h.marked

theorem Spent.spared (h : Spent t id) (hspares : Spares touched t u) (hid : ¬ touched id) :
    Spent u id where
  stored := hspares.get? hid ▸ h.stored

/-- What a new instance of a fragment achieves if its sequence numbers are not used up. -/
theorem originate_renewed (hlifetime : s.config.lifetime ≠ 0)
    (hseqno : lsp.seqno = s.storedSeqno lsp.id) (hunused : ¬ s.Exhausted lsp.id) :
    Renewed s.config.lifetime (s.storedSeqno lsp.id) lsp.body (s.originate lsp) lsp.id := by
  have hmax : max lsp.seqno (s.storedSeqno lsp.id) = s.storedSeqno lsp.id := by
    rw [hseqno]
    exact ite_self _
  obtain ⟨next, hnext⟩ : ∃ next, nextSeqno? (s.storedSeqno lsp.id) = some next :=
    Option.ne_none_iff_exists'.1 (mt nextSeqno?_eq_none.1 hunused)
  have hnat : next.toNat = (s.storedSeqno lsp.id).toNat + 1 := toNat_nextSeqno hnext
  have hpositive : next ≠ 0 := by
    rintro rfl
    cases hnat
  have hinstalls := originate_installs (hmax.symm ▸ hnext)
  obtain ⟨entry, hstored, hlsp, hreceived⟩ := hinstalls.stored
  constructor
  · refine ⟨entry, hstored, ?_, hreceived, ?_, ?_, ?_⟩
    · rw [Entry.isLive_iff, Entry.isPurged, Entry.isPlaceholder, hlsp]
      exact ⟨decide_eq_false hlifetime, decide_eq_false hpositive⟩
    · rw [hlsp]
      rfl
    · rw [hlsp]
      exact hnat
    · rw [hlsp]
      rfl
  · exact fun circuit hcircuit => hinstalls.flooded_marks hpositive hcircuit

/-- An LSP that has used up its sequence numbers is purged in place of a new instance. -/
theorem originate_spent (hexhausted : s.Exhausted lsp.id) : Spent (s.originate lsp) lsp.id := by
  have hlast : max lsp.seqno (s.storedSeqno lsp.id) = 0xFFFFFFFF := max_eq_last.2 (.inr hexhausted)
  obtain ⟨counters, trace, heq⟩ := originate_exhausted (nextSeqno?_eq_none.2 hlast)
  rw [heq]
  split
  · obtain ⟨entry, hstored, hlsp, -⟩ := ({ s with counters := counters, trace := trace
      }.forcePurge_installs lsp .maxSeqno).stored
    refine ⟨entry, hstored, ?_, ?_⟩
    · rw [Entry.isPurged, hlsp]
      rfl
    · rw [hlsp]
      show max (s.storedSeqno lsp.id) lsp.seqno = 0xFFFFFFFF
      exact max_eq_last.2 (.inl hexhausted)
  · rename_i hended
    cases hstored : s.database.get? lsp.id with
    | none =>
        rw [Exhausted, storedSeqno, hstored] at hexhausted
        cases hexhausted
    | some entry =>
        refine ⟨entry, hstored, ?_, ?_⟩
        · simpa [hstored] using hended
        · exact (storedSeqno_of_stored hstored).symm.trans hexhausted

/-! ### All fragments -/

/-- What renewing a fragment achieves unless it is published already. -/
structure Achieves (s t : LevelState) (lsp : Lsp) : Prop where
  renewed : s.published? lsp.id ≠ some lsp.body → ¬ s.Exhausted lsp.id →
    Renewed s.config.lifetime (s.storedSeqno lsp.id) lsp.body t lsp.id
  spent : s.published? lsp.id ≠ some lsp.body → s.Exhausted lsp.id → Spent t lsp.id

theorem Achieves.spared (h : Achieves s t lsp) (hspares : Spares touched t u)
    (hid : ¬ touched lsp.id) : Achieves s u lsp where
  renewed hchanged hunused := (h.renewed hchanged hunused).spared hspares hid
  spent hchanged hexhausted := (h.spent hchanged hexhausted).spared hspares hid

theorem Achieves.earlier (h : Achieves t u lsp) (hconfig : t.config = s.config)
    (hstored : t.database.get? lsp.id = s.database.get? lsp.id) : Achieves s u lsp := by
  obtain ⟨hrenewed, hspent⟩ := h
  rw [published_congr hstored, Exhausted, storedSeqno_congr hstored] at hrenewed hspent
  rw [hconfig] at hrenewed
  exact ⟨hrenewed, hspent⟩

/-- Renewing a fragment is of no concern to any other, nor to itself if it is published already. -/
theorem renew_achieves (hguarded : s.Guarded) (hlifetime : s.config.lifetime ≠ 0)
    (hbuilt : s.Built pseudonode lsp) :
    Spares (fun id => id = lsp.id ∧ s.published? id ≠ some lsp.body) s (s.renew lsp) ∧
      Achieves s (s.renew lsp) lsp := by
  have hcurrent := isCurrent_iff hguarded hbuilt
  rw [renew]
  split
  · rename_i hsame
    have hpublished := hcurrent.1 hsame
    exact ⟨.refl _ s, fun hchanged => absurd hpublished hchanged,
      fun hchanged => absurd hpublished hchanged⟩
  · rename_i hchanged
    have hchanged := mt hcurrent.2 hchanged
    refine ⟨(Spares.originate s lsp).mono fun id hid => ⟨hid, hid ▸ hchanged⟩, ?_⟩
    exact ⟨fun _ hunused => originate_renewed hlifetime hbuilt.seqno hunused,
      fun _ hexhausted => originate_spent hexhausted⟩

/-- Renewing several fragments in turn does to each what renewing it alone does, and leaves
alone those that are published. -/
theorem renewAll_achieves (hguarded : s.Guarded) (hlifetime : s.config.lifetime ≠ 0)
    {lsps : List Lsp} (hnodup : (lsps.map (·.id)).Nodup)
    (hbuilt : ∀ lsp ∈ lsps, s.Built pseudonode lsp) :
    Spares (fun id => ∃ lsp ∈ lsps, lsp.id = id ∧ s.published? id ≠ some lsp.body) s
        (lsps.foldl renew s) ∧
      ∀ lsp ∈ lsps, Achieves s (lsps.foldl renew s) lsp := by
  induction lsps generalizing s with
  | nil => exact ⟨.refl _ s, fun _ hmem => absurd hmem List.not_mem_nil⟩
  | cons first rest ih =>
      obtain ⟨hnotin, hrest⟩ := List.nodup_cons.1 hnodup
      have hfirst := hbuilt first List.mem_cons_self
      have hsteps : Steps (fun _ => True) s (s.renew first) := renew_steps hfirst.own
      obtain ⟨hrenew, hachieves⟩ := renew_achieves hguarded hlifetime hfirst
      have hne : ∀ lsp ∈ rest, lsp.id ≠ first.id :=
        fun lsp hmem hid => hnotin (List.mem_map.2 ⟨lsp, hmem, hid⟩)
      -- The first fragment is none of the others, so that they are still to be renewed.
      have hsame : ∀ lsp ∈ rest,
          (s.renew first).database.get? lsp.id = s.database.get? lsp.id :=
        fun lsp hmem => hrenew.get? fun hid => hne lsp hmem hid.1
      obtain ⟨hspares, hothers⟩ := ih (hguarded.steps hsteps) (hrenew.config ▸ hlifetime) hrest
        fun lsp hmem => (hbuilt lsp (List.mem_cons_of_mem _ hmem)).congr hrenew.config
          (hsame lsp hmem)
      rw [List.foldl_cons]
      refine ⟨(hrenew.mono ?_).trans (hspares.mono ?_), fun lsp hmem => ?_⟩
      · rintro _ ⟨rfl, hchanged⟩
        exact ⟨first, List.mem_cons_self, rfl, hchanged⟩
      · rintro _ ⟨lsp, hmem, rfl, hchanged⟩
        rw [published_congr (hsame lsp hmem)] at hchanged
        exact ⟨lsp, List.mem_cons_of_mem _ hmem, rfl, hchanged⟩
      · rcases List.mem_cons.1 hmem with rfl | hlater
        · have huntouched : ¬ ∃ other ∈ rest, other.id = lsp.id ∧
              (s.renew lsp).published? lsp.id ≠ some other.body :=
            fun ⟨other, hother, hid, _⟩ => hne other hother hid
          exact hachieves.spared hspares huntouched
        · exact (hothers lsp hlater).earlier hrenew.config (hsame lsp hlater)

/-! ### What is no longer built -/

def staleIds (s : LevelState) (node : NodeId) (lsps : List Lsp) : List LspId :=
  (liveIds (s.database.ofNode node)).filter fun id => !lsps.any fun lsp => lsp.id = id

variable {node : NodeId} {lsps : List Lsp}

theorem mem_staleIds (h : s.Consistent) :
    id ∈ s.staleIds node lsps ↔
      (id.node = node ∧ s.published? id ≠ none) ∧ ∀ lsp ∈ lsps, lsp.id ≠ id := by
  rw [staleIds, List.mem_filter, mem_liveIds_ofNode h]
  simp

/-- Each LSP that is no longer built is purged, and no other LSP is concerned. -/
theorem purgeStale_flooded (h : s.Consistent) (node : NodeId) (lsps : List Lsp) :
    Spares (· ∈ s.staleIds node lsps) s (s.purgeAll (s.staleIds node lsps) .removed) ∧
      ∀ id ∈ s.staleIds node lsps, ∀ entry, s.database.get? id = some entry →
        Flooded entry.lsp.seqno (s.purgeAll (s.staleIds node lsps) .removed) id := by
  have hnodup : (s.staleIds node lsps).Nodup :=
    (liveIds_range_nodup h _ _).sublist List.filter_sublist
  have hlive : ∀ id ∈ s.staleIds node lsps,
      ∃ entry, s.database.get? id = some entry ∧ entry.isLive = true := by
    intro id hid
    obtain ⟨body, hbody⟩ := Option.ne_none_iff_exists'.1 ((mem_staleIds h).1 hid).1.2
    obtain ⟨entry, hentry, -⟩ := Option.map_eq_some_iff.1 hbody
    exact ⟨entry, Option.filter_eq_some_iff.1 hentry⟩
  have hunpurged : ∀ id ∈ s.staleIds node lsps,
      ∃ entry, s.database.get? id = some entry ∧ entry.isPurged = false :=
    fun id hid => (hlive id hid).imp fun _ hentry => ⟨hentry.1, (Entry.isLive_iff.1 hentry.2).1⟩
  exact ⟨(purgeAll_spares h hnodup hunpurged .removed).2.1,
    fun id hid entry hstored => purgeAll_flooded h hnodup hlive .removed hid hstored⟩

/-! ### The whole generation -/

theorem built?_of_mem (h : lsp ∈ s.build pseudonode) : s.built? lsp.id = some lsp.body :=
  (mem_bodies.1 (List.mem_map_of_mem h)).2

theorem mem_of_built? (hnode : id.node = ⟨s.config.system, pseudonode⟩)
    (h : s.built? id = some body) : ∃ lsp ∈ s.build pseudonode, lsp.id = id ∧ lsp.body = body := by
  obtain ⟨lsp, hmem, heq⟩ := List.mem_map.1 (mem_bodies.2 ⟨hnode, h⟩)
  cases heq
  exact ⟨lsp, hmem, rfl, rfl⟩

theorem built?_eq_none_iff (hnode : id.node = ⟨s.config.system, pseudonode⟩) :
    s.built? id = none ↔ ∀ lsp ∈ s.build pseudonode, lsp.id ≠ id := by
  constructor
  · rintro hnone lsp hmem rfl
    rw [built?_of_mem hmem] at hnone
    cases hnone
  · intro hnone
    apply Option.eq_none_iff_forall_ne_some.2
    intro body hbody
    obtain ⟨lsp, hmem, hid, -⟩ := mem_of_built? hnode hbody
    exact hnone lsp hmem hid

/-- A generation renews fragments and then purges what is no longer built, by which it concerns
no LSP that it has renewed. -/
theorem generate_parts (h : Sound heard s) (hguarded : s.Guarded)
    (hlifetime : s.config.lifetime ≠ 0) (pseudonode : UInt8) :
    ∃ t u,
      Spares (fun id => ∃ lsp ∈ s.build pseudonode, lsp.id = id ∧
        s.published? id ≠ some lsp.body) s t ∧
      (∀ lsp ∈ s.build pseudonode, Achieves s t lsp) ∧
      Spares (fun id => id.node = ⟨s.config.system, pseudonode⟩ ∧ s.published? id ≠ none ∧
        s.built? id = none) t u ∧
      (∀ id entry, id.node = ⟨s.config.system, pseudonode⟩ → s.database.get? id = some entry →
        entry.isLive = true → s.built? id = none → Flooded entry.lsp.seqno u id) ∧
      Spares (fun _ => False) u (s.generate pseudonode) := by
  have hsound := h.steps (renewAll_steps h fun lsp (hmem : lsp ∈ s.build pseudonode) =>
    isOwn_of_mem_build hmem)
  obtain ⟨hrenewed, hachieves⟩ := renewAll_achieves hguarded hlifetime (s.build_nodup pseudonode)
    fun _ hmem => built_of_mem hmem
  set t := (s.build pseudonode).foldl renew s with ht
  obtain ⟨hpurged, hflooded⟩ := purgeStale_flooded hsound.consistent ⟨t.config.system, pseudonode⟩
    (s.build pseudonode)
  set u := t.purgeAll (t.staleIds ⟨t.config.system, pseudonode⟩ (s.build pseudonode)) .removed
    with hu
  -- What is not built was not renewed either.
  have hkept : ∀ id, (∀ lsp ∈ s.build pseudonode, lsp.id ≠ id) →
      t.database.get? id = s.database.get? id :=
    fun id hunbuilt => hrenewed.get? fun ⟨lsp, hmem, hid, _⟩ => hunbuilt lsp hmem hid
  have hstale : ∀ id, id ∈ t.staleIds ⟨t.config.system, pseudonode⟩ (s.build pseudonode) ↔
      id.node = ⟨s.config.system, pseudonode⟩ ∧ s.published? id ≠ none ∧ s.built? id = none := by
    intro id
    rw [mem_staleIds hsound.consistent, hrenewed.config, and_assoc]
    apply and_congr_right
    intro hnode
    rw [built?_eq_none_iff hnode]
    exact and_congr_left fun hunbuilt => by rw [published_congr (hkept id hunbuilt)]
  refine ⟨t, u, hrenewed, hachieves, hpurged.mono fun id hid => (hstale id).1 hid, ?_,
    endGeneration_spares u pseudonode (some u.now)⟩
  intro id entry hnode hstored hlive hunbuilt
  have hpublished : s.published? id ≠ none := published_ne_none hstored (by simpa using hlive)
  apply hflooded id ((hstale id).2 ⟨hnode, hpublished, hunbuilt⟩) entry
  rw [hkept id ((built?_eq_none_iff hnode).1 hunbuilt)]
  exact hstored

/-- What a generation does about the LSPs of a pseudonode, or of the system itself: it leaves
alone those that are published as they would be built, and all of other nodes, renews the
other fragments unless their sequence numbers are used up, and purges what is no longer
built. -/
structure MinimalChange (pseudonode : UInt8) (s t : LevelState) : Prop where
  leftAlone : ∀ id, (id.node = ⟨s.config.system, pseudonode⟩ → s.published? id = s.built? id) →
    LeftAlone s t id
  renewed : ∀ id body, id.node = ⟨s.config.system, pseudonode⟩ → s.built? id = some body →
    s.published? id ≠ some body → ¬ s.Exhausted id →
      Renewed s.config.lifetime (s.storedSeqno id) body t id
  spent : ∀ id body, id.node = ⟨s.config.system, pseudonode⟩ → s.built? id = some body →
    s.published? id ≠ some body → s.Exhausted id → Spent t id
  purged : ∀ id entry, id.node = ⟨s.config.system, pseudonode⟩ →
    s.database.get? id = some entry → entry.isLive = true → s.built? id = none →
      Flooded entry.lsp.seqno t id
  circuits : ∀ circuit, t.flooding.contains circuit = s.circuits.contains circuit

/-- A generation renews what is out of date and purges what is stale, and does nothing else. -/
theorem generate_minimal (h : Sound heard s) (hguarded : s.Guarded) (hflagged : s.Flagged)
    (hlifetime : s.config.lifetime ≠ 0) (pseudonode : UInt8) :
    MinimalChange pseudonode s (s.generate pseudonode) := by
  have hgenerated := (h.steps (generate_steps h pseudonode)).consistent
  obtain ⟨t, u, hrenewed, hachieves, hpurged, hflooded, hended⟩ :=
    generate_parts h hguarded hlifetime pseudonode
  have hspares : Spares (fun id => id.node = ⟨s.config.system, pseudonode⟩ ∧
      s.published? id ≠ s.built? id) s (s.generate pseudonode) := by
    apply ((hrenewed.mono _).trans (hpurged.mono _)).trans (hended.mono fun _ hid => hid.elim)
    · rintro _ ⟨lsp, hmem, rfl, hchanged⟩
      exact ⟨(built_of_mem hmem).node, built?_of_mem hmem ▸ hchanged⟩
    · rintro id ⟨hnode, hpublished, hunbuilt⟩
      exact ⟨hnode, hunbuilt ▸ hpublished⟩
  have hbuilt : ∀ lsp ∈ s.build pseudonode, Achieves s (s.generate pseudonode) lsp := by
    intro lsp hmem
    apply Achieves.spared _ hended id
    apply (hachieves lsp hmem).spared hpurged
    rintro ⟨-, -, hunbuilt⟩
    rw [built?_of_mem hmem] at hunbuilt
    cases hunbuilt
  constructor
  case leftAlone =>
    intro id hsame
    exact hspares.leftAlone h.consistent hgenerated fun hid => hid.2 (hsame hid.1)
  case renewed =>
    intro id body hnode hid hchanged hunused
    obtain ⟨lsp, hmem, rfl, rfl⟩ := mem_of_built? hnode hid
    exact (hbuilt lsp hmem).renewed hchanged hunused
  case spent =>
    intro id body hnode hid hchanged hexhausted
    obtain ⟨lsp, hmem, rfl, rfl⟩ := mem_of_built? hnode hid
    exact (hbuilt lsp hmem).spent hchanged hexhausted
  case purged =>
    intro id entry hnode hstored hlive hunbuilt
    exact (hflooded id entry hnode hstored hlive hunbuilt).spared hended fun hid => hid
  case circuits =>
    intro circuit
    exact (hspares.flagged circuit).trans (hflagged.circuits circuit)

/-! ### Nothing left to do -/

/-- A fragment that is published, or has used up its sequence numbers and is purged, is not
renewed; the latter is just told once more. -/
theorem renew_idle (h : s.published? lsp.id = some lsp.body ∨ Spent s lsp.id) :
    ∃ counters trace, s.renew lsp = { s with counters := counters, trace := trace } := by
  rw [renew]
  split
  · exact ⟨s.counters, s.trace, rfl⟩
  · rename_i hchanged
    rcases h with hpublished | hspent
    · exact absurd (isCurrent_of_published hpublished) hchanged
    · obtain ⟨entry, hstored, hpurged, hlast⟩ := hspent.stored
      have hseqno : s.storedSeqno lsp.id = 0xFFFFFFFF := (storedSeqno_of_stored hstored).trans hlast
      obtain ⟨counters, trace, heq⟩ :=
        originate_exhausted (nextSeqno?_eq_none.2 (max_eq_last.2 (.inr hseqno)))
      rw [heq, hstored]
      exact ⟨counters, trace, if_neg (by simp [hpurged])⟩

/-- Renewing fragments that are all published or spent is told at most. -/
theorem renewAll_idle (h : ∀ lsp ∈ lsps, s.published? lsp.id = some lsp.body ∨ Spent s lsp.id) :
    ∃ counters trace, lsps.foldl renew s = { s with counters := counters, trace := trace } := by
  induction lsps generalizing s with
  | nil => exact ⟨s.counters, s.trace, rfl⟩
  | cons first rest ih =>
      obtain ⟨counters, trace, hfirst⟩ := renew_idle (h first List.mem_cons_self)
      have hrest : ∀ lsp ∈ rest,
          { s with counters := counters, trace := trace }.published? lsp.id = some lsp.body ∨
            Spent { s with counters := counters, trace := trace } lsp.id := by
        intro lsp hmem
        exact (h lsp (List.mem_cons_of_mem _ hmem)).imp_right fun hspent => ⟨hspent.stored⟩
      rw [List.foldl_cons, hfirst]
      exact ih hrest

/-- A generation with nothing to renew and nothing to purge, at the time of the last one. -/
theorem generate_idle
    (hbuilt : ∀ lsp ∈ s.build pseudonode, s.published? lsp.id = some lsp.body ∨ Spent s lsp.id)
    (hstale : s.staleIds ⟨s.config.system, pseudonode⟩ (s.build pseudonode) = [])
    (hgenerators : (s.generators.modify pseudonode fun generator =>
      { generator with lastRun := some s.now }) = s.generators) :
    ∃ counters trace,
      s.generate pseudonode = { s with counters := counters, trace := trace } := by
  obtain ⟨counters, trace, hrenewed⟩ := renewAll_idle hbuilt
  refine ⟨counters, trace, ?_⟩
  have hnothing : { s with counters := counters, trace := trace }.staleIds
      ⟨s.config.system, pseudonode⟩ (s.build pseudonode) = [] := hstale
  rw [staleIds] at hnothing
  simp only [generate, hrenewed, hnothing, purgeAll, List.foldl_nil, hgenerators]

theorem Renewed.published (h : Renewed lifetime seqno body t id) :
    t.published? id = some body := by
  obtain ⟨entry, hstored, hlive, -, -, -, rfl⟩ := h.stored
  exact published_of_stored hstored hlive

theorem Flooded.published (h : Flooded seqno t id) : t.published? id = none := by
  obtain ⟨purge, hstored, hpurged, -⟩ := h.stored
  exact published_of_ended hstored (Entry.not_live_of_purged hpurged)

/-- Once a generation is done, there is nothing left for another. -/
theorem generate_again (h : Sound heard s) (hguarded : s.Guarded) (hflagged : s.Flagged)
    (hlifetime : s.config.lifetime ≠ 0) (pseudonode : UInt8) :
    ∃ counters trace, (s.generate pseudonode).generate pseudonode =
      { s.generate pseudonode with counters := counters, trace := trace } := by
  have hchange := generate_minimal h hguarded hflagged hlifetime pseudonode
  have hspares := (generate_spares h pseudonode).1
  have hgenerated := (h.steps (generate_steps h pseudonode)).consistent
  obtain ⟨u, -, -, heq⟩ := generate_eq h pseudonode
  have hgenerators : ((s.generate pseudonode).generators.modify pseudonode fun generator =>
      { generator with lastRun := some (s.generate pseudonode).now }) =
        (s.generate pseudonode).generators := by
    rw [heq]
    ext1 other
    simp only [Table.get?_modify]
    split_ifs <;> simp [Function.comp_def]
  have hsame : ∀ id, s.published? id = s.built? id → LeftAlone s (s.generate pseudonode) id :=
    fun id hid => hchange.leftAlone id fun _ => hid
  generalize s.generate pseudonode = t at hchange hspares hgenerated hgenerators hsame ⊢
  have hkept : ∀ id, LeftAlone s t id → t.published? id = s.published? id :=
    fun id hid => published_congr (congrArg View.entry hid.view)
  apply generate_idle _ _ hgenerators
  · intro lsp hmem
    have hnode : lsp.id.node = ⟨s.config.system, pseudonode⟩ :=
      hspares.config ▸ (built_of_mem hmem).node
    have hbuilt : s.built? lsp.id = some lsp.body :=
      (hspares.built? lsp.id).symm.trans (built?_of_mem hmem)
    by_cases hpublished : s.published? lsp.id = some lsp.body
    · left
      rw [hkept lsp.id (hsame lsp.id (hpublished.trans hbuilt.symm)), hpublished]
    · by_cases hexhausted : s.Exhausted lsp.id
      · exact .inr (hchange.spent lsp.id _ hnode hbuilt hpublished hexhausted)
      · exact .inl (hchange.renewed lsp.id _ hnode hbuilt hpublished hexhausted).published
  · apply List.eq_nil_iff_forall_not_mem.2
    intro id hid
    obtain ⟨⟨hnode, hpublished⟩, hunbuilt⟩ := (mem_staleIds hgenerated).1 hid
    have hbuilt : s.built? id = none :=
      (hspares.built? id).symm.trans ((built?_eq_none_iff hnode).2 hunbuilt)
    rw [hspares.config] at hnode
    cases hbefore : s.published? id with
    | none =>
        rw [hkept id (hsame id (hbefore.trans hbuilt.symm)), hbefore] at hpublished
        exact hpublished rfl
    | some body =>
        obtain ⟨entry, hentry, -⟩ := Option.map_eq_some_iff.1 hbefore
        obtain ⟨hstored, hlive⟩ := Option.filter_eq_some_iff.1 hentry
        exact hpublished (hchange.purged id entry hnode hstored hlive hbuilt).published

variable {level : Level} {config : Config} {now : Nat}

/-- In every reachable state, a generation changes no more than it has to, and another one
right after it changes nothing but what is counted and told. -/
theorem generation_minimal (h : Reachable Proper level config now s)
    (hlifetime : 2 ≤ config.lifetime) (pseudonode : UInt8) :
    MinimalChange pseudonode s (s.generate pseudonode) ∧
      ∃ counters trace, (s.generate pseudonode).generate pseudonode =
        { s.generate pseudonode with counters := counters, trace := trace } := by
  have hlifetime : s.config.lifetime ≠ 0 := by
    rw [h.constant.2.1]
    rintro hzero
    rw [hzero] at hlifetime
    exact absurd hlifetime (by decide)
  exact ⟨generate_minimal h.sound h.guarded h.flagged hlifetime pseudonode,
    generate_again h.sound h.guarded h.flagged hlifetime pseudonode⟩

/-- A level with a circuit, of whose two fragments the first is out of date, and the second is
not built any more. -/
def outdated : LevelState :=
  originated.perform (.addCircuit ⟨1, "eth1", .broadcast⟩)

theorem outdated_reachable :
    Reachable Proper .one { Config.default with mtu := 51 } 0 outdated :=
  Reachable.perform originated_reachable trivial

/-- The first fragment is renewed, the second is purged, and both are sent. -/
theorem generation_minimal_outdated :
    outdated.database.values.map (fun entry => (entry.lsp.seqno, entry.isPurged)) =
      [(8, false), (8, false)] ∧
    (outdated.generate 0).database.values.map (fun entry => (entry.lsp.seqno, entry.isPurged)) =
      [(9, false), (8, true)] ∧
    Flooding.marked (outdated.generate 0).flooding .srm 1 =
      [⟨SystemId.zero, 0, 0⟩, ⟨SystemId.zero, 0, 1⟩] ∧
    MinimalChange 0 outdated (outdated.generate 0) ∧
      ∃ counters trace, (outdated.generate 0).generate 0 =
        { outdated.generate 0 with counters := counters, trace := trace } :=
  ⟨by decide +kernel, by decide +kernel, by decide +kernel,
    generation_minimal outdated_reachable (by decide) 0⟩

end LevelState

end LinkState
