import LinkState.Proofs.Fragments
import LinkState.Proofs.LspIdOrder
import LinkState.Proofs.OwnContent

/-!
# What a generation achieves

A generation originates the fragments whose content has changed and purges those that
are no longer built.  Once it is done, every LSP of the node says what would be built for
it, or has used up its sequence numbers, and no other LSP is concerned.
-/

namespace LinkState

namespace LspTlvs

variable {maxSize count : Nat} {tlvs fragment : LspTlvs}

theorem fragments_ne_empty (h : fragment ∈ (tlvs.fragments maxSize count).1) :
    fragment ≠ empty := by
  induction count generalizing tlvs with
  | zero => cases h
  | succ count ih =>
      rw [fragments] at h
      split at h
      · cases h
      · rename_i first left hnext
        rcases List.mem_cons.1 h with rfl | hrest
        · exact ne_empty_of_nextFragment hnext
        · exact ih hrest

theorem length_fragments_le (maxSize count : Nat) (tlvs : LspTlvs) :
    (tlvs.fragments maxSize count).1.length ≤ count := by
  induction count generalizing tlvs with
  | zero => exact Nat.le_refl _
  | succ count ih =>
      rw [fragments]
      split
      · exact Nat.zero_le _
      · exact Nat.succ_le_succ (ih _)

end LspTlvs

namespace LevelState

variable {heard : Lsp → Prop} {s t : LevelState} {id : LspId} {lsp : Lsp} {pseudonode : UInt8}

/-! ### What is built -/

/-- A fragment is built for its node, says something, and has the sequence number of the
stored copy. -/
structure Built (s : LevelState) (pseudonode : UInt8) (lsp : Lsp) : Prop where
  node : lsp.id.node = ⟨s.config.system, pseudonode⟩
  nonempty : lsp.tlvs ≠ .empty
  seqno : lsp.seqno = s.storedSeqno lsp.id

theorem Built.own (h : s.Built pseudonode lsp) : s.isOwn lsp.id = true :=
  decide_eq_true (congrArg NodeId.system h.node)

theorem Built.congr (h : s.Built pseudonode lsp) (hconfig : t.config = s.config)
    (hstored : t.database.get? lsp.id = s.database.get? lsp.id) : t.Built pseudonode lsp where
  node := hconfig ▸ h.node
  nonempty := h.nonempty
  seqno := h.seqno.trans (storedSeqno_congr hstored).symm

theorem built_of_mem (h : lsp ∈ s.build pseudonode) : s.Built pseudonode lsp := by
  rw [build] at h
  split at h
  · cases h
  · obtain ⟨index, hindex, rfl⟩ := List.mem_mapIdx.1 h
    exact ⟨rfl, LspTlvs.fragments_ne_empty (List.getElem_mem hindex), rfl⟩

/-- The fragments are built in the order of their LSP IDs. -/
theorem bodies_sorted (s : LevelState) (pseudonode : UInt8) :
    (s.bodies pseudonode).Pairwise fun a b => a.1.toNat < b.1.toNat := by
  rw [bodies_eq]
  split
  · exact .nil
  · rename_i tlvs _
    have hlength := LspTlvs.length_fragments_le s.fragmentRoom maxFragments tlvs
    refine List.pairwise_iff_getElem.2 fun i j hi hj hless => ?_
    rw [List.length_mapIdx] at hi hj
    rw [List.getElem_mapIdx, List.getElem_mapIdx]
    have hbound : maxFragments = 256 := rfl
    simp only [LspId.toNat, UInt8.toNat_ofNat']
    omega

theorem build_length_le (s : LevelState) (pseudonode : UInt8) :
    (s.build pseudonode).length ≤ maxFragments := by
  rw [build]
  split
  · exact Nat.zero_le _
  · rw [List.length_mapIdx]
    exact LspTlvs.length_fragments_le _ _ _

theorem build_nodup (s : LevelState) (pseudonode : UInt8) :
    ((s.build pseudonode).map (·.id)).Nodup := by
  have hsorted := s.bodies_sorted pseudonode
  rw [bodies, List.pairwise_map] at hsorted
  refine List.pairwise_map.2 (hsorted.imp fun {a b} (hless : a.id.toNat < b.id.toNat) heq => ?_)
  rw [heq] at hless
  exact Nat.lt_irrefl _ hless

theorem mem_bodies {body : LspFlags × LspTlvs} :
    (id, body) ∈ s.bodies pseudonode ↔
      id.node = ⟨s.config.system, pseudonode⟩ ∧ s.built? id = some body := by
  constructor
  · intro hmem
    obtain ⟨lsp, hlsp, heq⟩ := List.mem_map.1 hmem
    cases heq
    have hnode := (built_of_mem hlsp).node
    have hpseudonode : lsp.id.pseudonode = pseudonode := congrArg NodeId.pseudonode hnode
    refine ⟨hnode, Table.find_eq_some_of_mem (s.bodies_sorted _) ?_⟩
    rwa [hpseudonode]
  · rintro ⟨hnode, hbuilt⟩
    have hpseudonode : id.pseudonode = pseudonode := congrArg NodeId.pseudonode hnode
    exact hpseudonode ▸ Table.mem_of_find_eq_some hbuilt

/-! ### Purging several LSPs -/

/-- Purging different live LSPs is no concern of others, and none of them is published
afterwards. -/
theorem purgeAll_spares (h : s.Consistent) {ids : List LspId} (hnodup : ids.Nodup)
    (hlive : ∀ id ∈ ids, ∃ entry, s.database.get? id = some entry ∧ entry.isPurged = false)
    (reason : PurgeReason) :
    (s.purgeAll ids reason).Consistent ∧ Spares (· ∈ ids) s (s.purgeAll ids reason) ∧
      ∀ id ∈ ids, (s.purgeAll ids reason).published? id = none := by
  induction ids generalizing s with
  | nil => exact ⟨h, .refl _ _, fun _ hmem => absurd hmem List.not_mem_nil⟩
  | cons id rest ih =>
      obtain ⟨hnotin, hrest⟩ := List.nodup_cons.1 hnodup
      obtain ⟨entry, hstored, hentry⟩ := hlive id List.mem_cons_self
      have hstep : Step (fun _ => True) s (s.purge id reason) :=
        purge_step h reason hstored hentry
      have hpurge := Spares.purge h reason hstored hentry
      obtain ⟨hconsistent, hspares, hpublished⟩ := ih (h.step hstep) hrest fun other hother => by
        rw [hpurge.get? fun heq => hnotin (heq ▸ hother)]
        exact hlive other (List.mem_cons_of_mem _ hother)
      refine ⟨hconsistent, ?_, fun other hother => ?_⟩
      · refine (hpurge.mono ?_).trans (hspares.mono fun _ => List.mem_cons_of_mem _)
        rintro _ rfl
        exact List.mem_cons_self
      · rcases List.mem_cons.1 hother with rfl | hlater
        · exact (published_congr (hspares.get? hnotin)).trans
            (purge_published h reason hstored hentry).1
        · exact hpublished other hlater

/-! ### Renewing the fragments -/

theorem renew_spares (s : LevelState) (lsp : Lsp) : Spares (· = lsp.id) s (s.renew lsp) := by
  rw [renew]
  split
  · exact .refl _ _
  · exact .originate s lsp

theorem renew_steps (hown : s.isOwn lsp.id = true) : Steps heard s (s.renew lsp) := by
  rw [renew]
  split
  · exact .refl
  · exact originate_steps hown

theorem isCurrent_of_published (h : s.published? lsp.id = some lsp.body) :
    s.isCurrent lsp = true := by
  obtain ⟨entry, hentry, hbody⟩ := Option.map_eq_some_iff.1 h
  obtain ⟨hstored, hlive⟩ := Option.filter_eq_some_iff.1 hentry
  have hflags : entry.lsp.flags = lsp.flags := congrArg Prod.fst hbody
  have htlvs : entry.lsp.tlvs = lsp.tlvs := congrArg Prod.snd hbody
  rw [isCurrent, hstored]
  simp [(Entry.isLive_iff.1 hlive).1, hflags, htlvs]

/-- What is built is current if and only if it is published, since a placeholder says nothing. -/
theorem isCurrent_iff (hguarded : s.Guarded) (hbuilt : s.Built pseudonode lsp) :
    s.isCurrent lsp = true ↔ s.published? lsp.id = some lsp.body := by
  constructor
  · intro hcurrent
    rw [isCurrent] at hcurrent
    split at hcurrent
    · rename_i entry hstored
      simp only [Bool.and_eq_true, Bool.not_eq_true', decide_eq_true_eq] at hcurrent
      obtain ⟨⟨hlive, hflags⟩, htlvs⟩ := hcurrent
      cases hguarded.genuine hstored hbuilt.own hlive with
      | originated _ nonzero made =>
          have hentry : entry.isLive = true := by
            rw [Entry.isLive, hlive, Entry.isPlaceholder, made]
            simp [Lsp.make, Lsp.encode, nonzero]
          rw [published_of_stored hstored hentry, Lsp.body, Lsp.body, hflags, htlvs]
      | requested _ _ blank => exact absurd (htlvs ▸ blank) hbuilt.nonempty
    · cases hcurrent
  · exact isCurrent_of_published

theorem mem_ofNode {database : Database} {node : NodeId} {entry : Entry} :
    entry ∈ database.ofNode node ↔ ∃ id, database.get? id = some entry ∧ id.node = node := by
  rw [Database.ofNode, Database.range, mem_select]
  simp only [decide_eq_true_eq, LspId.within_node_iff]

/-- The live LSPs of a node, each with what it says. -/
def publishedBy (s : LevelState) (node : NodeId) : List (LspId × LspFlags × LspTlvs) :=
  ((s.database.ofNode node).filter Entry.isLive).map fun entry => (entry.lsp.id, entry.lsp.body)

theorem publishedBy_sorted (h : s.Consistent) (node : NodeId) :
    (s.publishedBy node).Pairwise fun a b => Key.rank a.1 < Key.rank b.1 := by
  have hstored : ∀ p ∈ s.database.toList, p.2.lsp.id = p.1 :=
    fun p hmem => h.keys (Table.mem_toList.1 hmem)
  rw [publishedBy, List.pairwise_map]
  refine List.Pairwise.filter _ ?_
  rw [Database.ofNode, Database.range, Database.select, List.pairwise_map]
  refine List.Pairwise.filter _ (s.database.sorted.imp_of_mem fun {a b} ha hb hless => ?_)
  rwa [hstored a ha, hstored b hb]

theorem mem_publishedBy (h : s.Consistent) {node : NodeId} {body : LspFlags × LspTlvs} :
    (id, body) ∈ s.publishedBy node ↔ id.node = node ∧ s.published? id = some body := by
  constructor
  · intro hmem
    obtain ⟨entry, hentry, heq⟩ := List.mem_map.1 hmem
    cases heq
    obtain ⟨hselected, hlive⟩ := List.mem_filter.1 hentry
    obtain ⟨k, hstored, hnode⟩ := mem_ofNode.1 hselected
    obtain rfl := h.keys hstored
    exact ⟨hnode, published_of_stored hstored hlive⟩
  · rintro ⟨hnode, hpublished⟩
    obtain ⟨entry, hentry, rfl⟩ := Option.map_eq_some_iff.1 hpublished
    obtain ⟨hstored, hlive⟩ := Option.filter_eq_some_iff.1 hentry
    refine List.mem_map.2 ⟨entry, List.mem_filter.2 ⟨mem_ofNode.2 ⟨id, hstored, hnode⟩, hlive⟩, ?_⟩
    rw [h.keys hstored]

theorem liveIds_ofNode (s : LevelState) (node : NodeId) :
    liveIds (s.database.ofNode node) = (s.publishedBy node).map (·.1) := by
  rw [liveIds, publishedBy, List.map_map]
  rfl

theorem mem_liveIds_ofNode (h : s.Consistent) {node : NodeId} :
    id ∈ liveIds (s.database.ofNode node) ↔ id.node = node ∧ s.published? id ≠ none := by
  rw [liveIds_ofNode, List.mem_map, Option.ne_none_iff_exists']
  constructor
  · rintro ⟨⟨id, body⟩, hmem, rfl⟩
    obtain ⟨hnode, hpublished⟩ := (mem_publishedBy h).1 hmem
    exact ⟨hnode, body, hpublished⟩
  · rintro ⟨hnode, body, hpublished⟩
    exact ⟨(id, body), (mem_publishedBy h).2 ⟨hnode, hpublished⟩, rfl⟩

/-- Purging the live LSPs of a node but for those that are kept silences them. -/
theorem purgeNode_published (h : s.Consistent) (node : NodeId) (kept : LspId → Bool) :
    let stale := (liveIds (s.database.ofNode node)).filter fun id => !kept id
    (s.purgeAll stale .removed).Consistent ∧
      Spares (fun id => id.node = node ∧ kept id = false) s (s.purgeAll stale .removed) ∧
      ∀ id, id.node = node → kept id = false →
        (s.purgeAll stale .removed).published? id = none := by
  intro stale
  have hsub : stale.Sublist (liveIds (s.database.ofNode node)) := List.filter_sublist
  have hmem : ∀ id, id ∈ stale ↔ (id.node = node ∧ s.published? id ≠ none) ∧ kept id = false := by
    intro id
    rw [List.mem_filter, mem_liveIds_ofNode h, Bool.not_eq_true']
  obtain ⟨hconsistent, hspares, hsilent⟩ := purgeAll_spares h
    ((liveIds_range_nodup h _ _).sublist hsub)
    (fun id hid => liveIds_range_live h _ _ id (hsub.subset hid)) .removed
  refine ⟨hconsistent, hspares.mono fun id hid => ?_, fun id hnode hkept => ?_⟩
  · obtain ⟨⟨hnode, -⟩, hkept⟩ := (hmem id).1 hid
    exact ⟨hnode, hkept⟩
  · by_cases hpublished : s.published? id = none
    · have hnot : id ∉ stale := fun hcontra => ((hmem id).1 hcontra).1.2 hpublished
      exact (published_congr (hspares.get? hnot)).trans hpublished
    · exact hsilent id ((hmem id).2 ⟨⟨hnode, hpublished⟩, hkept⟩)

theorem purgeNode_silent (h : s.Consistent) (node : NodeId) :
    Spares (fun id => id.node = node) s (s.purgeNode node) ∧
      ∀ id, id.node = node → (s.purgeNode node).published? id = none := by
  obtain ⟨-, hspares, hsilent⟩ := purgeNode_published h node fun _ => false
  have hall : (liveIds (s.database.ofNode node)).filter (fun _ => !false) =
      liveIds (s.database.ofNode node) := List.filter_eq_self.2 fun _ _ => rfl
  rw [hall] at hspares hsilent
  exact ⟨hspares.mono fun _ hid => hid.1, fun id hnode => hsilent id hnode rfl⟩

/-! ### The whole generation -/

theorem endGeneration_spares (s : LevelState) (pseudonode : UInt8) (lastRun : Option Nat) :
    Spares (fun _ => False) s
      { s with
        generators := s.generators.modify pseudonode fun generator =>
          { generator with lastRun := lastRun } } := by
  refine ⟨rfl, fun _ => rfl, fun _ _ => rfl, fun other hcontains => ?_, fun other hpending => ?_⟩
  · dsimp only
    rw [Table.contains, Table.get?_modify_eq_map, Option.isSome_map]
    exact hcontains
  · rw [Pending, kept?] at hpending ⊢
    rw [Table.get?_modify_eq_map]
    cases hstored : s.generators.get? other with
    | none => simp [hstored] at hpending
    | some generator =>
        rw [hstored] at hpending
        by_cases hother : other = pseudonode <;> simpa [hother] using hpending

end LevelState

end LinkState
