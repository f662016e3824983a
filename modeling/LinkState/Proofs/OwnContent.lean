import LinkState.Proofs.OwnLsps

/-!
# What own LSPs say

A live own LSP says what was built for it last.  Whatever is heard from the network,
each own LSP goes on to say the same, or says what would be built for it now, unless
its sequence numbers are used up or a new generation is pending.
-/

namespace LinkState

/-- What an LSP says: its flags and its fields. -/
def Lsp.body (lsp : Lsp) : LspFlags × LspTlvs :=
  (lsp.flags, lsp.tlvs)

namespace LevelState

variable {s t u : LevelState} {id : LspId} {circuit : CircuitId} {lsp : Lsp}

/-- What the stored copy of an LSP says while it is live. -/
def published? (s : LevelState) (id : LspId) : Option (LspFlags × LspTlvs) :=
  ((s.database.get? id).filter Entry.isLive).map (·.lsp.body)

/-- The fragments that would be built for a pseudonode now, each with what it would say. -/
def bodies (s : LevelState) (pseudonode : UInt8) : List (LspId × LspFlags × LspTlvs) :=
  (s.build pseudonode).map fun lsp => (lsp.id, lsp.body)

def built? (s : LevelState) (id : LspId) : Option (LspFlags × LspTlvs) :=
  Table.find id (s.bodies id.pseudonode)

/-- The sequence numbers of an LSP are used up. -/
def Exhausted (s : LevelState) (id : LspId) : Prop :=
  s.storedSeqno id = 0xFFFFFFFF

/-! ### What is built -/

theorem bodies_eq (s : LevelState) (pseudonode : UInt8) :
    s.bodies pseudonode =
      match s.ownTlvs? pseudonode with
      | none => []
      | some tlvs =>
          (tlvs.fragments s.fragmentRoom maxFragments).1.mapIdx fun index fields =>
            (⟨s.config.system, pseudonode, UInt8.ofNat index⟩,
              s.ownFlags ⟨s.config.system, pseudonode, UInt8.ofNat index⟩, fields) := by
  rw [bodies, build]
  cases s.ownTlvs? pseudonode with
  | none => rfl
  | some tlvs =>
      dsimp only
      rw [List.mapIdx_eq_zipIdx_map, List.mapIdx_eq_zipIdx_map, List.map_map]
      rfl

/-- What is built for a pseudonode depends on what is given from outside only. -/
theorem bodies_congr {pseudonode : UInt8} (hlevel : t.level = s.level)
    (hconfig : t.config = s.config) (hadvertised : pseudonode = 0 → t.advertised = s.advertised)
    (helections : pseudonode ≠ 0 →
      t.elections.get? pseudonode = s.elections.get? pseudonode) :
    t.bodies pseudonode = s.bodies pseudonode := by
  have htlvs : t.ownTlvs? pseudonode = s.ownTlvs? pseudonode := by
    rw [ownTlvs?, ownTlvs?]
    split
    · rename_i hzero
      rw [hadvertised hzero, hlevel]
    · rename_i hother
      rw [helections hother, hconfig]
  have hflags : ∀ fragment, t.ownFlags ⟨s.config.system, pseudonode, fragment⟩ =
      s.ownFlags ⟨s.config.system, pseudonode, fragment⟩ := by
    intro fragment
    rw [ownFlags, ownFlags, hconfig]
    by_cases hzero : pseudonode = 0
    · rw [hadvertised hzero]
    · simp [hzero]
  rw [bodies_eq, bodies_eq, htlvs, fragmentRoom, fragmentRoom, hconfig]
  simp only [hflags]

theorem Spares.built? {touched : LspId → Prop} (h : Spares touched s t) (id : LspId) :
    t.built? id = s.built? id := by
  rw [LevelState.built?, LevelState.built?, bodies_congr h.level h.config
    (fun _ => congrArg Surroundings.advertised h.surroundings)
    fun _ => congrArg (fun outside => outside.elections.get? id.pseudonode) h.surroundings]

theorem supports?_congr (h : t.surroundings = s.surroundings) (pseudonode : UInt8) :
    t.supports? pseudonode = s.supports? pseudonode := by
  rw [supports?, supports?,
    show t.elections = s.elections from congrArg Surroundings.elections h]

theorem Spares.supports? {touched : LspId → Prop} (h : Spares touched s t) (pseudonode : UInt8) :
    t.supports? pseudonode = s.supports? pseudonode :=
  supports?_congr h.surroundings pseudonode

/-- Nothing is built for a pseudonode for which the system is not elected. -/
theorem bodies_unsupported {pseudonode : UInt8} (h : s.supports? pseudonode ≠ some true) :
    s.bodies pseudonode = [] := by
  rw [supports?] at h
  split at h
  · exact absurd rfl h
  · rename_i hother
    have hnone : s.ownTlvs? pseudonode = none := by
      rw [ownTlvs?, if_neg hother]
      cases helection : s.elections.get? pseudonode with
      | none => rfl
      | some election => simp_all [Option.filter]
    rw [bodies_eq, hnone]

theorem built?_unsupported (h : s.supports? id.pseudonode ≠ some true) : s.built? id = none := by
  rw [built?, bodies_unsupported h]
  rfl

/-! ### What is published -/

theorem published_of_stored {entry : Entry} (hstored : s.database.get? id = some entry)
    (hlive : entry.isLive = true) : s.published? id = some entry.lsp.body := by
  simp [published?, hstored, Option.filter, hlive]

theorem published_of_ended {entry : Entry} (hstored : s.database.get? id = some entry)
    (hended : entry.isLive = false) : s.published? id = none := by
  simp [published?, hstored, Option.filter, hended]

theorem published_congr (h : t.database.get? id = s.database.get? id) :
    t.published? id = s.published? id := by
  rw [published?, published?, h]

theorem storedSeqno_congr (h : t.database.get? id = s.database.get? id) :
    t.storedSeqno id = s.storedSeqno id := by
  rw [storedSeqno, storedSeqno, h]

/-- A live LSP is published once it is installed, and a purge or a placeholder ends what
was published before. -/
theorem Installs.published {received : Bool} {flooding : Flooding}
    (h : Installs s lsp received flooding t) :
    t.storedSeqno lsp.id = lsp.seqno ∧
      t.published? lsp.id =
        if lsp.isExpired = false ∧ lsp.seqno ≠ 0 then some lsp.body else none := by
  obtain ⟨entry, hstored, hlsp, -⟩ := h.stored
  have hlive : entry.isLive = true ↔ lsp.isExpired = false ∧ lsp.seqno ≠ 0 := by
    simp [Entry.isLive, Entry.isPurged, Entry.isPlaceholder, hlsp]
  refine ⟨(storedSeqno_of_stored hstored).trans (congrArg Lsp.seqno hlsp), ?_⟩
  split
  · rename_i hcase
    exact (published_of_stored hstored (hlive.2 hcase)).trans (congrArg (some ·.body) hlsp)
  · rename_i hcase
    exact published_of_ended hstored (by simpa using mt hlive.1 hcase)

/-! ### What becomes of own LSPs -/

/-- Between two states, an LSP goes on to say the same or comes to say what is built for
it, unless its sequence numbers are used up or a generation is pending. -/
structure Upheld (s t : LevelState) (id : LspId) : Prop where
  exhausted : s.Exhausted id → t.Exhausted id ∨ t.Pending id.pseudonode
  published : t.Exhausted id ∨ t.Pending id.pseudonode ∨ t.published? id = s.published? id ∨
    t.published? id = s.built? id

namespace Upheld

theorem of_get? (h : t.database.get? id = s.database.get? id) : Upheld s t id where
  exhausted := fun hexhausted => .inl ((storedSeqno_congr h).trans hexhausted)
  published := .inr (.inr (.inl (published_congr h)))

/-- Nothing was published, and nothing is. -/
theorem of_silent (hbefore : s.published? id = none) (hafter : t.published? id = none)
    (hexhausted : s.Exhausted id → t.Exhausted id ∨ t.Pending id.pseudonode) :
    Upheld s t id where
  exhausted := hexhausted
  published := .inr (.inr (.inl (hafter.trans hbefore.symm)))

theorem trans {touched others : LspId → Prop} (h : Upheld s t id) (h' : Upheld t u id)
    (hspares : Spares touched s t) (hspares' : Spares others t u) : Upheld s u id where
  exhausted := fun hexhausted => (h.exhausted hexhausted).elim h'.exhausted
    fun hpending => .inr (hspares'.pending _ hpending)
  published := by
    rcases h'.published with hexhausted | hpending | hsame | hbuilt
    · exact .inl hexhausted
    · exact .inr (.inl hpending)
    · rcases h.published with hexhausted | hpending | hsame' | hbuilt
      · exact (h'.exhausted hexhausted).imp_right .inl
      · exact .inr (.inl (hspares'.pending _ hpending))
      · exact .inr (.inr (.inl (hsame.trans hsame')))
      · exact .inr (.inr (.inr (hsame.trans hbuilt)))
    · exact .inr (.inr (.inr (hbuilt.trans (hspares.built? id))))

end Upheld

/-- Between two states, all own LSPs are upheld, and no pending generation is given up. -/
structure Steady (s t : LevelState) : Prop where
  spares : Spares (fun _ => True) s t
  upheld : ∀ {id}, s.isOwn id = true → Upheld s t id

namespace Steady

theorem trans (h : Steady s t) (h' : Steady t u) : Steady s u where
  spares := h.spares.trans h'.spares
  upheld := fun hown => (h.upheld hown).trans (h'.upheld (by rwa [isOwn, h.spares.config]))
    h.spares h'.spares

/-- A change of one LSP upholds all own LSPs if it upholds this one. -/
theorem of_spares (h : Spares (· = id) s t) (hupheld : s.isOwn id = true → Upheld s t id) :
    Steady s t where
  spares := h.mono fun _ _ => trivial
  upheld := fun {other} hown => by
    by_cases hid : other = id
    · exact hid ▸ hupheld (hid ▸ hown)
    · exact .of_get? (h.get? hid)

/-- What leaves the database as it is upholds all LSPs. -/
theorem of_database {touched : LspId → Prop} (h : Spares touched s t)
    (hdatabase : t.database = s.database) : Steady s t where
  spares := h.mono fun _ _ => trivial
  upheld := fun _ => .of_get? (by rw [hdatabase])

theorem refl (s : LevelState) : Steady s s :=
  .of_database (.refl (fun _ => False) s) rfl

theorem note (s : LevelState) (counters : Counters) (trace : List Event) :
    Steady s { s with counters := counters, trace := trace } :=
  .of_database (.note (fun _ => False) s counters trace) rfl

end Steady

/-! ### Single changes -/

theorem max_eq_last {a b : UInt32} :
    max a b = 0xFFFFFFFF ↔ a = 0xFFFFFFFF ∨ b = 0xFFFFFFFF := by
  have ha := a.toNat_lt
  have hb := b.toNat_lt
  have hlast : (0xFFFFFFFF : UInt32).toNat = 0xFFFFFFFF := rfl
  rw [← UInt32.toNat_inj, ← UInt32.toNat_inj, ← UInt32.toNat_inj, toNat_max, hlast]
  omega

theorem forcePurge_published (s : LevelState) (lsp : Lsp) (reason : PurgeReason) :
    (s.forcePurge lsp reason).published? lsp.id = none ∧
      (s.Exhausted lsp.id ∨ lsp.seqno = 0xFFFFFFFF →
        (s.forcePurge lsp reason).Exhausted lsp.id) := by
  obtain ⟨hseqno, hpublished⟩ := (s.forcePurge_installs lsp reason).published
  exact ⟨hpublished, fun hexhausted => hseqno.trans (max_eq_last.2 hexhausted)⟩

theorem purge_published (h : s.Consistent) {entry : Entry} (reason : PurgeReason)
    (hstored : s.database.get? id = some entry) (hlive : entry.isPurged = false) :
    (s.purge id reason).published? id = none ∧
      (s.Exhausted id → (s.purge id reason).Exhausted id) := by
  obtain ⟨hseqno, hpublished⟩ := (purge_installs reason hstored hlive
    (zeroAgeTimer_of_live h hstored hlive)).published
  have hid : (s.purgeOf entry.lsp).id = id := h.keys hstored
  rw [hid] at hseqno hpublished
  exact ⟨hpublished, fun hexhausted =>
    hseqno.trans ((storedSeqno_of_stored hstored).symm.trans hexhausted)⟩

/-- What is deleted is published no more. -/
theorem delete_published {entry : Entry} (hstored : s.database.get? id = some entry) :
    (s.delete id).published? id = none := by
  obtain ⟨trace, heq⟩ := remove_eq hstored
  have hremoved : (s.remove id).database.get? id = none := by
    rw [heq]
    exact Table.get?_erase_self _ _
  have hgone : (s.delete id).database.get? id = none := by
    simp only [delete, hstored]
    split
    · obtain ⟨generators, timers, trace, heq⟩ := ((s.remove id).tell
        (.lspChanged .deleted s.level entry.lsp.mention)).scheduleGeneration_eq id.pseudonode 0
      rw [heq]
      exact hremoved
    · exact hremoved
  rw [published?, hgone]
  rfl

end LevelState

end LinkState
