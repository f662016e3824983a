import LinkState.Proofs.ForeignLsps
import LinkState.Proofs.LspGrammar

/-!
# Purges that are forced

A copy of an own LSP that this system does not stand for is answered by a purge, which
takes the greater one of the copy's sequence number and the stored one.  Only if the stored
one is greater, the copy is older than the purge.  Otherwise both have one sequence number,
and with one sequence number a live LSP counts as newer than a purge: a system that has
stored the purge accepts the copy again, and this system has to purge it once more.
-/

namespace LinkState

/-- What was read from octets is no purge if the octets are not those of a purge. -/
theorem Lsp.Decoded.raw_ne_make {lsp : Lsp} (h : lsp.Decoded) (hlive : lsp.isExpired = false)
    (now : Nat) (level : Level) (id : LspId) (seqno : UInt32) (flags : LspFlags) (tlvs : LspTlvs) :
    lsp.raw ≠ (Lsp.make now level 0 id seqno flags tlvs).raw := by
  intro hraw
  obtain ⟨time, hdecode⟩ := h
  have hlifetime := (Pdu.standsIn_of_decode hdecode).lifetime
  have hzero : (Lsp.make now level 0 id seqno flags tlvs).raw.extract 10 12 = Octets.ofU16 0 := rfl
  rw [hraw, hzero] at hlifetime
  have heq : (0 : UInt16) = lsp.lifetime := Octets.ofU16_injective hlifetime
  simp [Lsp.isExpired, ← heq] at hlive

namespace LevelState

variable {s t : LevelState} {circuit : CircuitId} {lsp : Lsp} {reason : PurgeReason}

/-! ### Copies that are answered by a purge -/

/-- A live copy of an own LSP is answered by a purge: this system is not elected for the
pseudonode, or it is and has no such LSP.  A purge that is in place already, and than which
the copy is not newer, is left in place. -/
inductive Stray (s : LevelState) (lsp : Lsp) : PurgeReason → Prop
  | unsupported (election : s.supports? lsp.id.pseudonode = some false)
      (unpurged : ∀ entry, s.known? lsp.id = some entry → entry.isPurged = true →
        s.recency lsp = .newer) : Stray s lsp .unsupported
  | removed (election : s.supports? lsp.id.pseudonode = some true)
      (gone : ∀ entry, s.known? lsp.id = some entry →
        entry.isPurged = true ∧ s.recency lsp = .newer) : Stray s lsp .removed

theorem receiveFrom_own (hvalid : lsp.Valid) (hown : s.isOwn lsp.id = true)
    (hlive : lsp.isExpired = false) (circuit : CircuitId) :
    s.receiveFrom circuit lsp = (s.answerOwn? circuit lsp).getD (s.judge circuit lsp) := by
  simp [receiveFrom, hown, hlive, hvalid.intact]

/-- A stray copy is answered by a forced purge. -/
theorem answerOwn_stray (h : s.Stray lsp reason) (hlive : lsp.isExpired = false)
    (circuit : CircuitId) : s.answerOwn? circuit lsp = some (s.forcePurge lsp reason) := by
  cases h with
  | unsupported election unpurged =>
      rw [answerOwn?, election]
      cases hknown : s.known? lsp.id with
      | none => simp [hlive]
      | some entry =>
          have hrecency := recency_of_known hknown
          rw [hknown, Option.map_some] at hrecency
          cases hpurged : entry.isPurged with
          | false => simp [hlive, hpurged]
          | true => simp [hlive, hrecency, unpurged entry hknown hpurged]
  | removed election gone =>
      rw [answerOwn?, election]
      cases hknown : s.known? lsp.id with
      | none =>
          have hnewer : Recency.ofLsp none lsp = .newer := rfl
          simp [hlive, hnewer]
      | some entry =>
          obtain ⟨hpurged, hnewer⟩ := gone entry hknown
          have hrecency := recency_of_known hknown
          rw [hknown, Option.map_some, hnewer] at hrecency
          simp [hlive, hrecency, hpurged]

/-! ### How the purge compares with the copy -/

theorem max_eq_left_of_lt {a b : UInt32} (h : b < a) : max a b = a :=
  if_neg (UInt32.not_le.2 h)

theorem max_eq_right_of_not_lt {a b : UInt32} (h : ¬ b < a) : max a b = b :=
  if_pos (UInt32.not_lt.1 h)

/-- The purge outranks the copy just if the stored copy did. -/
theorem recency_forcedPurge (hdecoded : lsp.Decoded) (hlive : lsp.isExpired = false) :
    Recency.ofLsp (some (s.forcedPurge lsp)) lsp =
      if lsp.seqno < s.storedSeqno lsp.id then .older else .newer := by
  have hraw : ¬ some lsp.raw = some (s.forcedPurge lsp).raw := fun heq =>
    hdecoded.raw_ne_make hlive _ _ _ _ _ _ (Option.some.inj heq)
  have hlifetime : lsp.lifetime ≠ 0 := by simpa [Lsp.isExpired] using hlive
  simp only [Recency.ofLsp, Recency.compare, hraw, and_false, if_false]
  show Recency.ofFields (max (s.storedSeqno lsp.id) lsp.seqno) 0 lsp.seqno lsp.lifetime = _
  split
  · rename_i hless
    rw [max_eq_left_of_lt hless]
    exact ofFields_eq_older.2 hless
  · rename_i hless
    rw [max_eq_right_of_not_lt hless]
    simp [Recency.ofFields, hlifetime, UInt32.lt_irrefl]

/-- A copy that the purge does not outrank is answered by the same purge again. -/
theorem stray_again (h : s.Stray lsp reason) (hdecoded : lsp.Decoded)
    (hlive : lsp.isExpired = false) (hless : ¬ lsp.seqno < s.storedSeqno lsp.id) :
    (s.forcePurge lsp reason).Stray lsp reason ∧
      (s.forcePurge lsp reason).forcedPurge lsp = s.forcedPurge lsp := by
  have hinstalls := s.forcePurge_installs lsp reason
  obtain ⟨entry, hstored, hlsp, -⟩ := hinstalls.stored
  have hstored' : (s.forcePurge lsp reason).database.get? lsp.id = some entry := hstored
  obtain ⟨counters, history, number, trace, heq⟩ := hinstalls
  have hsupports : (s.forcePurge lsp reason).supports? lsp.id.pseudonode =
      s.supports? lsp.id.pseudonode := by rw [heq]; rfl
  have hnewer : (s.forcePurge lsp reason).recency lsp = .newer := by
    rw [recency_of_stored hstored', hlsp, recency_forcedPurge hdecoded hlive, if_neg hless]
  have hpurged : ∀ found, (s.forcePurge lsp reason).known? lsp.id = some found →
      found.isPurged = true := by
    intro found hfound
    obtain rfl := Option.some.inj (hstored'.symm.trans (stored_of_known hfound).1)
    rw [Entry.isPurged, hlsp]
    rfl
  constructor
  · cases h with
    | unsupported election => exact .unsupported (hsupports.trans election) fun _ _ _ => hnewer
    | removed election =>
        exact .removed (hsupports.trans election) fun found hfound =>
          ⟨hpurged found hfound, hnewer⟩
  · have hseqno : (s.forcePurge lsp reason).storedSeqno lsp.id =
        max (s.storedSeqno lsp.id) lsp.seqno := by
      rw [storedSeqno, hstored', Option.map_some, Option.getD_some, hlsp]
      rfl
    have hmax : max (max (s.storedSeqno lsp.id) lsp.seqno) lsp.seqno =
        max (s.storedSeqno lsp.id) lsp.seqno := by
      rw [max_eq_right_of_not_lt hless]
      exact max_eq_right_of_not_lt (UInt32.lt_irrefl _)
    rw [forcedPurge, forcedPurge, hseqno, hmax, heq]
    rfl

theorem forcePurge_shows (hflagged : s.Flagged) (lsp : Lsp) (reason : PurgeReason) :
    (s.forcePurge lsp reason).Shows lsp.id
      (fun c => decide ((s.forcedPurge lsp).seqno ≠ 0) || s.sent lsp.id c) fun _ => none :=
  Installs.flooded_shows hflagged (s.forcePurge_installs lsp reason) rfl

variable {level : Level} {config : Config} {now : Nat}

/-- In every reachable state a live copy of an own LSP that this system does not stand for is
answered by a purge, which is stored as its own and, unless its sequence number is zero, sent
on all circuits.  The purge takes the greater one of the copy's sequence number and the stored
one.  Wherever the purge is stored, the copy is older if the stored number was greater, and
newer otherwise; then it is purged again here when it comes again.  Nothing changes for other
LSPs. -/
theorem forced_purge_recency (h : Reachable Proper level config now s)
    (hcircuit : s.circuits.contains circuit = true) (hlevel : lsp.level = s.level)
    (hvalid : lsp.Valid) (hdecoded : lsp.Decoded) (hown : s.isOwn lsp.id = true)
    (hlive : lsp.isExpired = false) (hstray : s.Stray lsp reason) :
    ∃ t, s.receiveLsp (some circuit) lsp = (t, none) ∧ t.Stores (s.forcedPurge lsp) false ∧
      (s.forcedPurge lsp).isExpired = true ∧
      (s.forcedPurge lsp).seqno = max (s.storedSeqno lsp.id) lsp.seqno ∧
      t.Shows lsp.id (fun c => decide ((s.forcedPurge lsp).seqno ≠ 0) || s.sent lsp.id c)
        (fun _ => none) ∧
      (∀ (other : LevelState) entry, other.database.get? lsp.id = some entry →
        entry.lsp = s.forcedPurge lsp →
          other.recency lsp = if lsp.seqno < s.storedSeqno lsp.id then .older else .newer) ∧
      (¬ lsp.seqno < s.storedSeqno lsp.id →
        t.Stray lsp reason ∧ t.forcedPurge lsp = s.forcedPurge lsp) ∧
      t.circuits = s.circuits ∧ ∀ id, id ≠ lsp.id → t.view id = s.view id := by
  have hspares := Spares.forcePurge s lsp reason
  refine ⟨s.forcePurge lsp reason, ?_, (s.forcePurge_installs lsp reason).stores, rfl, rfl,
    forcePurge_shows h.flagged lsp reason, fun other entry hstored hlsp => ?_,
    stray_again hstray hdecoded hlive, hspares.circuits, hspares.view⟩
  · have hanswer : s.receiveFrom circuit lsp = s.forcePurge lsp reason := by
      rw [receiveFrom_own hvalid hown hlive, answerOwn_stray hstray hlive, Option.getD_some]
    rw [receiveLsp_registered hcircuit hlevel, hanswer]
  · rw [recency_of_stored hstored, hlsp, recency_forcedPurge hdecoded hlive]

/-! ### A purge that does not prevail -/

def attachedTo (system : SystemId) : LevelState :=
  (start .one (Config.ofSystem system) 0).perform (.addCircuit ⟨1, "eth1", .broadcast⟩)

theorem attachedTo_reachable (system : SystemId) :
    Reachable Proper .one (Config.ofSystem system) 0 (attachedTo system) :=
  Reachable.perform .start trivial

/-- A fragment that the system with the number one does not originate. -/
def strayFragment : Lsp :=
  Lsp.make 0 .one 1200 ⟨⟨0, 0, 0, 0, 0, 1⟩, 0, 1⟩ 4 .none .empty

theorem strayFragment_decoded : strayFragment.Decoded :=
  ⟨0, Lsp.decode_raw_make 0 0 .one 1200 _ 4 (by decide) (by decide) (by decide)⟩

/-- The purge of a stray fragment does not outrank it: the fragment is newer than the purge.
A neighbour that has stored the purge in place of the fragment takes the fragment for a newer
one when it comes again. -/
theorem forced_purge_outranked :
    Reachable Proper .one (Config.ofSystem ⟨0, 0, 0, 0, 0, 1⟩) 0
      (attachedTo ⟨0, 0, 0, 0, 0, 1⟩) ∧
    strayFragment.Valid ∧ strayFragment.Decoded ∧ strayFragment.isExpired = false ∧
    strayFragment.seqno < 0xFFFFFFFF ∧
    (attachedTo ⟨0, 0, 0, 0, 0, 1⟩).Stray strayFragment .removed ∧
    (let purged := (attachedTo ⟨0, 0, 0, 0, 0, 1⟩).perform (.receiveLsp (some 1) strayFragment)
    (purged.database.get? strayFragment.id).map (fun entry => (entry.isPurged, entry.received)) =
        some (true, false) ∧
      purged.recency strayFragment = .newer ∧
      ∃ purge, (purged.database.get? strayFragment.id).map (·.lsp) = some purge ∧
        let neighbour := ((attachedTo ⟨0, 0, 0, 0, 0, 2⟩).perform
          (.receiveLspOctets (some 1) strayFragment.raw)).perform
            (.receiveLspOctets (some 1) purge.raw)
        ((neighbour.database.get? strayFragment.id).map (·.isPurged) = some true ∧
          ((neighbour.perform (.receiveLspOctets (some 1) strayFragment.raw)).database.get?
            strayFragment.id).map (·.isPurged) = some false)) := by
  refine ⟨attachedTo_reachable _, ⟨by decide +kernel, by decide +kernel⟩, strayFragment_decoded,
    by decide +kernel, by decide +kernel, .removed (by decide +kernel) ?_, by decide +kernel,
    by decide +kernel, (attachedTo ⟨0, 0, 0, 0, 0, 1⟩).forcedPurge strayFragment,
    by decide +kernel, by decide +kernel, by decide +kernel⟩
  intro entry hknown
  have hunknown : (attachedTo ⟨0, 0, 0, 0, 0, 1⟩).known? strayFragment.id = none := by
    decide +kernel
  rw [hunknown] at hknown
  cases hknown

/-- A level that has originated an LSP of a pseudonode for which it is not elected. -/
def usurping : LevelState :=
  ((attachedTo ⟨0, 0, 0, 0, 0, 1⟩).perform
    (.setElection 5 (some ⟨1, false, Table.empty⟩))).perform
      (.receiveLsp none (Lsp.make 0 .one 1200 ⟨⟨0, 0, 0, 0, 0, 1⟩, 5, 0⟩ 6 .none .empty))

/-- A copy with a lower sequence number is older than the purge that answers it. -/
theorem forced_purge_recency_usurping :
    let copy := Lsp.make 0 .one 1200 ⟨⟨0, 0, 0, 0, 0, 1⟩, 5, 0⟩ 3 .none .empty
    usurping.circuits.contains 1 = true ∧ copy.level = usurping.level ∧ copy.Valid ∧
      copy.Decoded ∧ usurping.isOwn copy.id = true ∧ copy.isExpired = false ∧
      usurping.Stray copy .unsupported ∧
      ∃ t, usurping.receiveLsp (some 1) copy = (t, none) ∧
        (usurping.forcedPurge copy).seqno = 7 ∧
        t.flooding.isSet .srm 1 copy.id = true ∧ t.recency copy = .older := by
  intro copy
  have hvalid : copy.Valid := ⟨by decide +kernel, by decide +kernel⟩
  have hdecoded : copy.Decoded :=
    ⟨0, Lsp.decode_raw_make 0 0 .one 1200 _ 3 (by decide) (by decide) (by decide)⟩
  have hcircuit : usurping.circuits.contains 1 = true := by decide +kernel
  have hlevel : copy.level = usurping.level := by decide +kernel
  have hown : usurping.isOwn copy.id = true := by decide +kernel
  have hlive : copy.isExpired = false := by decide +kernel
  have hstray : usurping.Stray copy .unsupported := by
    refine .unsupported (by decide +kernel) fun entry hknown hpurged => ?_
    have hlive : (usurping.known? copy.id).map (·.isPurged) = some false := by decide +kernel
    rw [hknown, Option.map_some, hpurged] at hlive
    cases hlive
  have hreachable : Reachable Proper .one (Config.ofSystem ⟨0, 0, 0, 0, 0, 1⟩) 0 usurping :=
    Reachable.perform (Reachable.perform (attachedTo_reachable _) trivial) trivial
  obtain ⟨t, hreceive, hstores, -, -, hshows, hrecency, -, hcircuits, -⟩ :=
    forced_purge_recency hreachable hcircuit hlevel hvalid hdecoded hown hlive hstray
  obtain ⟨entry, hstored, hshape⟩ := Option.map_eq_some_iff.1 hstores
  have hlsp : entry.lsp = usurping.forcedPurge copy := congrArg Entry.Shape.lsp hshape
  have hcontains : t.circuits.contains 1 = true := hcircuits ▸ hcircuit
  refine ⟨hcircuit, hlevel, hvalid, hdecoded, hown, hlive, hstray, t, hreceive,
    by decide +kernel, (hshows 1 hcontains).1.trans (by decide +kernel), ?_⟩
  exact (hrecency t entry hstored hlsp).trans (by decide +kernel)

end LevelState

end LinkState
