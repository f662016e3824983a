import LinkState.Proofs.Locality
import LinkState.Proofs.LspOctets
import LinkState.Proofs.Reachability

/-!
# What flooding flags are about

There are flags for the circuits that are known and for no others.  An LSP that
is marked for sending is stored with a sequence number other than zero, so that
there is something to send.  An LSP that is marked for acknowledgement is stored,
and the summary to acknowledge has the stored sequence number unless the entry is
a placeholder.
-/

namespace LinkState

namespace LevelState

theorem get?_flooded (flooding : Flooding) (summary : LspSummary) (except : Option CircuitId)
    (c : CircuitId) :
    (flooded flooding summary except).get? c =
      (flooding.get? c).map fun flags =>
        if some c = except then flags else (flags.set .srm summary).clear .ssn summary.id := by
  rw [flooded, Flooding.get?_clearAll, Flooding.get?_setAll]
  cases flooding.get? c with
  | none => rfl
  | some flags => by_cases h : some c = except <;> simp [h]

variable {heard : Lsp → Prop} {s t : LevelState}

theorem get?_acceptedFlags (s : LevelState) (circuit c : CircuitId) (lsp : Lsp) :
    (s.acceptedFlags circuit lsp).get? c =
      (s.flooding.get? c).map fun flags =>
        if c = circuit then
          if s.isPointToPoint circuit then (flags.clear .srm lsp.id).set .ssn (s.summaryOf lsp)
          else (flags.clear .srm lsp.id).clear .ssn lsp.id
        else (flags.set .srm (s.summaryOf lsp)).clear .ssn lsp.id := by
  rw [acceptedFlags, get?_flooded]
  cases s.isPointToPoint circuit <;>
    simp only [if_true, if_false, Bool.false_eq_true, Flooding.get?_set, Flooding.get?_clear] <;>
    cases s.flooding.get? c <;> by_cases h : c = circuit <;> simp [h] <;> rfl

theorem get?_acknowledgedFlags (s : LevelState) (circuit c : CircuitId) (lsp : Lsp) :
    (s.acknowledgedFlags circuit lsp).get? c =
      (s.flooding.get? c).map fun flags =>
        if c = circuit ∧ s.isPointToPoint circuit = true then flags.set .ssn (s.summaryOf lsp)
        else flags := by
  rw [acknowledgedFlags]
  split
  · rename_i hkind
    rw [Flooding.get?_set]
    simp [hkind]
  · rename_i hkind
    simp [hkind]

/-! ### Stored sequence numbers -/

def seqno? (s : LevelState) (id : LspId) : Option UInt32 :=
  (s.database.get? id).map (·.lsp.seqno)

theorem seqno?_of_stored {id : LspId} {entry : Entry} (h : s.database.get? id = some entry) :
    s.seqno? id = some entry.lsp.seqno := by
  rw [seqno?, h]
  rfl

theorem Installs.seqno? {lsp : Lsp} {received : Bool} {flooding : Flooding}
    (h : Installs s lsp received flooding t) :
    t.seqno? = Function.update s.seqno? lsp.id (some lsp.seqno) := by
  obtain ⟨counters, history, number, trace, rfl⟩ := h
  funext id
  by_cases hid : id = lsp.id
  · subst hid
    rw [Function.update_self, LevelState.seqno?, Table.get?_insert_self, Option.map_some, armed_lsp]
  · rw [Function.update_of_ne hid, LevelState.seqno?, Table.get?_insert_of_ne _ _ hid]
    rfl

/-- An LSP that is newer than a stored one with a sequence number other than zero
has such a sequence number, too. -/
theorem seqno_ne_zero_of_newer {lsp : Lsp} {seqno : UInt32} (h : s.recency lsp = .newer)
    (hstored : s.seqno? lsp.id = some seqno) (hseqno : seqno ≠ 0) : lsp.seqno ≠ 0 := by
  obtain ⟨entry, hentry, rfl⟩ := Option.map_eq_some_iff.1 hstored
  intro hzero
  rw [recency, hentry] at h
  have holder : Recency.ofFields entry.lsp.seqno entry.lsp.lifetime lsp.seqno lsp.lifetime =
      .older := by
    have hpos : (0 : UInt32) < entry.lsp.seqno := UInt32.pos_iff_ne_zero.2 hseqno
    have hnot : ¬ entry.lsp.seqno < 0 := UInt32.not_lt_zero
    rw [Recency.ofFields, hzero, if_neg hnot, if_pos hpos]
  simp only [Option.map_some, Recency.ofLsp, Recency.compare, holder] at h
  split at h <;> cases h

theorem max_ne_zero {a b : UInt32} (h : a ≠ 0) : max a b ≠ 0 := by
  intro hmax
  simp only [max] at hmax
  split at hmax
  · rename_i hle
    rw [hmax, UInt32.le_zero_iff] at hle
    exact h hle
  · exact h hmax

/-- A copy that is the same as another has its sequence number. -/
theorem seqno_of_same {stored lsp : Lsp} (h : Recency.ofLsp (some stored) lsp = .same)
    (hstored : stored.Carries) (hlsp : lsp.Carries) : lsp.seqno = stored.seqno := by
  simp only [Recency.ofLsp, Recency.compare] at h
  split at h
  · rename_i hraw
    exact hlsp.seqno_eq hstored (Option.some.inj hraw.2)
  · rw [Recency.ofFields] at h
    split at h
    · cases h
    split at h
    · cases h
    rename_i hlow hhigh
    exact UInt32.le_antisymm (UInt32.not_lt.1 hlow) (UInt32.not_lt.1 hhigh)

/-- A copy of a stored LSP has its sequence number. -/
theorem seqno?_of_same {lsp : Lsp} (h : s.recency lsp = .same) (hlsp : lsp.Carries)
    (hcarries : ∀ {id entry}, s.database.get? id = some entry → entry.lsp.Carries) :
    s.seqno? lsp.id = some lsp.seqno := by
  cases hentry : s.database.get? lsp.id with
  | none =>
      rw [recency, hentry] at h
      cases h
  | some entry =>
      rw [recency_of_stored hentry] at h
      rw [seqno?_of_stored hentry, seqno_of_same h (hcarries hentry) hlsp]

/-! ### Octets that carry sequence numbers -/

theorem completed_carries {lsp : Lsp} (h : lsp.Carries) : (s.completed lsp).Carries := by
  rw [completed]
  split
  · exact Lsp.encode_carries _ _
  · exact h

/-- The octets that are stored carry the sequence numbers. -/
structure Carrying (s : LevelState) : Prop where
  carries : ∀ {id entry}, s.database.get? id = some entry → entry.lsp.Carries

namespace Carrying

theorem of_empty (h : s.database = Table.empty) : s.Carrying :=
  ⟨by simp [h]⟩

theorem congr (h : s.Carrying) (hdatabase : t.database = s.database) : t.Carrying :=
  ⟨fun hstored => h.carries (hdatabase ▸ hstored)⟩

/-- What is stored was heard, or its octets were made from its fields. -/
theorem step (h : s.Carrying) (hheard : ∀ {lsp}, heard lsp → lsp.Carries)
    (hstep : Step heard s t) : t.Carrying := by
  have hentries : ∀ id entry, t.database.get? id = some entry → entry.lsp.Carries := by
    refine hstep.entries (fun _ _ => h.carries) fun {lsp received} horigin => ?_
    rw [armed_lsp]
    cases horigin with
    | accepted admitted => exact completed_carries (hheard admitted.heard)
    | purged => exact Lsp.encode_carries _ _
    | _ => exact Lsp.make_carries ..
  exact ⟨fun hstored => hentries _ _ hstored⟩

end Carrying

/-! ### Flags for known circuits -/

/-- There are flags for the circuits that are known and for no others. -/
structure Flagged (s : LevelState) : Prop where
  circuits : ∀ circuit, s.flooding.contains circuit = s.circuits.contains circuit

namespace Flagged

theorem congr (h : s.Flagged) (hcircuits : t.circuits = s.circuits)
    (hflooding : t.flooding = s.flooding) : t.Flagged :=
  ⟨fun circuit => by rw [hcircuits, hflooding, h.circuits circuit]⟩

theorem of_spares (h : s.Flagged) {touched : LspId → Prop} (hspares : Spares touched s t) :
    t.Flagged :=
  ⟨fun circuit => by rw [hspares.flagged, hspares.circuits, h.circuits circuit]⟩

theorem addCircuit (h : s.Flagged) (circuit : Circuit) :
    { s with
      flooding := s.flooding.addCircuit circuit.id
      circuits := s.circuits.insert circuit.id circuit }.Flagged := by
  have hcircuits := h.circuits
  refine ⟨fun c => ?_⟩
  dsimp only
  rw [Flooding.addCircuit, Table.contains_insert]
  split
  · rename_i hknown
    by_cases hc : c = circuit.id
    · simp [hc, hknown]
    · simp [hc, hcircuits]
  · rw [Table.contains_insert, hcircuits]

theorem removeCircuit (h : s.Flagged) (circuit : CircuitId) :
    (s.removeCircuit circuit).Flagged := by
  refine ⟨fun c => ?_⟩
  show Table.contains (s.flooding.erase circuit) c = (s.circuits.erase circuit).contains c
  rw [Table.contains_erase, Table.contains_erase, h.circuits]

/-- Every step keeps flags for the known circuits. -/
theorem step (h : s.Flagged) (hconsistent : s.Consistent) (hstep : Step heard s t) :
    t.Flagged := by
  cases hstep with
  | accept => exact h.of_spares (Spares.accept s _ _)
  | recordPurge => exact h.of_spares (Spares.recordPurge s _ _)
  | acknowledge => exact h.of_spares (Spares.acknowledge s _ _)
  | request => exact h.of_spares (Spares.requestUnknown s _ _)
  | purge reason stored live => exact h.of_spares (Spares.purge hconsistent reason stored live)
  | forcePurge reason => exact h.of_spares (Spares.forcePurge s _ reason)
  | originate => exact h.of_spares (Spares.originate s _)
  | remove stored => exact h.of_spares ((Spares.remove stored).trans (.tell _ _ _))
  | mark flag circuit => exact h.of_spares (Spares.reflag (Flooding.set_confined _ flag _ circuit))
  | unmark flag id circuit =>
      exact h.of_spares (Spares.reflag (Flooding.clear_confined _ flag id circuit))
  | unmarkAll flag id except =>
      exact h.of_spares (Spares.reflag (Flooding.clearAll_confined _ flag id except))
  | scheduleGeneration pseudonode span =>
      exact h.of_spares (Spares.scheduleGeneration (fun _ => False) s pseudonode span)
  | cancelGeneration pseudonode =>
      obtain ⟨generators, timers, heq⟩ := s.cancelGeneration_eq pseudonode
      rw [heq]
      exact h.congr rfl rfl
  | @defer circuit lsp =>
      obtain ⟨deferred, trace, heq⟩ := s.defer_eq circuit lsp
      rw [heq]
      exact h.congr rfl rfl
  | addCircuit circuit => exact h.addCircuit circuit
  | removeCircuit circuit => exact h.removeCircuit circuit
  | _ => exact h.congr rfl rfl

end Flagged

/-! ### The invariant -/

/-- The flags of all circuits fit what is stored. -/
structure Backed (s : LevelState) : Prop where
  fit : ∀ {circuit flags}, s.flooding.get? circuit = some flags → flags.Fit s.seqno?

namespace Backed

theorem blank (level : Level) (config : Config) (now : Nat) : (blank level config now).Backed where
  fit := by simp [LevelState.blank]

/-- The flags of each circuit are changed on their own. -/
theorem change (h : s.Backed) (f : CircuitId → CircuitFlags → CircuitFlags)
    (hflags : ∀ c, t.flooding.get? c = (s.flooding.get? c).map (f c))
    (hfit : ∀ c {flags}, flags.Fit s.seqno? → (f c flags).Fit t.seqno?) : t.Backed := by
  refine ⟨fun {c flags} hstored => ?_⟩
  rw [hflags] at hstored
  obtain ⟨flags', hstored', rfl⟩ := Option.map_eq_some_iff.1 hstored
  exact hfit c (h.fit hstored')

theorem congr (h : s.Backed) (hflooding : t.flooding = s.flooding)
    (hdatabase : t.database = s.database) : t.Backed := by
  have hseqno : t.seqno? = s.seqno? := by
    funext id
    rw [seqno?, hdatabase]
    rfl
  refine h.change (fun _ flags => flags) (fun c => ?_) fun c {flags} hfit => ?_
  · rw [hflooding, Option.map_id']
  · rwa [hseqno]

/-- Only the flags are changed, and still fit what is stored. -/
theorem reflag (h : s.Backed) {flooding : Flooding}
    (f : CircuitId → CircuitFlags → CircuitFlags)
    (hflags : ∀ c, flooding.get? c = (s.flooding.get? c).map (f c))
    (hfit : ∀ c {flags}, flags.Fit s.seqno? → (f c flags).Fit s.seqno?) :
    { s with flooding := flooding }.Backed :=
  h.change f hflags fun c _ hflags => hfit c hflags

theorem installs (h : s.Backed) {lsp : Lsp} {received : Bool} {flooding : Flooding}
    (hinstalls : Installs s lsp received flooding t)
    (f : CircuitId → CircuitFlags → CircuitFlags)
    (hflags : ∀ c, flooding.get? c = (s.flooding.get? c).map (f c))
    (hfit : ∀ c {flags}, flags.Fit s.seqno? →
      (f c flags).Fit (Function.update s.seqno? lsp.id (some lsp.seqno))) : t.Backed := by
  have hseqno := hinstalls.seqno?
  obtain ⟨counters, history, number, trace, rfl⟩ := hinstalls
  refine h.change f hflags fun c {flags} hbefore => ?_
  rw [hseqno]
  exact hfit c hbefore

/-- An LSP is installed and marked for sending on all circuits. -/
theorem installs_flooded (h : s.Backed) {lsp : Lsp} {received : Bool}
    (hinstalls : Installs s lsp received (flooded s.flooding (s.summaryOf lsp) none) t)
    (hnewer : ∀ seqno, s.seqno? lsp.id = some seqno → seqno ≠ 0 → lsp.seqno ≠ 0) : t.Backed :=
  h.installs hinstalls _ (fun c => get?_flooded _ _ _ c) fun _ _ hfit => hfit.superseded hnewer

theorem accept (h : s.Backed) (circuit : CircuitId) {lsp : Lsp}
    (hnewer : s.recency lsp = .newer) : (s.accept circuit lsp).Backed := by
  apply h.installs (s.accept_installs circuit lsp) _ fun c => s.get?_acceptedFlags circuit c _
  intro c flags hfit
  by_cases hc : c = circuit
  · cases hkind : s.isPointToPoint circuit with
    | true =>
        rw [if_pos hc, if_pos rfl]
        exact hfit.received (s.summaryOf (s.completed lsp))
    | false =>
        rw [if_pos hc, if_neg Bool.false_ne_true]
        exact hfit.cleared _ _
  · rw [if_neg hc]
    have hid : (s.completed lsp).id = lsp.id := s.completed_id lsp
    have hkeeps : ∀ seqno, s.seqno? (s.completed lsp).id = some seqno → seqno ≠ 0 →
        (s.completed lsp).seqno ≠ 0 := by
      intro seqno hstored hseqno
      rw [completed_seqno]
      exact seqno_ne_zero_of_newer hnewer (hid ▸ hstored) hseqno
    exact @CircuitFlags.Fit.superseded _ _ hfit (s.summaryOf (s.completed lsp)) hkeeps

theorem recordPurge (h : s.Backed) (circuit : CircuitId) {lsp : Lsp}
    (hunknown : s.known? lsp.id = none) : (s.recordPurge circuit lsp).Backed := by
  apply h.installs (s.recordPurge_installs circuit lsp) _ fun c =>
    s.get?_acknowledgedFlags circuit c lsp
  intro c flags hfit
  have hplaceholder : flags.Fit (Function.update s.seqno? lsp.id (some 0)) := by
    apply hfit.placeholder
    intro seqno hstored
    obtain ⟨entry, hentry, rfl⟩ := Option.map_eq_some_iff.1 hstored
    simpa [known?, hentry, Entry.isPlaceholder] using hunknown
  split
  · exact hplaceholder.set_ssn (Function.update_self _ _ _) (.inl rfl)
  · exact hplaceholder

theorem acknowledge (h : s.Backed) (hcarrying : s.Carrying) (circuit : CircuitId) {lsp : Lsp}
    (hlsp : lsp.Carries) (hsame : s.recency lsp = .same) : (s.acknowledge circuit lsp).Backed := by
  rw [acknowledge_eq]
  apply h.reflag _ (fun c => s.get?_acknowledgedFlags circuit c lsp)
  intro c flags hfit
  split
  · exact hfit.set_ssn (seqno?_of_same hsame hlsp hcarrying.carries) (.inr rfl)
  · exact hfit

theorem request (h : s.Backed) (circuit : CircuitId) {summary : LspSummary}
    (hunknown : s.database.get? summary.id = none) : (s.requestUnknown circuit summary).Backed := by
  by_cases hasked : summary.lifetime ≠ 0 ∧ summary.checksum ≠ 0 ∧ summary.seqno ≠ 0
  · apply h.installs (s.requestUnknown_installs circuit hasked) _ fun c =>
      Flooding.get?_set _ _ _ _ c
    intro c flags hfit
    have hplaceholder : flags.Fit (Function.update s.seqno? summary.id (some 0)) :=
      hfit.placeholder fun seqno hstored => by simp [seqno?, hunknown] at hstored
    split
    · exact hplaceholder.set_ssn (Function.update_self _ _ _) (.inl rfl)
    · exact hplaceholder
  · rwa [requestUnknown, if_neg hasked]

theorem purge (h : s.Backed) {id : LspId} {entry : Entry} (reason : PurgeReason)
    (hkey : entry.lsp.id = id) (hstored : s.database.get? id = some entry)
    (hlive : entry.isPurged = false) (hzero : entry.zeroAgeTimer = none) :
    (s.purge id reason).Backed := by
  apply h.installs_flooded (purge_installs reason hstored hlive hzero)
  intro seqno hseqno
  have hid : (s.purgeOf entry.lsp).id = id := hkey
  rw [hid, seqno?_of_stored hstored] at hseqno
  obtain rfl := Option.some.inj hseqno
  exact fun hne => hne

theorem forcePurge (h : s.Backed) (lsp : Lsp) (reason : PurgeReason) :
    (s.forcePurge lsp reason).Backed := by
  apply h.installs_flooded (s.forcePurge_installs lsp reason)
  intro seqno hstored hseqno
  have hseqno' : s.storedSeqno lsp.id = seqno := by
    have hstored' : (s.database.get? lsp.id).map (·.lsp.seqno) = some seqno := hstored
    rw [storedSeqno, hstored']
    rfl
  show max (s.storedSeqno lsp.id) lsp.seqno ≠ 0
  rw [hseqno']
  exact max_ne_zero hseqno

theorem originate (h : s.Backed) {lsp : Lsp} {seqno : UInt32}
    (hnext : nextSeqno? (max lsp.seqno (s.storedSeqno lsp.id)) = some seqno) :
    (s.originate lsp).Backed := by
  apply h.installs_flooded (originate_installs hnext)
  intro _ _ _ hzero
  have hzero' : seqno = 0 := hzero
  have hnat := toNat_nextSeqno hnext
  rw [hzero'] at hnat
  cases hnat

/-- The flags of an LSP go together with its entry. -/
theorem remove (h : s.Backed) {id : LspId} {entry : Entry}
    (hstored : s.database.get? id = some entry) : (s.remove id).Backed := by
  obtain ⟨trace, heq⟩ := remove_eq hstored
  have hseqno : (s.remove id).seqno? = Function.update s.seqno? id none := by
    funext other
    rw [heq]
    by_cases hid : other = id
    · rw [hid, Function.update_self, LevelState.seqno?, Table.get?_erase_self]
      rfl
    · rw [Function.update_of_ne hid, LevelState.seqno?, Table.get?_erase_of_ne _ hid]
      rfl
  rw [heq] at hseqno ⊢
  refine h.change _ (fun c => Flooding.get?_removeLsp _ _ c) fun c flags hfit => ?_
  rw [hseqno]
  exact hfit.cleared id none

theorem mark (h : s.Backed) (flag : Flag) {entry : Entry} (circuit : CircuitId)
    (hstored : s.database.get? entry.lsp.id = some entry) :
    (s.setFlag flag (s.summaryOf entry.lsp) circuit).Backed := by
  have hseqno : s.seqno? entry.lsp.id = some entry.lsp.seqno := seqno?_of_stored hstored
  apply h.reflag _ (fun c => Flooding.get?_set _ _ _ _ c)
  intro c flags hfit
  split
  · cases flag with
    | srm => exact hfit.set_srm hseqno
    | ssn => exact hfit.set_ssn hseqno (.inr rfl)
  · exact hfit

theorem addCircuit (h : s.Backed) (circuit : Circuit) :
    { s with
      flooding := s.flooding.addCircuit circuit.id
      circuits := s.circuits.insert circuit.id circuit }.Backed := by
  refine ⟨fun {c flags} hstored => ?_⟩
  dsimp only [Flooding.addCircuit] at hstored
  split at hstored
  · exact h.fit hstored
  · by_cases hc : c = circuit.id
    · rw [hc, Table.get?_insert_self] at hstored
      obtain rfl := Option.some.inj hstored
      exact .empty
    · rw [Table.get?_insert_of_ne _ _ hc] at hstored
      exact h.fit hstored

theorem removeCircuit (h : s.Backed) (circuit : CircuitId) : (s.removeCircuit circuit).Backed := by
  refine ⟨fun {c flags} hstored => ?_⟩
  have herased : Table.get? (s.flooding.erase circuit) c = some flags := hstored
  rw [Table.get?_erase] at herased
  split at herased
  · cases herased
  · exact h.fit herased

/-- Every step keeps the flags to what is stored. -/
theorem step (h : s.Backed) (hconsistent : s.Consistent) (hcarrying : s.Carrying)
    (hheard : ∀ {lsp}, heard lsp → lsp.Carries) (hstep : Step heard s t) : t.Backed := by
  cases hstep with
  | accept _ newer => exact h.accept _ newer
  | recordPurge _ _ unknown => exact h.recordPurge _ unknown
  | acknowledge fromNetwork same =>
      exact h.acknowledge hcarrying _ (hheard fromNetwork) same
  | request unknown => exact h.request _ unknown
  | purge reason stored live zeroAge =>
      exact h.purge reason (hconsistent.keys stored) stored live zeroAge
  | forcePurge reason => exact h.forcePurge _ reason
  | originate _ next => exact h.originate next
  | remove stored => exact (h.remove stored).congr rfl rfl
  | mark flag circuit stored => exact h.mark flag circuit stored
  | unmark flag id circuit =>
      apply h.reflag _ (fun c => Flooding.get?_clear _ _ _ _ c)
      intro c flags hfit
      split
      · exact hfit.clear flag id
      · exact hfit
  | unmarkAll flag id except =>
      apply h.reflag _ (fun c => Flooding.get?_clearAll _ _ _ _ c)
      intro c flags hfit
      split
      · exact hfit
      · exact hfit.clear flag id
  | scheduleGeneration pseudonode span =>
      obtain ⟨generators, timers, trace, heq⟩ := s.scheduleGeneration_eq pseudonode span
      rw [heq]
      exact h.congr rfl rfl
  | cancelGeneration pseudonode =>
      obtain ⟨generators, timers, heq⟩ := s.cancelGeneration_eq pseudonode
      rw [heq]
      exact h.congr rfl rfl
  | @defer circuit lsp =>
      obtain ⟨deferred, trace, heq⟩ := s.defer_eq circuit lsp
      rw [heq]
      exact h.congr rfl rfl
  | addCircuit circuit => exact h.addCircuit circuit
  | removeCircuit circuit => exact h.removeCircuit circuit
  | _ => exact h.congr rfl rfl

end Backed

variable {level : Level} {config : Config} {now : Nat}

theorem Reachable.flagged (h : Reachable Proper level config now s) : s.Flagged :=
  (h.invariant (P := Flagged) (fun _ => trivial) Proper.running ⟨fun _ => rfl⟩
    (fun hsound hs hstep => hs.step hsound.consistent hstep) fun _ hs => hs.congr rfl rfl).2

theorem Reachable.backed (h : Reachable (Running Lsp.Decoded) level config now s) :
    s.Consistent ∧ s.Flagged ∧ s.Backed := by
  have hinvariant := h.invariant (P := fun s => s.Carrying ∧ s.Flagged ∧ s.Backed)
    (fun hdecode => Pdu.decoded_of_decode hdecode) .inl
    ⟨.of_empty rfl, ⟨fun _ => rfl⟩, .blank level config now⟩
    (fun hsound hs hstep => ⟨hs.1.step (fun h => h.carries) hstep,
      hs.2.1.step hsound.consistent hstep,
      hs.2.2.step hsound.consistent hs.1 (fun h => h.carries) hstep⟩)
    fun hallowed _ => absurd rfl hallowed.running
  exact ⟨hinvariant.1.consistent, hinvariant.2.2⟩

/-- In every state that is reached before a level is stopped, with LSPs that were
read from their octets, there are flags for the circuits that are known and for
no others.  An LSP that is marked for sending is stored with a sequence number
other than zero, and there are octets of it to send.  An LSP that is marked for
acknowledgement is stored, and what is to be acknowledged is about this LSP and
has the stored sequence number, unless a placeholder is stored. -/
theorem flags_backed (h : Reachable (Running Lsp.Decoded) level config now s) :
    (∀ circuit, s.flooding.contains circuit = s.circuits.contains circuit) ∧
    (∀ circuit id, s.flooding.isSet .srm circuit id = true →
      (∃ entry, s.database.get? id = some entry ∧ entry.lsp.id = id ∧ entry.lsp.seqno ≠ 0) ∧
        (s.payload? id).isSome = true) ∧
    (∀ circuit id, s.flooding.isSet .ssn circuit id = true →
      ∃ entry summary, s.database.get? id = some entry ∧ entry.lsp.id = id ∧
        s.flooding.acknowledgement? circuit id = some summary ∧ summary.id = id ∧
        (entry.lsp.seqno ≠ 0 → summary.seqno = entry.lsp.seqno)) := by
  obtain ⟨hconsistent, hflagged, hbacked⟩ := h.backed
  have hflags : ∀ {flag circuit id}, s.flooding.isSet flag circuit id = true →
      ∃ flags, s.flooding.get? circuit = some flags ∧ flags.isSet flag id = true := by
    intro flag circuit id hset
    cases hcircuit : s.flooding.get? circuit with
    | none => simp [Flooding.isSet, hcircuit] at hset
    | some flags => exact ⟨flags, rfl, by simpa [Flooding.isSet, hcircuit] using hset⟩
  refine ⟨hflagged.circuits, fun circuit id hset => ?_, fun circuit id hset => ?_⟩
  · obtain ⟨flags, hcircuit, hsrm⟩ := hflags hset
    obtain ⟨seqno, hseqno, hne⟩ := (hbacked.fit hcircuit).srm hsrm
    obtain ⟨entry, hstored, rfl⟩ := Option.map_eq_some_iff.1 hseqno
    refine ⟨⟨entry, hstored, hconsistent.keys hstored, hne⟩, ?_⟩
    simp [payload?, known?, hstored, Entry.isPlaceholder, hne]
  · obtain ⟨flags, hcircuit, hssn⟩ := hflags hset
    obtain ⟨summary, hsummary⟩ := Option.isSome_iff_exists.1 hssn
    obtain ⟨hid, seqno, hseqno, hsame⟩ := (hbacked.fit hcircuit).ssn hsummary
    obtain ⟨entry, hstored, rfl⟩ := Option.map_eq_some_iff.1 hseqno
    refine ⟨entry, summary, hstored, hconsistent.keys hstored, ?_, hid, hsame.resolve_left⟩
    simp [Flooding.acknowledgement?, hcircuit, hsummary]

/-- A level that has heard an LSP of another system on the first of two
point-to-point circuits. -/
def relaying : LevelState :=
  let lsp := Lsp.make 0 .one 1200 ⟨⟨1, 0, 0, 0, 0, 0⟩, 0, 0⟩ 7 .none .empty
  (((start .one Config.default 0).perform (.addCircuit ⟨1, "eth1", .pointToPoint⟩)).perform
    (.addCircuit ⟨2, "eth2", .pointToPoint⟩)).perform (.receiveLspOctets (some 1) lsp.raw)

theorem relaying_reachable :
    Reachable (Running Lsp.Decoded) .one Config.default 0 relaying := by
  rw [relaying]
  refine Reachable.perform ?_ ⟨trivial, trivial, by simp⟩
  refine Reachable.perform ?_ ⟨trivial, trivial, by simp⟩
  exact Reachable.perform Reachable.start ⟨trivial, trivial, by simp⟩

/-- The LSP is acknowledged on one circuit and sent on the other. -/
theorem flags_backed_relaying :
    relaying.flooding.isSet .ssn 1 ⟨⟨1, 0, 0, 0, 0, 0⟩, 0, 0⟩ = true ∧
    relaying.flooding.isSet .srm 2 ⟨⟨1, 0, 0, 0, 0, 0⟩, 0, 0⟩ = true ∧
    (relaying.payload? ⟨⟨1, 0, 0, 0, 0, 0⟩, 0, 0⟩).isSome = true ∧
    relaying.flooding.contains 1 = relaying.circuits.contains 1 := by
  have hsent : relaying.flooding.isSet .srm 2 ⟨⟨1, 0, 0, 0, 0, 0⟩, 0, 0⟩ = true := by
    decide +kernel
  obtain ⟨hcircuits, hsrm, -⟩ := flags_backed relaying_reachable
  exact ⟨by decide +kernel, hsent, (hsrm 2 _ hsent).2, hcircuits 1⟩

end LevelState

end LinkState
