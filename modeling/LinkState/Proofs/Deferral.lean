import LinkState.Proofs.Ageing
import LinkState.Proofs.FloodingInvariant
import LinkState.Proofs.Footprint

/-!
# Own LSPs that wait for an election

An own LSP of a pseudonode is deferred as long as no election for the pseudonode is known.
Which copies wait depends on the circuits, on the elections and on what is received; these
are split off from the state, and nothing else that a level does concerns them.  Every copy
waits where it should, and it gives way only to one that is at least as recent.
-/

namespace LinkState

/-- A copy that is not newer than another carries no greater sequence number. -/
theorem LevelState.le_of_not_newer {stored lsp : Lsp}
    (h : Recency.ofLsp (some stored) lsp ≠ .newer) (hstored : stored.Carries)
    (hlsp : lsp.Carries) : lsp.seqno ≤ stored.seqno := by
  by_contra hless
  have hnot : Recency.ofLsp (some stored) lsp ≠ .same := fun hsame =>
    hless (UInt32.le_of_eq (seqno_of_same hsame hstored hlsp))
  have hfields : Recency.ofFields stored.seqno stored.lifetime lsp.seqno lsp.lifetime = .newer :=
    if_pos (UInt32.not_le.1 hless)
  unfold Recency.ofLsp Recency.compare at h hnot
  dsimp only at h hnot
  split at h
  · rename_i hraw
    rw [if_pos hraw] at hnot
    exact hnot rfl
  · exact h hfields

/-- What the deferral of LSPs depends on, and the copies that wait. -/
structure Deferral where
  system : SystemId
  circuits : Table CircuitId Circuit
  elections : Table UInt8 Election
  deferred : Table UInt8 (Table LspId DeferredLsp)

namespace Deferral

variable {d d' d'' : Deferral} {pseudonode : UInt8} {id : LspId} {copy : DeferredLsp}
  {circuit : CircuitId} {lsp : Lsp}

def copy? (d : Deferral) (pseudonode : UInt8) (id : LspId) : Option DeferredLsp :=
  (d.deferred.get? pseudonode).bind (·.get? id)

def Undecided (d : Deferral) (pseudonode : UInt8) : Prop :=
  pseudonode ≠ 0 ∧ d.elections.get? pseudonode = none

/-- A copy waits where it should. -/
structure Waits (d : Deferral) (pseudonode : UInt8) (id : LspId) (copy : DeferredLsp) :
    Prop where
  filed : copy.lsp.id = id
  own : id.system = d.system
  node : id.pseudonode = pseudonode
  undecided : d.Undecided pseudonode
  registered : d.circuits.contains copy.circuit = true
  carries : copy.lsp.Carries

structure Tidy (d : Deferral) : Prop where
  waits : ∀ {pseudonode id copy}, d.copy? pseudonode id = some copy → d.Waits pseudonode id copy

/-- An LSP is kept unless a copy waits that is at least as recent. -/
def defer (d : Deferral) (circuit : CircuitId) (lsp : Lsp) : Deferral :=
  if Recency.ofLsp ((d.copy? lsp.id.pseudonode lsp.id).map (·.lsp)) lsp = .newer then
    { d with deferred := keeping d.deferred lsp.id (some ⟨circuit, lsp⟩) }
  else d

theorem copy?_keeping (d : Deferral) (id : LspId) (copy : DeferredLsp) (pseudonode : UInt8)
    (other : LspId) :
    { d with deferred := keeping d.deferred id (some copy) }.copy? pseudonode other =
      if pseudonode = id.pseudonode ∧ other = id then some copy else d.copy? pseudonode other := by
  simp only [copy?, keeping]
  by_cases hnode : pseudonode = id.pseudonode
  · rw [hnode, Table.get?_insert_self, Option.bind_some]
    by_cases hid : other = id
    · rw [if_pos ⟨rfl, hid⟩, hid, Table.get?_insert_self]
    · rw [if_neg fun hboth => hid hboth.2, Table.get?_insert_of_ne _ _ hid]
      cases d.deferred.get? id.pseudonode <;> rfl
  · rw [Table.get?_insert_of_ne _ _ hnode, if_neg fun hboth => hnode hboth.1]

/-- A copy gives way only to one with a sequence number that is not less. -/
def Later (old new : Option DeferredLsp) : Prop :=
  ∀ copy, old = some copy → ∃ later, new = some later ∧ copy.lsp.seqno ≤ later.lsp.seqno

theorem Later.refl (copy : Option DeferredLsp) : Later copy copy :=
  fun kept hkept => ⟨kept, hkept, UInt32.le_refl _⟩

theorem Later.trans {first second third : Option DeferredLsp} (h : Later first second)
    (h' : Later second third) : Later first third := by
  intro copy hcopy
  obtain ⟨later, hlater, hle⟩ := h copy hcopy
  obtain ⟨latest, hlatest, hle'⟩ := h' later hlater
  exact ⟨latest, hlatest, UInt32.le_trans hle hle'⟩

/-- Once an LSP was received, a copy waits that is at least as recent. -/
theorem Tidy.covers (h : d.Tidy) (circuit : CircuitId) (hcarries : lsp.Carries) :
    ∃ kept, (d.defer circuit lsp).copy? lsp.id.pseudonode lsp.id = some kept ∧
      lsp.seqno ≤ kept.lsp.seqno := by
  rw [defer]
  split
  · rw [copy?_keeping, if_pos ⟨rfl, rfl⟩]
    exact ⟨_, rfl, UInt32.le_refl _⟩
  · rename_i hnewer
    cases hcopy : d.copy? lsp.id.pseudonode lsp.id with
    | none => exact absurd (by rw [hcopy]; rfl) hnewer
    | some copy =>
        rw [hcopy] at hnewer
        exact ⟨copy, rfl, LevelState.le_of_not_newer hnewer (h.waits hcopy).carries hcarries⟩

/-- The copies that are left still wait where they should, if the elections and circuits
that they depend on are as before. -/
theorem Tidy.of_left (h : d.Tidy) (hsystem : d'.system = d.system)
    (hleft : ∀ {pseudonode id copy}, d'.copy? pseudonode id = some copy →
      d.copy? pseudonode id = some copy ∧
        d'.elections.get? pseudonode = d.elections.get? pseudonode ∧
        (d.circuits.contains copy.circuit = true → d'.circuits.contains copy.circuit = true)) :
    d'.Tidy := by
  refine ⟨fun hcopy => ?_⟩
  obtain ⟨hbefore, helection, hcircuit⟩ := hleft hcopy
  have hwaits := h.waits hbefore
  exact
    { filed := hwaits.filed
      own := hsystem ▸ hwaits.own
      node := hwaits.node
      undecided := ⟨hwaits.undecided.1, helection.trans hwaits.undecided.2⟩
      registered := hcircuit hwaits.registered
      carries := hwaits.carries }

/-- The copies of one pseudonode are taken away. -/
theorem copy?_erase (h : d'.deferred = d.deferred.erase pseudonode) (other : UInt8) (id : LspId) :
    d'.copy? other id = if other = pseudonode then none else d.copy? other id := by
  rw [copy?, copy?, h]
  split
  · rename_i hthis
    rw [hthis, Table.get?_erase_self]
    rfl
  · rename_i hother
    rw [Table.get?_erase_of_ne _ hother]

/-! ### What keeps all copies -/

/-- Between two states all copies were kept, unless one gave way to a more recent one. -/
structure Keeps (d d' : Deferral) : Prop where
  tidy : d.Tidy → d'.Tidy
  elections : d'.elections = d.elections
  later : ∀ pseudonode id, Later (d.copy? pseudonode id) (d'.copy? pseudonode id)

namespace Keeps

theorem refl (d : Deferral) : Keeps d d :=
  ⟨fun h => h, rfl, fun _ _ => .refl _⟩

theorem of_eq (h : d' = d) : Keeps d d' :=
  h ▸ refl d

theorem trans (h : Keeps d d') (h' : Keeps d' d'') : Keeps d d'' where
  tidy := fun hd => h'.tidy (h.tidy hd)
  elections := h'.elections.trans h.elections
  later := fun pseudonode id => (h.later pseudonode id).trans (h'.later pseudonode id)

/-- Keeping a copy loses no other one, and the one whose place it takes is less recent. -/
theorem defer (hregistered : d.circuits.contains circuit = true)
    (hown : lsp.id.system = d.system) (hundecided : d.Undecided lsp.id.pseudonode)
    (hcarries : lsp.Carries) : Keeps d (d.defer circuit lsp) := by
  rw [Deferral.defer]
  split
  · rename_i hnewer
    refine ⟨fun h => ⟨fun hcopy => ?_⟩, rfl, fun pseudonode id copy hcopy => ?_⟩
    · rw [copy?_keeping] at hcopy
      split at hcopy
      · rename_i hthis
        obtain ⟨rfl, rfl⟩ := hthis
        obtain rfl := Option.some.inj hcopy
        exact ⟨rfl, hown, rfl, hundecided, hregistered, hcarries⟩
      · exact { h.waits hcopy with }
    · rw [copy?_keeping]
      split
      · rename_i hthis
        rw [hthis.1, hthis.2] at hcopy
        rw [hcopy] at hnewer
        exact ⟨_, rfl, LevelState.le_of_newer hnewer⟩
      · exact ⟨copy, hcopy, UInt32.le_refl _⟩
  · exact .refl d

end Keeps

end Deferral

namespace LevelState

variable {s t : LevelState} {id : LspId} {circuit : CircuitId} {lsp : Lsp}

def deferral (s : LevelState) : Deferral :=
  ⟨s.config.system, s.circuits, s.elections, s.deferred⟩

/-! ### What does not concern the copies -/

@[simp] theorem deferral_tell (s : LevelState) (event : Event) :
    (s.tell event).deferral = s.deferral :=
  rfl

@[simp] theorem deferral_count (s : LevelState) (f : Counters → Counters) :
    (s.count f).deferral = s.deferral :=
  rfl

/-- What does not concern the copies can be done any number of times. -/
theorem deferral_foldl {α : Type} {f : LevelState → α → LevelState}
    (hf : ∀ s item, (f s item).deferral = s.deferral) (items : List α) (s : LevelState) :
    (items.foldl f s).deferral = s.deferral :=
  List.foldlRecOn (motive := fun t => t.deferral = s.deferral) items f rfl
    fun t ht item _ => (hf t item).trans ht

@[simp] theorem deferral_install (s : LevelState) (lsp : Lsp) (received : Bool) :
    (s.install lsp received).deferral = s.deferral := by
  obtain ⟨trace, history, number, heq⟩ := s.install_eq lsp received
  rw [heq]
  rfl

@[simp] theorem deferral_installAndFlood (s : LevelState) (lsp : Lsp) (received : Bool) :
    (s.installAndFlood lsp received).deferral = s.deferral :=
  s.deferral_install lsp received

@[simp] theorem deferral_purge (s : LevelState) (id : LspId) (reason : PurgeReason) :
    (s.purge id reason).deferral = s.deferral := by
  rw [purge]
  split
  · rfl
  · split
    · rfl
    · simp

@[simp] theorem deferral_purgeAll (s : LevelState) (ids : List LspId) (reason : PurgeReason) :
    (s.purgeAll ids reason).deferral = s.deferral :=
  deferral_foldl (fun s id => s.deferral_purge id reason) ids s

@[simp] theorem deferral_forcePurge (s : LevelState) (lsp : Lsp) (reason : PurgeReason) :
    (s.forcePurge lsp reason).deferral = s.deferral := by
  simp [forcePurge]

@[simp] theorem deferral_originate (s : LevelState) (lsp : Lsp) :
    (s.originate lsp).deferral = s.deferral := by
  rw [originate]
  split
  · dsimp only
    split <;> simp
  · simp

@[simp] theorem deferral_scheduleGeneration (s : LevelState) (pseudonode : UInt8) (span : Nat) :
    (s.scheduleGeneration pseudonode span).deferral = s.deferral := by
  obtain ⟨generators, timers, trace, heq⟩ := s.scheduleGeneration_eq pseudonode span
  rw [heq]
  rfl

@[simp] theorem deferral_remove (s : LevelState) (id : LspId) :
    (s.remove id).deferral = s.deferral := by
  obtain ⟨trace, hdiscard⟩ := s.discardPages_eq id
  simp only [remove, hdiscard, detach_eq]
  split <;> rfl

@[simp] theorem deferral_delete (s : LevelState) (id : LspId) :
    (s.delete id).deferral = s.deferral := by
  rw [delete]
  split
  · simp
  · dsimp only
    split <;> simp

@[simp] theorem deferral_expire (s : LevelState) (id : LspId) :
    (s.expire id).deferral = s.deferral := by
  rw [expire]
  split
  · rfl
  · split <;> simp

theorem deferral_removeGenerator (s : LevelState) (pseudonode : UInt8) :
    (s.removeGenerator pseudonode).deferral = s.deferral := by
  rw [removeGenerator]
  split
  · rfl
  · simp only [cancel_eq]
    exact deferral_purgeAll _ _ _

@[simp] theorem deferral_generate (s : LevelState) (pseudonode : UInt8) :
    (s.generate pseudonode).deferral = s.deferral := by
  have hrenew : ∀ (s : LevelState) lsp, (s.renew lsp).deferral = s.deferral := by
    intro s lsp
    rw [renew]
    split <;> simp
  exact (deferral_purgeAll _ _ _).trans (deferral_foldl hrenew _ s)

/-! ### Timers -/

/-- No timer concerns the copies that wait. -/
theorem deferral_fire (s : LevelState) (timer : Timer TimerEvent) :
    (s.fire timer).deferral = s.deferral := by
  rw [fire]
  split
  · rw [onExpire]
    split
    · rfl
    · split
      · exact deferral_expire _ _
      · rfl
  · rw [onDelete]
    split
    · rfl
    · split
      · exact deferral_delete _ _
      · rfl
  · rw [onRefresh]
    split
    · rfl
    · split
      · exact deferral_originate _ _
      · rfl
  · rw [onGenerate]
    split
    · rfl
    · split
      · exact deferral_generate _ _
      · rfl

theorem deferral_fireUpTo (most : Nat) (s : LevelState) :
    (fireUpTo most s).2.deferral = s.deferral := by
  induction most generalizing s with
  | zero => rfl
  | succ most ih =>
      rw [fireUpTo]
      split
      · rfl
      · rename_i next hnext
        obtain ⟨⟨timer, timers⟩, -, rfl⟩ := Option.map_eq_some_iff.1 hnext
        exact (ih _).trans (deferral_fire _ timer)

/-! ### What is heard from the network -/

theorem deferral_resolveConfusion (s : LevelState) (id : LspId) :
    (s.resolveConfusion id).deferral = s.deferral := by
  rw [resolveConfusion]
  split
  · rfl
  · dsimp only
    split
    · exact deferral_purge _ _ _
    · exact deferral_originate _ _

@[simp] theorem deferral_acknowledge (s : LevelState) (circuit : CircuitId) (lsp : Lsp) :
    (s.acknowledge circuit lsp).deferral = s.deferral := by
  rw [acknowledge_eq]
  rfl

/-- Arbitration does not look at the copies that wait. -/
theorem deferral_judge (s : LevelState) (circuit : CircuitId) (lsp : Lsp) :
    (s.judge circuit lsp).deferral = s.deferral := by
  have haccept : ∀ s : LevelState, (s.accept circuit lsp).deferral = s.deferral := by
    intro s
    obtain ⟨counters, history, number, trace, heq⟩ := s.accept_installs circuit lsp
    rw [heq]
    rfl
  have hsame : ∀ (s : LevelState) stored,
      (s.acceptSame circuit lsp stored).deferral = s.deferral := by
    intro s stored
    rw [acceptSame]
    split
    · exact s.deferral_resolveConfusion lsp.id
    · exact deferral_acknowledge _ _ _
  have hstop : ∀ s : LevelState, (s.stopLife lsp).2.deferral = s.deferral := by
    intro s
    rw [stopLife]
    split
    · rfl
    · split <;> rfl
  have harbitrate : ∀ (retry : LevelState → LevelState) (s : LevelState),
      (∀ s, (retry s).deferral = s.deferral) →
        (s.arbitrate retry circuit lsp).deferral = s.deferral := by
    intro retry s hretry
    rw [arbitrate]
    split
    · exact (deferral_acknowledge _ _ _).trans (deferral_install _ _ _)
    · dsimp only
      split
      · split
        · exact (haccept _).trans (hstop s)
        · exact ((hretry _).trans (deferral_expire _ _)).trans (hstop s)
      · exact hsame s _
      · split <;> rfl
  exact harbitrate _ s fun s => harbitrate _ s fun _ => rfl

/-- Sequence numbers PDUs have no part in the deferral. -/
theorem deferral_reviewAll (s : LevelState) (circuit : CircuitId) (snp : Snp) :
    (s.reviewAll circuit snp).deferral = s.deferral := by
  have hsettle : ∀ (s : LevelState) id, (s.settleSent circuit id).deferral = s.deferral := by
    intro s id
    rw [settleSent]
    split <;> rfl
  have hreview : ∀ (s : LevelState) summary, (s.review circuit summary).deferral = s.deferral := by
    intro s summary
    rw [review]
    split
    · rw [requestUnknown]
      split
      · exact deferral_install _ _ _
      · rfl
    · rw [reviewStored]
      split
      · split
        · exact s.deferral_resolveConfusion summary.id
        · exact hsettle s summary.id
      · rfl
      · exact hsettle _ summary.id
  have hmark : ∀ (s : LevelState) (entry : Entry),
      (s.setFlag .srm (s.summaryOf entry.lsp) circuit).deferral = s.deferral := fun _ _ => rfl
  have hreviews := deferral_foldl hreview (listed snp).values s
  rw [reviewAll]
  split
  · exact (deferral_foldl hmark _ _).trans hreviews
  · exact hreviews

theorem deferral_receiveSnp (s : LevelState) (circuit : CircuitId) (snp : Snp) :
    (s.receiveSnp circuit snp).1.deferral = s.deferral := by
  rw [receiveSnp]
  split
  · rfl
  · split
    · rfl
    · split
      · rfl
      · exact s.deferral_reviewAll circuit snp

theorem deferral_defer (s : LevelState) (circuit : CircuitId) (lsp : Lsp) :
    (s.defer circuit lsp).deferral = s.deferral.defer circuit lsp := by
  have hcopy : (((s.deferred.get? lsp.id.pseudonode).getD Table.empty).get? lsp.id) =
      s.deferral.copy? lsp.id.pseudonode lsp.id := by
    rw [Deferral.copy?, deferral]
    cases s.deferred.get? lsp.id.pseudonode <;> rfl
  have hdeferred : ∀ event, (s.tell event).deferred = s.deferred := fun _ => rfl
  unfold defer Deferral.defer
  dsimp only
  rw [← hcopy, hdeferred]
  split <;> rfl

/-- Nothing is known about a pseudonode just as long as its election is undecided. -/
theorem supports_eq_none {pseudonode : UInt8} :
    s.supports? pseudonode = none ↔ s.deferral.Undecided pseudonode := by
  rw [supports?]
  constructor
  · intro h
    split at h
    · cases h
    · rename_i hnumbered
      exact ⟨hnumbered, Option.map_eq_none_iff.1 h⟩
  · intro h
    rw [if_neg h.1]
    exact Option.map_eq_none_iff.2 h.2

/-- A valid own LSP of an undecided pseudonode is deferred, which is all that is done. -/
theorem receiveFrom_defers (circuit : CircuitId) (hvalid : lsp.Valid)
    (hown : s.isOwn lsp.id = true) (hundecided : s.deferral.Undecided lsp.id.pseudonode) :
    ∃ counters, s.receiveFrom circuit lsp =
      { s with counters := counters }.defer circuit lsp := by
  obtain ⟨counters, hcounted⟩ := s.countOwnPurge_eq lsp
  have hpurge : ¬ (lsp.isExpired && !lsp.tlvs.allowedInPurge) = true := by
    cases hexpired : lsp.isExpired with
    | false => simp
    | true => simp [hvalid.purge hexpired]
  have hsupports : { s with counters := counters }.supports? lsp.id.pseudonode = none :=
    supports_eq_none.2 hundecided
  refine ⟨counters, ?_⟩
  unfold receiveFrom
  dsimp only
  rw [hcounted, if_neg (by simp [hvalid.intact]), if_neg hpurge, if_pos hown, answerOwn?, hsupports]
  rfl

/-- No other LSP is deferred. -/
theorem deferral_receiveFrom
    (hother : ¬ (lsp.Valid ∧ s.isOwn lsp.id = true ∧ s.deferral.Undecided lsp.id.pseudonode)) :
    (s.receiveFrom circuit lsp).deferral = s.deferral := by
  obtain ⟨counters, hcounted⟩ := s.countOwnPurge_eq lsp
  unfold receiveFrom
  dsimp only
  rw [hcounted]
  split
  · rfl
  · rename_i hintact
    split
    · rfl
    · rename_i hpurge
      have hvalid : lsp.Valid := ⟨by simpa using hintact, by simpa using hpurge⟩
      split
      · rename_i hown
        cases hanswer : { s with counters := counters }.answerOwn? circuit lsp with
        | none => exact deferral_judge _ circuit lsp
        | some t =>
            cases answered_of_answerOwn hanswer with
            | deferred undecided =>
                exact absurd ⟨hvalid, hown, supports_eq_none.1 undecided⟩ hother
            | unsupported => exact deferral_forcePurge _ lsp _
            | removed => exact deferral_forcePurge _ lsp _
            | superseded => exact deferral_originate _ _
      · exact deferral_judge _ circuit lsp

theorem receiveFrom_confined (s : LevelState) (circuit : CircuitId) (lsp : Lsp) :
    (s.receiveFrom circuit lsp).deferred = s.deferred ∨
      (s.receiveFrom circuit lsp).database = s.database ∧
        (s.receiveFrom circuit lsp).flooding = s.flooding := by
  by_cases hdefers : lsp.Valid ∧ s.isOwn lsp.id = true ∧ s.deferral.Undecided lsp.id.pseudonode
  · obtain ⟨hvalid, hown, hundecided⟩ := hdefers
    obtain ⟨counters, heq⟩ := receiveFrom_defers circuit hvalid hown hundecided
    obtain ⟨deferred, trace, hdefer⟩ := { s with counters := counters }.defer_eq circuit lsp
    rw [heq, hdefer]
    exact .inr ⟨rfl, rfl⟩
  · exact .inl (congrArg Deferral.deferred (deferral_receiveFrom hdefers))

/-- What is received on a known circuit keeps the copies that wait. -/
theorem receiveFrom_keeps (hregistered : s.circuits.contains circuit = true)
    (hcarries : lsp.Carries) :
    Deferral.Keeps s.deferral (s.receiveFrom circuit lsp).deferral := by
  by_cases hdefers :
      lsp.Valid ∧ s.isOwn lsp.id = true ∧ s.deferral.Undecided lsp.id.pseudonode
  · obtain ⟨hvalid, hown, hundecided⟩ := hdefers
    obtain ⟨counters, heq⟩ := receiveFrom_defers circuit hvalid hown hundecided
    rw [heq, deferral_defer]
    exact .defer hregistered (of_decide_eq_true hown) hundecided hcarries
  · exact .of_eq (deferral_receiveFrom hdefers)

theorem receiveLsp_keeps (s : LevelState) (circuit : CircuitId) (hcarries : lsp.Carries) :
    Deferral.Keeps s.deferral (s.receiveLsp (some circuit) lsp).1.deferral := by
  simp only [receiveLsp]
  split
  · exact .refl _
  · split
    · rename_i hregistered
      exact receiveFrom_keeps hregistered hcarries
    · exact .refl _

theorem deferral_handIn (s : LevelState) (lsp : Lsp) :
    (s.receiveLsp none lsp).1.deferral = s.deferral := by
  rcases s.receiveLsp_handedIn lsp with heq | heq
  · rw [heq]
  · exact heq ▸ s.deferral_originate lsp

theorem receiveLspOctets_keeps (s : LevelState) (circuit : Option CircuitId) (octets : Octets) :
    Deferral.Keeps s.deferral (s.receiveLspOctets circuit octets).1.deferral := by
  rw [receiveLspOctets]
  cases hdecode : Pdu.decode s.now octets with
  | error => exact .refl _
  | ok pdu =>
      cases pdu with
      | snp => cases circuit <;> exact .refl _
      | lsp lsp =>
          cases circuit with
          | none => exact .of_eq (s.deferral_handIn lsp)
          | some circuit =>
              exact receiveLsp_keeps (s.tell (.pduReceived circuit (.lsp lsp))) circuit
                (Pdu.decode_lsp hdecode).2.2

/-- A reception that changes the copies changes nothing else. -/
theorem receiveLspOctets_confined (s : LevelState) (circuit : Option CircuitId) (octets : Octets) :
    (s.receiveLspOctets circuit octets).1.deferred = s.deferred ∨
      (s.receiveLspOctets circuit octets).1.database = s.database ∧
        (s.receiveLspOctets circuit octets).1.flooding = s.flooding := by
  rw [receiveLspOctets]
  cases Pdu.decode s.now octets with
  | error => exact .inl rfl
  | ok pdu =>
      cases pdu with
      | snp => cases circuit <;> exact .inl rfl
      | lsp lsp =>
          cases circuit with
          | none => exact .inl (congrArg Deferral.deferred (s.deferral_handIn lsp))
          | some circuit =>
              dsimp only
              rw [receiveLsp]
              split
              · exact .inl rfl
              · split
                · exact receiveFrom_confined (s.tell (.pduReceived circuit (.lsp lsp))) circuit lsp
                · exact .inl rfl

theorem deferral_receiveSnpOctets (s : LevelState) (circuit : CircuitId) (octets : Octets) :
    (s.receiveSnpOctets circuit octets).1.deferral = s.deferral := by
  rw [receiveSnpOctets]
  cases Pdu.decode s.now octets with
  | error => rfl
  | ok pdu =>
      cases pdu with
      | lsp => rfl
      | snp snp => exact deferral_receiveSnp _ circuit snp

/-! ### Elections -/

theorem resume_keeps (s : LevelState) {copy : DeferredLsp} (hcarries : copy.lsp.Carries) :
    Deferral.Keeps s.deferral (s.resume copy).deferral := by
  have hreceived := receiveLsp_keeps s copy.circuit hcarries
  rcases tellOutcome_eq (s.receiveLsp (some copy.circuit) copy.lsp) with heq | ⟨_, heq⟩
  · rw [resume, heq]
    exact hreceived
  · rw [resume, heq]
    exact hreceived

/-- The copies of a pseudonode are taken away and received once more. -/
theorem resumeAll_keeps (s : LevelState) (pseudonode : UInt8)
    (hcarries : ∀ id copy, s.deferral.copy? pseudonode id = some copy → copy.lsp.Carries) :
    Deferral.Keeps { s.deferral with deferred := s.deferred.erase pseudonode }
      (s.resumeAll pseudonode).deferral := by
  rw [resumeAll]
  split
  · rename_i hnone
    rw [Table.erase_of_get?_eq_none hnone]
    exact .refl _
  · rename_i waiting hwaiting
    refine List.foldlRecOn
      (motive := fun t : LevelState => Deferral.Keeps
        { s.deferral with deferred := s.deferred.erase pseudonode } t.deferral)
      waiting.values resume (Deferral.Keeps.refl _) fun t ht copy hmem =>
        ht.trans (resume_keeps t ?_)
    obtain ⟨id, hid⟩ := Table.mem_values.1 hmem
    exact hcarries id copy (by rw [Deferral.copy?, deferral, hwaiting]; exact hid)

/-- Recording an outcome changes what is known of one pseudonode, and nothing else about the
deferral. -/
theorem deferral_recordElection (s : LevelState) (pseudonode : UInt8) (election : Option Election) :
    ∃ elections : Table UInt8 Election,
      (s.recordElection pseudonode election).deferral = { s.deferral with elections := elections } ∧
        elections.get? pseudonode = election ∧
        ∀ other, other ≠ pseudonode → elections.get? other = s.elections.get? other := by
  cases election with
  | none =>
      exact ⟨_, deferral_removeGenerator _ _, Table.get?_erase_self _ _,
        fun _ hother => Table.get?_erase_of_ne _ hother⟩
  | some election =>
      refine ⟨s.elections.insert pseudonode election, ?_, Table.get?_insert_self _ _ _,
        fun _ hother => Table.get?_insert_of_ne _ _ hother⟩
      rw [recordElection]
      dsimp only
      split
      · exact deferral_scheduleGeneration _ _ _
      · exact deferral_removeGenerator _ _

/-- The copies of a pseudonode are received once more when its election is decided, and
none of them is left unless the election is unknown again. -/
theorem setElection_keeps (h : s.deferral.Tidy) {pseudonode : UInt8} (hnumbered : pseudonode ≠ 0)
    (election : Option Election) :
    ∃ elections : Table UInt8 Election, elections.get? pseudonode = election ∧
      Deferral.Keeps
        { s.deferral with elections := elections, deferred := s.deferred.erase pseudonode }
        (s.setElection pseudonode election).deferral ∧
      Deferral.Tidy
        { s.deferral with elections := elections, deferred := s.deferred.erase pseudonode } := by
  obtain ⟨elections, hrecorded, hthis, hothers⟩ :=
    (s.tell (.electionChanged pseudonode election)).deferral_recordElection pseudonode election
  refine ⟨elections, hthis, ?_, h.of_left rfl fun {other id copy} hcopy => ?_⟩
  · have hresumed := ((s.tell (.electionChanged pseudonode election)).recordElection pseudonode
      election).resumeAll_keeps pseudonode fun id copy hcopy => by
        rw [hrecorded] at hcopy
        exact (h.waits hcopy).carries
    have hdeferred : ((s.tell (.electionChanged pseudonode election)).recordElection pseudonode
        election).deferred = s.deferred := congrArg Deferral.deferred hrecorded
    rw [hrecorded, hdeferred] at hresumed
    rwa [setElection, if_neg hnumbered]
  · rw [Deferral.copy?_erase (d := s.deferral) rfl] at hcopy
    split at hcopy
    · cases hcopy
    · rename_i hother
      exact ⟨hcopy, hothers other hother, fun hcontains => hcontains⟩

/-! ### Circuits -/

theorem addCircuit_keeps (s : LevelState) (circuit : Circuit) :
    Deferral.Keeps s.deferral (s.addCircuit circuit).deferral := by
  have hmark : ∀ (s : LevelState) (entry : Entry),
      (s.setFlag .srm (s.summaryOf entry.lsp) circuit.id).deferral = s.deferral := fun _ _ => rfl
  have hadded : (s.addCircuit circuit).deferral =
      { s.deferral with circuits := s.circuits.insert circuit.id circuit } := by
    rw [addCircuit]
    split
    · exact deferral_foldl hmark _ _
    · rfl
  rw [hadded]
  refine ⟨fun h => h.of_left rfl fun hcopy => ⟨hcopy, rfl, fun hcontains => ?_⟩, rfl,
    fun _ _ => .refl _⟩
  rw [Table.contains_insert]
  exact Bool.or_eq_true_iff.2 (.inr hcontains)

/-- The copies from a circuit go away with the circuit. -/
theorem copy?_removeCircuit (s : LevelState) (circuit : CircuitId) (pseudonode : UInt8)
    (id : LspId) :
    (s.removeCircuit circuit).deferral.copy? pseudonode id =
      (s.deferral.copy? pseudonode id).filter fun copy => copy.circuit ≠ circuit := by
  simp only [Deferral.copy?, deferral, removeCircuit, tell, Table.get?_map]
  cases s.deferred.get? pseudonode with
  | none => rfl
  | some waiting => exact Table.get?_filter _ _ _

theorem removeCircuit_tidy (h : s.deferral.Tidy) (circuit : CircuitId) :
    (s.removeCircuit circuit).deferral.Tidy := by
  refine h.of_left rfl fun {pseudonode id copy} hcopy => ?_
  rw [copy?_removeCircuit] at hcopy
  obtain ⟨hcopy, hother⟩ := Option.filter_eq_some_iff.1 hcopy
  refine ⟨hcopy, rfl, fun hcontains => ?_⟩
  exact (Table.contains_erase s.circuits circuit copy.circuit).trans
    (Bool.and_eq_true_iff.2 ⟨hother, hcontains⟩)

/-! ### Runs -/

theorem deferral_purgeOwn (s : LevelState) : s.purgeOwn.deferral = s.deferral := by
  have hcancel : ∀ (s : LevelState) pseudonode,
      (s.cancelGeneration pseudonode).deferral = s.deferral := by
    intro s pseudonode
    obtain ⟨generators, timers, heq⟩ := s.cancelGeneration_eq pseudonode
    rw [heq]
    rfl
  exact (deferral_purgeAll _ _ _).trans (deferral_foldl hcancel _ s)

/-- Unless a circuit is removed or an election is decided, all copies are kept. -/
theorem perform_keeps {operation : Operation} (h : s.Running Lsp.Decoded operation)
    (hcircuit : ∀ circuit, operation ≠ .removeCircuit circuit)
    (helection : ∀ pseudonode election, pseudonode ≠ 0 →
      operation ≠ .setElection pseudonode election) :
    Deferral.Keeps s.deferral (s.perform operation).deferral := by
  cases operation with
  | receiveLsp circuit lsp =>
      cases circuit with
      | none => exact .of_eq (s.deferral_handIn lsp)
      | some circuit => exact s.receiveLsp_keeps circuit (Lsp.Decoded.carries h.hears)
  | receiveLspOctets circuit octets => exact s.receiveLspOctets_keeps circuit octets
  | receiveSnp circuit snp => exact .of_eq (s.deferral_receiveSnp circuit snp)
  | receiveSnpOctets circuit octets => exact .of_eq (s.deferral_receiveSnpOctets circuit octets)
  | addCircuit circuit => exact s.addCircuit_keeps circuit
  | removeCircuit circuit => exact absurd rfl (hcircuit circuit)
  | setElection pseudonode election =>
      by_cases hzero : pseudonode = 0
      · subst hzero
        exact .refl _
      · exact absurd rfl (helection pseudonode election hzero)
  | setAdvertisement advertised =>
      have hset : (s.setAdvertisement advertised).deferral = s.deferral := by
        rw [setAdvertisement]
        split
        · rfl
        · exact deferral_scheduleGeneration _ _ _
      exact .of_eq hset
  | purgeOwn => exact .of_eq s.deferral_purgeOwn
  | purgeLsp id =>
      have hpurge : (s.purgeLsp id).1.deferral = s.deferral := by
        rw [purgeLsp]
        split
        · exact s.deferral_purge id .removed
        · rfl
      exact .of_eq hpurge
  | fire most => exact .of_eq (s.deferral_fireUpTo most)
  | page index =>
      obtain ⟨pages, trace, heq⟩ := s.page_state_eq index
      refine .of_eq ?_
      rw [perform, heq]
      rfl
  | advance => exact .refl _
  | stop => exact absurd rfl h.running

/-- Whatever is asked of a running level, its copies go on waiting where they should. -/
theorem perform_tidy (h : s.deferral.Tidy) {operation : Operation}
    (hrunning : s.Running Lsp.Decoded operation) : (s.perform operation).deferral.Tidy := by
  by_cases hcircuit : ∃ circuit, operation = .removeCircuit circuit
  · obtain ⟨circuit, rfl⟩ := hcircuit
    exact removeCircuit_tidy h circuit
  · by_cases helection : ∃ pseudonode election, pseudonode ≠ 0 ∧
        operation = .setElection pseudonode election
    · obtain ⟨pseudonode, election, hnumbered, rfl⟩ := helection
      obtain ⟨elections, -, hkeeps, htidy⟩ := setElection_keeps h hnumbered election
      exact hkeeps.tidy htidy
    · exact (perform_keeps hrunning (fun circuit heq => hcircuit ⟨circuit, heq⟩)
        fun pseudonode election hnumbered heq =>
          helection ⟨pseudonode, election, hnumbered, heq⟩).tidy h

/-- What is asked of a level that leaves the copy of an LSP waiting: the election for its
pseudonode is not decided, and the circuit that the kept copy came from is not removed. -/
structure LeavesWaiting (id : LspId) (s : LevelState) (operation : Operation) : Prop where
  running : s.Running Lsp.Decoded operation
  undecided : ∀ election, operation ≠ .setElection id.pseudonode election
  attached : ∀ copy, s.deferred? id = some copy → operation ≠ .removeCircuit copy.circuit

/-- While a pseudonode is undecided and the circuit is there, a copy gives way to later ones
only. -/
theorem perform_later (h : s.deferral.Tidy) {operation : Operation}
    (hleaves : LeavesWaiting id s operation) :
    Deferral.Later (s.deferred? id) ((s.perform operation).deferred? id) := by
  by_cases hcircuit : ∃ circuit, operation = .removeCircuit circuit
  · obtain ⟨circuit, rfl⟩ := hcircuit
    intro copy hcopy
    refine ⟨copy, ?_, UInt32.le_refl _⟩
    have hother : copy.circuit ≠ circuit := fun heq =>
      hleaves.attached copy hcopy (congrArg Operation.removeCircuit heq.symm)
    exact (s.copy?_removeCircuit circuit id.pseudonode id).trans
      (Option.filter_eq_some_iff.2 ⟨hcopy, decide_eq_true hother⟩)
  · by_cases helection : ∃ pseudonode election, pseudonode ≠ 0 ∧
        operation = .setElection pseudonode election
    · obtain ⟨pseudonode, election, hnumbered, rfl⟩ := helection
      have hother : id.pseudonode ≠ pseudonode := fun heq =>
        hleaves.undecided election (congrArg (Operation.setElection · election) heq.symm)
      obtain ⟨elections, -, hkeeps, -⟩ := setElection_keeps h hnumbered election
      have hlater := hkeeps.later id.pseudonode id
      rwa [Deferral.copy?_erase (d := s.deferral) rfl, if_neg hother] at hlater
    · exact (perform_keeps hleaves.running (fun circuit heq => hcircuit ⟨circuit, heq⟩)
        fun pseudonode election hnumbered heq =>
          helection ⟨pseudonode, election, hnumbered, heq⟩).later id.pseudonode id

variable {level : Level} {config : Config} {now : Nat} {log : Log}

theorem Reachable.tidy (h : Reachable (Running Lsp.Decoded) level config now s) :
    s.deferral.Tidy := by
  induction h with
  | start =>
      have hstart : (LevelState.start level config now).deferral =
          (blank level config now).deferral :=
        deferral_scheduleGeneration _ _ _
      rw [hstart]
      exact ⟨fun hcopy => by cases hcopy⟩
  | perform _ hallowed ih => exact perform_tidy ih hallowed

/-- As long as it is left waiting, a copy gives way only to more recent ones. -/
theorem Run.later (hrun : Run (LeavesWaiting id) s log t) (h : s.deferral.Tidy) :
    Deferral.Later (s.deferred? id) (t.deferred? id) := by
  have hrun' : t.deferral.Tidy ∧ Deferral.Later (s.deferred? id) (t.deferred? id) := by
    induction hrun with
    | refl => exact ⟨h, .refl _⟩
    | perform _ hallowed ih =>
        exact ⟨perform_tidy ih.1 hallowed.running, ih.2.trans (perform_later ih.1 hallowed)⟩
  exact hrun'.2

/-- In every reachable state, if LSPs are handed in from circuits as octets, each copy that
is deferred under a pseudonode is an own LSP of that pseudonode, which is not that of the
system itself, no election is known for the pseudonode, and the circuit that the copy came
from is registered; no two copies are of one LSP.  As long as its pseudonode stays undecided
and the circuit of the kept copy is not removed, the sequence number of the copy of an LSP
never decreases, and none of the valid copies that are received meanwhile has a greater one.
Once an election is known for a pseudonode nothing is deferred under it, and what is received
either leaves the deferred copies as they are, or it leaves the database and all flooding
flags as they are. -/
theorem deferred_copies_wait (h : Reachable (Running Lsp.Decoded) level config now s) :
    (∀ pseudonode waiting id copy, s.deferred.get? pseudonode = some waiting →
      waiting.get? id = some copy →
      copy.lsp.id = id ∧ id.system = config.system ∧ id.pseudonode = pseudonode ∧
        pseudonode ≠ 0 ∧ s.elections.get? pseudonode = none ∧
        s.circuits.contains copy.circuit = true) ∧
    (∀ pseudonode waiting id copy pseudonode' waiting' id' copy',
      s.deferred.get? pseudonode = some waiting → waiting.get? id = some copy →
      s.deferred.get? pseudonode' = some waiting' → waiting'.get? id' = some copy' →
      copy.lsp.id = copy'.lsp.id → pseudonode = pseudonode' ∧ id = id' ∧ copy = copy') ∧
    (∀ id copy log t, s.deferred? id = some copy → Run (LeavesWaiting id) s log t →
      ∃ later, t.deferred? id = some later ∧ copy.lsp.seqno ≤ later.lsp.seqno) ∧
    (∀ circuit octets lsp, s.circuits.contains circuit = true →
      Pdu.decode s.now octets = .ok (.lsp lsp) → lsp.level = level → lsp.Valid →
      lsp.id.system = config.system → lsp.id.pseudonode ≠ 0 →
      s.elections.get? lsp.id.pseudonode = none →
      let received := s.perform (.receiveLspOctets (some circuit) octets)
      received.database = s.database ∧ received.flooding = s.flooding ∧
        ∀ log t, Run (LeavesWaiting lsp.id) received log t →
          ∃ later, t.deferred? lsp.id = some later ∧ lsp.seqno ≤ later.lsp.seqno) ∧
    (∀ pseudonode election waiting id,
      (s.perform (.setElection pseudonode (some election))).deferred.get? pseudonode =
        some waiting → waiting.get? id = none) ∧
    ∀ circuit octets, let received := s.perform (.receiveLspOctets circuit octets)
      received.deferred = s.deferred ∨
        received.database = s.database ∧ received.flooding = s.flooding := by
  obtain ⟨hlevel, hconfig, -⟩ := (h.mono Running.proper).constant
  have htidy := h.tidy
  have hwaits : ∀ {t : LevelState}, t.deferral.Tidy → ∀ {pseudonode waiting id copy},
      t.deferred.get? pseudonode = some waiting → waiting.get? id = some copy →
        t.deferral.Waits pseudonode id copy := by
    intro t ht pseudonode waiting id copy hwaiting hcopy
    refine ht.waits ?_
    rw [Deferral.copy?, deferral, hwaiting]
    exact hcopy
  refine ⟨?filed, ?unique, ?later, ?covered, ?decided, ?confined⟩
  case filed =>
    intro pseudonode waiting id copy hwaiting hcopy
    obtain ⟨hfiled, hown, hnode, hundecided, hregistered, -⟩ := hwaits htidy hwaiting hcopy
    exact ⟨hfiled, hconfig ▸ hown, hnode, hundecided.1, hundecided.2, hregistered⟩
  case unique =>
    intro pseudonode waiting id copy pseudonode' waiting' id' copy' hwaiting hcopy hwaiting' hcopy'
      hsame
    have hfirst := hwaits htidy hwaiting hcopy
    have hsecond := hwaits htidy hwaiting' hcopy'
    obtain rfl : id = id' := hfirst.filed.symm.trans (hsame.trans hsecond.filed)
    obtain rfl : pseudonode = pseudonode' := hfirst.node.symm.trans hsecond.node
    obtain rfl := Option.some.inj (hwaiting.symm.trans hwaiting')
    exact ⟨rfl, rfl, Option.some.inj (hcopy.symm.trans hcopy')⟩
  case later => exact fun id copy log t hcopy hrun => hrun.later htidy copy hcopy
  case covered =>
    intro circuit octets lsp hregistered hdecode hlsp hvalid hown hnumbered hunknown
    have hstep : s.Running Lsp.Decoded (.receiveLspOctets (some circuit) octets) :=
      ⟨trivial, trivial, fun hstop => by cases hstop⟩
    have hreceived := receiveLspOctets_received hregistered hdecode (hlsp.trans hlevel.symm)
    obtain ⟨counters, hdefers⟩ := receiveFrom_defers
      (s := s.tell (.pduReceived circuit (.lsp lsp))) circuit hvalid
      (decide_eq_true (hown.trans (congrArg Config.system hconfig).symm)) ⟨hnumbered, hunknown⟩
    rw [hdefers] at hreceived
    obtain ⟨deferred, trace, heq⟩ := { s.tell (.pduReceived circuit (.lsp lsp)) with
      counters := counters }.defer_eq circuit lsp
    intro received
    have hkept : received = { s.tell (.pduReceived circuit (.lsp lsp)) with
      counters := counters }.defer circuit lsp := hreceived
    refine ⟨by rw [hkept, heq]; rfl, by rw [hkept, heq]; rfl, fun log t hrun => ?_⟩
    obtain ⟨kept, hcopy, hle⟩ := htidy.covers circuit (Pdu.decode_lsp hdecode).2.2
    have hcopy' : received.deferred? lsp.id = some kept := by
      rw [hkept]
      show (LevelState.defer _ circuit lsp).deferral.copy? lsp.id.pseudonode lsp.id = some kept
      rw [deferral_defer]
      exact hcopy
    obtain ⟨later, hlater, hle'⟩ := hrun.later (perform_tidy htidy hstep) kept hcopy'
    exact ⟨later, hlater, UInt32.le_trans hle hle'⟩
  case decided =>
    intro pseudonode election waiting id hwaiting
    refine Option.eq_none_iff_forall_ne_some.2 fun copy hcopy => ?_
    have hstep : s.Running Lsp.Decoded (.setElection pseudonode (some election)) :=
      ⟨trivial, trivial, fun hstop => by cases hstop⟩
    obtain ⟨-, -, -, ⟨hnumbered, hunknown⟩, -, -⟩ :=
      hwaits (perform_tidy htidy hstep) hwaiting hcopy
    obtain ⟨elections, hthis, hkeeps, -⟩ := setElection_keeps htidy hnumbered (some election)
    have helections : (s.perform (.setElection pseudonode (some election))).deferral.elections =
      elections := hkeeps.elections
    rw [helections, hthis] at hunknown
    cases hunknown
  case confined => exact s.receiveLspOctets_confined

def segmentLsp (seqno : UInt32) : Lsp :=
  Lsp.make 0 .one 1200 ⟨SystemId.zero, 5, 0⟩ seqno .none .empty

/-- A level on two circuits that has heard an own LSP of a pseudonode on the first. -/
def awaiting : LevelState :=
  (((start .one Config.default 0).perform (.addCircuit ⟨1, "eth1", .broadcast⟩)).perform
    (.addCircuit ⟨2, "eth2", .broadcast⟩)).perform
      (.receiveLspOctets (some 1) (segmentLsp 7).raw)

theorem awaiting_reachable :
    Reachable (Running Lsp.Decoded) .one Config.default 0 awaiting := by
  have hrunning : ∀ {s : LevelState} {operation : Operation}, s.Proper operation →
      operation.Hears Lsp.Decoded → operation ≠ .stop → s.Running Lsp.Decoded operation :=
    fun hproper hhears hstop => ⟨hproper, hhears, hstop⟩
  rw [awaiting]
  refine Reachable.perform ?_ (hrunning trivial trivial (by simp))
  refine Reachable.perform ?_ (hrunning trivial trivial (by simp))
  exact Reachable.perform Reachable.start (hrunning trivial trivial (by simp))

/-- The copy is kept when the other circuit is removed, and a more recent one when that is
received. -/
theorem deferred_copies_wait_awaiting :
    (∃ copy, awaiting.deferred? ⟨SystemId.zero, 5, 0⟩ = some copy ∧ copy.circuit = 1 ∧
      copy.lsp.seqno = 7) ∧
    (∃ later, (awaiting.perform (.removeCircuit 2)).deferred? ⟨SystemId.zero, 5, 0⟩ =
      some later ∧ 7 ≤ later.lsp.seqno) ∧
    ∃ later, (awaiting.perform (.receiveLspOctets (some 2) (segmentLsp 9).raw)).deferred?
      ⟨SystemId.zero, 5, 0⟩ = some later ∧ 9 ≤ later.lsp.seqno := by
  obtain ⟨-, -, hlater, hcovered, -⟩ := deferred_copies_wait awaiting_reachable
  obtain ⟨copy, hcopy⟩ : ∃ copy, awaiting.deferred? ⟨SystemId.zero, 5, 0⟩ = some copy :=
    Option.isSome_iff_exists.1 (by decide +kernel)
  have hkept : (awaiting.deferred? ⟨SystemId.zero, 5, 0⟩).map
      (fun copy => (copy.circuit, copy.lsp.seqno)) = some (1, 7) := by
    decide +kernel
  rw [hcopy, Option.map_some, Option.some.injEq, Prod.mk.injEq] at hkept
  refine ⟨⟨copy, hcopy, hkept.1, hkept.2⟩, ?_, ?_⟩
  · have hremoved : Run (LeavesWaiting ⟨SystemId.zero, 5, 0⟩) awaiting
        (awaiting.logOf (.removeCircuit 2) ++ []) (awaiting.perform (.removeCircuit 2)) := by
      refine Run.refl.perform ⟨⟨trivial, trivial, by simp⟩, by simp, fun other hother heq => ?_⟩
      obtain rfl := Option.some.inj (hcopy.symm.trans hother)
      rw [hkept.1] at heq
      cases heq
    exact hkept.2 ▸ hlater _ copy _ _ hcopy hremoved
  · exact (hcovered 2 (segmentLsp 9).raw (segmentLsp 9) (by decide +kernel) (by decide +kernel) rfl
      ⟨by decide +kernel, by decide⟩ rfl (by decide) (by decide +kernel)).2.2 _ _ .refl

end LevelState

end LinkState
