import LinkState.Proofs.Elections
import LinkState.Proofs.Lifetimes
import LinkState.Proofs.Patching

/-!
# Hearing what was sent

An LSP that a level has sent can come back to it, with the remaining lifetime of the moment
in place of the one that it is stored with.  The octets that tell its identity, its sequence
number and its checksum are those of the stored copy, so it is taken for the same and is not
confused with it.  Nothing comes of it but an acknowledgement.
-/

namespace LinkState

/-- Whether an event tells of something that was done about an LSP. -/
def Event.actsOnLsp : Event → Bool
  | .lspChanged .deferred _ _ => false
  | .lspChanged _ _ _ | .lspPurged _ _ _ => true
  | _ => false

/-! ### Octets -/

namespace Lsp

variable {lsp echo : Lsp} {lifetime : UInt16} {time : Nat}

/-- The octets of an LSP tell its LSP ID, its sequence number and its checksum. -/
structure Stamped (lsp : Lsp) : Prop where
  id : lsp.raw.extract 12 20 = lsp.id.toOctets
  seqno : lsp.raw.extract 20 24 = Octets.ofU32 lsp.seqno
  checksum : lsp.raw.extract 24 26 = Octets.ofU16 lsp.checksum

theorem encode_stamped (lsp : Lsp) (now : Nat) : (lsp.encode now).Stamped :=
  ⟨rfl, rfl, rfl⟩

theorem make_stamped (now : Nat) (level : Level) (lifetime : UInt16) (id : LspId) (seqno : UInt32)
    (flags : LspFlags) (tlvs : LspTlvs) : (make now level lifetime id seqno flags tlvs).Stamped :=
  encode_stamped _ now

theorem Decoded.stamped (h : lsp.Decoded) : lsp.Stamped := by
  obtain ⟨time, hdecode⟩ := h
  have hstands := Pdu.standsIn_of_decode hdecode
  exact ⟨hstands.id, hstands.seqno, hstands.checksum⟩

/-- An LSP is a copy of another one with the given lifetime, as far as arbitration can tell. -/
structure Echoes (lsp echo : Lsp) (lifetime : UInt16) : Prop where
  id : echo.id = lsp.id
  seqno : echo.seqno = lsp.seqno
  checksum : echo.checksum = lsp.checksum
  lifetime : echo.lifetime = lifetime

theorem extract_rawWithLifetime (lsp : Lsp) (lifetime : UInt16) {start stop : Nat}
    (h : coveredOffset ≤ start) :
    (lsp.rawWithLifetime lifetime).extract start stop = lsp.raw.extract start stop := by
  rw [List.extract_eq_take_drop, List.extract_eq_take_drop, drop_rawWithLifetime _ _ h]

/-- Whoever reads what is sent of an LSP sees the LSP with the lifetime that is sent. -/
theorem Stamped.echoes (h : lsp.Stamped)
    (hdecode : Pdu.decode time (lsp.rawWithLifetime lifetime) = .ok (.lsp echo)) :
    lsp.Echoes echo lifetime := by
  have hstands := Pdu.standsIn_of_decode hdecode
  have hlong : ¬ lsp.raw.length < coveredOffset := by
    intro hshort
    have hid := congrArg List.length h.id
    have hsize : lsp.id.toOctets.length = 8 := rfl
    rw [List.extract_eq_take_drop, List.length_take, List.length_drop, hsize] at hid
    rw [coveredOffset] at hshort
    omega
  constructor
  · apply LspId.toOctets_injective
    rw [← hstands.id, extract_rawWithLifetime _ _ (by decide), h.id]
  · apply Octets.ofU32_injective
    rw [← hstands.seqno, extract_rawWithLifetime _ _ (by decide), h.seqno]
  · apply Octets.ofU16_injective
    rw [← hstands.checksum, extract_rawWithLifetime _ _ (by decide), h.checksum]
  · apply Octets.ofU16_injective
    rw [← hstands.lifetime]
    exact extract_rawWithLifetime_self (Nat.not_lt.1 hlong) lifetime

end Lsp

namespace LevelState

variable {s t u : LevelState} {id : LspId} {circuit : CircuitId} {lsp : Lsp} {entry : Entry}
  {level : Level} {config : Config} {now : Nat}

theorem completed_stamped (h : lsp.Stamped) : (s.completed lsp).Stamped := by
  rw [completed]
  split
  · exact Lsp.encode_stamped _ _
  · exact h

/-- What is stored was read from its octets, or its octets were made from its fields. -/
theorem Step.stamped (hstep : Step Lsp.Decoded s t)
    (h : ∀ id entry, s.database.get? id = some entry → entry.lsp.Stamped) :
    ∀ id entry, t.database.get? id = some entry → entry.lsp.Stamped := by
  refine hstep.entries h fun {lsp received} horigin => ?_
  rw [armed_lsp]
  cases horigin with
  | accepted admitted => exact completed_stamped admitted.heard.stamped
  | purged => exact Lsp.encode_stamped _ _
  | _ => exact Lsp.make_stamped ..

/-! ### Runs -/

theorem Listening.running {operation : Operation} (h : s.Listening operation) :
    s.Running Lsp.Decoded operation := by
  refine ⟨h.proper, ?_, ?_⟩
  · cases operation with
    | receiveLsp => cases h
    | _ => trivial
  · rintro rfl
    cases h

theorem Listening.timely {operation : Operation} (h : s.Listening operation) :
    s.Timely operation := by
  cases operation with
  | receiveLsp => cases h
  | purgeLsp id => exact h
  | _ => trivial

theorem Reachable.stamped (h : Reachable Listening level config now s)
    (hstored : s.database.get? id = some entry) : entry.lsp.Stamped := by
  have hinvariant := h.invariant
    (P := fun s => ∀ id entry, s.database.get? id = some entry → entry.lsp.Stamped)
    Pdu.decoded_of_decode (fun hallowed => .inl hallowed.running)
    (by simp [blank]) (fun _ hs hstep => hstep.stamped hs) (by simp [LevelState.stop])
  exact hinvariant.2 id entry hstored

/-! ### Echoes -/

structure EchoOf (s : LevelState) (entry : Entry) (lsp : Lsp) : Prop where
  stored : s.database.get? lsp.id = some entry
  known : entry.isPlaceholder = false
  seqno : lsp.seqno = entry.lsp.seqno
  checksum : lsp.checksum = entry.lsp.checksum
  expired : lsp.isExpired = entry.isPurged

/-- What is sent of a stored LSP is its echo while no timer is overdue. -/
theorem Reachable.echoOf (h : Reachable Listening level config now s)
    (hdue : ∀ timer ∈ s.timers.pending, s.now < timer.due) (hknown : s.known? id = some entry)
    (hdecode : Pdu.decode s.now (entry.lsp.rawWithLifetime (entry.lsp.remaining s.now)) =
      .ok (.lsp lsp)) : s.EchoOf entry lsp := by
  obtain ⟨hstored, hplaceholder⟩ := stored_of_known hknown
  have hconsistent := (h.mono Listening.proper).consistent
  have hleft := (h.mono Listening.timely).fresh.remaining_eq_zero hconsistent hdue hstored
    (Nat.le_refl _)
  obtain ⟨hid, hseqno, hchecksum, hlifetime⟩ := (h.stamped hstored).echoes hdecode
  refine ⟨?_, hplaceholder, hseqno, hchecksum, ?_⟩
  · rw [hid, hconsistent.keys hstored]
    exact hstored
  · rw [Bool.eq_iff_iff, Lsp.isExpired, decide_eq_true_eq, hlifetime]
    exact hleft

namespace EchoOf

/-- An echo is neither newer nor older than what is stored. -/
theorem same (h : s.EchoOf entry lsp) : s.recency lsp = .same := by
  have hexpired : lsp.lifetime = 0 ↔ entry.lsp.lifetime = 0 := by
    simpa [Lsp.isExpired, Entry.isPurged] using h.expired
  rw [recency_of_stored h.stored, Recency.ofLsp, Recency.compare]
  split
  · rfl
  · simp [Recency.ofFields, h.seqno, hexpired]

theorem not_confused (h : s.EchoOf entry lsp) :
    isConfused entry lsp.lifetime lsp.checksum = false := by
  simp [isConfused, h.checksum]

theorem isKnown (h : s.EchoOf entry lsp) : s.known? lsp.id = some entry :=
  known_of_stored h.stored h.known

end EchoOf

/-! ### What comes of an echo -/

/-- Between two states, nothing was done about any LSP: what is stored, the timers, the
pages and the generators are the same, no LSP was marked for sending, and nothing is told
but what was received. -/
structure Unmoved (s t : LevelState) : Prop where
  database : t.database = s.database
  timers : t.timers = s.timers
  generators : t.generators = s.generators
  pages : t.pages = s.pages
  history : t.history = s.history
  srm : ∀ circuit id, t.flooding.isSet .srm circuit id = true →
    s.flooding.isSet .srm circuit id = true
  told : t.trace.filter Event.actsOnLsp = s.trace.filter Event.actsOnLsp

namespace Unmoved

theorem refl (s : LevelState) : Unmoved s s :=
  ⟨rfl, rfl, rfl, rfl, rfl, fun _ _ hset => hset, rfl⟩

theorem trans (h : Unmoved s t) (h' : Unmoved t u) : Unmoved s u where
  database := h'.database.trans h.database
  timers := h'.timers.trans h.timers
  generators := h'.generators.trans h.generators
  pages := h'.pages.trans h.pages
  history := h'.history.trans h.history
  srm := fun circuit id hset => h.srm circuit id (h'.srm circuit id hset)
  told := h'.told.trans h.told

theorem count (s : LevelState) (counters : Counters) :
    Unmoved s { s with counters := counters } :=
  ⟨rfl, rfl, rfl, rfl, rfl, fun _ _ hset => hset, rfl⟩

theorem tell (s : LevelState) (event : Event) (h : event.actsOnLsp = false) :
    Unmoved s (s.tell event) :=
  ⟨rfl, rfl, rfl, rfl, rfl, fun _ _ hset => hset, List.filter_cons_of_neg (by simp [h])⟩

theorem defer (s : LevelState) (circuit : CircuitId) (lsp : Lsp) :
    Unmoved s (s.defer circuit lsp) := by
  have htell := tell s (.lspChanged .deferred s.level lsp.mention) rfl
  unfold LevelState.defer
  dsimp only
  split
  · exact htell.trans ⟨rfl, rfl, rfl, rfl, rfl, fun _ _ hset => hset, rfl⟩
  · exact htell

/-- An LSP that is acknowledged is no longer to be sent. -/
theorem settle (s : LevelState) (circuit : CircuitId) (lsp : Lsp) :
    Unmoved s ((s.clearFlags .srm lsp.id none).acknowledge circuit lsp) := by
  rw [acknowledge_eq]
  refine ⟨rfl, rfl, rfl, rfl, rfl, fun c id hset => ?_, rfl⟩
  rw [Flooding.isSet, get?_acknowledgedFlags, clearFlags, Flooding.get?_clearAll] at hset
  rw [Flooding.isSet]
  cases hflags : s.flooding.get? c with
  | none => simp [hflags] at hset
  | some flags =>
      have hcleared : (flags.clear .srm lsp.id).isSet .srm id = true := by
        simp only [hflags, Option.map_some, Option.getD_some, reduceCtorEq, if_false] at hset
        split at hset
        · exact hset
        · exact hset
      simp only [CircuitFlags.isSet, CircuitFlags.clear, Table.contains_erase, Bool.and_eq_true]
        at hcleared
      exact hcleared.2

end Unmoved

/-- An echo of the stored copy is acknowledged. -/
theorem acceptSame_unmoved (h : s.EchoOf entry lsp) :
    Unmoved s (s.acceptSame circuit lsp (s.database.get? lsp.id)) := by
  rw [acceptSame, h.stored, Option.map_some, Option.getD_some, h.not_confused,
    if_neg Bool.false_ne_true]
  exact .settle s circuit lsp

theorem judged_unmoved (h : s.EchoOf entry lsp) (hjudged : Judged s circuit lsp t) :
    Unmoved s t := by
  cases hjudged with
  | recorded _ unknown => simp [h.isKnown] at unknown
  | accepted newer => simp [h.same] at newer
  | outlived _ newer => simp [h.same] at newer
  | same => exact acceptSame_unmoved h
  | older older => simp [h.same] at older

/-- An own LSP that is live is not answered by a purge: the system advertises its node. -/
theorem answered_unmoved (h : s.EchoOf entry lsp) (hentitled : s.Entitled)
    (hown : s.isOwn lsp.id = true) (hanswered : Answered s circuit lsp t) : Unmoved s t := by
  cases hanswered with
  | deferred => exact .defer s circuit lsp
  | unsupported unsupported live =>
      have hlive : entry.isLive = true := Entry.isLive_iff.2 ⟨h.expired ▸ live, h.known⟩
      have hsupported := hentitled.advertised hown (published_ne_none h.stored hlive)
      simp [hsupported] at unsupported
  | removed _ live gone =>
      have hpurged := gone entry h.isKnown
      rw [← h.expired, live] at hpurged
      cases hpurged
  | superseded _ _ _ newer => simp [h.same] at newer

theorem EchoOf.congr (h : s.EchoOf entry lsp) (hdatabase : t.database = s.database) :
    t.EchoOf entry lsp :=
  ⟨hdatabase ▸ h.stored, h.known, h.seqno, h.checksum, h.expired⟩

/-- The echo of a stored LSP passes validation, the answer to own LSPs and arbitration without
any effect. -/
theorem receiveFrom_unmoved (hconsistent : s.Consistent) (h : s.EchoOf entry lsp)
    (hentitled : s.Entitled) (circuit : CircuitId) : Unmoved s (s.receiveFrom circuit lsp) := by
  by_cases hvalid : lsp.Valid
  · have hreceived := receiveFrom_received hconsistent circuit lsp
    generalize s.receiveFrom circuit lsp = t at hreceived
    cases hreceived with
    | discarded invalid => exact absurd hvalid invalid
    | answered counters _ own answered =>
        have hcounted : { s with counters := counters }.EchoOf entry lsp := h.congr rfl
        exact (Unmoved.count s counters).trans
          (answered_unmoved hcounted (hentitled.congr rfl rfl rfl rfl) own answered)
    | judged counters _ _ judged =>
        have hcounted : { s with counters := counters }.EchoOf entry lsp := h.congr rfl
        exact (Unmoved.count s counters).trans (judged_unmoved hcounted judged)
  · obtain ⟨counters, reason, hdiscarded⟩ := s.receiveFrom_discarded circuit hvalid
    rw [hdiscarded]
    exact (Unmoved.count s counters).trans (.tell _ _ rfl)

theorem receiveLsp_unmoved (hconsistent : s.Consistent) (h : s.EchoOf entry lsp)
    (hentitled : s.Entitled) (circuit : CircuitId) :
    Unmoved s (s.receiveLsp (some circuit) lsp).1 := by
  simp only [receiveLsp]
  split
  · exact .refl s
  · split
    · exact receiveFrom_unmoved hconsistent h hentitled circuit
    · exact .refl s

/-- Hearing what was sent is harmless.  In every state of a level that hears LSPs as octets
and is handed none by the system itself, while no timer is overdue, nothing comes of it when
the octets of a stored LSP, as they are sent now, arrive on a circuit.  This holds of LSPs of
this system and of others, of purges and of live LSPs at any age, and whatever became of the
LSP before it was stored. -/
theorem echo_harmless (h : Reachable Listening level config now s)
    (hdue : ∀ timer ∈ s.timers.pending, s.now < timer.due) (circuit : CircuitId) {octets : Octets}
    (hpayload : s.payload? id = some octets) :
    Unmoved s (s.receiveLspOctets (some circuit) octets).1 := by
  obtain ⟨entry, hknown, rfl⟩ := Option.map_eq_some_iff.1 hpayload
  rw [receiveLspOctets]
  cases hdecode : Pdu.decode s.now (entry.lsp.rawWithLifetime (entry.lsp.remaining s.now)) with
  | error => exact .refl s
  | ok pdu =>
      apply (Unmoved.tell s (.pduReceived circuit pdu) rfl).trans
      cases pdu with
      | snp => exact .refl _
      | lsp lsp =>
          have hconsistent := (h.mono Listening.proper).consistent
          have hecho : (s.tell (.pduReceived circuit (.lsp lsp))).EchoOf entry lsp :=
            (h.echoOf hdue hknown hdecode).congr rfl
          exact receiveLsp_unmoved (hconsistent.tell _) hecho (h.entitled.congr rfl rfl rfl rfl)
            circuit

/-- A level that has originated an LSP five minutes ago. -/
def sending : LevelState :=
  let network : Ipv4Network := ⟨⟨192, 168, 1, 1⟩, 24⟩
  let s := (start .one Config.default 0).perform (.addCircuit ⟨1, "eth1", .pointToPoint⟩)
  let s := s.perform (.setAdvertisement { Advertisement.empty with ipv4 := [network] })
  ((s.perform (.advance 2000)).perform (.fire 1)).perform (.advance 300000)

theorem sending_reachable : Reachable Listening .one Config.default 0 sending := by
  rw [sending]
  refine Reachable.perform ?_ trivial
  refine Reachable.perform ?_ trivial
  refine Reachable.perform ?_ trivial
  refine Reachable.perform ?_ trivial
  exact Reachable.perform .start trivial

/-- The LSP of the system is sent with a shorter lifetime, and hearing that does not move
it. -/
theorem echo_harmless_sending :
    ∃ entry octets, sending.database.get? LspId.first = some entry ∧ entry.isLive = true ∧
      sending.payload? LspId.first = some octets ∧ octets ≠ entry.lsp.raw ∧
      Unmoved sending (sending.receiveLspOctets (some 1) octets).1 := by
  have hdue : ∀ timer ∈ sending.timers.pending, sending.now < timer.due := by decide +kernel
  have hsent : (sending.database.get? LspId.first).any (fun entry => entry.isLive &&
      (sending.payload? LspId.first).any fun octets => octets != entry.lsp.raw) = true := by
    decide +kernel
  obtain ⟨entry, hstored, hfacts⟩ := (Option.any_eq_true _ _).1 hsent
  rw [Bool.and_eq_true] at hfacts
  obtain ⟨octets, hpayload, hpatched⟩ := (Option.any_eq_true _ _).1 hfacts.2
  rw [bne_iff_ne] at hpatched
  exact ⟨entry, octets, hstored, hfacts.1, hpayload, hpatched,
    echo_harmless sending_reachable hdue 1 hpayload⟩

end LevelState

end LinkState
