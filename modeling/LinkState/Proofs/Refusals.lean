import LinkState.Proofs.LspGrammar
import LinkState.Proofs.Reachability

/-!
# Refused input changes nothing

What is handed in to a level is refused for a reason that can be read off the input and the
level, before anything is done about it.  The level is the same afterwards, but for the event
that tells of a PDU that could be read.  An LSP from the network that does not pass validation
is not refused but discarded, which is counted and changes nothing else.
-/

namespace LinkState

def Event.isReception : Event → Bool
  | .pduReceived _ _ => true
  | _ => false

/-! ### Fields that no purge may carry -/

namespace LspTlvs

variable {tlvs : LspTlvs} {fields : List Tlv.Raw}

theorem allowedInPurge_iff :
    tlvs.allowedInPurge = true ↔ tlvs.protocols = none ∧ tlvs.areas = [] ∧ tlvs.isReach = [] ∧
      tlvs.ipv4 = [] ∧ tlvs.ipv6 = [] := by
  simp only [allowedInPurge, Bool.and_eq_true, Option.isNone_iff_eq_none, List.isEmpty_iff,
    and_assoc]

/-- The types of the fields that a purge must not carry. -/
def codesNotInPurge : List UInt8 :=
  [Tlv.protocols, Tlv.areas, Tlv.isReach, Tlv.ipv4, Tlv.ipv6]

theorem valuesOf_eq_nil_iff {code : UInt8} :
    Tlv.valuesOf code fields = [] ↔ ∀ raw ∈ fields, raw.code ≠ code := by
  simp [Tlv.valuesOf]

theorem forall₂_eq_nil_iff {α : Type} {R : Octets → α → Prop} {values : List Octets}
    {list : List α} (h : List.Forall₂ R values list) : list = [] ↔ values = [] := by
  cases h <;> simp

/-- Even an empty field of one of these types makes a purge unacceptable. -/
theorem Reads.allowedInPurge_iff (h : Reads fields tlvs) :
    tlvs.allowedInPurge = true ↔ ∀ raw ∈ fields, raw.code ∉ codesNotInPurge := by
  rw [LspTlvs.allowedInPurge_iff, h.protocols, List.head?_eq_none_iff,
    forall₂_eq_nil_iff h.areas, forall₂_eq_nil_iff h.isReach, forall₂_eq_nil_iff h.ipv4,
    forall₂_eq_nil_iff h.ipv6]
  simp only [valuesOf_eq_nil_iff, codesNotInPurge, List.mem_cons, List.not_mem_nil, or_false,
    not_or]
  constructor
  · rintro ⟨hprotocols, hareas, hreach, hipv4, hipv6⟩ raw hraw
    exact ⟨hprotocols raw hraw, hareas raw hraw, hreach raw hraw, hipv4 raw hraw, hipv6 raw hraw⟩
  · intro hnone
    exact ⟨fun raw hraw => (hnone raw hraw).1, fun raw hraw => (hnone raw hraw).2.1,
      fun raw hraw => (hnone raw hraw).2.2.1, fun raw hraw => (hnone raw hraw).2.2.2.1,
      fun raw hraw => (hnone raw hraw).2.2.2.2⟩

end LspTlvs

namespace LevelState

variable {s t : LevelState} {circuit : CircuitId} {lsp : Lsp} {snp : Snp} {octets : Octets}
  {id : LspId} {operation : Operation} {error : UpdateError}

/-! ### Reasons for a refusal -/

/-- With which error an LSP is refused: it belongs to another level, this system hands it in
under the system ID of another one, or it comes from a circuit that is not there. -/
inductive RefusesLsp (s : LevelState) : Option CircuitId → Lsp → UpdateError → Prop
  | level {circuit : Option CircuitId} {lsp : Lsp} (other : lsp.level ≠ s.level) :
      RefusesLsp s circuit lsp (.levelMismatch circuit lsp.level)
  | foreign {lsp : Lsp} (level : lsp.level = s.level) (foreign : lsp.id.system ≠ s.config.system) :
      RefusesLsp s none lsp (.foreignLsp lsp.id)
  | circuit {circuit : CircuitId} {lsp : Lsp} (level : lsp.level = s.level)
      (unknown : s.circuits.get? circuit = none) :
      RefusesLsp s (some circuit) lsp (.circuitNotFound circuit)

/-- With which error a sequence numbers PDU is refused: it comes from a circuit that is not
there, belongs to another level, or has a range that ends before it starts. -/
inductive RefusesSnp (s : LevelState) (circuit : CircuitId) (snp : Snp) : UpdateError → Prop
  | circuit (unknown : s.circuits.get? circuit = none) :
      RefusesSnp s circuit snp (.circuitNotFound circuit)
  | level (registered : s.circuits.contains circuit = true) (other : snp.level ≠ s.level) :
      RefusesSnp s circuit snp (.levelMismatch (some circuit) snp.level)
  | range (registered : s.circuits.contains circuit = true) (level : snp.level = s.level)
      {start stop : LspId} (declared : snp.range = some (start, stop)) (inverted : stop < start) :
      RefusesSnp s circuit snp (.invertedRange circuit start stop)

/-- With which error an operation is refused.  Octets are refused if they cannot be read, if
they are a PDU of another type, or if what is read from them is refused. -/
inductive Refuses (s : LevelState) : Operation → UpdateError → Prop
  | lsp {circuit : Option CircuitId} {lsp : Lsp} {error : UpdateError}
      (refused : s.RefusesLsp circuit lsp error) : Refuses s (.receiveLsp circuit lsp) error
  | snp {circuit : CircuitId} {snp : Snp} {error : UpdateError}
      (refused : s.RefusesSnp circuit snp error) : Refuses s (.receiveSnp circuit snp) error
  | undecodableLsp {circuit : Option CircuitId} {octets : Octets} {cause : DecodeError}
      (undecodable : Pdu.decode s.now octets = .error cause) :
      Refuses s (.receiveLspOctets circuit octets) (.undecodable circuit cause)
  | notLsp {circuit : Option CircuitId} {octets : Octets} {snp : Snp}
      (decoded : Pdu.decode s.now octets = .ok (.snp snp)) :
      Refuses s (.receiveLspOctets circuit octets) (.unexpectedPdu circuit snp.header.kind)
  | lspOctets {circuit : Option CircuitId} {octets : Octets} {lsp : Lsp} {error : UpdateError}
      (decoded : Pdu.decode s.now octets = .ok (.lsp lsp))
      (refused : s.RefusesLsp circuit lsp error) :
      Refuses s (.receiveLspOctets circuit octets) error
  | undecodableSnp {circuit : CircuitId} {octets : Octets} {cause : DecodeError}
      (undecodable : Pdu.decode s.now octets = .error cause) :
      Refuses s (.receiveSnpOctets circuit octets) (.undecodable (some circuit) cause)
  | notSnp {circuit : CircuitId} {octets : Octets} {lsp : Lsp}
      (decoded : Pdu.decode s.now octets = .ok (.lsp lsp)) :
      Refuses s (.receiveSnpOctets circuit octets) (.unexpectedPdu (some circuit) lsp.header.kind)
  | snpOctets {circuit : CircuitId} {octets : Octets} {snp : Snp} {error : UpdateError}
      (decoded : Pdu.decode s.now octets = .ok (.snp snp))
      (refused : s.RefusesSnp circuit snp error) :
      Refuses s (.receiveSnpOctets circuit octets) error
  | purge {id : LspId} (unknown : s.database.get? id = none) :
      Refuses s (.purgeLsp id) (.lspNotFound s.level id)

def refusal? (s : LevelState) : Operation → Option UpdateError
  | .receiveLsp circuit lsp => (s.receiveLsp circuit lsp).2
  | .receiveLspOctets circuit octets => (s.receiveLspOctets circuit octets).2
  | .receiveSnp circuit snp => (s.receiveSnp circuit snp).2
  | .receiveSnpOctets circuit octets => (s.receiveSnpOctets circuit octets).2
  | .purgeLsp id => (s.purgeLsp id).2
  | _ => none

theorem not_contains_iff : ¬ s.circuits.contains circuit = true ↔ s.circuits.get? circuit = none := by
  simp [Table.contains]

/-- An LSP is refused for one of the reasons only. -/
theorem refusesLsp_of_error {circuit : Option CircuitId}
    (h : (s.receiveLsp circuit lsp).2 = some error) : s.RefusesLsp circuit lsp error := by
  unfold receiveLsp at h
  split at h
  · rename_i hother
    cases h
    exact .level hother
  rename_i hlevel
  rw [not_not] at hlevel
  cases circuit with
  | none =>
      dsimp only at h
      split at h
      · cases h
      · rename_i hforeign
        cases h
        exact .foreign hlevel fun hown => hforeign (decide_eq_true hown)
  | some circuit =>
      dsimp only at h
      split at h
      · cases h
      · rename_i hunknown
        cases h
        exact .circuit hlevel (not_contains_iff.1 hunknown)

/-- An LSP is refused before anything is done about it. -/
theorem RefusesLsp.receiveLsp {circuit : Option CircuitId} (h : s.RefusesLsp circuit lsp error) :
    s.receiveLsp circuit lsp = (s, some error) := by
  unfold LevelState.receiveLsp
  cases h with
  | level other => exact if_pos other
  | foreign level foreign =>
      have hforeign : ¬ s.isOwn lsp.id = true := fun hown => foreign (of_decide_eq_true hown)
      rw [if_neg fun hother => hother level]
      exact if_neg hforeign
  | circuit level unknown =>
      rw [if_neg fun hother => hother level]
      exact if_neg (not_contains_iff.2 unknown)

theorem rangeError?_eq_some_iff {range : Option (LspId × LspId)} :
    rangeError? circuit range = some error ↔
      ∃ start stop, range = some (start, stop) ∧ stop < start ∧
        error = .invertedRange circuit start stop := by
  cases range with
  | none => simp [rangeError?]
  | some range =>
      obtain ⟨start, stop⟩ := range
      rw [rangeError?]
      constructor
      · intro h
        split at h
        · rename_i hinverted
          cases h
          exact ⟨start, stop, rfl, hinverted, rfl⟩
        · cases h
      · rintro ⟨start', stop', heq, hinverted, rfl⟩
        cases heq
        exact if_pos hinverted

/-- A sequence numbers PDU is refused for one of the reasons only. -/
theorem refusesSnp_of_error (h : (s.receiveSnp circuit snp).2 = some error) :
    s.RefusesSnp circuit snp error := by
  rw [receiveSnp] at h
  split at h
  · rename_i hunknown
    cases h
    exact .circuit (not_contains_iff.1 (by simpa using hunknown))
  rename_i hregistered
  have hregistered : s.circuits.contains circuit = true := by simpa using hregistered
  split at h
  · rename_i hother
    cases h
    exact .level hregistered hother
  rename_i hlevel
  rw [not_not] at hlevel
  split at h
  · rename_i hrange
    cases h
    obtain ⟨start, stop, hdeclared, hinverted, rfl⟩ := rangeError?_eq_some_iff.1 hrange
    exact .range hregistered hlevel hdeclared hinverted
  · cases h

/-- A sequence numbers PDU is refused before any of its summaries is reviewed. -/
theorem RefusesSnp.receiveSnp (h : s.RefusesSnp circuit snp error) :
    s.receiveSnp circuit snp = (s, some error) := by
  cases h with
  | circuit unknown =>
      have hunknown := not_contains_iff.2 unknown
      rw [LevelState.receiveSnp, if_pos (by simpa using hunknown)]
  | level registered other =>
      rw [LevelState.receiveSnp, if_neg (by simp [registered]), if_pos other]
  | range registered level declared inverted =>
      rw [LevelState.receiveSnp, if_neg (by simp [registered]), if_neg fun hother => hother level,
        rangeError?_eq_some_iff.2 ⟨_, _, declared, inverted, rfl⟩]

theorem unknown_of_purgeLsp_error (h : (s.purgeLsp id).2 = some error) :
    s.database.get? id = none ∧ error = .lspNotFound s.level id := by
  rw [purgeLsp, Table.contains] at h
  cases hstored : s.database.get? id with
  | none =>
      rw [hstored] at h
      cases h
      exact ⟨rfl, rfl⟩
  | some entry =>
      rw [hstored] at h
      cases h

theorem purgeLsp_of_unknown (h : s.database.get? id = none) :
    s.purgeLsp id = (s, some (.lspNotFound s.level id)) := by
  rw [purgeLsp, Table.contains, h]
  rfl

/-- Only the level, its system and its circuits matter for the refusal of an LSP. -/
theorem RefusesLsp.congr {circuit : Option CircuitId} (h : s.RefusesLsp circuit lsp error)
    (hlevel : t.level = s.level) (hconfig : t.config = s.config)
    (hcircuits : t.circuits = s.circuits) : t.RefusesLsp circuit lsp error := by
  cases h with
  | level other => exact .level (hlevel ▸ other)
  | foreign level foreign => exact .foreign (hlevel ▸ level) (hconfig ▸ foreign)
  | circuit level unknown => exact .circuit (hlevel ▸ level) (hcircuits ▸ unknown)

theorem RefusesSnp.congr (h : s.RefusesSnp circuit snp error) (hlevel : t.level = s.level)
    (hcircuits : t.circuits = s.circuits) : t.RefusesSnp circuit snp error := by
  cases h with
  | circuit unknown => exact .circuit (hcircuits ▸ unknown)
  | level registered other => exact .level (hcircuits ▸ registered) (hlevel ▸ other)
  | range registered level declared inverted =>
      exact .range (hcircuits ▸ registered) (hlevel ▸ level) declared inverted

/-! ### What is left of refused input -/

/-- An operation that ends with an error is refused for a reason. -/
theorem refuses_of_refusal (h : s.refusal? operation = some error) :
    s.Refuses operation error := by
  cases operation with
  | receiveLsp circuit lsp => exact .lsp (refusesLsp_of_error h)
  | receiveSnp circuit snp => exact .snp (refusesSnp_of_error h)
  | receiveLspOctets circuit octets =>
      rw [refusal?, receiveLspOctets] at h
      cases hdecode : Pdu.decode s.now octets with
      | error cause =>
          rw [hdecode] at h
          cases h
          exact .undecodableLsp hdecode
      | ok pdu =>
          rw [hdecode] at h
          cases pdu with
          | snp snp =>
              cases h
              exact .notLsp hdecode
          | lsp lsp =>
              have hrefused := refusesLsp_of_error h
              apply Refuses.lspOctets hdecode
              cases circuit <;> exact hrefused.congr rfl rfl rfl
  | receiveSnpOctets circuit octets =>
      rw [refusal?, receiveSnpOctets] at h
      cases hdecode : Pdu.decode s.now octets with
      | error cause =>
          rw [hdecode] at h
          cases h
          exact .undecodableSnp hdecode
      | ok pdu =>
          rw [hdecode] at h
          cases pdu with
          | lsp lsp =>
              cases h
              exact .notSnp hdecode
          | snp snp =>
              have hrefused := refusesSnp_of_error h
              exact .snpOctets hdecode (hrefused.congr rfl rfl)
  | purgeLsp id =>
      obtain ⟨hunknown, rfl⟩ := unknown_of_purgeLsp_error h
      exact .purge hunknown
  | _ => cases h

/-- What is refused for a reason ends with the error that names it, and leaves the level as it
was. -/
theorem Refuses.leaves (h : s.Refuses operation error) :
    s.refusal? operation = some error ∧
      ∃ events, (∀ event ∈ events, event.isReception = true) ∧
        s.perform operation = { s with trace := events ++ s.trace } := by
  cases h with
  | lsp refused =>
      simp only [refusal?, perform, refused.receiveLsp]
      exact ⟨trivial, [], by simp, rfl⟩
  | snp refused =>
      simp only [refusal?, perform, refused.receiveSnp]
      exact ⟨trivial, [], by simp, rfl⟩
  | undecodableLsp undecodable =>
      simp only [refusal?, perform, receiveLspOctets, undecodable]
      exact ⟨trivial, [], by simp, rfl⟩
  | @notLsp circuit octets snp decoded =>
      simp only [refusal?, perform, receiveLspOctets, decoded]
      cases circuit with
      | none => exact ⟨trivial, [], by simp, rfl⟩
      | some circuit =>
          exact ⟨trivial, [.pduReceived circuit (.snp snp)], by simp [Event.isReception], rfl⟩
  | @lspOctets circuit octets lsp error decoded refused =>
      cases circuit with
      | none =>
          simp only [refusal?, perform, receiveLspOctets, decoded, refused.receiveLsp]
          exact ⟨trivial, [], by simp, rfl⟩
      | some circuit =>
          -- The refusal comes after the PDU is told of.
          have htold : (s.tell (.pduReceived circuit (.lsp lsp))).RefusesLsp (some circuit) lsp
              error := refused.congr rfl rfl rfl
          simp only [refusal?, perform, receiveLspOctets, decoded, htold.receiveLsp]
          exact ⟨trivial, [.pduReceived circuit (.lsp lsp)], by simp [Event.isReception], rfl⟩
  | undecodableSnp undecodable =>
      simp only [refusal?, perform, receiveSnpOctets, undecodable]
      exact ⟨trivial, [], by simp, rfl⟩
  | @notSnp circuit octets lsp decoded =>
      simp only [refusal?, perform, receiveSnpOctets, decoded]
      exact ⟨trivial, [.pduReceived circuit (.lsp lsp)], by simp [Event.isReception], rfl⟩
  | @snpOctets circuit octets snp error decoded refused =>
      have htold : (s.tell (.pduReceived circuit (.snp snp))).RefusesSnp circuit snp error :=
        refused.congr rfl rfl
      simp only [refusal?, perform, receiveSnpOctets, decoded, htold.receiveSnp]
      exact ⟨trivial, [.pduReceived circuit (.snp snp)], by simp [Event.isReception], rfl⟩
  | purge unknown =>
      simp only [refusal?, perform, purgeLsp_of_unknown unknown]
      exact ⟨trivial, [], by simp, rfl⟩

/-! ### What is left of discarded LSPs -/

/-- An operation brings in an LSP of the level from a circuit that is there. -/
inductive Brings (s : LevelState) (lsp : Lsp) : Operation → Prop
  | lsp {circuit : CircuitId} (registered : s.circuits.contains circuit = true)
      (level : lsp.level = s.level) : Brings s lsp (.receiveLsp (some circuit) lsp)
  | octets {circuit : CircuitId} {octets : Octets}
      (registered : s.circuits.contains circuit = true) (level : lsp.level = s.level)
      (decoded : Pdu.decode s.now octets = .ok (.lsp lsp)) :
      Brings s lsp (.receiveLspOctets (some circuit) octets)

/-- All that comes of an LSP is that it is counted: if its checksum does not fit, and if it is
a purge of an own LSP. -/
structure OnlyCounted (s : LevelState) (lsp : Lsp) (t : LevelState) : Prop where
  corrupted : t.counters.corruptedLsps =
    if lsp.checksumValid then s.counters.corruptedLsps else s.counters.corruptedLsps + 1
  ownPurges : t.counters.ownPurges =
    if lsp.isExpired && s.isOwn lsp.id then s.counters.ownPurges + 1 else s.counters.ownPurges
  skipped : t.counters.skippedSeqnos = s.counters.skippedSeqnos
  exhausted : t.counters.exhaustedSeqnos = s.counters.exhaustedSeqnos
  rest : ∃ trace, t = { s with counters := t.counters, trace := trace }

/-- Of an LSP that does not pass validation nothing is left but the count. -/
theorem receiveFrom_onlyCounted (s : LevelState) (circuit : CircuitId) (hinvalid : ¬ lsp.Valid) :
    OnlyCounted s lsp (s.receiveFrom circuit lsp) := by
  unfold receiveFrom
  cases hintact : lsp.checksumValid with
  | false =>
      simp only [Bool.not_false, if_true]
      cases hown : lsp.isExpired && s.isOwn lsp.id <;>
        exact ⟨by rw [hintact]; rfl, by rw [hown]; rfl, rfl, rfl, _, rfl⟩
  | true =>
      have hpurge : (lsp.isExpired && !lsp.tlvs.allowedInPurge) = true := by
        by_contra hother
        exact hinvalid ⟨hintact, by simpa using hother⟩
      simp only [Bool.not_true, Bool.false_eq_true, if_false, hpurge, if_true]
      cases hown : lsp.isExpired && s.isOwn lsp.id <;>
        exact ⟨by rw [hintact]; rfl, by rw [hown]; rfl, rfl, rfl, _, rfl⟩

/-- What was told before does not matter for the count. -/
theorem OnlyCounted.of_tell {event : Event} (h : OnlyCounted (s.tell event) lsp t) :
    OnlyCounted s lsp t :=
  ⟨h.corrupted, h.ownPurges, h.skipped, h.exhausted, h.rest⟩

theorem Brings.onlyCounted (h : s.Brings lsp operation) (hinvalid : ¬ lsp.Valid) :
    s.refusal? operation = none ∧ OnlyCounted s lsp (s.perform operation) := by
  cases h with
  | @lsp circuit registered level =>
      simp only [refusal?, perform, receiveLsp_registered registered level]
      exact ⟨trivial, s.receiveFrom_onlyCounted circuit hinvalid⟩
  | @octets circuit octets registered level decoded =>
      have hreceive := @receiveLsp_registered (s.tell (.pduReceived circuit (.lsp lsp))) circuit
        lsp registered level
      simp only [refusal?, perform, receiveLspOctets, decoded, hreceive]
      exact ⟨trivial, (receiveFrom_onlyCounted _ circuit hinvalid).of_tell⟩

/-- Rejected input changes nothing.  An operation ends with an error just if there is a reason
to refuse it, and the level is then as it was before: its database with all timers, its flags,
pages, generators, deferred LSPs, counters and records.  An LSP of the level that comes from a
circuit, and whose checksum does not fit, or which is a purge with a field that no purge may
carry, changes nothing but the counts of such LSPs.  Whether a purge has such a field can be
seen from the types of the fields in its octets. -/
theorem rejected_input_changes_nothing (s : LevelState) :
    (∀ operation error, s.refusal? operation = some error ↔ s.Refuses operation error) ∧
    (∀ operation error, s.refusal? operation = some error →
      ∃ events, (∀ event ∈ events, event.isReception = true) ∧
        s.perform operation = { s with trace := events ++ s.trace }) ∧
    (∀ operation lsp, s.Brings lsp operation →
      lsp.checksumValid = false ∨
        lsp.lifetime = 0 ∧ (lsp.tlvs.protocols ≠ none ∨ lsp.tlvs.areas ≠ [] ∨
          lsp.tlvs.isReach ≠ [] ∨ lsp.tlvs.ipv4 ≠ [] ∨ lsp.tlvs.ipv6 ≠ []) →
      s.refusal? operation = none ∧ OnlyCounted s lsp (s.perform operation)) ∧
    ∀ octets lsp, Pdu.decode s.now octets = .ok (.lsp lsp) →
      ∃ fields, Tlv.Fields (octets.drop Lsp.headerSize) fields ∧
        (lsp.tlvs.allowedInPurge = false ↔
          ∃ raw ∈ fields, raw.code ∈ LspTlvs.codesNotInPurge) := by
  refine ⟨fun operation error => ?_, fun operation error hrefused => ?_,
    fun operation lsp hbrings hrejected => ?_, fun octets lsp hdecode => ?_⟩
  · constructor
    · exact refuses_of_refusal
    · intro hrefuses
      exact hrefuses.leaves.1
  · exact (refuses_of_refusal hrefused).leaves.2
  · apply hbrings.onlyCounted
    intro hvalid
    rcases hrejected with hcorrupt | ⟨hexpired, hcarries⟩
    · rw [hvalid.intact] at hcorrupt
      cases hcorrupt
    · have hallowed := LspTlvs.allowedInPurge_iff.1 (hvalid.purge (decide_eq_true hexpired))
      tauto
  · obtain ⟨fields, hfields, hreads⟩ := (Pdu.standsIn_of_decode hdecode).tlvs
    refine ⟨fields, hfields, ?_⟩
    rw [← Bool.not_eq_true, hreads.allowedInPurge_iff]
    simp only [not_forall, not_not, exists_prop]

def unheard : LevelState :=
  (start .one Config.default 0).perform (.addCircuit ⟨1, "eth1", .broadcast⟩)

/-- A purge of an own LSP with a field of area addresses in which there is none. -/
def purgeWithAreas : Octets :=
  [0x83, 27, 1, 0, 18, 1, 0, 0, 0, 29, 0, 0, 0, 0, 0, 0, 0, 0, 0, 0, 0, 0, 0, 7, 0, 0, 3, 1, 0]

/-- A sequence numbers PDU whose range ends before it starts. -/
def backwards : Snp :=
  ⟨.ofKind (.csnp .one), ⟨SystemId.zero, 0⟩, some (LspId.last, LspId.first), ⟨[], []⟩⟩

/-- The purge is counted and changes nothing else.  It is refused when it is cut short, and so
is the sequence numbers PDU. -/
theorem rejected_input_changes_nothing_purge :
    (∃ lsp, unheard.Brings lsp (.receiveLspOctets (some 1) purgeWithAreas) ∧
      lsp.checksumValid = true ∧ lsp.lifetime = 0 ∧ lsp.tlvs.areas = [[]] ∧
      OnlyCounted unheard lsp (unheard.perform (.receiveLspOctets (some 1) purgeWithAreas))) ∧
    ∀ operation error, (operation, error) ∈
      [(.receiveLspOctets (some 1) (purgeWithAreas.take 28),
        .undecodable (some 1) (.pduLength 29)),
      (.receiveSnp 1 backwards, .invertedRange 1 LspId.last LspId.first)] →
      unheard.refusal? operation = some error ∧
        ∃ events, unheard.perform operation = { unheard with trace := events ++ unheard.trace } := by
  obtain ⟨-, hrefused, hdiscarded, -⟩ := rejected_input_changes_nothing unheard
  constructor
  · have hread : (match Pdu.decode unheard.now purgeWithAreas with
        | .ok (.lsp lsp) => decide (lsp.level = unheard.level ∧ lsp.checksumValid = true ∧
            lsp.lifetime = 0 ∧ lsp.tlvs.areas = [[]])
        | _ => false) = true := by
      decide +kernel
    split at hread
    case h_2 => cases hread
    rename_i lsp hdecode
    obtain ⟨hlevel, hintact, hexpired, hareas⟩ := of_decide_eq_true hread
    have hbrings : unheard.Brings lsp (.receiveLspOctets (some 1) purgeWithAreas) :=
      .octets (by decide +kernel) hlevel hdecode
    have hcarries : lsp.tlvs.areas ≠ [] := by simp [hareas]
    exact ⟨lsp, hbrings, hintact, hexpired, hareas,
      (hdiscarded _ lsp hbrings (.inr ⟨hexpired, .inr (.inl hcarries)⟩)).2⟩
  · intro operation error hmem
    have herror : unheard.refusal? operation = some error := by
      rcases List.mem_pair.1 hmem with heq | heq <;> cases heq <;> decide +kernel
    obtain ⟨events, -, hsame⟩ := hrefused operation error herror
    exact ⟨herror, events, hsame⟩

end LevelState

end LinkState
