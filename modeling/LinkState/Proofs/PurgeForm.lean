import LinkState.Proofs.Reencoding
import LinkState.Proofs.Refusals

/-!
# The form of stored purges

A purge is stored when it was heard, when an LSP is purged, or when a purge of an own LSP is
flooded in answer to a copy of it.  It carries the hostname, the originator and fields that are
not interpreted, and nothing else; it names an originator if the system is configured to add
one, and it has a checksum only if it is stored just as it was heard.  Whoever reads such a
purge therefore accepts its fields, as long as the hostname fits into its own: the length of a
longer one is written modulo 256, and what follows is taken for fields of its own.
-/

namespace LinkState

/-! ### Purges that can be read -/

namespace LspTlvs

theorem allowedInPurge_iff_eq {tlvs : LspTlvs} : tlvs.allowedInPurge = true ↔
    tlvs = { purge tlvs.purgeOriginator tlvs.hostname with unknown := tlvs.unknown } := by
  obtain ⟨protocols, areas, originator, hostname, isReach, ipv4, ipv6, unknown⟩ := tlvs
  rw [allowedInPurge_iff]
  simp [purge, empty]

theorem wellFormed_purge {originator : Option PurgeOriginator} {hostname : Option String}
    (h : ∀ name ∈ hostname,
      Tlv.hostnameOctets name ≠ [] ∧ (Tlv.hostnameOctets name).length ≤ Tlv.maxLength) :
    (purge originator hostname).WellFormed := by
  rw [wellFormed_iff]
  simpa [purge, empty] using h

end LspTlvs

namespace Lsp

variable {lsp : Lsp}

/-- The hostname of an LSP, if it has one, is not empty and fits into a field. -/
def HostnameReadable (lsp : Lsp) : Prop :=
  ∀ hostname ∈ lsp.tlvs.hostname,
    Tlv.hostnameOctets hostname ≠ [] ∧ (Tlv.hostnameOctets hostname).length ≤ Tlv.maxLength

theorem HostnameReadable.fits (h : lsp.HostnameReadable) : lsp.HostnameFits :=
  fun hostname hmem => (h hostname hmem).2

/-- An LSP that is kept as it was decoded or encoded, so that its octets can be read if it is a
purge. -/
structure Legible (lsp : Lsp) : Prop where
  kind : ∃ level, lsp.header.kind = .lsp level
  tlvs : lsp.isExpired = true → lsp.HostnameReadable → lsp.tlvs.WellFormed
  octets : lsp.Decoded ∨ ∃ (fields : Lsp) (now : Nat), lsp = fields.encode now

theorem Receivable.legible (h : lsp.Receivable) : lsp.Legible where
  kind := h.writable.kind
  tlvs := fun _ hname => h.writable.tlvs hname.fits
  octets := h.imp_right fun ⟨fields, now, _, heq⟩ => ⟨fields, now, heq⟩

theorem Legible.encode {fields : Lsp} (hkind : ∃ level, fields.header.kind = .lsp level)
    (htlvs : fields.isExpired = true → fields.HostnameReadable → fields.tlvs.WellFormed)
    (now : Nat) : (fields.encode now).Legible where
  kind := hkind
  tlvs := htlvs
  octets := .inr ⟨fields, now, rfl⟩

/-- What is read from the octets of a purge is the purge, but for flags that have no name. -/
theorem Legible.decode (h : lsp.Legible) (hexpired : lsp.isExpired = true)
    (hname : lsp.HostnameReadable) (hlength : lsp.raw.length ≤ 65535) (time : Nat) :
    ∃ flags, Pdu.decode time lsp.raw =
      .ok (.lsp { lsp with flags := flags, baseTime := some time }) := by
  obtain ⟨level, hkind⟩ := h.kind
  have htlvs := h.tlvs hexpired hname
  rcases h.octets with hdecoded | ⟨fields, now, rfl⟩
  · exact ⟨lsp.flags, hdecoded.readsBack time⟩
  · exact ⟨.ofBits fields.flags.bits, decode_raw_encode_named hkind htlvs now time hlength⟩

end Lsp

namespace LevelState

variable {heard : Lsp → Prop} {s t : LevelState} {lsp : Lsp} {received : Bool} {config : Config}

/-! ### The ways in which a purge comes to be stored -/

/-- What a purge looks like that is stored under a configuration.  A placeholder names no
originator. -/
structure PurgeForm (config : Config) (heard : Lsp → Prop) (lsp : Lsp) (received : Bool) :
    Prop where
  allowed : lsp.tlvs.allowedInPurge = true
  named : lsp.seqno ≠ 0 → config.purgeOriginator = true →
    lsp.tlvs.purgeOriginator.isSome = true
  checksum : lsp.checksum = 0 ∨ received = true ∧ heard lsp ∧ lsp.checksumValid = true

theorem isSome_purgeOriginator (h : s.config.purgeOriginator = true) :
    s.purgeOriginator.isSome = true := by
  rw [purgeOriginator, if_pos h]
  rfl

/-- A purge without a checksum passes validation, and so does one with its own. -/
theorem PurgeForm.valid (h : PurgeForm config heard lsp received)
    (hexpired : lsp.isExpired = true) : lsp.Valid where
  intact := by
    rcases h.checksum with hnone | ⟨-, -, hintact⟩
    · rw [Lsp.checksumValid, if_pos hnone]
      exact hexpired
    · exact hintact
  purge := fun _ => h.allowed

/-- A purge that is made from fields has no checksum. -/
theorem PurgeForm.encode {fields : Lsp} {now : Nat} (hexpired : fields.isExpired = true)
    (hallowed : fields.tlvs.allowedInPurge = true)
    (hnamed : fields.seqno ≠ 0 → config.purgeOriginator = true →
      fields.tlvs.purgeOriginator.isSome = true) :
    PurgeForm config heard (fields.encode now) received where
  allowed := hallowed
  named := hnamed
  checksum := .inl (if_pos (of_decide_eq_true hexpired))

/-- A purge that was heard is stored with an originator if there is to be one.  Only if one is
added to it, it loses the checksum that it was heard with. -/
theorem completed_purgeForm {circuit : CircuitId} (h : s.Admitted heard circuit lsp)
    (hexpired : lsp.isExpired = true) : PurgeForm s.config heard (s.completed lsp) true := by
  unfold completed
  split_ifs with hadds
  · simp only [Bool.and_eq_true] at hadds
    apply PurgeForm.encode
    · exact hexpired
    · exact h.purge hexpired
    · exact fun _ => isSome_purgeOriginator
  · refine ⟨h.purge hexpired, fun _ hconfig => ?_, .inr ⟨rfl, h.heard, h.intact⟩⟩
    rw [hexpired, hconfig, Bool.true_and, Bool.and_true, Option.isNone_iff_eq_none] at hadds
    exact Option.isSome_iff_ne_none.2 hadds

/-- However an LSP comes to be stored, it has the form of a purge if it is one. -/
theorem Origin.purgeForm (h : Origin heard s lsp received) (hlifetime : s.config.lifetime ≠ 0)
    (hexpired : lsp.isExpired = true) : PurgeForm s.config heard lsp received := by
  cases h with
  | accepted admitted =>
      rw [completed_isExpired] at hexpired
      exact completed_purgeForm admitted hexpired
  | placeholder lifetime id =>
      exact PurgeForm.encode hexpired rfl fun hnumbered => absurd rfl hnumbered
  | purged => exact PurgeForm.encode rfl rfl fun _ => isSome_purgeOriginator
  | forced => exact PurgeForm.encode rfl rfl fun _ => isSome_purgeOriginator
  | originated => exact absurd (of_decide_eq_true hexpired) hlifetime

theorem Origin.legible (h : Origin heard s lsp received) (hlifetime : s.config.lifetime ≠ 0)
    (hdecoded : ∀ lsp, heard lsp → lsp.Decoded)
    (hstored : ∀ id entry, s.database.get? id = some entry → entry.lsp.Legible) :
    lsp.Legible := by
  cases h with
  | accepted admitted => exact (receivable_completed (hdecoded _ admitted.heard)).legible
  | placeholder lifetime id => exact (receivable_placeholder lifetime id).legible
  | purged stored =>
      apply Lsp.Legible.encode
      · exact (hstored _ _ stored).kind
      · exact fun _ hname => LspTlvs.wellFormed_purge hname
  | forced =>
      apply Lsp.Legible.encode
      · exact ⟨s.level, rfl⟩
      · exact fun _ hname => LspTlvs.wellFormed_purge hname
  | originated =>
      apply Lsp.Legible.encode
      · exact ⟨s.level, rfl⟩
      · exact fun hexpired => absurd (of_decide_eq_true hexpired) hlifetime

/-! ### Runs -/

/-- The LSPs that are handed in from circuits, as they are or as octets, are of one kind. -/
structure Hearing (heard : Lsp → Prop) (s : LevelState) (operation : Operation) : Prop where
  proper : s.Proper operation
  hears : operation.Hears heard
  decodes : ∀ circuit octets lsp, operation = .receiveLspOctets (some circuit) octets →
    Pdu.decode s.now octets = .ok (.lsp lsp) → heard lsp

theorem Hearing.steps {operation : Operation} (hsound : Sound heard s)
    (h : s.Hearing heard operation) :
    Steps heard s (s.perform operation) ∨ operation = .stop := by
  by_cases hstop : operation = .stop
  · exact .inr hstop
  · exact .inl (perform_steps hsound (h.decodes _ _ _) ⟨h.proper, h.hears, hstop⟩)

theorem Octetwise.hearing {operation : Operation} (h : s.Octetwise operation) :
    s.Hearing Lsp.Decoded operation := by
  have hdecodes : ∀ (circuit : CircuitId) (octets : Octets) (lsp : Lsp),
      operation = .receiveLspOctets (some circuit) octets →
        Pdu.decode s.now octets = .ok (.lsp lsp) → lsp.Decoded :=
    fun _ _ _ _ hdecode => Pdu.decoded_of_decode hdecode
  rcases h.running with hrunning | rfl
  · exact ⟨hrunning.proper, hrunning.hears, hdecodes⟩
  · exact ⟨trivial, trivial, hdecodes⟩

variable {level : Level} {now : Nat} {id : LspId} {entry : Entry}

/-- What an LSP has in whichever way it comes to be stored, every stored LSP has. -/
theorem Reachable.stored_of_origin {Q : Lsp → Bool → Prop}
    (horigin : ∀ {s lsp received}, s.config = config →
      (∀ id entry, s.database.get? id = some entry → Q entry.lsp entry.received) →
        Origin heard s lsp received → Q lsp received)
    (h : Reachable (Hearing heard) level config now s)
    (hstored : s.database.get? id = some entry) : Q entry.lsp entry.received := by
  have hinvariant := h.steps_invariant (P := fun s => s.config = config ∧
    ∀ id entry, s.database.get? id = some entry → Q entry.lsp entry.received) Hearing.steps
    ⟨rfl, by simp [blank]⟩ (fun {s t} _ hs hstep => ?_)
    fun _ hs => ⟨hs.1, by simp [LevelState.stop]⟩
  · exact hinvariant.2.2 id entry hstored
  · have hconfig : t.config = s.config := hstep.constant.2.1
    refine ⟨hconfig.trans hs.1, hstep.entries hs.2 fun {lsp received} hstores => ?_⟩
    rw [armed_lsp, armed_received]
    exact horigin hs.1 hs.2 hstores

theorem Reachable.purgeForm (hlifetime : config.lifetime ≠ 0)
    (h : Reachable (Hearing heard) level config now s) (hstored : s.database.get? id = some entry)
    (hpurged : entry.isPurged = true) : PurgeForm config heard entry.lsp entry.received := by
  apply h.stored_of_origin (Q := fun lsp received => lsp.isExpired = true →
    PurgeForm config heard lsp received) _ hstored hpurged
  intro s lsp received hconfig _ horigin hexpired
  rw [← hconfig]
  exact horigin.purgeForm (hconfig ▸ hlifetime) hexpired

theorem Reachable.legible (hlifetime : config.lifetime ≠ 0)
    (hdecoded : ∀ lsp, heard lsp → lsp.Decoded)
    (h : Reachable (Hearing heard) level config now s)
    (hstored : s.database.get? id = some entry) : entry.lsp.Legible := by
  apply h.stored_of_origin (Q := fun lsp _ => lsp.Legible) _ hstored
  intro s lsp received hconfig hbefore horigin
  exact horigin.legible (hconfig ▸ hlifetime) hdecoded hbefore

/-- A stored purge carries no fields but the originator, the hostname and those that are not
interpreted, and passes validation as it stands.  If it has a sequence number, and the system
adds itself to purges, it names an originator.  It has no checksum, unless it is stored just as
it was heard on a circuit.  If LSPs are heard as octets, a neighbour reads the same fields from
the octets of the purge, and does not discard it, as long as the hostname is not empty and fits
into its field and the length of the purge can be written. -/
theorem purges_well_formed (hlifetime : config.lifetime ≠ 0)
    (h : Reachable (Hearing heard) level config now s) (hstored : s.database.get? id = some entry)
    (hpurged : entry.isPurged = true) :
    entry.lsp.tlvs = { LspTlvs.purge entry.lsp.tlvs.purgeOriginator entry.lsp.tlvs.hostname with
        unknown := entry.lsp.tlvs.unknown } ∧
      entry.lsp.Valid ∧
      (entry.lsp.seqno ≠ 0 → config.purgeOriginator = true →
        entry.lsp.tlvs.purgeOriginator ≠ none) ∧
      (entry.lsp.checksum = 0 ∨ entry.received = true ∧ heard entry.lsp) ∧
      ((∀ lsp, heard lsp → lsp.Decoded) → entry.lsp.HostnameReadable →
        entry.lsp.raw.length ≤ 65535 → ∀ time, ∃ read,
          Pdu.decode time entry.lsp.raw = .ok (.lsp read) ∧ read.id = entry.lsp.id ∧
          read.seqno = entry.lsp.seqno ∧ read.lifetime = 0 ∧ read.tlvs = entry.lsp.tlvs ∧
          read.Valid) := by
  have hform := h.purgeForm hlifetime hstored hpurged
  have hvalid := hform.valid hpurged
  refine ⟨LspTlvs.allowedInPurge_iff_eq.1 hform.allowed, hvalid, ?_, ?_, ?_⟩
  · intro hnumbered hconfig
    exact Option.isSome_iff_ne_none.1 (hform.named hnumbered hconfig)
  · exact hform.checksum.imp_right fun ⟨hreceived, hheard, _⟩ => ⟨hreceived, hheard⟩
  · intro hdecoded hname hlength time
    have hlegible := h.legible hlifetime hdecoded hstored
    obtain ⟨flags, hdecode⟩ := hlegible.decode hpurged hname hlength time
    exact ⟨_, hdecode, rfl, rfl, of_decide_eq_true hpurged, rfl, hvalid.intact, hvalid.purge⟩

/-- A level that has heard the given octets of the other system and has purged the LSP in
them. -/
def purgedOctets (octets : Octets) : LevelState :=
  (heardOctets octets).perform (.purgeLsp otherId)

theorem purgedOctets_reachable (octets : Octets)
    (h : ((heardOctets octets).database.get? otherId).all (fun entry => !entry.isPurged) = true) :
    Reachable Octetwise .one Config.default 0 (purgedOctets octets) := by
  apply (heardOctets_reachable octets).perform
  intro entry hstored
  rw [hstored, Option.all_some, Bool.not_eq_true'] at h
  exact h

/-- A hostname of 85 octets that are no text just fits into the field of the purge. -/
theorem purges_well_formed_binary :
    ∃ entry read,
      (purgedOctets (withBinaryHostname 85 0xF71D)).database.get? otherId = some entry ∧
      entry.isPurged = true ∧ entry.lsp.seqno = 7 ∧ entry.lsp.checksum = 0 ∧
      entry.lsp.tlvs.purgeOriginator ≠ none ∧
      Pdu.decode 0 entry.lsp.raw = .ok (.lsp read) ∧ read.tlvs = entry.lsp.tlvs ∧ read.Valid := by
  have hreachable := purgedOctets_reachable (withBinaryHostname 85 0xF71D) (by decide +kernel)
  have hstored : ((purgedOctets (withBinaryHostname 85 0xF71D)).database.get? otherId).any
      (fun entry => entry.isPurged && entry.lsp.seqno == 7 && entry.lsp.checksum == 0 &&
        decide (entry.lsp.raw.length ≤ 65535) && (entry.lsp.tlvs.hostname.all fun hostname =>
          Tlv.hostnameOctets hostname ≠ [] ∧
            (Tlv.hostnameOctets hostname).length ≤ Tlv.maxLength)) = true := by
    decide +kernel
  obtain ⟨entry, hentry, hfacts⟩ := (Option.any_eq_true _ _).1 hstored
  simp only [Bool.and_eq_true, beq_iff_eq, decide_eq_true_eq, Option.all_eq_true] at hfacts
  obtain ⟨⟨⟨⟨hpurged, hseqno⟩, hnone⟩, hlength⟩, hname⟩ := hfacts
  obtain ⟨-, -, hnamed, -, hreads⟩ := purges_well_formed (by decide)
    (hreachable.mono Octetwise.hearing) hentry hpurged
  have horiginator := hnamed (by rw [hseqno]; decide) rfl
  obtain ⟨read, hdecode, -, -, -, htlvs, hvalid⟩ :=
    hreads (fun _ hdecoded => hdecoded) hname hlength 0
  exact ⟨entry, read, hentry, hpurged, hseqno, hnone, horiginator, hdecode, htlvs, hvalid⟩

/-- The hostname that an LSP of the other system carries: one letter, an area address as it
would be written into a field of its own, and twice a field that is not interpreted and full of
octets that are no text. -/
def smugglingHostname : Octets :=
  [97, 1, 4, 3, 0x49, 0, 1, 3, 123] ++ List.replicate 41 0xFF ++ [3, 123] ++
    List.replicate 41 0xFF

/-- A live LSP of the other system with this hostname. -/
def smugglingOctets : Octets :=
  [0x83, 27, 1, 0, 18, 1, 0, 0] ++ Octets.ofU16 122 ++ Octets.ofU16 1200 ++
    [0, 0, 0, 0, 0, 2, 0, 0] ++ Octets.ofU32 7 ++ Octets.ofU16 0x312B ++ [3, 137, 93] ++
    smugglingHostname

/-- The hostname takes 257 octets once it is decoded, and the purge says that it is one octet
long.  A neighbour therefore reads an area address from the purge, and all that comes of it there
is that it is counted. -/
theorem purge_with_smuggled_areas :
    Reachable Octetwise .one Config.default 0 (purgedOctets smugglingOctets) ∧
      ∃ entry read, (purgedOctets smugglingOctets).database.get? otherId = some entry ∧
        entry.isPurged = true ∧ entry.lsp.seqno = 7 ∧ entry.lsp.tlvs.areas = [] ∧
        Pdu.decode 0 entry.lsp.raw = .ok (.lsp read) ∧ read.lifetime = 0 ∧
        read.checksumValid = true ∧ read.tlvs.areas = [[[0x49, 0, 1]]] ∧ ¬ read.Valid ∧
        OnlyCounted unheard read
          (unheard.perform (.receiveLspOctets (some 1) entry.lsp.raw)) := by
  have hreachable := purgedOctets_reachable smugglingOctets (by decide +kernel)
  have hstored : ((purgedOctets smugglingOctets).database.get? otherId).any (fun entry : Entry =>
      decide (entry.isPurged = true ∧ entry.lsp.seqno = 7 ∧ entry.lsp.tlvs.areas = []) &&
        match Pdu.decode 0 entry.lsp.raw with
        | .ok (.lsp read) => decide (read.level = .one ∧ read.lifetime = 0 ∧
            read.checksumValid = true ∧ read.tlvs.areas = [[[0x49, 0, 1]]])
        | _ => false) = true := by
    decide +kernel
  obtain ⟨entry, hentry, hfacts⟩ := (Option.any_eq_true _ _).1 hstored
  rw [Bool.and_eq_true, decide_eq_true_eq] at hfacts
  obtain ⟨⟨hpurged, hseqno, hareas⟩, hread⟩ := hfacts
  split at hread
  case h_2 => cases hread
  rename_i read hdecode
  obtain ⟨hlevel, hexpired, hintact, hsmuggled⟩ := of_decide_eq_true hread
  have hinvalid : ¬ read.Valid := by
    intro hvalid
    have hallowed := LspTlvs.allowedInPurge_iff.1 (hvalid.purge (decide_eq_true hexpired))
    rw [hallowed.2.1] at hsmuggled
    cases hsmuggled
  have hbrings : unheard.Brings read (.receiveLspOctets (some 1) entry.lsp.raw) :=
    .octets (by decide +kernel) hlevel hdecode
  exact ⟨hreachable, entry, read, hentry, hpurged, hseqno, hareas, hdecode, hexpired, hintact,
    hsmuggled, hinvalid, (hbrings.onlyCounted hinvalid).2⟩

end LevelState

end LinkState
