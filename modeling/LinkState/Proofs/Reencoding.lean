import LinkState.Proofs.Fragments
import LinkState.Proofs.LspGrammar
import LinkState.Proofs.Reachability

/-!
# What was received can be sent again

A purge is encoded from the fields of an LSP that was decoded.  These fields fit into the
octets that they are written to, with one exception: octets of a hostname that are not text
are read as replacement characters, which take three octets each.  As long as the hostname
still fits, every LSP that is stored as received reads back from its octets, and so does its
purge.
-/

namespace LinkState

/-! ### Hostnames -/

namespace Text.Utf8

/-- An octet yields a character or opens one. -/
theorem step_yields (state : Option Partial) (octet : UInt8) :
    (step state octet).1 ≠ [] ∨ (step state octet).2.isSome = true := by
  have hstart : (start octet).1 ≠ [] ∨ (start octet).2.isSome = true := by
    rw [start]
    split
    · exact .inl (List.cons_ne_nil _ _)
    · split
      · exact .inr rfl
      · exact .inl (List.cons_ne_nil _ _)
  cases state with
  | none => exact hstart
  | some opened =>
      rw [step]
      dsimp only
      split
      · split
        · exact .inl (List.cons_ne_nil _ _)
        · exact .inr rfl
      · exact .inl (List.cons_ne_nil _ _)

/-- Something is read from octets, if only a replacement. -/
theorem decodeFrom_ne_nil {state : Option Partial} {octets : Octets}
    (h : state.isSome = true ∨ octets ≠ []) : decodeFrom state octets ≠ [] := by
  induction octets generalizing state with
  | nil =>
      have hstate : state.isSome = true := h.resolve_right fun hne => hne rfl
      rw [decodeFrom, if_pos hstate]
      exact List.cons_ne_nil _ _
  | cons octet rest ih =>
      rw [decodeFrom]
      intro hnil
      obtain ⟨hchars, hrest⟩ := List.append_eq_nil_iff.1 hnil
      rcases step_yields state octet with hyields | hopened
      · exact hyields hchars
      · exact ih (.inl hopened) hrest

/-- Text that is read from octets is not empty. -/
theorem decode_ne_nil {octets : Octets} (h : octets ≠ []) : decode octets ≠ [] :=
  decodeFrom_ne_nil (.inr h)

theorem encode_ne_nil {chars : List Char} (h : chars ≠ []) : encode chars ≠ [] := by
  intro hnil
  apply h
  rw [← decode_encode chars, hnil]
  rfl

end Text.Utf8

namespace Tlv

theorem hostnameOctets_ne_nil {value : Octets} (h : value ≠ []) :
    hostnameOctets (String.ofList (Text.Utf8.decode value)) ≠ [] := by
  rw [hostnameOctets, String.toList_ofList]
  exact Text.Utf8.encode_ne_nil (Text.Utf8.decode_ne_nil h)

/-! ### Values -/

theorem AreaList.flatMap_eq {value : Octets} {addresses : List AreaAddress}
    (h : AreaList value addresses) : addresses.flatMap areaOctets = value := by
  induction h with
  | nil => rfl
  | @cons n address rest more hlength _ _ ih =>
      rw [List.flatMap_cons, ih, areaOctets, ← hlength, UInt8.ofNat_toNat]
      rfl

theorem AreaList.length_le {value : Octets} {addresses : List AreaAddress}
    (h : AreaList value addresses) : ∀ address ∈ addresses, address.length ≤ maxAreaLength := by
  induction h with
  | nil => simp
  | cons hlength hsmall _ ih => exact List.forall_mem_cons.2 ⟨hlength ▸ hsmall, ih⟩

theorem toNat_word24_le (a b c : UInt8) : Octets.word24 a b c ≤ maxMetric := by
  have ha := a.toNat_lt
  have hb := b.toNat_lt
  have hc := c.toNat_lt
  rw [UInt32.le_iff_toNat_le, Octets.word24, UInt32.toNat_ofNat']
  show _ ≤ 0xFFFFFF
  omega

/-- Neighbours are written without the sub-fields that were skipped. -/
theorem NeighborList.spec {value : Octets} {neighbors : List Neighbor}
    (h : NeighborList value neighbors) :
    (neighbors.flatMap neighborOctets).length ≤ value.length ∧
      ∀ neighbor ∈ neighbors, neighbor.metric ≤ maxMetric := by
  induction h with
  | leftover => simp
  | @cons node m m' m'' n sub rest more hlength _ ih =>
      refine ⟨?_, List.forall_mem_cons.2 ⟨toNat_word24_le m m' m'', ih.2⟩⟩
      have hnode : node.toOctets.length = 7 := rfl
      rw [List.flatMap_cons, List.length_append, length_neighborOctets, neighborSize]
      simp only [List.length_append, List.length_cons, hnode]
      omega

theorem length_of_mem_valuesOf {fields : List Raw} {code : UInt8}
    (h : ∀ raw ∈ fields, raw.length.toNat = raw.value.length) :
    ∀ value ∈ valuesOf code fields, value.length ≤ maxLength := by
  intro value hvalue
  obtain ⟨raw, hraw, rfl⟩ := List.mem_map.1 hvalue
  rw [← h raw (List.mem_of_mem_filter hraw)]
  exact Nat.le_of_lt_succ raw.length.toNat_lt

end Tlv

namespace LspTlvs

open Tlv

theorem exists_of_mem_forall₂ {α β : Type} {R : α → β → Prop} {l : List α} {m : List β}
    (h : List.Forall₂ R l m) : ∀ b ∈ m, ∃ a ∈ l, R a b := by
  induction h with
  | nil => simp
  | cons hab _ ih =>
      refine List.forall_mem_cons.2 ⟨⟨_, List.mem_cons_self, hab⟩, fun b hb => ?_⟩
      obtain ⟨a, ha, hab⟩ := ih b hb
      exact ⟨a, List.mem_cons_of_mem _ ha, hab⟩

/-- What was taken in can be written again if the hostname fits. -/
theorem Reads.wellFormed {octets : Octets} {fields : List Raw} {tlvs : LspTlvs}
    (hfields : Fields octets fields) (h : Reads fields tlvs)
    (hhostname : ∀ hostname ∈ tlvs.hostname, (hostnameOctets hostname).length ≤ maxLength) :
    tlvs.WellFormed where
  protocols := by
    intro protocols hprotocols
    rw [h.protocols] at hprotocols
    exact length_of_mem_valuesOf hfields.length_value _ (List.mem_of_mem_head? hprotocols)
  areas := by
    intro areas hareas
    obtain ⟨value, hvalue, hlist⟩ := exists_of_mem_forall₂ h.areas areas hareas
    rw [hlist.flatMap_eq]
    exact length_of_mem_valuesOf hfields.length_value value hvalue
  area := by
    intro areas hareas
    obtain ⟨value, hvalue, hlist⟩ := exists_of_mem_forall₂ h.areas areas hareas
    exact hlist.length_le
  hostname := by
    intro hostname hmem
    refine ⟨?_, hhostname hostname hmem⟩
    rw [h.hostname] at hmem
    obtain ⟨value, hvalue, rfl⟩ := Option.mem_map.1 hmem
    exact hostnameOctets_ne_nil (h.named value (List.mem_of_mem_getLast? hvalue))
  isReach := by
    intro neighbors hneighbors
    obtain ⟨value, hvalue, hlist⟩ := exists_of_mem_forall₂ h.isReach neighbors hneighbors
    exact Nat.le_trans hlist.spec.1 (length_of_mem_valuesOf hfields.length_value value hvalue)
  metric := by
    intro neighbors hneighbors
    obtain ⟨value, hvalue, hlist⟩ := exists_of_mem_forall₂ h.isReach neighbors hneighbors
    exact hlist.spec.2
  ipv4 := by
    intro addresses haddresses
    obtain ⟨value, hvalue, heq⟩ := exists_of_mem_forall₂ h.ipv4 addresses haddresses
    rw [← heq]
    exact length_of_mem_valuesOf hfields.length_value value hvalue
  ipv6 := by
    intro addresses haddresses
    obtain ⟨value, hvalue, heq⟩ := exists_of_mem_forall₂ h.ipv6 addresses haddresses
    rw [← heq]
    exact length_of_mem_valuesOf hfields.length_value value hvalue
  unknown := by
    intro tlv htlv
    rw [h.unknown] at htlv
    obtain ⟨raw, hraw, rfl⟩ := List.mem_map.1 htlv
    obtain ⟨hmem, hcode⟩ := List.mem_filter.1 hraw
    exact ⟨hfields.length_value raw hmem, of_decide_eq_true hcode⟩

/-- A purge is short. -/
theorem WellFormed.length_purge {originator : Option PurgeOriginator} {hostname : Option String}
    (h : (purge originator hostname).WellFormed) :
    (purge originator hostname).toOctets.length ≤ 529 := by
  have hsize : (purge originator hostname).size = (purge originator hostname).onceSize := by
    simp [size, onceSize, purge, empty, total]
  rw [length_toOctets, hsize]
  exact h.onceSize_le

end LspTlvs

/-! ### LSPs -/

namespace Lsp

/-- The hostname of an LSP, if it has one, fits into a field. -/
def HostnameFits (lsp : Lsp) : Prop :=
  ∀ hostname ∈ lsp.tlvs.hostname, (Tlv.hostnameOctets hostname).length ≤ Tlv.maxLength

/-- An LSP reads back from its octets at any time. -/
def ReadsBack (lsp : Lsp) : Prop :=
  ∀ time, Pdu.decode time lsp.raw = .ok (.lsp { lsp with baseTime := some time })

/-- The fields of an LSP can be written if its hostname fits. -/
structure Writable (lsp : Lsp) : Prop where
  kind : ∃ level, lsp.header.kind = .lsp level
  flags : LspFlags.ofBits lsp.flags.bits = lsp.flags
  tlvs : lsp.HostnameFits → lsp.tlvs.WellFormed

/-- What was read from fields can be written into fields, but for a hostname that grew. -/
theorem writable_of_decode {time : Nat} {octets : Octets} {lsp : Lsp}
    (h : Pdu.decode time octets = .ok (.lsp lsp)) : lsp.Writable := by
  obtain ⟨-, hstands, -⟩ := Pdu.decode_eq_ok_lsp_iff_standsIn.1 h
  obtain ⟨code, -, hkind⟩ := hstands.kind
  obtain ⟨bits, -, hflags⟩ := hstands.flags
  obtain ⟨fields, hfields, hreads⟩ := hstands.tlvs
  refine ⟨?_, ?_, hreads.wellFormed hfields⟩
  · rw [hkind]
    split
    · exact ⟨.one, rfl⟩
    · exact ⟨.two, rfl⟩
  · rw [hflags]
    show LspFlags.mk (bits &&& 0x8F &&& 0x8F) = _
    rw [UInt8.and_assoc]
    rfl

theorem Decoded.writable {lsp : Lsp} (h : lsp.Decoded) : lsp.Writable := by
  obtain ⟨time, hdecode⟩ := h
  obtain ⟨hkind, hflags, htlvs⟩ := writable_of_decode hdecode
  exact ⟨hkind, hflags, htlvs⟩

/-- What is read does not depend on the time. -/
theorem Decoded.readsBack {lsp : Lsp} (h : lsp.Decoded) : lsp.ReadsBack := by
  obtain ⟨before, hdecode⟩ := h
  intro time
  obtain ⟨hgrammatical, hstands, -⟩ := Pdu.decode_eq_ok_lsp_iff_standsIn.1 hdecode
  refine Pdu.decode_eq_ok_lsp_iff_standsIn.2 ⟨hgrammatical, ?_, rfl⟩
  exact ⟨hstands.kind, hstands.maxAreaAddresses, hstands.lifetime, hstands.id, hstands.seqno,
    hstands.checksum, hstands.flags, hstands.tlvs, rfl⟩

theorem Writable.readsBack_encode {lsp : Lsp} (h : lsp.Writable) (hfits : lsp.HostnameFits)
    {now : Nat} (hlength : (lsp.encode now).raw.length ≤ 65535) : (lsp.encode now).ReadsBack := by
  obtain ⟨level, hkind⟩ := h.kind
  exact fun time => decode_raw_encode hkind h.flags (h.tlvs hfits) now time hlength

/-- The fields of a purge can be written if those of the purged LSP can. -/
theorem Writable.purge {lsp : Lsp} (h : lsp.Writable) (originator : Option PurgeOriginator) :
    { lsp with lifetime := 0, tlvs := .purge originator lsp.tlvs.hostname }.Writable where
  kind := h.kind
  flags := h.flags
  tlvs hfits := (h.tlvs hfits).mono (fun _ hnone => nomatch hnone) (fun _ hname => hname)
    (List.nil_subset _) (List.nil_subset _) (List.nil_subset _) (List.nil_subset _)
    (List.nil_subset _)

theorem Writable.readsBack_purge {lsp : Lsp} (h : lsp.Writable) (hfits : lsp.HostnameFits)
    (originator : Option PurgeOriginator) (now : Nat) :
    ({ lsp with lifetime := 0, tlvs := .purge originator lsp.tlvs.hostname }.encode
      now).ReadsBack := by
  have hpurge := h.purge originator
  refine hpurge.readsBack_encode hfits ?_
  rw [length_raw_encode]
  exact Nat.le_trans (Nat.add_le_add_left (hpurge.tlvs hfits).length_purge headerSize) (by decide)

/-- Naming an originator changes no other field. -/
theorem Writable.withOriginator {lsp : Lsp} (h : lsp.Writable)
    (originator : Option PurgeOriginator) :
    { lsp with tlvs := { lsp.tlvs with purgeOriginator := originator } }.Writable where
  kind := h.kind
  flags := h.flags
  tlvs hfits := by
    obtain ⟨hprotocols, hareas, harea, hhostname, hreach, hmetric, hipv4, hipv6, hunknown⟩ :=
      h.tlvs hfits
    exact ⟨hprotocols, hareas, harea, hhostname, hreach, hmetric, hipv4, hipv6, hunknown⟩

/-- An LSP as it is stored when it was received: as it was read, or encoded from fields that
can be written. -/
def Receivable (lsp : Lsp) : Prop :=
  lsp.Decoded ∨ ∃ (fields : Lsp) (now : Nat), fields.Writable ∧ lsp = fields.encode now

theorem Receivable.writable {lsp : Lsp} (h : lsp.Receivable) : lsp.Writable := by
  rcases h with hdecoded | ⟨fields, now, hfields, rfl⟩
  · exact hdecoded.writable
  · exact ⟨hfields.kind, hfields.flags, hfields.tlvs⟩

theorem Receivable.readsBack {lsp : Lsp} (h : lsp.Receivable) (hfits : lsp.HostnameFits)
    (hlength : lsp.raw.length ≤ 65535) : lsp.ReadsBack := by
  rcases h with hdecoded | ⟨fields, now, hfields, rfl⟩
  · exact hdecoded.readsBack
  · exact hfields.readsBack_encode hfits hlength

end Lsp

namespace LevelState

/-! ### Runs -/

/-- LSPs from circuits are handed in as octets. -/
def Octetwise (s : LevelState) : Operation → Prop
  | .receiveLsp (some _) _ => False
  | operation => s.Proper operation

theorem Octetwise.running {s : LevelState} {operation : Operation} (h : s.Octetwise operation) :
    s.Running Lsp.Decoded operation ∨ operation = .stop := by
  by_cases hstop : operation = .stop
  · exact .inr hstop
  · refine .inl ⟨?_, ?_, hstop⟩
    · cases operation with
      | receiveLsp => trivial
      | _ => exact h
    · cases operation with
      | receiveLsp circuit lsp =>
          cases circuit with
          | none => trivial
          | some circuit => exact h.elim
      | _ => trivial

variable {level : Level} {config : Config} {now : Nat} {s t : LevelState}

theorem receivable_completed {lsp : Lsp} (h : lsp.Decoded) : (s.completed lsp).Receivable := by
  rw [completed]
  split
  · exact .inr ⟨_, _, h.writable.withOriginator _, rfl⟩
  · exact .inl h

theorem receivable_placeholder (lifetime : UInt16) (id : LspId) :
    (s.placeholder lifetime id).Receivable := by
  refine .inr ⟨⟨.ofKind (.lsp s.level), lifetime, id, 0, 0, .none, .empty, [], none⟩, s.now, ?_, rfl⟩
  have hflags : LspFlags.ofBits LspFlags.none.bits = .none := by decide
  have htlvs : LspTlvs.empty.WellFormed := by decide
  exact ⟨⟨s.level, rfl⟩, hflags, fun _ => htlvs⟩

/-- A step stores an LSP as received only if it was received. -/
theorem Step.receivable (hstep : Step Lsp.Decoded s t)
    (h : ∀ id entry, s.database.get? id = some entry → entry.received = true →
      entry.lsp.Receivable) :
    ∀ id entry, t.database.get? id = some entry → entry.received = true →
      entry.lsp.Receivable := by
  refine hstep.entries h fun {lsp received} horigin hreceived => ?_
  rw [s.armed_received lsp received] at hreceived
  rw [s.armed_lsp lsp received]
  cases horigin with
  | accepted admitted => exact receivable_completed admitted.heard
  | placeholder lifetime id => exact receivable_placeholder lifetime id
  | purged stored =>
      exact .inr ⟨_, _, (h _ _ stored hreceived).writable.purge _, rfl⟩
  | forced => cases hreceived
  | originated => cases hreceived

theorem Reachable.octetwise_proper (h : Reachable Octetwise level config now s) :
    Reachable Proper level config now s := by
  apply h.mono
  intro s operation hallowed
  cases operation with
  | receiveLsp => trivial
  | _ => exact hallowed

/-- Every LSP that is stored as received was read from octets, or encoded from what was
read. -/
theorem Reachable.receivable (h : Reachable Octetwise level config now s) {id : LspId}
    {entry : Entry} (hstored : s.database.get? id = some entry) (hreceived : entry.received = true) :
    entry.lsp.Receivable := by
  have hinvariant := h.invariant (P := fun s => ∀ id entry, s.database.get? id = some entry →
    entry.received = true → entry.lsp.Receivable) Pdu.decoded_of_decode Octetwise.running
    (by simp [blank]) (fun _ hs hstep => hstep.receivable hs) (by simp [LevelState.stop])
  exact hinvariant.2 id entry hstored hreceived

/-- A purge of an LSP that is stored as received is stored in its place, and reads back. -/
theorem Reachable.purge_readsBack (h : Reachable Octetwise level config now s) {id : LspId}
    {entry : Entry} (hstored : s.database.get? id = some entry) (hreceived : entry.received = true)
    (hfits : entry.lsp.HostnameFits) (hlive : entry.isPurged = false) (reason : PurgeReason) :
    ∃ purged, (s.purge id reason).database.get? id = some purged ∧ purged.received = true ∧
      purged.lsp = s.purgeOf entry.lsp ∧ purged.lsp.ReadsBack := by
  have hconsistent := h.octetwise_proper.consistent
  have hzero : entry.zeroAgeTimer = none := by
    have hsettled := (hconsistent.settled hstored).zeroAge
    rw [Entry.isPurged] at hlive
    rwa [hlive, Option.isSome_eq_false_iff, Option.isNone_iff_eq_none] at hsettled
  obtain ⟨purged, hpurged, hlsp, hkept⟩ := (purge_installs reason hstored hlive hzero).stored
  have hid : (s.purgeOf entry.lsp).id = id := hconsistent.keys hstored
  rw [hid] at hpurged
  refine ⟨purged, hpurged, hkept.trans hreceived, hlsp, ?_⟩
  rw [hlsp]
  exact (h.receivable hstored hreceived).writable.readsBack_purge hfits s.purgeOriginator s.now

/-- What is stored of received LSPs can be sent: an LSP whose hostname fits into its field
and whose length can be written reads back as it is stored.  Its purge is stored in its
place with its ID, sequence number and hostname, names this system as its originator if that
is configured, and reads back; and so does a received purge to which this system is added as
originator. -/
theorem received_purges_readable (h : Reachable Octetwise level config now s) :
    (∀ id entry, s.database.get? id = some entry → entry.received = true →
      entry.lsp.HostnameFits →
        (entry.lsp.raw.length ≤ 65535 → entry.lsp.ReadsBack) ∧
        (entry.isPurged = false → ∀ reason, ∃ purged,
          (s.purge id reason).database.get? id = some purged ∧ purged.received = true ∧
          purged.lsp.id = id ∧ purged.lsp.seqno = entry.lsp.seqno ∧ purged.lsp.lifetime = 0 ∧
          purged.lsp.checksum = 0 ∧
          purged.lsp.tlvs = .purge s.purgeOriginator entry.lsp.tlvs.hostname ∧
          purged.lsp.ReadsBack)) ∧
    ∀ octets lsp, Pdu.decode s.now octets = .ok (.lsp lsp) → lsp.isExpired = true →
      lsp.HostnameFits → (s.completed lsp).raw.length ≤ 65535 →
        (s.completed lsp).ReadsBack ∧ (s.completed lsp).id = lsp.id ∧
        (s.completed lsp).seqno = lsp.seqno ∧ (s.completed lsp).lifetime = 0 ∧
        (s.completed lsp).tlvs.hostname = lsp.tlvs.hostname ∧
        (s.completed lsp = lsp ∨ (s.completed lsp).checksum = 0 ∧
          (s.completed lsp).tlvs.purgeOriginator = s.purgeOriginator) := by
  refine ⟨fun id entry hstored hreceived hfits => ⟨?_, ?_⟩, ?_⟩
  · exact (h.receivable hstored hreceived).readsBack hfits
  · intro hlive reason
    obtain ⟨purged, hpurged, hkept, hlsp, hreads⟩ :=
      h.purge_readsBack hstored hreceived hfits hlive reason
    have hid : (s.purgeOf entry.lsp).id = id := h.octetwise_proper.consistent.keys hstored
    refine ⟨purged, hpurged, hkept, ?_, ?_, ?_, ?_, ?_, hreads⟩
    · rw [hlsp, hid]
    · rw [hlsp]
      rfl
    · rw [hlsp]
      rfl
    · rw [hlsp]
      rfl
    · rw [hlsp]
      rfl
  · intro octets lsp hdecode hexpired hfits hlength
    have hlifetime : lsp.lifetime = 0 := of_decide_eq_true hexpired
    have hreceivable := s.receivable_completed (Pdu.decoded_of_decode hdecode)
    have hstored : s.completed lsp = lsp ∨ s.completed lsp =
        { lsp with tlvs := { lsp.tlvs with purgeOriginator := s.purgeOriginator } }.encode s.now := by
      rw [completed]
      split
      · exact .inr rfl
      · exact .inl rfl
    rcases hstored with heq | heq
    · rw [heq] at hlength hreceivable ⊢
      exact ⟨hreceivable.readsBack hfits hlength, rfl, rfl, hlifetime, rfl, .inl rfl⟩
    · rw [heq] at hlength hreceivable ⊢
      exact ⟨hreceivable.readsBack hfits hlength, rfl, rfl, hlifetime, rfl,
        .inr ⟨if_pos hlifetime, rfl⟩⟩

def heardOctets (octets : Octets) : LevelState :=
  ((start .one Config.default 0).perform (.addCircuit ⟨1, "eth1", .broadcast⟩)).perform
    (.receiveLspOctets (some 1) octets)

theorem heardOctets_reachable (octets : Octets) :
    Reachable Octetwise .one Config.default 0 (heardOctets octets) :=
  (Reachable.start.perform trivial).perform trivial

/-- An LSP of another system whose hostname has the given number of octets that are no
text. -/
def withBinaryHostname (length : UInt8) (checksum : UInt16) : Octets :=
  [0x83, 27, 1, 0, 18, 1, 0, 0] ++ Octets.ofU16 (29 + length.toUInt16) ++ Octets.ofU16 1200 ++
    [0, 0, 0, 0, 0, 2, 0, 0] ++ Octets.ofU32 7 ++ Octets.ofU16 checksum ++ [3, 137, length] ++
    List.replicate length.toNat 0xFF

def otherId : LspId := ⟨⟨0, 0, 0, 0, 0, 2⟩, 0, 0⟩

/-- A hostname of 85 octets that are no text fills the field of a purge. -/
theorem received_purges_readable_binary :
    let s := heardOctets (withBinaryHostname 85 0xF71D)
    ∃ entry purged, s.database.get? otherId = some entry ∧ entry.received = true ∧
      entry.lsp.HostnameFits ∧ entry.isPurged = false ∧
      (s.purge otherId .confusion).database.get? otherId = some purged ∧ purged.lsp.ReadsBack := by
  intro s
  have hstored : (s.database.get? otherId).any (fun entry => entry.received && !entry.isPurged &&
      (entry.lsp.tlvs.hostname.map fun hostname =>
        (Tlv.hostnameOctets hostname).length) == some 255) = true := by
    decide +kernel
  obtain ⟨entry, hentry, hfacts⟩ := (Option.any_eq_true _ _).1 hstored
  simp only [Bool.and_eq_true, Bool.not_eq_true', beq_iff_eq] at hfacts
  obtain ⟨⟨hreceived, hlive⟩, hlength⟩ := hfacts
  have hfits : entry.lsp.HostnameFits := by
    intro hostname hmem
    rw [hmem] at hlength
    exact Nat.le_of_eq (Option.some.inj hlength)
  obtain ⟨purged, hpurged, -, -, -, -, -, -, hreads⟩ :=
    ((received_purges_readable (heardOctets_reachable (withBinaryHostname 85 0xF71D))).1 otherId
      entry hentry hreceived hfits).2 hlive .confusion
  exact ⟨entry, purged, hentry, hreceived, hfits, hlive, hpurged, hreads⟩

/-- With one octet more the LSP is accepted and stored, and nobody can read its purge. -/
theorem binary_hostname_unreadable :
    let octets := withBinaryHostname 86 0xFA19
    let s := heardOctets octets
    Reachable Octetwise .one Config.default 0 s ∧
      ∃ entry purged, s.database.get? otherId = some entry ∧ entry.received = true ∧
        entry.lsp.raw = octets ∧ (s.purge otherId .confusion).database.get? otherId = some purged ∧
        purged.isPurged = true ∧ Pdu.decode 0 purged.lsp.raw = .error (.tlvLength 191) := by
  intro octets s
  have hstored : (s.database.get? otherId).any (fun entry =>
      entry.received && entry.lsp.raw == octets) = true := by
    decide +kernel
  have hpurged : ((s.purge otherId .confusion).database.get? otherId).any (fun purged =>
      purged.isPurged && decide (Pdu.decode 0 purged.lsp.raw = .error (.tlvLength 191))) = true := by
    decide +kernel
  obtain ⟨entry, hentry, hfacts⟩ := (Option.any_eq_true _ _).1 hstored
  obtain ⟨purged, hget, hrefused⟩ := (Option.any_eq_true _ _).1 hpurged
  rw [Bool.and_eq_true, beq_iff_eq] at hfacts
  rw [Bool.and_eq_true, decide_eq_true_eq] at hrefused
  exact ⟨heardOctets_reachable octets, entry, purged, hentry, hfacts.1, hfacts.2, hget, hrefused⟩

end LevelState

end LinkState
