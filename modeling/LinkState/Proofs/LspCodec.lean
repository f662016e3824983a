import LinkState.Proofs.LspOctets
import LinkState.Proofs.Utf8

/-!
# Reading back link state PDUs

Every kind of field of a link state PDU reads back as it was written, as long as its
value fits into a field.  A reader takes the fields one after the other, so each law is
stated with arbitrary octets behind the field, and the laws of the kinds follow one
another in the order in which the fields are written.
-/

namespace LinkState

/-! ### Numbers and addresses -/

namespace Octets

theorem word24_ofU24 {n : UInt32} (h : n.toNat < 0x1000000) :
    word24 (UInt8.ofNat (n.toNat / 65536)) (UInt8.ofNat (n.toNat / 256)) (UInt8.ofNat n.toNat) =
      n := by
  rw [← UInt32.toNat_inj, word24, UInt32.toNat_ofNat']
  simp only [UInt8.toNat_ofNat']
  omega

theorem readU32_ofU32 (n : UInt32) (rest : Octets) : readU32 (ofU32 n ++ rest) = .ok (n, rest) := by
  show Except.ok (word32 _ _ _ _, rest) = _
  rw [word32_ofU32]

end Octets

theorem SystemId.read_toOctets (id : SystemId) (rest : Octets) :
    SystemId.read (id.toOctets ++ rest) = .ok (id, rest) :=
  rfl

/-! ### Values of fields -/

namespace Tlv

theorem readAreas_flatMap (fieldLength : UInt8) {areas : List AreaAddress}
    (h : ∀ address ∈ areas, address.length ≤ maxAreaLength) :
    readAreas fieldLength (areas.flatMap areaOctets) = .ok areas := by
  induction areas with
  | nil =>
      rw [List.flatMap_nil, readAreas]
  | cons address rest ih =>
      have hshort : address.length ≤ maxAreaLength := h address List.mem_cons_self
      have hlength : (UInt8.ofNat address.length).toNat = address.length :=
        toNat_length (Nat.le_trans hshort (by decide))
      have hrest := ih fun other hother => h other (List.mem_cons_of_mem _ hother)
      rw [List.flatMap_cons, areaOctets, List.cons_append, readAreas, hlength,
        if_neg (Nat.not_lt.2 hshort), if_neg (by simp), List.drop_left, List.take_left, hrest]
      rfl

/-- Neighbours are written without sub-fields, and read back so. -/
theorem readNeighbors_flatMap {neighbors : List Neighbor}
    (h : ∀ neighbor ∈ neighbors, neighbor.metric ≤ maxMetric) :
    readNeighbors (neighbors.flatMap neighborOctets) = .ok neighbors := by
  induction neighbors with
  | nil => simp [readNeighbors]
  | cons neighbor rest ih =>
      have hmetric : neighbor.metric ≤ maxMetric := h neighbor List.mem_cons_self
      have hrest := ih fun other hother => h other (List.mem_cons_of_mem _ hother)
      have hoctets : neighborOctets neighbor =
          neighbor.node.toOctets ++ Octets.ofU24 neighbor.metric ++ [0] := by
        rw [neighborOctets, if_neg (UInt32.not_lt.2 hmetric)]
      have hbound : neighbor.metric.toNat < 0x1000000 :=
        Nat.lt_succ_of_le (UInt32.le_iff_toNat_le.1 hmetric)
      rw [List.flatMap_cons, hoctets]
      simp only [NodeId.toOctets, SystemId.toOctets, Octets.ofU24, List.cons_append,
        List.nil_append]
      rw [readNeighbors, if_neg (show ¬ _ < (0 : UInt8).toNat from Nat.not_lt_zero _)]
      show (readNeighbors (rest.flatMap neighborOctets) >>= _) = _
      rw [hrest, Octets.word24_ofU24 hbound]
      rfl

theorem readPurgeOriginator_octets (originator : PurgeOriginator) :
    readPurgeOriginator (purgeOriginatorOctets originator) = .ok originator := by
  rcases originator with ⟨system, _ | other⟩ <;> rfl

theorem length_purgeOriginatorOctets (originator : PurgeOriginator) :
    (purgeOriginatorOctets originator).length ≤ maxLength := by
  rcases originator with ⟨system, _ | other⟩
  · show 7 ≤ 255
    decide
  · show 13 ≤ 255
    decide

theorem readHostname_octets {hostname : String} (h : hostnameOctets hostname ≠ []) :
    readHostname (hostnameOctets hostname) = .ok hostname := by
  rw [readHostname, if_neg (by simpa using h), hostnameOctets, Text.Utf8.decode_encode,
    String.ofList_toList]

/-- Addresses have one length. -/
theorem length_flatMap_of_size {α : Type} {octets : α → Octets} {size : Nat}
    (h : ∀ address, (octets address).length = size) (addresses : List α) :
    (addresses.flatMap octets).length = addresses.length * size := by
  induction addresses with
  | nil => simp
  | cons address rest ih =>
      rw [List.flatMap_cons, List.length_append, ih, h, List.length_cons, Nat.add_one_mul,
        Nat.add_comm]

theorem readIpv4_flatMap (fieldLength : UInt8) (addresses : List Ipv4) :
    readIpv4 fieldLength (addresses.flatMap Ipv4.toOctets) = .ok addresses := by
  have htake : takeIpv4 (addresses.flatMap Ipv4.toOctets) = addresses := by
    induction addresses with
    | nil => rfl
    | cons address rest ih => exact congrArg (address :: ·) ih
  have hlength : (addresses.flatMap Ipv4.toOctets).length = addresses.length * 4 :=
    length_flatMap_of_size (fun address => show address.toOctets.length = 4 from rfl) addresses
  rw [readIpv4, hlength, Nat.mul_mod_left, htake]
  rfl

theorem readIpv6_flatMap (fieldLength : UInt8) (addresses : List Ipv6) :
    readIpv6 fieldLength (addresses.flatMap Ipv6.toOctets) = .ok addresses := by
  have htake : takeIpv6 (addresses.flatMap Ipv6.toOctets) = addresses := by
    induction addresses with
    | nil => rfl
    | cons address rest ih =>
        show (⟨Octets.word16 _ _, Octets.word16 _ _, Octets.word16 _ _, Octets.word16 _ _,
          Octets.word16 _ _, Octets.word16 _ _, Octets.word16 _ _, Octets.word16 _ _⟩ : Ipv6) ::
          takeIpv6 (rest.flatMap Ipv6.toOctets) = _
        rw [ih]
        simp only [Octets.word16_ofU16]
  have hlength : (addresses.flatMap Ipv6.toOctets).length = addresses.length * 16 :=
    length_flatMap_of_size (fun address => show address.toOctets.length = 16 from rfl) addresses
  rw [readIpv6, hlength, Nat.mul_mod_left, htake]
  rfl

/-! ### One field after the other -/

section ReadAll

variable {α : Type} {read : α → Raw → Except DecodeError α} {start next : α}

theorem readAll_nil : readAll read start [] = .ok start := by
  simp [readAll, split, pure, Except.pure]

/-- A field that the length octet fits is read on its own, and the rest after it. -/
theorem readAll_append {raw : Raw} (rest : Octets) (hlength : raw.length.toNat = raw.value.length)
    (h : read start raw = .ok next) :
    readAll read start (raw.code :: raw.length :: raw.value ++ rest) =
      readAll read next rest := by
  rw [readAll, readAll, List.cons_append, List.cons_append, split, hlength,
    if_neg (by simp), List.drop_left, List.take_left]
  simp only [List.foldlM_cons, h]
  rfl

theorem readAll_field_append {code : UInt8} {value : Octets} (rest : Octets)
    (hvalue : value.length ≤ maxLength)
    (h : read start ⟨code, UInt8.ofNat value.length, value⟩ = .ok next) :
    readAll read start (field code value ++ rest) = readAll read next rest :=
  readAll_append rest (toNat_length hvalue) h

end ReadAll

end Tlv

/-! ### The fields of an LSP -/

namespace LspTlvs

def knownCodes : List UInt8 :=
  [Tlv.areas, Tlv.purgeOriginator, Tlv.isReach, Tlv.protocols, Tlv.ipv4, Tlv.hostname, Tlv.ipv6]

/-- Every value fits into its field, and is one that the reader of the field accepts. -/
@[mk_iff]
structure WellFormed (tlvs : LspTlvs) : Prop where
  protocols : ∀ protocols ∈ tlvs.protocols, protocols.length ≤ Tlv.maxLength
  areas : ∀ areas ∈ tlvs.areas, (areas.flatMap Tlv.areaOctets).length ≤ Tlv.maxLength
  area : ∀ areas ∈ tlvs.areas, ∀ address ∈ areas, address.length ≤ Tlv.maxAreaLength
  hostname : ∀ hostname ∈ tlvs.hostname,
    Tlv.hostnameOctets hostname ≠ [] ∧ (Tlv.hostnameOctets hostname).length ≤ Tlv.maxLength
  isReach : ∀ neighbors ∈ tlvs.isReach,
    (neighbors.flatMap Tlv.neighborOctets).length ≤ Tlv.maxLength
  metric : ∀ neighbors ∈ tlvs.isReach, ∀ neighbor ∈ neighbors, neighbor.metric ≤ Tlv.maxMetric
  ipv4 : ∀ addresses ∈ tlvs.ipv4, (addresses.flatMap Ipv4.toOctets).length ≤ Tlv.maxLength
  ipv6 : ∀ addresses ∈ tlvs.ipv6, (addresses.flatMap Ipv6.toOctets).length ≤ Tlv.maxLength
  unknown : ∀ tlv ∈ tlvs.unknown, tlv.length.toNat = tlv.value.length ∧ tlv.code ∉ knownCodes

instance (tlvs : LspTlvs) : Decidable tlvs.WellFormed :=
  decidable_of_iff _ (wellFormed_iff tlvs).symm

/-! #### One kind of field after the other -/

section Kinds

variable {tlvs : LspTlvs} (rest : Octets)

/-- Fields of one kind are read one after the other.  `put` adds to what has been read
the given fields of that kind. -/
theorem readAll_listOctets {α : Type} {code : UInt8} {value : α → Octets}
    (put : List (List α) → LspTlvs) (done : List (List α)) {fields : List (List α)}
    (hvalue : ∀ values ∈ fields, (values.flatMap value).length ≤ Tlv.maxLength)
    (hread : ∀ done, ∀ values ∈ fields, ∀ length,
      read (put done) ⟨code, length, values.flatMap value⟩ = .ok (put (done ++ [values]))) :
    Tlv.readAll read (put done) (listOctets code value fields ++ rest) =
      Tlv.readAll read (put (done ++ fields)) rest := by
  induction fields generalizing done with
  | nil => rw [List.append_nil]; rfl
  | cons values more ih =>
      have hmore := ih (done ++ [values])
        (fun other hother => hvalue other (List.mem_cons_of_mem _ hother))
        (fun done other hother => hread done other (List.mem_cons_of_mem _ hother))
      rw [listOctets] at hmore ⊢
      rw [List.flatMap_cons, List.append_assoc,
        Tlv.readAll_field_append _ (hvalue values List.mem_cons_self)
          (hread done values List.mem_cons_self _),
        hmore, List.append_assoc, List.singleton_append]

/-- A field that may be absent is read, or nothing is.  `put` sets that field. -/
theorem readAll_optionOctets {α : Type} {code : UInt8} {value : α → Octets}
    (put : Option α → LspTlvs) {field : Option α} (hnone : put none = tlvs)
    (hvalue : ∀ a ∈ field, (value a).length ≤ Tlv.maxLength)
    (hread : ∀ a ∈ field, ∀ length, read tlvs ⟨code, length, value a⟩ = .ok (put (some a))) :
    Tlv.readAll read tlvs (optionOctets code value field ++ rest) =
      Tlv.readAll read (put field) rest := by
  cases field with
  | none => rw [hnone]; rfl
  | some a => exact Tlv.readAll_field_append rest (hvalue a rfl) (hread a rfl _)

theorem readAll_areas {areas : List (List AreaAddress)}
    (hvalue : ∀ field ∈ areas, (field.flatMap Tlv.areaOctets).length ≤ Tlv.maxLength)
    (harea : ∀ field ∈ areas, ∀ address ∈ field, address.length ≤ Tlv.maxAreaLength) :
    Tlv.readAll read tlvs (listOctets Tlv.areas Tlv.areaOctets areas ++ rest) =
      Tlv.readAll read { tlvs with areas := tlvs.areas ++ areas } rest := by
  refine readAll_listOctets rest (fun done => { tlvs with areas := done }) tlvs.areas hvalue ?_
  intro done field hfield length
  show (Tlv.readAreas _ _ >>= _) = _
  rw [Tlv.readAreas_flatMap _ (harea field hfield)]
  rfl

theorem readAll_protocols {protocols : Option (List UInt8)} (hnone : tlvs.protocols = none)
    (hvalue : ∀ value ∈ protocols, value.length ≤ Tlv.maxLength) :
    Tlv.readAll read tlvs (optionOctets Tlv.protocols id protocols ++ rest) =
      Tlv.readAll read { tlvs with protocols := protocols } rest := by
  refine readAll_optionOctets rest (fun value => { tlvs with protocols := value })
    (by rw [← hnone]) hvalue fun value _ length => ?_
  show Except.ok (if tlvs.protocols.isSome then tlvs else _) = _
  rw [hnone]
  rfl

theorem readAll_purgeOriginator {originator : Option PurgeOriginator}
    (hnone : tlvs.purgeOriginator = none) :
    Tlv.readAll read tlvs
        (optionOctets Tlv.purgeOriginator Tlv.purgeOriginatorOctets originator ++ rest) =
      Tlv.readAll read { tlvs with purgeOriginator := originator } rest := by
  refine readAll_optionOctets rest (fun value => { tlvs with purgeOriginator := value })
    (by rw [← hnone]) (fun value _ => Tlv.length_purgeOriginatorOctets value)
    fun value _ length => ?_
  show (if tlvs.purgeOriginator.isSome then Except.ok tlvs
    else Tlv.readPurgeOriginator (Tlv.purgeOriginatorOctets value) >>= _) = _
  rw [hnone, Tlv.readPurgeOriginator_octets]
  rfl

theorem readAll_hostname {hostname : Option String} (hnone : tlvs.hostname = none)
    (hvalue : ∀ name ∈ hostname, Tlv.hostnameOctets name ≠ [] ∧
      (Tlv.hostnameOctets name).length ≤ Tlv.maxLength) :
    Tlv.readAll read tlvs (optionOctets Tlv.hostname Tlv.hostnameOctets hostname ++ rest) =
      Tlv.readAll read { tlvs with hostname := hostname } rest := by
  refine readAll_optionOctets rest (fun value => { tlvs with hostname := value })
    (by rw [← hnone]) (fun name hname => (hvalue name hname).2) fun name hname length => ?_
  show (Tlv.readHostname _ >>= _) = _
  rw [Tlv.readHostname_octets (hvalue name hname).1]
  rfl

theorem readAll_ipv4 {ipv4 : List (List Ipv4)}
    (hvalue : ∀ field ∈ ipv4, (field.flatMap Ipv4.toOctets).length ≤ Tlv.maxLength) :
    Tlv.readAll read tlvs (listOctets Tlv.ipv4 Ipv4.toOctets ipv4 ++ rest) =
      Tlv.readAll read { tlvs with ipv4 := tlvs.ipv4 ++ ipv4 } rest := by
  refine readAll_listOctets rest (fun done => { tlvs with ipv4 := done }) tlvs.ipv4 hvalue ?_
  intro done field _ length
  show (Tlv.readIpv4 _ _ >>= _) = _
  rw [Tlv.readIpv4_flatMap]
  rfl

theorem readAll_ipv6 {ipv6 : List (List Ipv6)}
    (hvalue : ∀ field ∈ ipv6, (field.flatMap Ipv6.toOctets).length ≤ Tlv.maxLength) :
    Tlv.readAll read tlvs (listOctets Tlv.ipv6 Ipv6.toOctets ipv6 ++ rest) =
      Tlv.readAll read { tlvs with ipv6 := tlvs.ipv6 ++ ipv6 } rest := by
  refine readAll_listOctets rest (fun done => { tlvs with ipv6 := done }) tlvs.ipv6 hvalue ?_
  intro done field _ length
  show (Tlv.readIpv6 _ _ >>= _) = _
  rw [Tlv.readIpv6_flatMap]
  rfl

theorem readAll_isReach {isReach : List (List Neighbor)}
    (hvalue : ∀ field ∈ isReach, (field.flatMap Tlv.neighborOctets).length ≤ Tlv.maxLength)
    (hmetric : ∀ field ∈ isReach, ∀ neighbor ∈ field, neighbor.metric ≤ Tlv.maxMetric) :
    Tlv.readAll read tlvs (listOctets Tlv.isReach Tlv.neighborOctets isReach ++ rest) =
      Tlv.readAll read { tlvs with isReach := tlvs.isReach ++ isReach } rest := by
  refine readAll_listOctets rest (fun done => { tlvs with isReach := done }) tlvs.isReach hvalue ?_
  intro done field hfield length
  show (Tlv.readNeighbors _ >>= _) = _
  rw [Tlv.readNeighbors_flatMap (hmetric field hfield)]
  rfl

/-- Fields that are not interpreted read back if their length octets are right and their types
are unknown. -/
theorem readAll_unknown {unknown : List UnknownTlv}
    (h : ∀ tlv ∈ unknown, tlv.length.toNat = tlv.value.length ∧ tlv.code ∉ knownCodes) :
    Tlv.readAll read tlvs (unknown.flatMap Tlv.unknownOctets) =
      .ok { tlvs with unknown := tlvs.unknown ++ unknown } := by
  induction unknown generalizing tlvs with
  | nil => rw [List.flatMap_nil, Tlv.readAll_nil, List.append_nil]
  | cons tlv more ih =>
      obtain ⟨hlength, hcode⟩ := h tlv List.mem_cons_self
      have hread : read tlvs ⟨tlv.code, tlv.length, tlv.value⟩ =
          .ok { tlvs with unknown := tlvs.unknown ++ [tlv] } := by
        simp only [knownCodes, List.mem_cons, List.not_mem_nil, or_false, not_or] at hcode
        simp only [read, hcode, if_false]
        rfl
      have hmore := @ih { tlvs with unknown := tlvs.unknown ++ [tlv] }
        fun other hother => h other (List.mem_cons_of_mem _ hother)
      have hfirst := Tlv.readAll_append (more.flatMap Tlv.unknownOctets) hlength hread
      rw [List.flatMap_cons]
      refine hfirst.trans (hmore.trans ?_)
      rw [List.append_assoc, List.singleton_append]

end Kinds

/-- Well formed fields read back, each kind in its order. -/
theorem readAll_toOctets {tlvs : LspTlvs} (h : tlvs.WellFormed) :
    Tlv.readAll read empty tlvs.toOctets = .ok tlvs := by
  simp only [toOctets, List.append_assoc]
  rw [readAll_areas _ h.areas h.area, readAll_protocols _ rfl h.protocols,
    readAll_purgeOriginator _ rfl, readAll_hostname _ rfl h.hostname, readAll_ipv4 _ h.ipv4,
    readAll_ipv6 _ h.ipv6, readAll_isReach _ h.isReach h.metric, readAll_unknown h.unknown]
  rfl

end LspTlvs

/-! ### Whole PDUs -/

namespace Lsp

theorem length_covered (lsp : Lsp) (checksum : UInt16) :
    (lsp.covered checksum).length = 15 + lsp.tlvs.toOctets.length := by
  simp [covered, LspId.toOctets, SystemId.toOctets, Octets.ofU32, Octets.ofU16]
  omega

theorem length_raw_encode (lsp : Lsp) (now : Nat) :
    (lsp.encode now).raw.length = headerSize + lsp.tlvs.toOctets.length := by
  show (lsp.assemble lsp.computeChecksum).length = 27 + _
  simp [assemble, length_covered, Header.toOctets, Octets.ofU16]
  omega

section

variable {lsp : Lsp} {level : Level} (hheader : lsp.header.kind = .lsp level)
  (hflags : LspFlags.ofBits lsp.flags.bits = lsp.flags) (htlvs : lsp.tlvs.WellFormed)

include hheader htlvs

/-- Of an LSP that is encoded with well formed fields no more than flags without a name is
lost. -/
theorem decode_raw_encode_named (now time : Nat)
    (hlength : (lsp.encode now).raw.length ≤ 65535) :
    Pdu.decode time (lsp.encode now).raw =
      .ok (.lsp { lsp.encode now with
        flags := .ofBits lsp.flags.bits
        baseTime := some time }) := by
  generalize hraw : (lsp.encode now).raw = raw at hlength ⊢
  have hsize : raw.length = 27 + lsp.tlvs.toOctets.length := by
    rw [← hraw]
    exact length_raw_encode lsp now
  have hword : (UInt16.ofNat raw.length).toNat = raw.length := by
    rw [UInt16.toNat_ofNat']
    exact Nat.mod_eq_of_lt (Nat.lt_succ_of_le hlength)
  have hparts : raw = lsp.header.toOctets ++
      (Octets.ofU16 (UInt16.ofNat raw.length) ++ (Octets.ofU16 lsp.lifetime ++ (lsp.id.toOctets ++
        (Octets.ofU32 lsp.seqno ++ (Octets.ofU16 lsp.computeChecksum ++
          (lsp.flags.bits :: lsp.tlvs.toOctets)))))) := by
    rw [hsize, ← hraw]
    show lsp.assemble lsp.computeChecksum = _
    simp only [assemble, length_covered, coveredOffset, ← Nat.add_assoc]
    simp only [covered, List.append_assoc, List.singleton_append]
  have hread : ∀ length : UInt16, length.toNat = raw.length →
      Lsp.read time lsp.header (Octets.ofU16 length ++
        (Octets.ofU16 lsp.lifetime ++ (lsp.id.toOctets ++ (Octets.ofU32 lsp.seqno ++
          (Octets.ofU16 lsp.computeChecksum ++ (lsp.flags.bits :: lsp.tlvs.toOctets)))))) raw =
        .ok { lsp.encode now with flags := .ofBits lsp.flags.bits, baseTime := some time } := by
    intro length hlength
    rw [Lsp.read, Octets.readU16_ofU16]
    simp only [DecodeError.ofReading, hlength, Octets.readU16_ofU16, LspId.read_toOctets,
      Octets.readU32_ofU32, Octets.readU8, LspTlvs.readAll_toOctets htlvs, ne_eq,
      not_true_eq_false, if_false, bind, Except.bind, pure, Except.pure]
    rw [← hraw]
    rfl
  have hlong : lsp.header.kind.headerLength.toNat ≤ raw.length := by
    rw [hsize, hheader, show (PduType.lsp level).headerLength = 27 by cases level <;> rfl]
    exact Nat.le_add_right _ _
  rw [hparts, List.length_append] at hlong
  rw [Pdu.decode, hparts, Header.read_toOctets _ hlong, ← hparts]
  simp only [bind, Except.bind]
  rw [hread _ hword, hheader]
  cases level <;> rfl

include hflags

/-- An LSP of well formed fields reads back from the octets it is encoded to. -/
theorem decode_raw_encode (now time : Nat) (hlength : (lsp.encode now).raw.length ≤ 65535) :
    Pdu.decode time (lsp.encode now).raw =
      .ok (.lsp { lsp.encode now with baseTime := some time }) := by
  rw [decode_raw_encode_named hheader htlvs now time hlength, hflags]
  rfl

end

/-- An LSP that is made of well formed fields, with flags that have names, reads back from
its octets with all its fields: only the time at which its lifetime was right is that of
the reading. -/
theorem decode_raw_make (now time : Nat) (level : Level) (lifetime : UInt16) (id : LspId)
    (seqno : UInt32) {flags : LspFlags} {tlvs : LspTlvs}
    (hflags : LspFlags.ofBits flags.bits = flags) (htlvs : tlvs.WellFormed)
    (hlength : (make now level lifetime id seqno flags tlvs).raw.length ≤ 65535) :
    Pdu.decode time (make now level lifetime id seqno flags tlvs).raw =
      .ok (.lsp { make now level lifetime id seqno flags tlvs with baseTime := some time }) :=
  decode_raw_encode rfl hflags htlvs now time hlength

/-- Fields of all kinds, some of them without values. -/
def sampleTlvs : LspTlvs where
  protocols := some [0xCC, 0x8E]
  areas := [[[0x49, 0, 1], []], []]
  purgeOriginator := some ⟨⟨0, 0, 0, 0, 0, 1⟩, some ⟨0, 0, 0, 0, 0, 2⟩⟩
  hostname := some "zürich"
  isReach := [[⟨⟨⟨0, 0, 0, 0, 0, 2⟩, 1⟩, 0xFFFFFF⟩], []]
  ipv4 := [[⟨192, 0, 2, 1⟩, ⟨192, 0, 2, 2⟩]]
  ipv6 := [[⟨0x2001, 0xDB8, 0, 0, 0, 0, 0, 1⟩]]
  unknown := [⟨99, 2, [1, 2]⟩, ⟨0, 0, []⟩]

theorem decode_raw_make_sample :
    LspFlags.ofBits LspFlags.overload.bits = LspFlags.overload ∧ sampleTlvs.WellFormed ∧
      (make 0 .two 1200 ⟨⟨0, 0, 0, 0, 0, 1⟩, 0, 0⟩ 7 .overload sampleTlvs).raw.length ≤ 65535 ∧
      Pdu.decode 4000 (make 0 .two 1200 ⟨⟨0, 0, 0, 0, 0, 1⟩, 0, 0⟩ 7 .overload sampleTlvs).raw =
        .ok (.lsp { make 0 .two 1200 ⟨⟨0, 0, 0, 0, 0, 1⟩, 0, 0⟩ 7 .overload sampleTlvs with
          baseTime := some 4000 }) := by
  have hflags : LspFlags.ofBits LspFlags.overload.bits = LspFlags.overload := by decide
  have htlvs : sampleTlvs.WellFormed := by decide
  have hlength :
      (make 0 .two 1200 ⟨⟨0, 0, 0, 0, 0, 1⟩, 0, 0⟩ 7 .overload sampleTlvs).raw.length ≤ 65535 := by
    decide
  exact ⟨hflags, htlvs, hlength, decode_raw_make 0 4000 .two 1200 _ 7 hflags htlvs hlength⟩

end Lsp

end LinkState
