import LinkState.Proofs.FieldGrammar

/-!
# The grammar of link state PDUs

An octet string is a link state PDU if its fixed part names the protocol, the type and its
own length, and the rest is a sequence of fields with acceptable values.  The decoder accepts
these strings and no others, and what it returns is what stands at the offsets of the fixed
part and what is taken in from the fields.
-/

namespace LinkState

/-! ### Readers of the fixed part -/

namespace Octets

theorem ofU32_word32 (a b c d : UInt8) : ofU32 (word32 a b c d) = [a, b, c, d] := by
  have ha := a.toNat_lt
  have hb := b.toNat_lt
  have hc := c.toNat_lt
  have hd := d.toNat_lt
  have hword : (word32 a b c d).toNat =
      ((a.toNat * 256 + b.toNat) * 256 + c.toNat) * 256 + d.toNat := by
    rw [word32, UInt32.toNat_ofNat']
    omega
  rw [ofU32, hword]
  simp only [List.cons.injEq, and_true, ← UInt8.toNat_inj, UInt8.toNat_ofNat']
  omega

theorem readU16_eq_ok_iff {octets rest : Octets} {n : UInt16} :
    readU16 octets = .ok (n, rest) ↔ octets = ofU16 n ++ rest := by
  constructor
  · intro h
    simp only [readU16] at h
    split at h
    · cases h
      rw [ofU16_word16]
      rfl
    · cases h
  · rintro rfl
    exact readU16_ofU16 n rest

theorem readU32_eq_ok_iff {octets rest : Octets} {n : UInt32} :
    readU32 octets = .ok (n, rest) ↔ octets = ofU32 n ++ rest := by
  constructor
  · intro h
    simp only [readU32] at h
    split at h
    · cases h
      rw [ofU32_word32]
      rfl
    · cases h
  · rintro rfl
    exact readU32_ofU32 n rest

theorem ofU16_injective : Function.Injective ofU16 := by
  intro m n h
  have hread := readU16_ofU16 m []
  rw [h, readU16_ofU16] at hread
  cases hread
  rfl

theorem ofU32_injective : Function.Injective ofU32 := by
  intro m n h
  have hread := readU32_ofU32 m []
  rw [h, readU32_ofU32] at hread
  cases hread
  rfl

end Octets

namespace LspId

theorem read_eq_ok_iff {octets rest : Octets} {id : LspId} :
    LspId.read octets = .ok (id, rest) ↔ octets = id.toOctets ++ rest := by
  constructor
  · intro h
    simp only [LspId.read] at h
    split at h
    · cases h
      rfl
    · cases h
  · rintro rfl
    rfl

theorem toOctets_injective : Function.Injective toOctets := by
  intro a b h
  have hread := read_toOctets a []
  rw [h, read_toOctets] at hread
  cases hread
  rfl

end LspId

theorem PduType.ofCode?_eq_some_iff {code : UInt8} {kind : PduType} :
    ofCode? code = some kind ↔ kind.code = code := by
  constructor
  · intro h
    simpa using List.find?_some h
  · rintro rfl
    cases kind <;> rfl

/-- A header is read if its octets are the right ones, whatever the reserved octet. -/
theorem Header.read_eq_ok_iff {pdu rest : Octets} {header : Header} :
    Header.read pdu = .ok (header, rest) ↔ ∃ idLength code reserved,
      pdu = discriminator :: header.kind.headerLength :: version :: idLength :: code :: version ::
        reserved :: header.maxAreaAddresses :: rest ∧
      (idLength = 0 ∨ idLength = 6) ∧ header.kind.code.toNat = code.toNat % 32 ∧
      header.kind.headerLength.toNat ≤ pdu.length := by
  have hcode : ∀ (code : UInt8) kind,
      PduType.ofCode? (UInt8.ofNat (code.toNat % 32)) = some kind ↔
        kind.code.toNat = code.toNat % 32 := by
    intro code kind
    rw [PduType.ofCode?_eq_some_iff, ← UInt8.toNat_inj, UInt8.toNat_ofNat']
    omega
  constructor
  · intro h
    simp only [Header.read] at h
    split at h
    · rename_i d length v idLength code v' reserved areas after
      split at h
      · cases h
      rename_i hdiscriminator
      split at h
      · cases h
      rename_i hversion
      split at h
      · cases h
      rename_i hid
      split at h
      · cases h
      rename_i kind hkind
      split_ifs at h with hlength hshort hversion'
      cases h
      rw [not_not] at hdiscriminator hversion hlength hversion'
      subst hdiscriminator hversion hlength hversion'
      exact ⟨idLength, code, reserved, rfl, by tauto, (hcode code kind).1 hkind, Nat.not_lt.1 hshort⟩
    · cases h
  · rintro ⟨idLength, code, reserved, rfl, hid, hkind, hlong⟩
    have hid' : ¬ (idLength ≠ 0 ∧ idLength ≠ 6) := by tauto
    rw [Header.read, if_neg (by simp), if_neg (by simp), if_neg hid', (hcode _ _).2 hkind]
    simp only [ne_eq, not_true_eq_false, if_false, Nat.not_lt.2 hlong]

/-! ### Link state PDUs -/

/-- The fixed part of a link state PDU as it travels. -/
structure FixedPart where
  idLength : UInt8
  code : UInt8
  reserved : UInt8
  maxAreaAddresses : UInt8
  length : UInt16
  lifetime : UInt16
  id : LspId
  seqno : UInt32
  checksum : UInt16
  flags : UInt8

namespace FixedPart

def toOctets (part : FixedPart) : Octets :=
  0x83 :: 27 :: 1 :: part.idLength :: part.code :: 1 :: part.reserved :: part.maxAreaAddresses ::
    (Octets.ofU16 part.length ++ (Octets.ofU16 part.lifetime ++ (part.id.toOctets ++
      (Octets.ofU32 part.seqno ++ (Octets.ofU16 part.checksum ++ [part.flags])))))

/-- The fixed part is that of a link state PDU of the given length. -/
structure Allowed (part : FixedPart) (size : Nat) : Prop where
  idLength : part.idLength = 0 ∨ part.idLength = 6
  code : part.code.toNat % 32 = 18 ∨ part.code.toNat % 32 = 20
  length : part.length.toNat = size

def kind (part : FixedPart) : PduType :=
  if part.code.toNat % 32 = 18 then .lsp1 else .lsp2

def lsp (part : FixedPart) (tlvs : LspTlvs) (raw : Octets) (now : Nat) : Lsp :=
  ⟨⟨part.kind, part.maxAreaAddresses⟩, part.lifetime, part.id, part.seqno, part.checksum,
    .ofBits part.flags, tlvs, raw, some now⟩

theorem length_toOctets (part : FixedPart) : part.toOctets.length = 27 :=
  rfl

theorem toOctets_append (part : FixedPart) (fields : Octets) :
    part.toOctets ++ fields =
      0x83 :: 27 :: 1 :: part.idLength :: part.code :: 1 :: part.reserved ::
        part.maxAreaAddresses :: (Octets.ofU16 part.length ++ (Octets.ofU16 part.lifetime ++
          (part.id.toOctets ++ (Octets.ofU32 part.seqno ++ (Octets.ofU16 part.checksum ++
            part.flags :: fields))))) := by
  simp [toOctets]

end FixedPart

/-- Behind the header an LSP has the rest of its fixed part, which tells the length of the whole
PDU, and its fields. -/
theorem Lsp.read_eq_ok_iff {now : Nat} {header : Header} {rest pdu : Octets} {lsp : Lsp} :
    Lsp.read now header rest pdu = .ok lsp ↔
      ∃ length lifetime id seqno checksum flags fields tlvs,
        rest = Octets.ofU16 length ++ (Octets.ofU16 lifetime ++ (id.toOctets ++
          (Octets.ofU32 seqno ++ (Octets.ofU16 checksum ++ flags :: fields)))) ∧
        length.toNat = pdu.length ∧
        Tlv.readAll LspTlvs.read LspTlvs.empty fields = .ok tlvs ∧
        lsp = ⟨header, lifetime, id, seqno, checksum, .ofBits flags, tlvs, pdu, some now⟩ := by
  rw [Lsp.read]
  simp only [DecodeError.bind_eq_ok, DecodeError.ofReading_eq_ok, Prod.exists,
    Octets.readU16_eq_ok_iff]
  constructor
  · rintro ⟨length, afterLength, rfl, h⟩
    split at h
    · cases h
    rename_i hlength
    simp only [DecodeError.bind_eq_ok, DecodeError.ofReading_eq_ok, Prod.exists,
      Octets.readU16_eq_ok_iff, Octets.readU32_eq_ok_iff, Octets.readU8_eq_ok_iff,
      LspId.read_eq_ok_iff] at h
    obtain ⟨lifetime, _, rfl, id, _, rfl, seqno, _, rfl, checksum, _, rfl, flags, fields, rfl,
      tlvs, htlvs, h⟩ := h
    cases h
    exact ⟨length, lifetime, id, seqno, checksum, flags, fields, tlvs, rfl, not_not.1 hlength,
      htlvs, rfl⟩
  · rintro ⟨length, lifetime, id, seqno, checksum, flags, fields, tlvs, rfl, hlength, htlvs, rfl⟩
    refine ⟨length, _, rfl, ?_⟩
    rw [if_neg (not_not.2 hlength)]
    simp only [DecodeError.bind_eq_ok, DecodeError.ofReading_eq_ok, Prod.exists,
      Octets.readU16_eq_ok_iff, Octets.readU32_eq_ok_iff, Octets.readU8_eq_ok_iff,
      LspId.read_eq_ok_iff]
    exact ⟨lifetime, _, rfl, id, _, rfl, seqno, _, rfl, checksum, _, rfl, flags, fields, rfl, tlvs,
      htlvs, rfl⟩

theorem Pdu.decode_eq_ok_lsp_iff {now : Nat} {octets : Octets} {lsp : Lsp} :
    Pdu.decode now octets = .ok (.lsp lsp) ↔ ∃ header rest,
      Header.read octets = .ok (header, rest) ∧
      (header.kind = .lsp1 ∨ header.kind = .lsp2) ∧ Lsp.read now header rest octets = .ok lsp := by
  rw [Pdu.decode, DecodeError.bind_eq_ok, Prod.exists]
  refine exists_congr fun header => exists_congr fun rest => and_congr_right fun _ => ?_
  rcases header with ⟨kind, areas⟩
  cases kind <;>
    simp [DecodeError.bind_eq_ok, pure, Except.pure, throw, throwThe, MonadExceptOf.throw]

/-- What the decoder accepts as a link state PDU, and what it returns. -/
theorem Pdu.decode_eq_ok_lsp_iff_parts {now : Nat} {octets : Octets} {lsp : Lsp} :
    Pdu.decode now octets = .ok (.lsp lsp) ↔ ∃ (part : FixedPart) (fields : Octets) (tlvs : LspTlvs),
      octets = part.toOctets ++ fields ∧ part.Allowed octets.length ∧
      Tlv.readAll LspTlvs.read LspTlvs.empty fields = .ok tlvs ∧
      lsp = part.lsp tlvs octets now := by
  rw [decode_eq_ok_lsp_iff]
  simp only [Header.read_eq_ok_iff, Lsp.read_eq_ok_iff]
  constructor
  · rintro ⟨⟨kind, areas⟩, rest, ⟨idLength, code, reserved, hoctets, hid, hcode, -⟩, hkind,
      length, lifetime, id, seqno, checksum, flags, fields, tlvs, rfl, hlength, htlvs, rfl⟩
    refine ⟨⟨idLength, code, reserved, areas, length, lifetime, id, seqno, checksum, flags⟩, fields,
      tlvs, ?_, ⟨hid, ?_, hlength⟩, htlvs, ?_⟩
    · rw [FixedPart.toOctets_append]
      rcases hkind with rfl | rfl
      · exact hoctets
      · exact hoctets
    · rcases hkind with rfl | rfl
      · exact .inl hcode.symm
      · exact .inr hcode.symm
    · have hpart : kind = if code.toNat % 32 = 18 then .lsp1 else .lsp2 := by
        rw [← hcode]
        rcases hkind with rfl | rfl
        · rfl
        · rfl
      simp only [FixedPart.lsp, FixedPart.kind, ← hpart]
  · rintro ⟨part, fields, tlvs, hoctets, hallowed, htlvs, rfl⟩
    have hkind : part.kind = .lsp1 ∨ part.kind = .lsp2 := by
      unfold FixedPart.kind
      split_ifs <;> simp
    have hlong : 27 ≤ octets.length := by
      rw [hoctets, List.length_append, FixedPart.length_toOctets]
      exact Nat.le_add_right _ _
    have hheader : part.kind.headerLength = 27 := by
      rcases hkind with h | h <;> rw [h] <;> rfl
    have hcode : part.kind.code.toNat = part.code.toNat % 32 := by
      unfold FixedPart.kind
      rcases hallowed.code with h | h <;> rw [h] <;> rfl
    refine ⟨⟨part.kind, part.maxAreaAddresses⟩, _,
      ⟨part.idLength, part.code, part.reserved, ?_, hallowed.idLength, hcode, ?_⟩, hkind,
      part.length, part.lifetime, part.id, part.seqno, part.checksum, part.flags, fields, tlvs, rfl,
      hallowed.length, htlvs, rfl⟩
    · rw [hoctets, hheader, FixedPart.toOctets_append]
      rfl
    · rw [hheader]
      exact hlong

/-! ### Offsets -/

/-- A string that is long enough and names the protocol starts with a fixed part. -/
theorem FixedPart.exists_toOctets {octets : Octets} (hlong : 27 ≤ octets.length)
    (hdiscriminator : octets[0]? = some 0x83) (hheader : octets[1]? = some 27)
    (hversion : octets[2]? = some 1) (hversion' : octets[5]? = some 1) :
    ∃ (part : FixedPart) (fields : Octets), octets = part.toOctets ++ fields := by
  rw [List.getElem?_eq_getElem (by omega), Option.some.injEq] at hdiscriminator hheader
  rw [List.getElem?_eq_getElem (by omega), Option.some.injEq] at hversion hversion'
  have hoctets : octets[0] :: octets[1] :: octets[2] :: octets[3] :: octets[4] :: octets[5] ::
      octets[6] :: octets[7] :: octets[8] :: octets[9] :: octets[10] :: octets[11] :: octets[12] ::
      octets[13] :: octets[14] :: octets[15] :: octets[16] :: octets[17] :: octets[18] ::
      octets[19] :: octets[20] :: octets[21] :: octets[22] :: octets[23] :: octets[24] ::
      octets[25] :: octets[26] :: octets.drop 27 = octets.drop 0 := by
    simp only [List.getElem_cons_drop]
  rw [hdiscriminator, hheader, hversion, hversion', List.drop_zero] at hoctets
  refine ⟨⟨octets[3], octets[4], octets[6], octets[7], Octets.word16 octets[8] octets[9],
    Octets.word16 octets[10] octets[11],
    ⟨⟨octets[12], octets[13], octets[14], octets[15], octets[16], octets[17]⟩, octets[18],
      octets[19]⟩,
    Octets.word32 octets[20] octets[21] octets[22] octets[23], Octets.word16 octets[24] octets[25],
    octets[26]⟩, octets.drop 27, ?_⟩
  simp only [toOctets_append, Octets.ofU16_word16, Octets.ofU32_word32]
  exact hoctets.symm

namespace Lsp

/-- The strings that are link state PDUs. -/
structure Grammatical (octets : Octets) : Prop where
  long : 27 ≤ octets.length
  discriminator : octets[0]? = some 0x83
  headerLength : octets[1]? = some 27
  version : octets[2]? = some 1
  idLength : octets[3]? = some 0 ∨ octets[3]? = some 6
  kind : ∃ code, octets[4]? = some code ∧ (code.toNat % 32 = 18 ∨ code.toNat % 32 = 20)
  version' : octets[5]? = some 1
  length : ∃ high low, octets[8]? = some high ∧ octets[9]? = some low ∧
    high.toNat * 256 + low.toNat = octets.length
  fields : ∃ fields, Tlv.Fields (octets.drop 27) fields ∧ LspTlvs.Acceptable fields

/-- An LSP is what stands in a string: the values at the offsets of the fixed part, and what
is taken in from the fields behind it. -/
structure StandsIn (lsp : Lsp) (octets : Octets) : Prop where
  kind : ∃ code, octets[4]? = some code ∧
    lsp.header.kind = if code.toNat % 32 = 18 then .lsp1 else .lsp2
  maxAreaAddresses : octets[7]? = some lsp.header.maxAreaAddresses
  lifetime : octets.extract 10 12 = Octets.ofU16 lsp.lifetime
  id : octets.extract 12 20 = lsp.id.toOctets
  seqno : octets.extract 20 24 = Octets.ofU32 lsp.seqno
  checksum : octets.extract 24 26 = Octets.ofU16 lsp.checksum
  flags : ∃ bits, octets[26]? = some bits ∧ lsp.flags = .ofBits bits
  tlvs : ∃ fields, Tlv.Fields (octets.drop 27) fields ∧ LspTlvs.Reads fields lsp.tlvs
  raw : lsp.raw = octets

end Lsp

namespace FixedPart

variable {part : FixedPart} {fields octets : Octets} {tlvs : LspTlvs}

theorem Allowed.grammatical (hallowed : part.Allowed (part.toOctets ++ fields).length)
    (hfields : ∃ list, Tlv.Fields fields list ∧ LspTlvs.Acceptable list) :
    Lsp.Grammatical (part.toOctets ++ fields) where
  long := by
    rw [List.length_append, length_toOctets]
    exact Nat.le_add_right _ _
  discriminator := rfl
  headerLength := rfl
  version := rfl
  idLength := hallowed.idLength.imp (congrArg some) (congrArg some)
  kind := ⟨part.code, rfl, hallowed.code⟩
  version' := rfl
  length := by
    refine ⟨_, _, rfl, rfl, ?_⟩
    have hword := part.length.toNat_lt
    rw [← hallowed.length, UInt8.toNat_ofNat', UInt8.toNat_ofNat']
    omega
  fields := hfields

end FixedPart

/-- A grammatical string can be taken apart into a fixed part and fields. -/
theorem Lsp.Grammatical.exists_part {octets : Octets} (h : Grammatical octets) :
    ∃ (part : FixedPart) (fields : Octets), octets = part.toOctets ++ fields ∧
      part.Allowed octets.length ∧ ∃ list, Tlv.Fields fields list ∧ LspTlvs.Acceptable list := by
  obtain ⟨part, fields, hoctets⟩ :=
    FixedPart.exists_toOctets h.long h.discriminator h.headerLength h.version h.version'
  refine ⟨part, fields, hoctets, ⟨?_, ?_, ?_⟩, ?_⟩
  · have hid := h.idLength
    rw [hoctets] at hid
    exact hid.imp Option.some.inj Option.some.inj
  · obtain ⟨code, hcode, hkind⟩ := h.kind
    rw [hoctets] at hcode
    cases hcode
    exact hkind
  · obtain ⟨high, low, hhigh, hlow, hlength⟩ := h.length
    rw [← hlength]
    rw [hoctets] at hhigh hlow
    cases hhigh
    cases hlow
    have hword := part.length.toNat_lt
    rw [UInt8.toNat_ofNat', UInt8.toNat_ofNat']
    omega
  · have hfields := h.fields
    rw [hoctets] at hfields
    exact hfields

namespace FixedPart

variable {part : FixedPart} {fields octets : Octets} {tlvs : LspTlvs}

theorem lsp_standsIn {raw : List Tlv.Raw} (hfields : Tlv.Fields fields raw) (hreads : LspTlvs.Reads raw tlvs)
    (now : Nat) : (part.lsp tlvs (part.toOctets ++ fields) now).StandsIn (part.toOctets ++ fields) where
  kind := ⟨part.code, rfl, rfl⟩
  maxAreaAddresses := rfl
  lifetime := rfl
  id := rfl
  seqno := rfl
  checksum := rfl
  flags := ⟨part.flags, rfl, rfl⟩
  tlvs := ⟨raw, hfields, hreads⟩
  raw := rfl

/-- An LSP that stands in a string is determined by the string. -/
theorem eq_lsp_of_standsIn {lsp : Lsp} {now : Nat} (h : lsp.StandsIn (part.toOctets ++ fields))
    (hbase : lsp.baseTime = some now) :
    lsp = part.lsp lsp.tlvs (part.toOctets ++ fields) now := by
  obtain ⟨code, hcode, hkind⟩ := h.kind
  obtain ⟨bits, hbits, hflags⟩ := h.flags
  have hheader : lsp.header = ⟨part.kind, part.maxAreaAddresses⟩ := by
    cases hcode
    rw [kind, ← hkind, show part.maxAreaAddresses = _ from Option.some.inj h.maxAreaAddresses]
  have hlifetime : part.lifetime = lsp.lifetime := Octets.ofU16_injective h.lifetime
  have hid : part.id = lsp.id := LspId.toOctets_injective h.id
  have hseqno : part.seqno = lsp.seqno := Octets.ofU32_injective h.seqno
  have hchecksum : part.checksum = lsp.checksum := Octets.ofU16_injective h.checksum
  rw [FixedPart.lsp, ← hheader, hlifetime, hid, hseqno, hchecksum, Option.some.inj hbits, ← hflags,
    ← h.raw, ← hbase]

end FixedPart

namespace Pdu

variable {now : Nat} {octets : Octets} {lsp : Lsp}

/-- To decode a string as an LSP is to find the LSP that stands in it. -/
theorem decode_eq_ok_lsp_iff_standsIn :
    Pdu.decode now octets = .ok (.lsp lsp) ↔
      Lsp.Grammatical octets ∧ lsp.StandsIn octets ∧ lsp.baseTime = some now := by
  simp only [decode_eq_ok_lsp_iff_parts, Tlv.readAll_eq_ok_iff, LspTlvs.foldlM_read_eq_ok_iff]
  constructor
  · rintro ⟨part, fields, tlvs, rfl, hallowed, ⟨list, hlist, hreads⟩, rfl⟩
    exact ⟨hallowed.grammatical ⟨list, hlist, LspTlvs.exists_reads_iff.1 ⟨tlvs, hreads⟩⟩,
      FixedPart.lsp_standsIn hlist hreads now, rfl⟩
  · rintro ⟨hgrammatical, hstands, hbase⟩
    obtain ⟨part, fields, rfl, hallowed, -⟩ := hgrammatical.exists_part
    obtain ⟨list, hlist, hreads⟩ := hstands.tlvs
    exact ⟨part, fields, lsp.tlvs, rfl, hallowed, ⟨list, hlist, hreads⟩,
      FixedPart.eq_lsp_of_standsIn hstands hbase⟩

/-- What is read from a string is what stands in it. -/
theorem standsIn_of_decode (h : Pdu.decode now octets = .ok (.lsp lsp)) : lsp.StandsIn octets :=
  (decode_eq_ok_lsp_iff_standsIn.1 h).2.1

theorem exists_decode_iff_grammatical :
    (∃ lsp, Pdu.decode now octets = .ok (.lsp lsp)) ↔ Lsp.Grammatical octets := by
  constructor
  · rintro ⟨lsp, hlsp⟩
    exact (decode_eq_ok_lsp_iff_standsIn.1 hlsp).1
  · intro hgrammatical
    obtain ⟨part, fields, rfl, -, list, hlist, hacceptable⟩ := hgrammatical.exists_part
    obtain ⟨tlvs, hreads⟩ := LspTlvs.exists_reads_iff.2 hacceptable
    exact ⟨_, decode_eq_ok_lsp_iff_standsIn.2
      ⟨hgrammatical, FixedPart.lsp_standsIn hlist hreads now, rfl⟩⟩

/-- The decoder accepts as link state PDUs the strings of the grammar and no others, and
returns what stands in them. -/
theorem decode_lsp_iff_grammatical (now : Nat) (octets : Octets) :
    ((∃ lsp, Pdu.decode now octets = .ok (.lsp lsp)) ↔ Lsp.Grammatical octets) ∧
      ∀ lsp, Pdu.decode now octets = .ok (.lsp lsp) ↔
        Lsp.Grammatical octets ∧ lsp.StandsIn octets ∧ lsp.baseTime = some now :=
  ⟨exists_decode_iff_grammatical, fun _ => decode_eq_ok_lsp_iff_standsIn⟩

end Pdu

end LinkState
