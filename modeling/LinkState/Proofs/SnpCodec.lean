import LinkState.Pdu.Basic
import Mathlib.Data.List.Basic

/-!
# Reading back sequence numbers PDUs

A number written in network order reads back as itself, and so do a summary, a
field of summaries and a sequence of fields.  A sequence numbers PDU whose length
can be written, and whose type says whether it has a range, reads back with its
header, its source, its range and its fields.  Summaries that are given in one list
are divided among fields in their order, none of which is empty or too long.
-/

namespace LinkState

namespace Octets

theorem word16_ofU16 (n : UInt16) :
    word16 (UInt8.ofNat (n.toNat / 256)) (UInt8.ofNat n.toNat) = n := by
  have := n.toNat_lt
  rw [← UInt16.toNat_inj, word16, UInt16.toNat_ofNat', UInt8.toNat_ofNat', UInt8.toNat_ofNat']
  omega

theorem word32_ofU32 (n : UInt32) :
    word32 (UInt8.ofNat (n.toNat / 16777216)) (UInt8.ofNat (n.toNat / 65536))
      (UInt8.ofNat (n.toNat / 256)) (UInt8.ofNat n.toNat) = n := by
  have := n.toNat_lt
  rw [← UInt32.toNat_inj, word32, UInt32.toNat_ofNat']
  simp only [UInt8.toNat_ofNat']
  omega

theorem readU16_ofU16 (n : UInt16) (rest : Octets) : readU16 (ofU16 n ++ rest) = .ok (n, rest) := by
  show Except.ok (word16 _ _, rest) = _
  rw [word16_ofU16]

end Octets

theorem LspId.read_toOctets (id : LspId) (rest : Octets) :
    LspId.read (id.toOctets ++ rest) = .ok (id, rest) :=
  rfl

theorem NodeId.read_toOctets (id : NodeId) (rest : Octets) :
    NodeId.read (id.toOctets ++ rest) = .ok (id, rest) :=
  rfl

namespace Tlv

theorem toNat_length {value : Octets} (h : value.length ≤ maxLength) :
    (UInt8.ofNat value.length).toNat = value.length := by
  rw [UInt8.toNat_ofNat']
  exact Nat.mod_eq_of_lt (Nat.lt_succ_of_le h)

theorem split_field_append (code : UInt8) {value : Octets} (rest : Octets)
    (h : value.length ≤ maxLength) :
    split (field code value ++ rest) =
      (⟨code, UInt8.ofNat value.length, value⟩ :: (split rest).1, (split rest).2) := by
  rw [field, List.cons_append, List.cons_append, split, toNat_length h]
  simp

theorem length_summaryOctets (summary : LspSummary) :
    (summaryOctets summary).length = summarySize :=
  rfl

theorem length_flatMap_summaryOctets (summaries : List LspSummary) :
    (summaries.flatMap summaryOctets).length = summaries.length * summarySize := by
  induction summaries with
  | nil => rfl
  | cons summary rest ih =>
      rw [List.flatMap_cons, List.length_append, ih, length_summaryOctets, List.length_cons,
        Nat.add_one_mul, Nat.add_comm]

theorem takeSummaries_summaryOctets (summary : LspSummary) (rest : Octets) :
    takeSummaries (summaryOctets summary ++ rest) = summary :: takeSummaries rest := by
  show (⟨Octets.word16 _ _, summary.id, Octets.word32 _ _ _ _, Octets.word16 _ _⟩ : LspSummary) ::
    takeSummaries rest = _
  rw [Octets.word16_ofU16, Octets.word32_ofU32, Octets.word16_ofU16]

theorem takeSummaries_flatMap (summaries : List LspSummary) :
    takeSummaries (summaries.flatMap summaryOctets) = summaries := by
  induction summaries with
  | nil => rfl
  | cons summary rest ih => rw [List.flatMap_cons, takeSummaries_summaryOctets, ih]

theorem readSummaries_flatMap (length : UInt8) (summaries : List LspSummary) :
    readSummaries length (summaries.flatMap summaryOctets) = .ok summaries := by
  rw [readSummaries, length_flatMap_summaryOctets, Nat.mul_mod_left, takeSummaries_flatMap]
  rfl

end Tlv

namespace SnpTlvs

theorem flatten_groups {α : Type} (size : Nat) (items : List α) :
    (groups size items).flatten = items := by
  fun_induction groups size items with
  | case1 => rfl
  | case2 item rest ih =>
      rw [List.flatten_cons, ih, List.cons_append, List.take_append_drop]

theorem length_le_of_mem_groups {α : Type} {size : Nat} (hsize : 0 < size) {items group : List α}
    (h : group ∈ groups size items) : group.length ≤ size := by
  fun_induction groups size items with
  | case1 => simp at h
  | case2 item rest ih =>
      rcases List.mem_cons.1 h with rfl | hrest
      · rw [List.length_cons, List.length_take]
        omega
      · exact ih hrest

theorem ne_nil_of_mem_groups {α : Type} {size : Nat} {items group : List α}
    (h : group ∈ groups size items) : group ≠ [] := by
  fun_induction groups size items with
  | case1 => simp at h
  | case2 item rest ih =>
      rcases List.mem_cons.1 h with rfl | hrest
      · exact List.cons_ne_nil _ _
      · exact ih hrest

/-- All groups but the last one are full. -/
theorem length_groups_mul_le {α : Type} {size : Nat} (hsize : 0 < size) (items : List α) :
    (groups size items).length * size < items.length + size := by
  fun_induction groups size items with
  | case1 => simpa using hsize
  | case2 item rest ih =>
      rw [List.length_drop] at ih
      rw [List.length_cons, Nat.add_one_mul]
      rcases Nat.lt_or_ge rest.length (size - 1) with hless | hge
      · have hnil : groups size (rest.drop (size - 1)) = [] := by
          rw [List.drop_eq_nil_of_le (by omega), groups]
        rw [hnil]
        simp
      · rw [List.length_cons]
        omega

/-- There are enough groups for all items. -/
theorem length_le_groups_mul {α : Type} {size : Nat} (hsize : 0 < size) (items : List α) :
    items.length ≤ (groups size items).length * size := by
  fun_induction groups size items with
  | case1 => simp
  | case2 item rest ih =>
      rw [List.length_drop] at ih
      rw [List.length_cons, List.length_cons, Nat.add_one_mul]
      omega

theorem summaries_ofSummaries (summaries : List LspSummary) :
    (ofSummaries summaries).summaries = summaries :=
  flatten_groups _ summaries

/-- A sequence of fields of summaries is split into these fields. -/
theorem split_toOctets {fields : List (List LspSummary)}
    (hsize : ∀ field ∈ fields, field.length ≤ maxPerField) :
    Tlv.split (toOctets ⟨fields, []⟩) =
      (fields.map fun summaries =>
        ⟨Tlv.lspEntries, UInt8.ofNat (summaries.flatMap Tlv.summaryOctets).length,
          summaries.flatMap Tlv.summaryOctets⟩, none) := by
  induction fields with
  | nil => simp [toOctets, Tlv.split]
  | cons field rest ih =>
      have hfield : (field.flatMap Tlv.summaryOctets).length ≤ Tlv.maxLength := by
        rw [Tlv.length_flatMap_summaryOctets]
        have hshort : field.length ≤ 15 := hsize field List.mem_cons_self
        show field.length * 16 ≤ 255
        omega
      have hrest := ih fun other hother => hsize other (List.mem_cons_of_mem _ hother)
      rw [toOctets] at hrest ⊢
      rw [List.flatMap_cons, Tlv.split_field_append _ _ hfield, hrest]
      rfl

/-- Fields of summaries are read one after the other, each into a group of its own. -/
theorem foldlM_read (fields done : List (List LspSummary)) (unknown : List UnknownTlv) :
    (fields.map fun summaries =>
      (⟨Tlv.lspEntries, UInt8.ofNat (summaries.flatMap Tlv.summaryOctets).length,
        summaries.flatMap Tlv.summaryOctets⟩ : Tlv.Raw)).foldlM read ⟨done, unknown⟩ =
      .ok ⟨done ++ fields, unknown⟩ := by
  induction fields generalizing done with
  | nil => rw [List.append_nil]; rfl
  | cons field rest ih =>
      have hread : read ⟨done, unknown⟩
          ⟨Tlv.lspEntries, UInt8.ofNat (field.flatMap Tlv.summaryOctets).length,
            field.flatMap Tlv.summaryOctets⟩ = .ok ⟨done ++ [field], unknown⟩ := by
        simp only [read, if_true, Tlv.readSummaries_flatMap]
        rfl
      rw [List.map_cons, List.foldlM_cons, hread]
      show List.foldlM read ⟨done ++ [field], unknown⟩ _ = _
      rw [ih, List.append_assoc]
      rfl

theorem readAll_toOctets {fields : List (List LspSummary)}
    (hsize : ∀ field ∈ fields, field.length ≤ maxPerField) :
    Tlv.readAll read empty (toOctets ⟨fields, []⟩) = .ok ⟨fields, []⟩ := by
  have hfold := foldlM_read fields [] []
  rw [Tlv.readAll, split_toOctets hsize]
  dsimp only
  rw [empty, hfold]
  rfl

/-- Each group takes a header, and each summary its own length. -/
theorem length_toOctets_ofSummaries (summaries : List LspSummary) :
    (ofSummaries summaries).toOctets.length =
      (groups maxPerField summaries).length * Tlv.headerSize +
        summaries.length * Tlv.summarySize := by
  have hfields : ∀ fields : List (List LspSummary), (toOctets ⟨fields, []⟩).length =
      fields.length * Tlv.headerSize + fields.flatten.length * Tlv.summarySize := by
    intro fields
    induction fields with
    | nil => rfl
    | cons field rest ih =>
        rw [toOctets] at ih ⊢
        rw [List.flatMap_cons, List.length_append, ih, Tlv.field, List.length_cons,
          List.length_cons, Tlv.length_flatMap_summaryOctets, List.flatten_cons,
          List.length_append, List.length_cons, Nat.add_mul, Nat.add_mul]
        show _ + 1 + 1 + _ = _ + 1 * 2 + _
        omega
  rw [ofSummaries, hfields, flatten_groups]

/-- The fields of some summaries fit into a size just if there are no more summaries than
the capacity. -/
theorem length_toOctets_le_iff {size : Nat} {summaries : List LspSummary} :
    (ofSummaries summaries).toOctets.length ≤ size ↔ summaries.length ≤ capacity size := by
  -- There are as many fields as are needed for so many summaries, and no more.
  have hfew := length_groups_mul_le (show 0 < maxPerField by decide) summaries
  have hmany := length_le_groups_mul (show 0 < maxPerField by decide) summaries
  rw [length_toOctets_ofSummaries]
  generalize (groups maxPerField summaries).length = fields at hfew hmany
  have hcapacity : capacity size =
      size / 242 * 15 + if 18 ≤ size % 242 then (size % 242 - 2) / 16 else 0 := rfl
  rw [hcapacity]
  change fields * 15 < summaries.length + 15 at hfew
  change summaries.length ≤ fields * 15 at hmany
  show fields * 2 + summaries.length * 16 ≤ size ↔ _
  split_ifs <;> omega

/-- As many summaries as fit by their number do fit, with the types and lengths
of their fields. -/
theorem length_le_of_capacity {size : Nat} {summaries : List LspSummary}
    (h : summaries.length ≤ max (capacity size) 1) :
    (ofSummaries summaries).toOctets.length ≤ max size (Tlv.headerSize + Tlv.summarySize) := by
  by_cases hsize : summaries.length ≤ capacity size
  · exact Nat.le_trans (length_toOctets_le_iff.2 hsize) (Nat.le_max_left _ _)
  · -- A single summary takes as much as the type and length of a field and itself.
    have hone : summaries.length ≤ capacity (Tlv.headerSize + Tlv.summarySize) := by
      show summaries.length ≤ 1
      omega
    exact Nat.le_trans (length_toOctets_le_iff.2 hone) (Nat.le_max_right _ _)

end SnpTlvs

theorem Header.read_toOctets (header : Header) {rest : Octets}
    (h : header.kind.headerLength.toNat ≤ Header.size + rest.length) :
    Header.read (header.toOctets ++ rest) = .ok (header, rest) := by
  have hcode : ∀ kind : PduType,
      PduType.ofCode? (UInt8.ofNat (kind.code.toNat % 32)) = some kind := by
    intro kind
    cases kind <;> rfl
  have hlength : ¬ rest.length + 8 < header.kind.headerLength.toNat := by
    rw [Nat.not_lt, Nat.add_comm]
    exact h
  simp [Header.read, Header.toOctets, hcode, hlength]

namespace Snp

/-- What is asked of a sequence numbers PDU that is to be read back: its type says whether
it has a range, its fields are short enough to be written, and all of them are sent. -/
structure Regular (snp : Snp) : Prop where
  kind : ∃ level, snp.header.kind = if snp.range.isSome then .csnp level else .psnp level
  fields : ∀ field ∈ snp.tlvs.entries, field.length ≤ SnpTlvs.maxPerField
  unknown : snp.tlvs.unknown = []

theorem make_regular (level : Level) (source : NodeId) (range : Option (LspId × LspId))
    (summaries : List LspSummary) :
    (make level source range (.ofSummaries summaries)).Regular where
  kind := ⟨level, rfl⟩
  fields := fun _ hfield => SnpTlvs.length_le_of_mem_groups (by decide) hfield
  unknown := rfl

def bodyOctets (snp : Snp) : Octets :=
  snp.source.toOctets ++ (rangeOctets snp.range ++ snp.tlvs.toOctets)

theorem toOctets_eq (snp : Snp) :
    snp.toOctets = snp.header.toOctets ++
      (Octets.ofU16 (UInt16.ofNat snp.toOctets.length) ++ snp.bodyOctets) := by
  have hlength : snp.toOctets.length = Header.size + 2 + snp.bodyOctets.length := by
    simp [toOctets, bodyOctets, Header.toOctets, Octets.ofU16, Header.size]
    omega
  rw [hlength]
  simp only [toOctets, bodyOctets, List.append_assoc]

/-- The octets are those of the fixed header, which its type tells the length of, and of the
fields. -/
theorem Regular.length_toOctets {snp : Snp} (h : snp.Regular) :
    snp.toOctets.length = snp.header.kind.headerLength.toNat + snp.tlvs.toOctets.length := by
  obtain ⟨level, hkind⟩ := h.kind
  have hheader : snp.header.kind.headerLength.toNat =
      17 + (rangeOctets snp.range).length := by
    rw [hkind]
    cases snp.range <;> cases level <;> rfl
  rw [hheader]
  simp [toOctets, Header.toOctets, Octets.ofU16, NodeId.toOctets, SystemId.toOctets]
  omega

theorem Regular.hasRange {snp : Snp} (h : snp.Regular) :
    hasRange snp.header.kind = snp.range.isSome := by
  obtain ⟨level, hkind⟩ := h.kind
  rw [hkind]
  cases snp.range <;> cases level <;> rfl

/-- The part after the header reads back when the length is the right one. -/
theorem Regular.read_body {snp : Snp} (h : snp.Regular) {length : UInt16} {pdu : Octets}
    (hlength : length.toNat = pdu.length) :
    Snp.read snp.header (Octets.ofU16 length ++ snp.bodyOctets) pdu = .ok snp := by
  have htlvs : Tlv.readAll SnpTlvs.read SnpTlvs.empty snp.tlvs.toOctets = .ok snp.tlvs := by
    have hentries : snp.tlvs = ⟨snp.tlvs.entries, []⟩ := by rw [← h.unknown]
    rw [hentries]
    exact SnpTlvs.readAll_toOctets h.fields
  have hkind := h.hasRange
  rw [Snp.read, Octets.readU16_ofU16, bodyOctets]
  cases hrange : snp.range with
  | none =>
      rw [hrange] at hkind
      simp only [DecodeError.ofReading, hlength, NodeId.read_toOctets, rangeOctets, hkind,
        List.nil_append, htlvs, ne_eq, not_true_eq_false, if_false, bind, Except.bind, pure,
        Except.pure, Option.isSome_none, Bool.false_eq_true]
      rw [← hrange]
  | some range =>
      obtain ⟨start, stop⟩ := range
      rw [hrange] at hkind
      simp only [DecodeError.ofReading, hlength, NodeId.read_toOctets, LspId.read_toOctets,
        rangeOctets, hkind, List.append_assoc, htlvs, ne_eq, not_true_eq_false, if_false, if_true,
        bind, Except.bind, pure, Except.pure, Option.isSome_some]
      rw [← hrange]

/-- A sequence numbers PDU whose length can be written reads back. -/
theorem Regular.decode_toOctets {snp : Snp} (h : snp.Regular)
    (hlength : snp.toOctets.length ≤ 65535) (now : Nat) :
    Pdu.decode now snp.toOctets = .ok (.snp snp) := by
  have hsize : (UInt16.ofNat snp.toOctets.length).toNat = snp.toOctets.length := by
    rw [UInt16.toNat_ofNat']
    exact Nat.mod_eq_of_lt (Nat.lt_succ_of_le hlength)
  have hread := h.read_body hsize
  have hheader : snp.header.kind.headerLength.toNat ≤ snp.toOctets.length := by
    rw [h.length_toOctets]
    exact Nat.le_add_right _ _
  have hparts := snp.toOctets_eq
  generalize snp.toOctets = octets at hread hheader hparts ⊢
  rw [hparts, List.length_append] at hheader
  rw [Pdu.decode, hparts, Header.read_toOctets _ hheader, ← hparts]
  simp only [bind, Except.bind]
  rw [hread]
  obtain ⟨level, hkind⟩ := h.kind
  rw [hkind]
  cases snp.range <;> cases level <;> rfl

/-- A complete sequence numbers PDU whose length can be written reads back. -/
theorem decode_make (now : Nat) (level : Level) (source : NodeId) (start stop : LspId)
    {summaries : List LspSummary}
    (hlength : completeHeaderSize + (SnpTlvs.ofSummaries summaries).toOctets.length < 65536) :
    let snp := make level source (some (start, stop)) (SnpTlvs.ofSummaries summaries)
    Pdu.decode now snp.toOctets = .ok (.snp snp) := by
  intro snp
  have hregular : snp.Regular := make_regular level source _ summaries
  have hheader : snp.header.kind.headerLength.toNat = completeHeaderSize := by
    cases level <;> rfl
  refine hregular.decode_toOctets ?_ now
  rw [hregular.length_toOctets, hheader]
  exact Nat.le_of_lt_succ hlength

/-- Summaries that are given in one list are divided among fields of one to fifteen of
them, in their order.  The PDU of these fields is a complete one if a range is given, and a
partial one otherwise, of the given level.  It reads back as it is if its length can be
written, and so does every PDU of which no field is left out, whose type says whether it has
a range, and whose fields have no more than fifteen summaries. -/
theorem snp_reads_back (level : Level) (source : NodeId) (range : Option (LspId × LspId))
    (summaries : List LspSummary) (now : Nat) :
    (let fields := (SnpTlvs.ofSummaries summaries).entries
     fields.flatten = summaries ∧ ∀ field ∈ fields, field ≠ [] ∧ field.length ≤ 15) ∧
    (let snp := make level source range (.ofSummaries summaries)
     hasRange snp.header.kind = range.isSome ∧ snp.level = level ∧
      (snp.toOctets.length ≤ 65535 → Pdu.decode now snp.toOctets = .ok (.snp snp))) ∧
    ∀ snp : Snp, snp.Regular → snp.toOctets.length ≤ 65535 →
      Pdu.decode now snp.toOctets = .ok (.snp snp) := by
  have hregular := make_regular level source range summaries
  refine ⟨⟨SnpTlvs.flatten_groups _ summaries, fun field hfield => ⟨?_, ?_⟩⟩,
    ⟨hregular.hasRange, ?_, fun hlength => hregular.decode_toOctets hlength now⟩,
    fun snp hsnp hlength => hsnp.decode_toOctets hlength now⟩
  · exact SnpTlvs.ne_nil_of_mem_groups hfield
  · exact SnpTlvs.length_le_of_mem_groups (by decide) hfield
  · cases range <;> cases level <;> rfl

/-- Sixteen summaries, one more than a field can hold. -/
def sixteenSummaries : List LspSummary :=
  (List.range 16).map fun n => ⟨1200, ⟨⟨0, 0, 0, 0, 0, 2⟩, 0, UInt8.ofNat n⟩, 7, 0xFA19⟩

/-- They are divided among two fields, and a partial PDU of them reads back, as does one with
a field that is empty. -/
theorem snp_reads_back_sixteen :
    let snp := make .two ⟨⟨0, 0, 0, 0, 0, 1⟩, 0⟩ none (.ofSummaries sixteenSummaries)
    let sparse : Snp := ⟨⟨.csnp1, 3⟩, ⟨⟨0, 0, 0, 0, 0, 1⟩, 0⟩, some (LspId.first, LspId.first),
      ⟨[sixteenSummaries.take 15, []], []⟩⟩
    snp.toOctets.length ≤ 65535 ∧ Pdu.decode 0 snp.toOctets = .ok (.snp snp) ∧
      sparse.Regular ∧ sparse.toOctets.length ≤ 65535 ∧
      Pdu.decode 0 sparse.toOctets = .ok (.snp sparse) := by
  intro snp sparse
  obtain ⟨-, ⟨-, -, hmade⟩, hall⟩ :=
    snp_reads_back .two ⟨⟨0, 0, 0, 0, 0, 1⟩, 0⟩ none sixteenSummaries 0
  have hlength : snp.toOctets.length ≤ 65535 := by
    have hfew : sixteenSummaries.length ≤ max (SnpTlvs.capacity 1000) 1 := by decide
    have hshort := SnpTlvs.length_le_of_capacity hfew
    rw [(make_regular _ _ _ _).length_toOctets]
    exact Nat.add_le_add (show 17 ≤ 64535 by decide)
      (Nat.le_trans hshort (show max 1000 18 ≤ 1000 by decide))
  have hsparse : sparse.Regular := ⟨⟨.one, rfl⟩, by decide, rfl⟩
  have hlength' : sparse.toOctets.length ≤ 65535 := by decide +kernel
  exact ⟨hlength, hmade hlength, hsparse, hlength', hall sparse hsparse hlength'⟩

end Snp

end LinkState
