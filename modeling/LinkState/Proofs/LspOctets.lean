import LinkState.Proofs.SnpCodec

/-!
# The octets of an LSP carry its sequence number

The sequence number stands at a fixed place in the octets of an LSP.  It is there
when the LSP was read from its octets, and when the octets were made from the
fields.  Two LSPs with the same octets therefore have one sequence number.
-/

namespace LinkState

theorem DecodeError.bind_eq_ok {α β : Type} {x : Except DecodeError α}
    {f : α → Except DecodeError β} {b : β} :
    (x >>= f) = .ok b ↔ ∃ a, x = .ok a ∧ f a = .ok b := by
  cases x <;> simp [Bind.bind, Except.bind]

theorem DecodeError.ofReading_eq_ok {α : Type} {reading : Octets.Reading α} {result : α × Octets} :
    DecodeError.ofReading reading = .ok result ↔ reading = .ok result := by
  cases reading <;> simp [DecodeError.ofReading]

/-! ### How much a reader takes -/

theorem Octets.drop_of_readU16 {octets rest : Octets} {n : UInt16}
    (h : Octets.readU16 octets = .ok (n, rest)) : rest = octets.drop 2 := by
  simp only [Octets.readU16] at h
  split at h
  · cases h
    rfl
  · cases h

theorem LspId.drop_of_read {octets rest : Octets} {id : LspId}
    (h : LspId.read octets = .ok (id, rest)) : rest = octets.drop 8 := by
  simp only [LspId.read] at h
  split at h
  · cases h
    rfl
  · cases h

theorem Header.drop_of_read {octets rest : Octets} {header : Header}
    (h : Header.read octets = .ok (header, rest)) : rest = octets.drop 8 := by
  simp only [Header.read] at h
  split at h
  · repeat' split at h
    all_goals cases h
    rfl
  · cases h

namespace Lsp

def seqnoOffset : Nat := 20

/-- The octets of an LSP carry its sequence number. -/
def Carries (lsp : Lsp) : Prop :=
  ∃ rest, Octets.readU32 (lsp.raw.drop seqnoOffset) = .ok (lsp.seqno, rest)

/-- The fields of an LSP are what is read from its octets at some time. -/
def Decoded (lsp : Lsp) : Prop :=
  ∃ time, Pdu.decode time lsp.raw = .ok (.lsp { lsp with baseTime := some time })

/-- Two LSPs with the same octets have one sequence number. -/
theorem Carries.seqno_eq {a b : Lsp} (ha : a.Carries) (hb : b.Carries) (h : a.raw = b.raw) :
    a.seqno = b.seqno := by
  obtain ⟨rest, hread⟩ := ha
  obtain ⟨rest', hread'⟩ := hb
  rw [h, hread', Except.ok.injEq, Prod.mk.injEq] at hread
  exact hread.1.symm

theorem encode_carries (lsp : Lsp) (now : Nat) : (lsp.encode now).Carries := by
  refine ⟨(Octets.ofU16 lsp.computeChecksum ++ [lsp.flags.bits] ++ lsp.tlvs.toOctets), ?_⟩
  show Except.ok (Octets.word32 _ _ _ _, _) = _
  rw [Octets.word32_ofU32]
  simp [Octets.ofU16, encode]

theorem make_carries (now : Nat) (level : Level) (lifetime : UInt16) (id : LspId) (seqno : UInt32)
    (flags : LspFlags) (tlvs : LspTlvs) : (make now level lifetime id seqno flags tlvs).Carries :=
  encode_carries _ now

/-- What an LSP keeps of the octets that it is read from. -/
theorem read_spec {now : Nat} {header : Header} {rest pdu : Octets} {lsp : Lsp}
    (h : Lsp.read now header rest pdu = .ok lsp) :
    lsp.raw = pdu ∧ lsp.baseTime = some now ∧
      ∃ after, Octets.readU32 (rest.drop 12) = .ok (lsp.seqno, after) := by
  rw [Lsp.read] at h
  simp only [DecodeError.bind_eq_ok, DecodeError.ofReading_eq_ok, Prod.exists] at h
  obtain ⟨length, afterLength, hlength, h⟩ := h
  split at h
  · cases h
  simp only [DecodeError.bind_eq_ok, DecodeError.ofReading_eq_ok, Prod.exists] at h
  obtain ⟨lifetime, afterLifetime, hlifetime, id, afterId, hid, seqno, afterSeqno, hseqno, h⟩ := h
  obtain ⟨checksum, afterChecksum, -, flags, afterFlags, -, tlvs, -, h⟩ := h
  cases h
  refine ⟨rfl, rfl, afterSeqno, ?_⟩
  rw [← hseqno, LspId.drop_of_read hid, Octets.drop_of_readU16 hlifetime,
    Octets.drop_of_readU16 hlength, List.drop_drop, List.drop_drop]

end Lsp

namespace Pdu

/-- A decoded LSP keeps the octets that it was read from, and ages from its reception on. -/
theorem decode_lsp {now : Nat} {octets : Octets} {lsp : Lsp}
    (h : decode now octets = .ok (.lsp lsp)) :
    lsp.raw = octets ∧ lsp.baseTime = some now ∧ lsp.Carries := by
  rw [decode] at h
  rw [DecodeError.bind_eq_ok] at h
  obtain ⟨⟨header, rest⟩, hheader, h⟩ := h
  have hread : Lsp.read now header rest octets = .ok lsp := by
    dsimp only at h
    split at h <;> simp_all [DecodeError.bind_eq_ok, pure, Except.pure, throw, throwThe,
      MonadExceptOf.throw]
  obtain ⟨hraw, hbase, after, hseqno⟩ := Lsp.read_spec hread
  refine ⟨hraw, hbase, after, ?_⟩
  rw [hraw, ← hseqno, Header.drop_of_read hheader, List.drop_drop]
  rfl

/-- An LSP that is read from octets is what is read from its octets. -/
theorem decoded_of_decode {now : Nat} {octets : Octets} {lsp : Lsp}
    (h : decode now octets = .ok (.lsp lsp)) : lsp.Decoded := by
  obtain ⟨rfl, hbase, -⟩ := decode_lsp h
  refine ⟨now, ?_⟩
  rw [h, ← hbase]

end Pdu

theorem Lsp.Decoded.carries {lsp : Lsp} (h : lsp.Decoded) : lsp.Carries := by
  obtain ⟨time, hdecode⟩ := h
  exact (Pdu.decode_lsp hdecode).2.2

end LinkState
