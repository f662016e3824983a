import LinkState.Proofs.LspGrammar

/-!
# Patching the remaining lifetime

An LSP is sent with its remaining lifetime of the moment in place of the one that it is
stored with.  The octets before and after that field stay as they are.  The checksum does
not cover the field, so an LSP that is encoded with a checksum has a valid one with any
lifetime, and neither of its check octets is zero.
-/

namespace LinkState

/-! ### Writing over octets -/

namespace Octets

theorem length_overwrite (octets patch : Octets) (offset : Nat) :
    (octets.overwrite offset patch).length = octets.length := by
  simp only [overwrite, List.length_append, List.length_take, List.length_drop]
  omega

/-- The octets behind the patch stay as they are. -/
theorem drop_overwrite {octets patch : Octets} {offset n : Nat} (h : offset + patch.length ≤ n) :
    (octets.overwrite offset patch).drop n = octets.drop n := by
  rcases Nat.lt_or_ge octets.length (offset + patch.length) with hshort | hlong
  · rw [List.drop_eq_nil_of_le, List.drop_eq_nil_of_le]
    · omega
    · rw [length_overwrite]
      omega
  · have hfront : (octets.take offset ++ patch.take (octets.length - offset)).length =
        offset + patch.length := by
      simp only [List.length_append, List.length_take]
      omega
    rw [overwrite, List.drop_append, List.drop_eq_nil_of_le (by omega), hfront, List.nil_append,
      List.drop_drop, Nat.add_sub_cancel' h]

/-- The octets on either side of the patch stay where they are. -/
theorem getElem?_overwrite {octets patch : Octets} {offset i : Nat}
    (h : i < offset ∨ offset + patch.length ≤ i) :
    (octets.overwrite offset patch)[i]? = octets[i]? := by
  rcases h with hbefore | hbehind
  · rcases Nat.lt_or_ge i octets.length with hlong | hshort
    · have hfront : i < (octets.take offset).length := by
        rw [List.length_take]
        omega
      rw [overwrite, List.append_assoc, List.getElem?_append_left hfront,
        List.getElem?_take_of_lt hbefore]
    · rw [List.getElem?_eq_none (Nat.le_trans (Nat.le_of_eq (length_overwrite _ _ _)) hshort),
        List.getElem?_eq_none hshort]
  · have hfirst : ((octets.overwrite offset patch).drop i)[0]? = (octets.drop i)[0]? := by
      rw [drop_overwrite hbehind]
    rwa [List.getElem?_drop, List.getElem?_drop, Nat.add_zero] at hfirst

/-- The patch is found where it was written. -/
theorem extract_overwrite {octets patch : Octets} {offset : Nat}
    (h : offset + patch.length ≤ octets.length) :
    (octets.overwrite offset patch).extract offset (offset + patch.length) = patch := by
  have hpatch : patch.take (octets.length - offset) = patch := List.take_of_length_le (by omega)
  have hfront : (octets.take offset).length = offset := List.length_take_of_le (by omega)
  rw [overwrite, hpatch, List.append_assoc, List.extract_eq_take_drop, Nat.add_sub_cancel_left,
    List.drop_left' hfront, List.take_left' rfl]

end Octets

/-! ### The check octets -/

/-- The numbers from which the first check octet is made stay small. -/
theorem Checksum.scaled_bounds {covered : Octets} (hlow : 13 ≤ covered.length)
    (hhigh : covered.length ≤ 65523) :
    let product := ((covered.length : Int) - 13) * (sums covered).first
    0 ≤ product ∧ product < 2 ^ 31 ∧ -2 ^ 31 ≤ product - (sums covered).second := by
  intro product
  have hfirst : (sums covered).first < 255 := by
    rw [sums_eq]
    exact Nat.mod_lt _ (by decide)
  have hsecond : (sums covered).second < 255 := by
    rw [sums_eq]
    exact Nat.mod_lt _ (by decide)
  have hnonneg : 0 ≤ product := Int.mul_nonneg (by omega) (by omega)
  have hbound : product ≤ 65510 * 254 :=
    Int.mul_le_mul (by omega) (by omega) (by omega) (by omega)
  omega

namespace Lsp

theorem drop_rawWithLifetime (lsp : Lsp) (lifetime : UInt16) {n : Nat} (h : coveredOffset ≤ n) :
    (lsp.rawWithLifetime lifetime).drop n = lsp.raw.drop n := by
  rw [rawWithLifetime]
  split_ifs
  · rfl
  · exact Octets.drop_overwrite h

theorem length_rawWithLifetime (lsp : Lsp) (lifetime : UInt16) :
    (lsp.rawWithLifetime lifetime).length = lsp.raw.length := by
  rw [rawWithLifetime]
  split_ifs
  · rfl
  · exact Octets.length_overwrite _ _ _

/-- No octets but those of the remaining lifetime are written over. -/
theorem getElem?_rawWithLifetime (lsp : Lsp) (lifetime : UInt16) {i : Nat} (h : i ≠ 10)
    (h' : i ≠ 11) : (lsp.rawWithLifetime lifetime)[i]? = lsp.raw[i]? := by
  rw [rawWithLifetime]
  split_ifs
  · rfl
  · refine Octets.getElem?_overwrite ?_
    show i < 10 ∨ 10 + 2 ≤ i
    omega

/-- The remaining lifetime is written where it belongs. -/
theorem extract_rawWithLifetime_self {lsp : Lsp} (h : coveredOffset ≤ lsp.raw.length)
    (lifetime : UInt16) : (lsp.rawWithLifetime lifetime).extract 10 12 = Octets.ofU16 lifetime := by
  rw [rawWithLifetime, if_neg (Nat.not_lt.2 h)]
  exact Octets.extract_overwrite h

theorem checksumValid_of_balanced {lsp : Lsp} (hchecksum : lsp.checksum ≠ 0)
    (hlong : coveredOffset ≤ lsp.raw.length)
    (hbalanced : Checksum.balanced (lsp.raw.drop coveredOffset) = true) :
    lsp.checksumValid = true := by
  rw [checksumValid, if_neg hchecksum, if_neg (Nat.not_lt.2 hlong)]
  exact hbalanced

/-- The LSP that is sent when another lifetime is left. -/
def patched (lsp : Lsp) (lifetime : UInt16) : Lsp :=
  { lsp with lifetime := lifetime, raw := lsp.rawWithLifetime lifetime }

/-- The checksum of a live LSP is valid with any lifetime. -/
theorem checksumValid_patched {lsp : Lsp} (hlive : lsp.isExpired = false)
    (hvalid : lsp.checksumValid = true) (lifetime : UInt16) :
    (lsp.patched lifetime).checksumValid = true := by
  have hlifetime : lsp.lifetime ≠ 0 := of_decide_eq_false hlive
  rw [checksumValid] at hvalid
  split_ifs at hvalid with hzero hshort
  · exact absurd (of_decide_eq_true hvalid) hlifetime
  · have hchecksum : (lsp.patched lifetime).checksum ≠ 0 := hzero
    refine checksumValid_of_balanced hchecksum ?_ ?_
    · show coveredOffset ≤ (lsp.rawWithLifetime lifetime).length
      rw [length_rawWithLifetime]
      exact Nat.not_lt.1 hshort
    · show Checksum.balanced ((lsp.rawWithLifetime lifetime).drop coveredOffset) = true
      rwa [drop_rawWithLifetime _ _ (Nat.le_refl _)]

/-- Whoever reads the octets that are sent of an LSP reads the LSP that is sent. -/
theorem decode_rawWithLifetime {lsp : Lsp} {now : Nat} {octets : Octets}
    (h : Pdu.decode now octets = .ok (.lsp lsp)) (lifetime : UInt16) (time : Nat) :
    Pdu.decode time (lsp.rawWithLifetime lifetime) =
      .ok (.lsp { lsp.patched lifetime with baseTime := some time }) := by
  obtain ⟨part, fields, tlvs, hoctets, hallowed, htlvs, rfl⟩ :=
    Pdu.decode_eq_ok_lsp_iff_parts.1 h
  have hlong : ¬ (part.lsp tlvs octets now).raw.length < coveredOffset := by
    show ¬ octets.length < coveredOffset
    rw [hoctets, List.length_append, FixedPart.length_toOctets, coveredOffset]
    omega
  have hpatched : (part.lsp tlvs octets now).rawWithLifetime lifetime =
      { part with lifetime := lifetime }.toOctets ++ fields := by
    rw [rawWithLifetime, if_neg hlong]
    show octets.overwrite lifetimeOffset (Octets.ofU16 lifetime) = _
    rw [hoctets]
    rfl
  have hlength := (part.lsp tlvs octets now).length_rawWithLifetime lifetime
  refine Pdu.decode_eq_ok_lsp_iff_parts.2 ⟨{ part with lifetime := lifetime }, fields, tlvs,
    hpatched, ⟨hallowed.idLength, hallowed.code, ?_⟩, htlvs, rfl⟩
  rw [hlength]
  exact hallowed.length

/-- Every LSP of a length that can be written is encoded with a sound checksum.  That of a
live LSP has two octets, neither of them zero, is valid, and stays valid with any lifetime
written over the first one, also for whoever reads the octets; the numbers that it is made
from fit into 32 bits with a sign.  A purge has the checksum zero, which is valid for it. -/
theorem encode_checksum_sound (lsp : Lsp) (now : Nat)
    (hlength : (lsp.encode now).raw.length ≤ 65535) :
    (lsp.lifetime ≠ 0 →
      (∃ x y : UInt8, x ≠ 0 ∧ y ≠ 0 ∧ (lsp.encode now).checksum = Octets.word16 x y ∧
        (lsp.encode now).raw.extract 24 26 = [x, y]) ∧
      (lsp.encode now).checksum ≠ 0 ∧
      (lsp.encode now).checksumValid = true ∧
      (∀ lifetime, ((lsp.encode now).patched lifetime).checksumValid = true ∧
        ∀ time read, Pdu.decode time ((lsp.encode now).rawWithLifetime lifetime) =
          .ok (.lsp read) → read.checksumValid = true) ∧
      (let sums := Checksum.sums (lsp.covered 0)
       let product := (((lsp.covered 0).length : Int) - 13) * sums.first
       0 ≤ product ∧ product < 2 ^ 31 ∧ -2 ^ 31 ≤ product - sums.second)) ∧
    (lsp.lifetime = 0 →
      (lsp.encode now).checksum = 0 ∧ (lsp.encode now).checksumValid = true) := by
  refine ⟨fun hlive => ?_, fun hpurge => ⟨if_pos hpurge, checksumValid_encode lsp now⟩⟩
  obtain ⟨x, y, hx, hy, hchecksum, hbalanced⟩ := exists_octets_encode now hlive
  have hnonzero : (lsp.encode now).checksum ≠ 0 := hchecksum ▸ Octets.word16_ne_zero hx
  have hraw := length_raw_encode lsp now
  have hcovered := length_covered lsp 0
  have hlong : ∀ lifetime,
      coveredOffset ≤ ((lsp.encode now).rawWithLifetime lifetime).length := by
    intro lifetime
    rw [length_rawWithLifetime, hraw]
    exact Nat.le_trans (by decide) (Nat.le_add_right headerSize _)
  have hpatched : ∀ lifetime,
      Checksum.balanced (((lsp.encode now).rawWithLifetime lifetime).drop coveredOffset) = true := by
    intro lifetime
    rw [drop_rawWithLifetime _ _ (Nat.le_refl _)]
    exact hbalanced
  have hoctets : (lsp.encode now).raw.extract 24 26 = [x, y] := by
    rw [← Octets.ofU16_word16, ← hchecksum]
    rfl
  refine ⟨⟨x, y, hx, hy, hchecksum, hoctets⟩, hnonzero, checksumValid_encode lsp now, ?_, ?_⟩
  · intro lifetime
    refine ⟨checksumValid_of_balanced hnonzero (hlong lifetime) (hpatched lifetime), ?_⟩
    intro time read hread
    have hstands := Pdu.standsIn_of_decode hread
    have hsame : read.checksum = (lsp.encode now).checksum := by
      apply Octets.ofU16_injective
      rw [← hstands.checksum, hchecksum, Octets.ofU16_word16, ← hoctets, List.extract_eq_take_drop,
        List.extract_eq_take_drop, drop_rawWithLifetime _ _ (by decide)]
    apply checksumValid_of_balanced (hsame ▸ hnonzero)
    · rw [hstands.raw]
      exact hlong lifetime
    · rw [hstands.raw]
      exact hpatched lifetime
  · rw [hraw, headerSize] at hlength
    exact Checksum.scaled_bounds (by omega) (by omega)

theorem encode_checksum_sound_sample :
    let lsp : Lsp := ⟨.ofKind .lsp2, 1200, ⟨⟨0, 0, 0, 0, 0, 1⟩, 0, 0⟩, 7, 0, .overload, sampleTlvs,
      [], none⟩
    (lsp.encode 0).raw.length ≤ 65535 ∧ lsp.lifetime ≠ 0 ∧ (lsp.encode 0).checksum ≠ 0 ∧
      ((lsp.encode 0).patched 300).checksumValid = true := by
  intro lsp
  have hlength : (lsp.encode 0).raw.length ≤ 65535 := by decide
  have hlive : lsp.lifetime ≠ 0 := by decide
  have hsound := (encode_checksum_sound lsp 0 hlength).1 hlive
  exact ⟨hlength, hlive, hsound.2.1, (hsound.2.2.2.1 300).1⟩

end Lsp

end LinkState
