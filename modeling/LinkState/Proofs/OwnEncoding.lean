import LinkState.Config.Json
import LinkState.LevelState.Requests
import LinkState.Proofs.Checksum
import LinkState.Proofs.Effects
import LinkState.Proofs.Fragments

/-!
# Own LSPs can be read

What a system advertises is taken from its configuration as it is.  As long as the
hostname and the area addresses are such that their fields can be read at all, every
fragment that is built, and every instance of it that is sent, reads back with all its
fields and with a checksum that fits.
-/

namespace LinkState

/-- Neighbours can read what a system advertises at a level: the hostname is neither empty
nor longer than a field, and no area address is longer than allowed. -/
structure Advertisement.Readable (advertised : Advertisement) (level : Level) : Prop where
  hostname : ∀ name ∈ advertised.hostname,
    Tlv.hostnameOctets name ≠ [] ∧ (Tlv.hostnameOctets name).length ≤ Tlv.maxLength
  areas : level = .two → ∀ address ∈ advertised.areas, address.length ≤ Tlv.maxAreaLength

namespace LspFlags

theorem ofBits_given (condition : Bool) {flags : LspFlags} (h : ofBits flags.bits = flags) :
    ofBits (given condition flags).bits = given condition flags := by
  cases condition
  · show ofBits 0 = none
    decide
  · exact h

theorem ofBits_union {a b : LspFlags} (ha : ofBits a.bits = a) (hb : ofBits b.bits = b) :
    ofBits (a.union b).bits = a.union b := by
  have hbits : (a.bits ||| b.bits) &&& 0x8F = a.bits &&& 0x8F ||| b.bits &&& 0x8F := by
    rw [← UInt8.toBitVec_inj]
    exact BitVec.and_or_distrib_right
  calc ofBits (a.union b).bits
      = (ofBits a.bits).union (ofBits b.bits) := congrArg LspFlags.mk hbits
    _ = a.union b := by rw [ha, hb]

end LspFlags

namespace LevelState

variable {s : LevelState} {pseudonode : UInt8} {lsp : Lsp} {tlvs : LspTlvs}

theorem length_protocolsOf (advertised : Advertisement) :
    (protocolsOf advertised).length ≤ Tlv.maxLength := by
  rw [protocolsOf]
  split <;> split <;> decide

theorem wellFormed_ownTlvs (h : s.advertised.Readable s.level)
    (htlvs : s.ownTlvs? pseudonode = some tlvs) : tlvs.WellFormed := by
  rw [ownTlvs?] at htlvs
  split at htlvs
  · cases htlvs
    refine LspTlvs.wellFormed_ofValues (length_protocolsOf _) (fun address haddress => ?_)
      h.hostname fun _ hnone => nomatch hnone
    split at haddress
    · rename_i hlevel
      exact h.areas hlevel address haddress
    · cases haddress
  · obtain ⟨election, -, rfl⟩ := Option.map_eq_some_iff.1 htlvs
    refine LspTlvs.wellFormed_ofValues (Nat.zero_le _) (fun _ hnone => nomatch hnone)
      (fun _ hnone => nomatch hnone) fun neighbor hneighbor => ?_
    obtain ⟨system, -, rfl⟩ := List.mem_map.1 hneighbor
    exact UInt32.zero_le

/-- The flags of an own LSP all have names. -/
theorem ofBits_ownFlags (s : LevelState) (id : LspId) :
    LspFlags.ofBits (s.ownFlags id).bits = s.ownFlags id := by
  have hone : LspFlags.ofBits LspFlags.isType1.bits = .isType1 := by decide
  have htwo : LspFlags.ofBits LspFlags.isType2.bits = .isType2 := by decide
  have hoverload : LspFlags.ofBits LspFlags.overload.bits = .overload := by decide
  have hattached : LspFlags.ofBits LspFlags.attached.bits = .attached := by decide
  exact LspFlags.ofBits_union
    (LspFlags.ofBits_union (LspFlags.ofBits_given _ hone) (LspFlags.ofBits_given _ htwo))
    (LspFlags.ofBits_union (LspFlags.ofBits_given _ hoverload) (LspFlags.ofBits_given _ hattached))

/-- A fragment that is built can be written and read, whatever sequence number it is sent
with. -/
theorem built_writable (h : s.advertised.Readable s.level) (hbuilt : lsp ∈ s.build pseudonode) :
    s.freshInstance lsp lsp.seqno = lsp ∧ lsp.tlvs.WellFormed ∧
      Lsp.headerSize + lsp.tlvs.toOctets.length ≤ 65535 ∧
      LspFlags.ofBits lsp.flags.bits = lsp.flags := by
  rw [build] at hbuilt
  split at hbuilt
  · cases hbuilt
  · rename_i tlvs htlvs
    obtain ⟨index, hindex, rfl⟩ := List.mem_mapIdx.1 hbuilt
    have hwhole := wellFormed_ownTlvs h htlvs
    have hfragment := LspTlvs.wellFormed_fragments hwhole (List.getElem_mem hindex)
    have hsize := LspTlvs.size_fragments_le (List.getElem_mem hindex)
    refine ⟨rfl, hfragment, ?_, s.ofBits_ownFlags _⟩
    have honce := hwhole.onceSize_le
    have hmtu : s.config.mtu.toNat < 65536 := s.config.mtu.toNat_lt
    have hroom : s.fragmentRoom = s.config.mtu.toNat - 27 := rfl
    rw [LspTlvs.length_toOctets]
    show 27 + (tlvs.fragments s.fragmentRoom maxFragments).1[index].size ≤ 65535
    omega

/-- A fragment that is built, and every instance of it that is sent, reads back with all its
fields, and its checksum fits, if what the system advertises can be read. -/
theorem own_lsps_readable (hreadable : s.advertised.Readable s.level)
    (hbuilt : lsp ∈ s.build pseudonode) (seqno : UInt32) (time : Nat) :
    (Pdu.decode time lsp.raw = .ok (.lsp { lsp with baseTime := some time }) ∧
      lsp.checksumValid = true) ∧
    let sent := s.freshInstance lsp seqno
    Pdu.decode time sent.raw = .ok (.lsp { sent with baseTime := some time }) ∧
      sent.checksumValid = true := by
  obtain ⟨hsame, htlvs, hlength, hflags⟩ := built_writable hreadable hbuilt
  have hinstance : ∀ seqno,
      Pdu.decode time (s.freshInstance lsp seqno).raw =
          .ok (.lsp { s.freshInstance lsp seqno with baseTime := some time }) ∧
        (s.freshInstance lsp seqno).checksumValid = true := by
    intro seqno
    let fields : Lsp := ⟨.ofKind (.lsp s.level), s.config.lifetime, lsp.id, seqno, 0, lsp.flags,
      lsp.tlvs, [], none⟩
    have hshort : (fields.encode s.now).raw.length ≤ 65535 := by
      rw [Lsp.length_raw_encode]
      exact hlength
    exact ⟨@Lsp.decode_raw_encode fields s.level rfl hflags htlvs s.now time hshort,
      fields.checksumValid_encode s.now⟩
  have hbuilt := hinstance lsp.seqno
  rw [hsame] at hbuilt
  exact ⟨hbuilt, hinstance seqno⟩

def named (hostname : String) : LevelState :=
  start .one { Config.default with
    advertised := { Advertisement.empty with hostname := some hostname } } 0

theorem own_lsps_readable_named :
    ∃ lsp, (named "r1").advertised.Readable (named "r1").level ∧ lsp ∈ (named "r1").build 0 ∧
      (Pdu.decode 5 lsp.raw = .ok (.lsp { lsp with baseTime := some 5 }) ∧
        lsp.checksumValid = true) ∧
      let sent := (named "r1").freshInstance lsp 7
      Pdu.decode 5 sent.raw = .ok (.lsp { sent with baseTime := some 5 }) ∧
        sent.checksumValid = true := by
  have hreadable : (named "r1").advertised.Readable (named "r1").level :=
    ⟨by decide, fun hlevel => nomatch hlevel⟩
  have hbuilt : (named "r1").build 0 ≠ [] := by decide
  have hmem := List.head_mem hbuilt
  exact ⟨_, hreadable, hmem, own_lsps_readable hreadable hmem 7 5⟩

/-- A configuration with an empty hostname is accepted, and no neighbour can read what is
built from it. -/
theorem empty_hostname_unreadable :
    ∃ config lsp, Config.parse? "\x7b\"hostname\":\"\"\x7d" = some config ∧
      config.lifetime ≠ 0 ∧ lsp ∈ (start .one config 0).build 0 ∧
      Pdu.decode 0 lsp.raw = .error (.tlvLength 0) := by
  have hparse : Config.parse? "\x7b\"hostname\":\"\"\x7d" = some (named "").config := by
    decide +kernel
  have hbuilt : (named "").build 0 ≠ [] := by decide
  have hrefused : ∀ lsp ∈ (named "").build 0, Pdu.decode 0 lsp.raw = .error (.tlvLength 0) := by
    decide +kernel
  exact ⟨_, _, hparse, by decide, List.head_mem hbuilt, hrefused _ (List.head_mem hbuilt)⟩

end LevelState

end LinkState
