import LinkState.Proofs.Ageing
import LinkState.Proofs.Patching

/-!
# LSPs of other systems in transit

A newer LSP of another system is stored with the octets that it was received as, and nothing
but its replacement changes what is stored of it.  So it is sent on with the octets that it
came with, except for the remaining lifetime, which its checksum does not cover: fields of
unknown types, reserved bits and the order of the fields are relayed as they are.
-/

namespace LinkState.LevelState

variable {s t : LevelState} {circuit : CircuitId} {octets : Octets} {lsp : Lsp} {log : Log}
  {level : Level} {config : Config} {now : Nat}

/-- A live LSP that is newer than what is stored is stored as it was received. -/
theorem judged_held (hlive : lsp.isExpired = false) (hnewer : s.recency lsp = .newer)
    (hjudged : Judged s circuit lsp t) : t.copiesHeld lsp.id = some lsp := by
  cases hjudged with
  | recorded expired => simp [hlive] at expired
  | accepted =>
      have hinstalls := s.accept_installs circuit lsp
      rw [completed_of_live hlive] at hinstalls
      rw [hinstalls.copiesHeld]
      exact if_pos rfl
  | outlived purge => exact absurd purge.expired (by simp [hlive])
  | same same => simp [hnewer] at same
  | older older => simp [hnewer] at older

/-- A valid one of another system is. -/
theorem receiveFrom_held (h : s.Consistent) (hforeign : s.isOwn lsp.id = false)
    (hvalid : lsp.Valid) (hlive : lsp.isExpired = false) (hnewer : s.recency lsp = .newer) :
    (s.receiveFrom circuit lsp).copiesHeld lsp.id = some lsp := by
  have hreceived := receiveFrom_received h circuit lsp
  generalize s.receiveFrom circuit lsp = t at hreceived
  cases hreceived with
  | discarded invalid => exact absurd hvalid invalid
  | answered _ _ own => simp [hforeign] at own
  | judged counters _ _ judged =>
      exact judged_held (s := { s with counters := counters }) hlive hnewer judged

/-- What is sent of an LSP that is stored as it was received. -/
structure Relays (octets : Octets) (lsp : Lsp) (lifetime : UInt16) (payload : Octets) : Prop where
  length : payload.length = octets.length
  kept : ∀ i, i ≠ 10 → i ≠ 11 → payload[i]? = octets[i]?
  lifetime : payload.extract 10 12 = Octets.ofU16 lifetime
  read : ∀ time, ∃ read, Pdu.decode time payload = .ok (.lsp read) ∧ read.id = lsp.id ∧
    read.seqno = lsp.seqno ∧ read.checksum = lsp.checksum ∧ read.flags = lsp.flags ∧
    read.tlvs = lsp.tlvs ∧ read.checksumValid = true

/-- Only the two octets of the lifetime are replaced, which the checksum does not cover. -/
theorem rawWithLifetime_relays {time : Nat} (hdecode : Pdu.decode time octets = .ok (.lsp lsp))
    (hlive : lsp.isExpired = false) (hvalid : lsp.checksumValid = true) (lifetime : UInt16) :
    Relays octets lsp lifetime (lsp.rawWithLifetime lifetime) where
  length := by
    rw [lsp.length_rawWithLifetime, (Pdu.decode_lsp hdecode).1]
  kept := fun i h h' => by
    rw [lsp.getElem?_rawWithLifetime lifetime h h', (Pdu.decode_lsp hdecode).1]
  lifetime := by
    refine Lsp.extract_rawWithLifetime_self ?_ lifetime
    rw [(Pdu.decode_lsp hdecode).1]
    exact Nat.le_trans (by decide) (Pdu.decode_eq_ok_lsp_iff_standsIn.1 hdecode).1.long
  read := fun time =>
    ⟨_, Lsp.decode_rawWithLifetime hdecode lifetime time, rfl, rfl, rfl, rfl, rfl,
      Lsp.checksumValid_patched hlive hvalid lifetime⟩

/-- Whenever a valid live LSP of another system, with a sequence number other than zero, is
received as some octets and is newer than the stored copy, then as long as its entry is
there and was not installed anew, the LSP is sent with the same octets but for the remaining
lifetime.  That is the received one less the whole seconds since then, and whoever reads the
octets reads the same LSP ID, sequence number, checksum, flags and fields, with a valid
checksum. -/
theorem transit_faithful (h : Reachable Proper level config now s)
    (hregistered : s.circuits.contains circuit = true)
    (hdecode : Pdu.decode s.now octets = .ok (.lsp lsp)) (hlevel : lsp.level = level)
    (hforeign : lsp.id.system ≠ config.system) (hvalid : lsp.checksumValid = true)
    (hlive : lsp.isExpired = false) (hseqno : lsp.seqno ≠ 0) (hnewer : s.recency lsp = .newer)
    (hrun : Run Proper (s.perform (.receiveLspOctets (some circuit) octets)) log t)
    (hstored : t.database.contains lsp.id = true) (hkept : installedAt? log lsp.id = none) :
    ∃ payload, t.payload? lsp.id = some payload ∧
      Relays octets lsp (UInt16.ofNat (lsp.lifetime.toNat - (t.now - s.now) / 1000)) payload := by
  obtain ⟨hsame, hconfig, -⟩ := h.constant
  have hother : s.isOwn lsp.id = false := decide_eq_false (hconfig ▸ hforeign)
  have hheld : (s.perform (.receiveLspOctets (some circuit) octets)).copiesHeld lsp.id =
      some lsp := by
    have hreceived := receiveLspOctets_received hregistered hdecode (hlevel.trans hsame.symm)
    rw [perform, hreceived]
    exact receiveFrom_held (h.consistent.tell _) hother ⟨hvalid, fun hexpired => by
      simp [hlive] at hexpired⟩ hlive hnewer
  have hreached : Reachable Proper level config now
      (s.perform (.receiveLspOctets (some circuit) octets)) := h.perform trivial
  obtain ⟨entry, hentry⟩ := Option.isSome_iff_exists.1 hstored
  have hlsp : entry.lsp = lsp := by
    have hcopy : t.copiesHeld lsp.id = some entry.lsp := by
      rw [copiesHeld, hentry]
      rfl
    rcases (hrun.accounts_of_proper hreached).unreplaced hkept with hgone | hunchanged
    · rw [hcopy] at hgone
      cases hgone
    · exact Option.some.inj (hcopy.symm.trans (hunchanged.trans hheld))
  have hknown : t.known? lsp.id = some entry :=
    known_of_stored hentry (decide_eq_false (hlsp.symm ▸ hseqno))
  have hremaining : lsp.remaining t.now =
      UInt16.ofNat (lsp.lifetime.toNat - (t.now - s.now) / 1000) := by
    rw [Lsp.remaining, (Pdu.decode_lsp hdecode).2.1]
  refine ⟨lsp.rawWithLifetime (lsp.remaining t.now), ?_, ?_⟩
  · rw [payload?, hknown, Option.map_some, hlsp]
  · rw [hremaining]
    exact rawWithLifetime_relays hdecode hlive hvalid _

/-- An LSP of another system that was received with a reserved bit set in its header. -/
def strangeLsp : Lsp :=
  let lsp := Lsp.make 0 .one 1200 ⟨⟨1, 0, 0, 0, 0, 0⟩, 0, 0⟩ 7 .none .empty
  { lsp with raw := lsp.raw.set 6 0x80 }

def attached : LevelState :=
  (start .one Config.default 0).perform (.addCircuit ⟨1, "eth1", .broadcast⟩)

/-- The reserved bit is sent on, with a lifetime that is two seconds shorter. -/
theorem transit_faithful_strange :
    let received := attached.perform (.receiveLspOctets (some 1) strangeLsp.raw)
    ∃ payload, (received.perform (.advance 2500)).payload? strangeLsp.id = some payload ∧
      payload[6]? = some 0x80 ∧ payload.extract 10 12 = Octets.ofU16 1198 := by
  intro received
  have hreachable : Reachable Proper .one Config.default 0 attached := .perform .start trivial
  have hrun : Run Proper received (received.logOf (.advance 2500) ++ [])
      (received.perform (.advance 2500)) := Run.refl.perform trivial
  have hregistered : attached.circuits.contains 1 = true := by decide +kernel
  have hdecode : Pdu.decode attached.now strangeLsp.raw = .ok (.lsp strangeLsp) := by
    decide +kernel
  obtain ⟨payload, hpayload, -, hkept, hlifetime, -⟩ :=
    transit_faithful hreachable hregistered hdecode rfl (by decide) (by decide +kernel) rfl
      (by decide) (by decide +kernel) hrun (by decide +kernel) (by decide +kernel)
  have hnow : (received.perform (.advance 2500)).now = 2500 := by decide +kernel
  rw [hnow] at hlifetime
  exact ⟨payload, hpayload, hkept 6 (by decide) (by decide), hlifetime⟩

end LinkState.LevelState
