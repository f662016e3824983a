import LinkState.Config.Json
import LinkState.LevelState.Requests
import LinkState.Proofs.Conservation

/-!
# What a system advertises

The values that a system has to advertise, or the systems on a circuit for which it is
elected, are divided into fields before it matters how long an LSP may be, and a field is
packed as a whole.  So all values are advertised if and only if each field fits into an
LSP.  A field that does not is left out with all that follow it, even when each of its
values would fit in a field of its own.
-/

namespace LinkState

namespace Content

def ofSystem (advertised : Advertisement) (level : Level) : Content where
  areas := if level = .two then advertised.areas else []
  isReach := []
  ipv4 := advertised.ipv4.map (·.address)
  ipv6 := advertised.ipv6.map (·.address)

/-- What a system has to advertise for a pseudonode: all systems on the circuit, itself
included. -/
def ofPseudonode (system : SystemId) (election : Election) : Content where
  areas := []
  isReach := (election.neighbors.keys ++ [system]).map fun neighbor => ⟨⟨neighbor, 0⟩, 0⟩
  ipv4 := []
  ipv6 := []

def gathered (fragments : List LspTlvs) : Content where
  areas := (fragments.flatMap (·.areas)).flatten
  isReach := (fragments.flatMap (·.isReach)).flatten
  ipv4 := (fragments.flatMap (·.ipv4)).flatten
  ipv6 := (fragments.flatMap (·.ipv6)).flatten

end Content

namespace LspTlvs

variable {tlvs rest : LspTlvs} {fragments : List LspTlvs} {content : Content} {maxSize count : Nat}

/-! ### What the fragments hold -/

/-- The fragments hold all content if and only if no field is left after them. -/
theorem Holds.gathered_eq_iff (h : tlvs.Holds content)
    (hfragments : tlvs.fragments maxSize count = (fragments, rest)) :
    Content.gathered fragments = content ↔
      rest.areas = [] ∧ rest.isReach = [] ∧ rest.ipv4 = [] ∧ rest.ipv6 = [] := by
  have hareas := h.areas
  have hisReach := h.isReach
  have hipv4 := h.ipv4
  have hipv6 := h.ipv6
  rw [← fragments_append Splits.areas hfragments] at hareas
  rw [← fragments_append Splits.isReach hfragments] at hisReach
  rw [← fragments_append Splits.ipv4 hfragments] at hipv4
  rw [← fragments_append Splits.ipv6 hfragments] at hipv6
  rw [← hareas.flatten_eq_iff, ← hisReach.flatten_eq_iff, ← hipv4.flatten_eq_iff,
    ← hipv6.flatten_eq_iff]
  exact Content.mk.injEq .. ▸ Iff.rfl

/-- Fields that are all taken into fragments fit into one. -/
theorem le_of_taken {α : Type} {list : LspTlvs → List α} {size : α → Nat}
    (hlist : ∀ {tlvs fragment left}, Splits tlvs fragment left →
      list fragment ++ list left = list tlvs)
    (hsize : ∀ fragment : LspTlvs, ∀ field ∈ list fragment, size field ≤ fragment.size)
    (honce : tlvs.onceSize ≤ maxSize)
    (hfragments : tlvs.fragments maxSize count = (fragments, rest)) (hrest : list rest = []) :
    ∀ field ∈ list tlvs, size field ≤ maxSize := by
  intro field hfield
  rw [← fragments_append hlist hfragments, hrest, List.append_nil, List.mem_flatMap] at hfield
  obtain ⟨fragment, hfragment, hfield⟩ := hfield
  have hmem : fragment ∈ (tlvs.fragments maxSize count).1 := by
    rw [hfragments]
    exact hfragment
  calc size field
      ≤ fragment.size := hsize fragment field hfield
    _ ≤ max maxSize tlvs.onceSize := size_fragments_le hmem
    _ = maxSize := Nat.max_eq_left honce

/-- The number of fields is half that of the values, or a little more. -/
theorem fieldCount_ofValues_le {protocols : List UInt8} {hostname : Option String}
    (hareas : ∀ address ∈ content.areas, address.length ≤ 13) :
    2 * (ofValues protocols content.areas hostname content.isReach content.ipv4
      content.ipv6).fieldCount ≤ content.count + 4 := by
  have hareas : 2 * (Tlv.divide (fun address : AreaAddress => 1 + address.length)
      content.areas).length ≤ content.areas.length + 1 := by
    apply Tlv.length_divide_le
    intro address haddress
    have hshort := hareas address haddress
    show 1 + address.length ≤ 127
    omega
  have hisReach : 2 * (Tlv.divide (fun _ => Tlv.neighborSize) content.isReach).length ≤
      content.isReach.length + 1 :=
    Tlv.length_divide_le fun _ _ => by decide
  have hipv4 : 2 * (Tlv.divide (fun _ => 4) content.ipv4).length ≤ content.ipv4.length + 1 :=
    Tlv.length_divide_le fun _ _ => by decide
  have hipv6 : 2 * (Tlv.divide (fun _ => 16) content.ipv6).length ≤ content.ipv6.length + 1 :=
    Tlv.length_divide_le fun _ _ => by decide
  simp only [fieldCount, ofValues, Content.count, List.length_nil]
  omega

/-- Enough fragments hold all content if and only if each field fits. -/
theorem Holds.gathered_iff_fits (h : tlvs.Holds content) (honce : tlvs.onceSize ≤ maxSize)
    (hcount : tlvs.fieldCount < count) :
    Content.gathered (tlvs.fragments maxSize count).1 = content ↔ tlvs.Fits maxSize := by
  obtain ⟨fragments, rest, hfragments⟩ :
      ∃ fragments rest, tlvs.fragments maxSize count = (fragments, rest) := ⟨_, _, rfl⟩
  rw [hfragments, h.gathered_eq_iff hfragments]
  constructor
  · rintro ⟨hareas, hisReach, hipv4, hipv6⟩
    exact {
      areas := le_of_taken Splits.areas (fun fragment => fragment.fits_size.areas) honce
        hfragments hareas
      isReach := le_of_taken Splits.isReach (fun fragment => fragment.fits_size.isReach) honce
        hfragments hisReach
      ipv4 := le_of_taken Splits.ipv4 (fun fragment => fragment.fits_size.ipv4) honce
        hfragments hipv4
      ipv6 := le_of_taken Splits.ipv6 (fun fragment => fragment.fits_size.ipv6) honce
        hfragments hipv6
      unknown := by
        rw [h.unknown]
        exact fun _ hnone => nomatch hnone }
  · intro hfits
    obtain ⟨all, hall, hlength⟩ := hfits.fragmented
    have heq := hall.fragments_eq (Nat.le_trans hlength hcount)
    rw [hfragments] at heq
    cases heq
    exact ⟨rfl, rfl, rfl, rfl⟩

end LspTlvs

namespace LevelState

variable {s : LevelState} {pseudonode : UInt8} {tlvs : LspTlvs} {content : Content} {lsp : Lsp}

/-- What a system has to advertise for a pseudonode, or about itself.  There is nothing for a
pseudonode for which the system is not elected. -/
def toAdvertise? (s : LevelState) (pseudonode : UInt8) : Option Content :=
  if pseudonode = 0 then some (.ofSystem s.advertised s.level)
  else
    ((s.elections.get? pseudonode).filter fun election => election.elected).map
      (.ofPseudonode s.config.system)

/-- The content that is gathered from the LSPs of a pseudonode, or of the system itself. -/
def builtContent (s : LevelState) (pseudonode : UInt8) : Content :=
  .gathered ((s.build pseudonode).map (·.tlvs))

/-- The own fields advertise what there is to advertise. -/
theorem ownTlvs_eq (htlvs : s.ownTlvs? pseudonode = some tlvs)
    (hcontent : s.toAdvertise? pseudonode = some content) :
    ∃ protocols hostname, tlvs = .ofValues protocols content.areas hostname content.isReach
      content.ipv4 content.ipv6 := by
  rw [ownTlvs?] at htlvs
  rw [toAdvertise?] at hcontent
  split at htlvs
  · rename_i hself
    rw [if_pos hself] at hcontent
    cases htlvs
    cases hcontent
    exact ⟨_, _, rfl⟩
  · rename_i hself
    rw [if_neg hself] at hcontent
    obtain ⟨election, helection, rfl⟩ := Option.map_eq_some_iff.1 htlvs
    rw [helection] at hcontent
    cases hcontent
    exact ⟨_, _, rfl⟩

theorem map_tlvs_build (htlvs : s.ownTlvs? pseudonode = some tlvs) :
    (s.build pseudonode).map (·.tlvs) = (tlvs.fragments s.fragmentRoom maxFragments).1 := by
  rw [build, htlvs]
  apply List.ext_getElem
  · rw [List.length_map, List.length_mapIdx]
  · intro index hbuilt hfragment
    rw [List.getElem_map, List.getElem_mapIdx]
    rfl

/-- No LSP is longer than allowed if the fields that occur once fit into one. -/
theorem length_raw_build_le (htlvs : s.ownTlvs? pseudonode = some tlvs)
    (honce : tlvs.onceSize ≤ s.fragmentRoom) (hmtu : Lsp.headerSize ≤ s.config.mtu.toNat)
    (hlsp : lsp ∈ s.build pseudonode) : lsp.raw.length ≤ s.config.mtu.toNat := by
  rw [build, htlvs] at hlsp
  obtain ⟨index, hindex, rfl⟩ := List.mem_mapIdx.1 hlsp
  have hsize := LspTlvs.size_fragments_le (List.getElem_mem hindex)
  rw [Nat.max_eq_left honce] at hsize
  generalize (tlvs.fragments s.fragmentRoom maxFragments).1[index] = fragment at hsize
  calc (s.buildFragment pseudonode fragment index).raw.length
      = Lsp.headerSize + fragment.toOctets.length := by
        rw [buildFragment, Lsp.make, Lsp.length_raw_encode]
    _ = Lsp.headerSize + fragment.size := by rw [LspTlvs.length_toOctets]
    _ ≤ Lsp.headerSize + s.fragmentRoom := Nat.add_le_add_left hsize _
    _ = s.config.mtu.toNat := Nat.add_sub_cancel' hmtu

/-- If LSPs have room for the fields that occur once, none is too long, and they advertise
exactly what there is to advertise if and only if each field fits into an LSP, as all do if
there is room for 257 octets. -/
theorem build_advertises (htlvs : s.ownTlvs? pseudonode = some tlvs)
    (hcontent : s.toAdvertise? pseudonode = some content)
    (hareas : ∀ address ∈ content.areas, address.length ≤ 13) (hcount : content.count ≤ 256)
    (hmtu : Lsp.headerSize + tlvs.onceSize ≤ s.config.mtu.toNat) :
    (∀ lsp ∈ s.build pseudonode, lsp.raw.length ≤ s.config.mtu.toNat) ∧
      (s.builtContent pseudonode = content ↔ tlvs.Fits s.fragmentRoom) ∧
      (257 ≤ s.fragmentRoom → s.builtContent pseudonode = content) := by
  have hheader : Lsp.headerSize ≤ s.config.mtu.toNat := Nat.le_trans (Nat.le_add_right _ _) hmtu
  have honce : tlvs.onceSize ≤ s.fragmentRoom := Nat.le_sub_of_add_le' hmtu
  obtain ⟨protocols, hostname, rfl⟩ := ownTlvs_eq htlvs hcontent
  have hholds : (LspTlvs.ofValues protocols content.areas hostname content.isReach content.ipv4
      content.ipv6).Holds content := LspTlvs.ofValues_holds hareas
  have hfew : (LspTlvs.ofValues protocols content.areas hostname content.isReach content.ipv4
      content.ipv6).fieldCount < maxFragments := by
    have hfields := @LspTlvs.fieldCount_ofValues_le content protocols hostname hareas
    rw [maxFragments]
    omega
  have hiff := hholds.gathered_iff_fits honce hfew
  rw [← map_tlvs_build htlvs] at hiff
  exact ⟨fun lsp hlsp => length_raw_build_le htlvs honce hheader hlsp, hiff,
    fun hroom => hiff.2 (hholds.fits hroom)⟩

/-- A level that advertises an area, an IPv4 address and an IPv6 address. -/
def addressed : LevelState :=
  start .two { Config.default with
    advertised := { Advertisement.empty with
      areas := [[0x49]]
      ipv4 := [⟨⟨10, 0, 0, 1⟩, 32⟩]
      ipv6 := [⟨⟨0xFE80, 0, 0, 0, 0, 0, 0, 1⟩, 64⟩] } } 0

theorem build_advertises_addressed :
    ∃ tlvs content, addressed.ownTlvs? 0 = some tlvs ∧ addressed.toAdvertise? 0 = some content ∧
      (∀ address ∈ content.areas, address.length ≤ 13) ∧ content.count ≤ 256 ∧
      Lsp.headerSize + tlvs.onceSize ≤ addressed.config.mtu.toNat ∧
      (∀ lsp ∈ addressed.build 0, lsp.raw.length ≤ addressed.config.mtu.toNat) ∧
      (addressed.builtContent 0 = content ↔ tlvs.Fits addressed.fragmentRoom) ∧
      (257 ≤ addressed.fragmentRoom → addressed.builtContent 0 = content) :=
  ⟨_, _, rfl, rfl, by decide, by decide, by decide,
    build_advertises rfl rfl (by decide) (by decide) (by decide)⟩

/-- A configuration with two addresses, in which LSPs have room for one of them. -/
def cramped : Config :=
  { Config.default with
    mtu := 36
    advertised := { Advertisement.empty with
      ipv4 := [⟨⟨10, 0, 0, 1⟩, 32⟩, ⟨⟨10, 0, 0, 2⟩, 32⟩] } }

/-- A configuration is accepted in which LSPs have room for any address, after the fields
that occur once, and no address is advertised. -/
theorem addresses_left_out :
    Config.parse? "\x7b\"lsp-mtu\":36,\"ipv4-addrs\":[\"10.0.0.1/32\",\"10.0.0.2/32\"]\x7d" =
      some cramped ∧
    ∃ tlvs content, (start .one cramped 0).ownTlvs? 0 = some tlvs ∧
      (start .one cramped 0).toAdvertise? 0 = some content ∧
      content = ⟨[], [], [⟨10, 0, 0, 1⟩, ⟨10, 0, 0, 2⟩], []⟩ ∧
      (∀ address ∈ content.ipv4,
        Lsp.headerSize + tlvs.onceSize + LspTlvs.ipv4Size [address] ≤ cramped.mtu.toNat) ∧
      (start .one cramped 0).builtContent 0 = ⟨[], [], [], []⟩ := by
  have hparse : Config.parse?
      "\x7b\"lsp-mtu\":36,\"ipv4-addrs\":[\"10.0.0.1/32\",\"10.0.0.2/32\"]\x7d" =
        some cramped := by
    decide +kernel
  exact ⟨hparse, _, _, rfl, rfl, rfl, by decide, by decide⟩

end LevelState

end LinkState
