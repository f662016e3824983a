import LinkState.Pdu.Fragment
import LinkState.Proofs.LspCodec

/-!
# Fragments are well formed

Values that fit into a field on their own are divided into fields that their length
octets can describe, and a fragment takes over whole fields.  The lists of a fragment
share the room that the fields which occur once leave, so the octets of a fragment are no
more than allowed unless those fields alone are.
-/

namespace LinkState

namespace Tlv

variable {α : Type} {size : α → Nat}

/-! ### Lengths -/

theorem total_append (a b : List α) : total size (a ++ b) = total size a + total size b := by
  induction a with
  | nil => rw [List.nil_append, total, Nat.zero_add]
  | cons item items ih => rw [List.cons_append, total, total, ih, Nat.add_assoc]

theorem length_flatMap {value : α → Octets} {items : List α}
    (h : ∀ item ∈ items, (value item).length = size item) :
    (items.flatMap value).length = total size items := by
  induction items with
  | nil => rfl
  | cons item rest ih =>
      rw [List.flatMap_cons, List.length_append, total, h item List.mem_cons_self,
        ih fun other hother => h other (List.mem_cons_of_mem _ hother)]

theorem length_neighborOctets (neighbor : Neighbor) :
    (neighborOctets neighbor).length = neighborSize :=
  rfl

theorem length_hostnameOctets (hostname : String) :
    (hostnameOctets hostname).length = hostname.utf8ByteSize := by
  rw [hostnameOctets, Text.Utf8.encode, ← String.size_toByteArray, ← String.utf8Encode_toList,
    List.utf8Encode, List.size_toByteArray]

/-! ### Dividing values into fields -/

/-- Every field is short enough and holds given values only. -/
theorem divideFrom_spec {field values : List α} {used : Nat} (hused : total size field = used)
    (hfit : used ≤ maxLength) (hsize : ∀ value ∈ values, size value ≤ maxLength) :
    ∀ out ∈ divideFrom size field used values,
      total size out ≤ maxLength ∧ ∀ value ∈ out, value ∈ field ∨ value ∈ values := by
  induction values generalizing field used with
  | nil =>
      intro out hout
      rw [divideFrom] at hout
      split at hout
      · cases hout
      · cases List.mem_singleton.1 hout
        exact ⟨hused ▸ hfit, fun _ => .inl⟩
  | cons value rest ih =>
      have hrest : ∀ other ∈ rest, size other ≤ maxLength :=
        fun other hother => hsize other (List.mem_cons_of_mem _ hother)
      have hsingle : total size [value] = size value := Nat.add_zero _
      intro out hout
      rw [divideFrom] at hout
      split at hout
      · rcases List.mem_cons.1 hout with rfl | hlater
        · exact ⟨hused ▸ hfit, fun _ => .inl⟩
        · obtain ⟨htotal, hmem⟩ := ih hsingle (hsize value List.mem_cons_self) hrest out hlater
          refine ⟨htotal, fun other hother => ?_⟩
          rcases hmem other hother with hfirst | hlater
          · exact .inr (List.mem_singleton.1 hfirst ▸ List.mem_cons_self)
          · exact .inr (List.mem_cons_of_mem _ hlater)
      · rename_i hroom
        obtain ⟨htotal, hmem⟩ := ih (by rw [total_append, hused, hsingle]) (Nat.not_lt.1 hroom)
          hrest out hout
        refine ⟨htotal, fun other hother => ?_⟩
        rcases hmem other hother with hfield | hlater
        · rcases List.mem_append.1 hfield with hbefore | hfirst
          · exact .inl hbefore
          · exact .inr (List.mem_singleton.1 hfirst ▸ List.mem_cons_self)
        · exact .inr (List.mem_cons_of_mem _ hlater)

/-- Values that fit on their own are divided into fields that fit. -/
theorem divide_spec {values : List α} (hsize : ∀ value ∈ values, size value ≤ maxLength)
    {field : List α} (h : field ∈ divide size values) :
    total size field ≤ maxLength ∧ ∀ value ∈ field, value ∈ values := by
  obtain ⟨htotal, hmem⟩ := divideFrom_spec rfl (Nat.zero_le _) hsize field h
  refine ⟨htotal, fun value hvalue => ?_⟩
  rcases hmem value hvalue with hnone | hvalues
  · cases hnone
  · exact hvalues

/-! ### Packing fields -/

theorem pack_taken_append_left (fields : List α) (room : Nat) :
    (pack size fields room).taken ++ (pack size fields room).left = fields := by
  induction fields generalizing room with
  | nil => rfl
  | cons field rest ih =>
      rw [pack]
      split
      · exact congrArg (field :: ·) (ih _)
      · rfl

theorem mem_of_mem_taken {fields : List α} {room : Nat} {field : α}
    (h : field ∈ (pack size fields room).taken) : field ∈ fields := by
  rw [← pack_taken_append_left fields room]
  exact List.mem_append_left _ h

theorem mem_of_mem_left {fields : List α} {room : Nat} {field : α}
    (h : field ∈ (pack size fields room).left) : field ∈ fields := by
  rw [← pack_taken_append_left fields room]
  exact List.mem_append_right _ h

/-- What is packed and the room that is left take no more than the room there was. -/
theorem total_taken_add_room_le (size : α → Nat) (fields : List α) (room : Nat) :
    total size (pack size fields room).taken + (pack size fields room).room ≤ room := by
  induction fields generalizing room with
  | nil => exact Nat.le_of_eq (Nat.zero_add room)
  | cons field rest ih =>
      rw [pack]
      split
      · rename_i hfits
        have hrest := ih (room - size field)
        show size field + total size (pack size rest _).taken + (pack size rest _).room ≤ room
        omega
      · exact Nat.zero_le _

end Tlv

namespace LspTlvs

variable {tlvs fragment left : LspTlvs} {maxSize count : Nat}

/-! ### The length of the octets -/

theorem length_optionOctets {α : Type} (code : UInt8) {value : α → Octets} {size : α → Nat}
    (hsize : ∀ a, Tlv.headerSize + (value a).length = size a) (field : Option α) :
    (optionOctets code value field).length = (field.map size).getD 0 := by
  cases field with
  | none => rfl
  | some a =>
      rw [optionOctets, Tlv.field, List.length_cons, List.length_cons, Nat.add_assoc, Nat.add_comm]
      exact hsize a

theorem length_listOctets {α : Type} (code : UInt8) {value : α → Octets} {size : α → Nat}
    (hsize : ∀ a, (value a).length = size a) (fields : List (List α)) :
    (listOctets code value fields).length = Tlv.total (sizeOf size) fields := by
  refine Tlv.length_flatMap fun values _ => ?_
  rw [Tlv.field, List.length_cons, List.length_cons, Tlv.length_flatMap fun a _ => hsize a, sizeOf,
    Nat.add_assoc, Nat.add_comm]
  rfl

theorem length_purgeOriginatorOctets (originator : PurgeOriginator) :
    Tlv.headerSize + (Tlv.purgeOriginatorOctets originator).length =
      purgeOriginatorSize originator := by
  rcases originator with ⟨system, _ | other⟩ <;> rfl

/-- Fields take as many octets as their sizes say. -/
theorem length_toOctets (tlvs : LspTlvs) : tlvs.toOctets.length = tlvs.size := by
  have hunknown : (tlvs.unknown.flatMap Tlv.unknownOctets).length =
      Tlv.total unknownSize tlvs.unknown := by
    refine Tlv.length_flatMap fun tlv _ => ?_
    rw [Tlv.unknownOctets, List.length_cons, List.length_cons, Nat.add_assoc, Nat.add_comm]
    rfl
  have hareas : (listOctets Tlv.areas Tlv.areaOctets tlvs.areas).length =
      Tlv.total areasSize tlvs.areas :=
    length_listOctets _ (fun address => Nat.add_comm address.length 1) _
  have hprotocols : (optionOctets Tlv.protocols id tlvs.protocols).length =
      (tlvs.protocols.map protocolsSize).getD 0 :=
    length_optionOctets _ (fun _ => rfl) _
  have horiginator := length_optionOctets Tlv.purgeOriginator length_purgeOriginatorOctets
    tlvs.purgeOriginator
  have hhostname : (optionOctets Tlv.hostname Tlv.hostnameOctets tlvs.hostname).length =
      (tlvs.hostname.map hostnameSize).getD 0 :=
    length_optionOctets _ (fun name => congrArg _ (Tlv.length_hostnameOctets name)) _
  have hipv4 : (listOctets Tlv.ipv4 Ipv4.toOctets tlvs.ipv4).length =
      Tlv.total ipv4Size tlvs.ipv4 :=
    length_listOctets _ (fun _ => rfl) _
  have hipv6 : (listOctets Tlv.ipv6 Ipv6.toOctets tlvs.ipv6).length =
      Tlv.total ipv6Size tlvs.ipv6 :=
    length_listOctets _ (fun _ => rfl) _
  have hisReach : (listOctets Tlv.isReach Tlv.neighborOctets tlvs.isReach).length =
      Tlv.total isReachSize tlvs.isReach :=
    length_listOctets _ Tlv.length_neighborOctets _
  simp only [toOctets, List.length_append, hareas, hprotocols, horiginator, hhostname, hipv4, hipv6,
    hisReach, hunknown, size]
  omega

/-! ### The next fragment -/

def onceSize (tlvs : LspTlvs) : Nat :=
  (tlvs.protocols.map protocolsSize).getD 0 +
    (tlvs.purgeOriginator.map purgeOriginatorSize).getD 0 +
    (tlvs.hostname.map hostnameSize).getD 0

/-- The fields that occur once take no more than 529 octets. -/
theorem WellFormed.onceSize_le (h : tlvs.WellFormed) : tlvs.onceSize ≤ 529 := by
  have hprotocols : (tlvs.protocols.map protocolsSize).getD 0 ≤ 257 := by
    cases hvalue : tlvs.protocols with
    | none => exact Nat.zero_le _
    | some value => exact Nat.add_le_add_left (h.protocols value hvalue) 2
  have horiginator : (tlvs.purgeOriginator.map purgeOriginatorSize).getD 0 ≤ 15 := by
    rcases tlvs.purgeOriginator with _ | ⟨system, _ | other⟩
    · decide
    · show 9 ≤ 15
      decide
    · show 15 ≤ 15
      decide
  have hhostname : (tlvs.hostname.map hostnameSize).getD 0 ≤ 257 := by
    cases hname : tlvs.hostname with
    | none => exact Nat.zero_le _
    | some name =>
        have hlength := (h.hostname name hname).2
        rw [Tlv.length_hostnameOctets] at hlength
        exact Nat.add_le_add_left hlength 2
  rw [onceSize]
  omega

theorem ne_empty_of_nextFragment (h : tlvs.nextFragment maxSize = some (fragment, left)) :
    fragment ≠ empty := by
  simp only [nextFragment] at h
  split at h
  · cases h
  · rename_i hnonempty
    cases h
    exact hnonempty

/-- A fragment is no longer than allowed, unless what occurs once already is. -/
theorem size_nextFragment_le (h : tlvs.nextFragment maxSize = some (fragment, left)) :
    fragment.size ≤ max maxSize tlvs.onceSize := by
  simp only [nextFragment] at h
  generalize hroom : maxSize - (tlvs.protocols.map protocolsSize).getD 0
    - (tlvs.purgeOriginator.map purgeOriginatorSize).getD 0
    - (tlvs.hostname.map hostnameSize).getD 0 = room at h
  have hareas := Tlv.total_taken_add_room_le areasSize tlvs.areas room
  generalize Tlv.pack areasSize tlvs.areas room = areas at h hareas
  have hipv4 := Tlv.total_taken_add_room_le ipv4Size tlvs.ipv4 areas.room
  generalize Tlv.pack ipv4Size tlvs.ipv4 areas.room = ipv4 at h hipv4
  have hipv6 := Tlv.total_taken_add_room_le ipv6Size tlvs.ipv6 ipv4.room
  generalize Tlv.pack ipv6Size tlvs.ipv6 ipv4.room = ipv6 at h hipv6
  have hisReach := Tlv.total_taken_add_room_le isReachSize tlvs.isReach ipv6.room
  generalize Tlv.pack isReachSize tlvs.isReach ipv6.room = isReach at h hisReach
  have hunknown := Tlv.total_taken_add_room_le unknownSize tlvs.unknown isReach.room
  generalize Tlv.pack unknownSize tlvs.unknown isReach.room = unknown at h hunknown
  split at h
  · cases h
  cases h
  simp only [size, onceSize]
  omega

/-- Fields that are among well formed ones are well formed. -/
theorem WellFormed.mono {other : LspTlvs} (h : tlvs.WellFormed)
    (hprotocols : ∀ value ∈ other.protocols, value ∈ tlvs.protocols)
    (hhostname : ∀ name ∈ other.hostname, name ∈ tlvs.hostname)
    (hareas : other.areas ⊆ tlvs.areas) (hisReach : other.isReach ⊆ tlvs.isReach)
    (hipv4 : other.ipv4 ⊆ tlvs.ipv4) (hipv6 : other.ipv6 ⊆ tlvs.ipv6)
    (hunknown : other.unknown ⊆ tlvs.unknown) : other.WellFormed where
  protocols value hvalue := h.protocols value (hprotocols value hvalue)
  areas field hfield := h.areas field (hareas hfield)
  area field hfield := h.area field (hareas hfield)
  hostname name hname := h.hostname name (hhostname name hname)
  isReach field hfield := h.isReach field (hisReach hfield)
  metric field hfield := h.metric field (hisReach hfield)
  ipv4 field hfield := h.ipv4 field (hipv4 hfield)
  ipv6 field hfield := h.ipv6 field (hipv6 hfield)
  unknown tlv htlv := h.unknown tlv (hunknown htlv)

/-- The fields of a fragment, and those that are left, are fields of the whole. -/
theorem wellFormed_of_nextFragment (htlvs : tlvs.WellFormed)
    (h : tlvs.nextFragment maxSize = some (fragment, left)) :
    fragment.WellFormed ∧ left.WellFormed := by
  simp only [nextFragment] at h
  split at h
  · cases h
  cases h
  refine ⟨htlvs.mono (fun _ => id) (fun _ => id) ?_ ?_ ?_ ?_ ?_,
    htlvs.mono (fun _ hnone => nomatch hnone) (fun _ hnone => nomatch hnone) ?_ ?_ ?_ ?_ ?_⟩
  all_goals first
    | exact fun _ => Tlv.mem_of_mem_taken
    | exact fun _ => Tlv.mem_of_mem_left

/-- What occurs once is in the first fragment. -/
theorem onceSize_of_nextFragment (h : tlvs.nextFragment maxSize = some (fragment, left)) :
    left.onceSize = 0 := by
  simp only [nextFragment] at h
  split at h
  · cases h
  · cases h
    rfl

/-- No fragment is longer than allowed, unless what occurs once already is. -/
theorem size_fragments_le (h : fragment ∈ (tlvs.fragments maxSize count).1) :
    fragment.size ≤ max maxSize tlvs.onceSize := by
  induction count generalizing tlvs with
  | zero => cases h
  | succ count ih =>
      rw [fragments] at h
      split at h
      · cases h
      · rename_i first left hnext
        rcases List.mem_cons.1 h with rfl | hrest
        · exact size_nextFragment_le hnext
        · have hlater := ih hrest
          rw [onceSize_of_nextFragment hnext, Nat.max_zero] at hlater
          exact Nat.le_trans hlater (Nat.le_max_left _ _)

/-- Fragments of well formed fields are well formed. -/
theorem wellFormed_fragments (htlvs : tlvs.WellFormed)
    (h : fragment ∈ (tlvs.fragments maxSize count).1) : fragment.WellFormed := by
  induction count generalizing tlvs with
  | zero => cases h
  | succ count ih =>
      rw [fragments] at h
      split at h
      · cases h
      · rename_i first left hnext
        obtain ⟨hfirst, hleft⟩ := wellFormed_of_nextFragment htlvs hnext
        rcases List.mem_cons.1 h with rfl | hrest
        · exact hfirst
        · exact ih hleft hrest

/-! ### The fields that advertise values -/

section Values

variable {protocols : List UInt8} {areas : List AreaAddress} {hostname : Option String}
  {isReach : List Neighbor} {ipv4 : List Ipv4} {ipv6 : List Ipv6}

/-- Values that fit into fields make fields that can be written. -/
theorem wellFormed_ofValues (hprotocols : protocols.length ≤ Tlv.maxLength)
    (hareas : ∀ address ∈ areas, address.length ≤ Tlv.maxAreaLength)
    (hhostname : ∀ name ∈ hostname, Tlv.hostnameOctets name ≠ [] ∧
      (Tlv.hostnameOctets name).length ≤ Tlv.maxLength)
    (hmetric : ∀ neighbor ∈ isReach, neighbor.metric ≤ Tlv.maxMetric) :
    (ofValues protocols areas hostname isReach ipv4 ipv6).WellFormed := by
  have harea : ∀ field ∈ Tlv.divide (fun address : AreaAddress => 1 + address.length) areas,
      Tlv.total (fun address : AreaAddress => 1 + address.length) field ≤ Tlv.maxLength ∧
        ∀ address ∈ field, address ∈ areas := by
    refine fun field hfield => Tlv.divide_spec (fun address haddress => ?_) hfield
    have hshort : address.length ≤ 13 := hareas address haddress
    show 1 + address.length ≤ 255
    omega
  constructor
  case protocols =>
    intro value hvalue
    cases (show some protocols = some value from hvalue)
    exact hprotocols
  case hostname => exact hhostname
  case areas =>
    intro field hfield
    rw [Tlv.length_flatMap fun address _ => Nat.add_comm address.length 1]
    exact (harea field hfield).1
  case area =>
    exact fun field hfield address haddress =>
      hareas address ((harea field hfield).2 address haddress)
  case isReach =>
    intro field hfield
    rw [Tlv.length_flatMap fun neighbor _ => Tlv.length_neighborOctets neighbor]
    exact (Tlv.divide_spec (fun _ _ => by decide) hfield).1
  case metric =>
    exact fun field hfield neighbor hneighbor => hmetric neighbor
      ((Tlv.divide_spec (fun _ _ => by decide) hfield).2 neighbor hneighbor)
  case ipv4 =>
    intro field hfield
    rw [Tlv.length_flatMap fun (address : Ipv4) _ => show address.toOctets.length = 4 from rfl]
    exact (Tlv.divide_spec (fun _ _ => by decide) hfield).1
  case ipv6 =>
    intro field hfield
    rw [Tlv.length_flatMap fun (address : Ipv6) _ => show address.toOctets.length = 16 from rfl]
    exact (Tlv.divide_spec (fun _ _ => by decide) hfield).1
  case unknown => exact fun _ hnone => nomatch hnone

end Values

end LspTlvs

end LinkState
