import LinkState.Proofs.Checksum
import LinkState.Proofs.LspCodec
import Mathlib.Data.List.Forall2

/-!
# The grammar of type-length-value fields

A string of fields is a concatenation of fields whose length octets tell the truth, with at
most one octet behind them.  The values of the known types have grammars of their own.
Each reader accepts exactly the strings of its grammar and returns what the grammar says,
and a sequence of fields is taken in as it stands: lists once for each field in their order,
the first purge originator and the first list of protocols, the last hostname.
-/

namespace LinkState

namespace Tlv

/-! ### Sequences of fields -/

/-- The fields that a string is a concatenation of; at most one octet may follow them. -/
inductive Fields : Octets → List Raw → Prop
  | done : Fields [] []
  | stray (octet : UInt8) : Fields [octet] []
  | field (code : UInt8) {length : UInt8} {value rest : Octets} {more : List Raw} :
      length.toNat = value.length → Fields rest more →
        Fields (code :: length :: (value ++ rest)) (⟨code, length, value⟩ :: more)

/-- A string that is split without a misfit is the concatenation of its fields. -/
theorem fields_of_split {octets : Octets} {fields : List Raw}
    (h : split octets = (fields, none)) : Fields octets fields := by
  fun_induction split octets generalizing fields with
  | case1 code length rest hshort => cases h
  | case2 code length rest hlong more misfit hsplit ih =>
      cases h
      have hvalue : length.toNat = (rest.take length.toNat).length := by
        rw [List.length_take]
        omega
      have hfields := Fields.field code hvalue (ih hsplit)
      rwa [List.take_append_drop] at hfields
  | case3 octets hnot =>
      cases h
      cases octets with
      | nil => exact .done
      | cons octet rest =>
          cases rest with
          | nil => exact .stray octet
          | cons length rest => exact absurd rfl (hnot octet length rest)

theorem split_of_fields {octets : Octets} {fields : List Raw} (h : Fields octets fields) :
    split octets = (fields, none) := by
  induction h with
  | done => simp [split]
  | stray octet => simp [split]
  | field code hlength hrest ih =>
      rw [split, hlength, if_neg (by simp), List.drop_left, List.take_left, ih]

theorem split_eq_iff {octets : Octets} {fields : List Raw} :
    split octets = (fields, none) ↔ Fields octets fields :=
  ⟨fields_of_split, split_of_fields⟩

/-- All fields are read and nothing is left over but a stray octet. -/
theorem readAll_eq_ok_iff {α : Type} {read : α → Raw → Except DecodeError α} {start result : α}
    {octets : Octets} :
    readAll read start octets = .ok result ↔
      ∃ fields, Fields octets fields ∧ fields.foldlM read start = .ok result := by
  simp only [← split_eq_iff, readAll]
  rcases hsplit : split octets with ⟨fields, misfit⟩
  cases hread : fields.foldlM read start with
  | error e => simp_all
  | ok last => cases misfit <;> simp_all

theorem Fields.length_value {octets : Octets} {fields : List Raw} (h : Fields octets fields) :
    ∀ raw ∈ fields, raw.length.toNat = raw.value.length := by
  induction h with
  | done => simp
  | stray octet => simp
  | field code hlength hrest ih => simpa [hlength] using ih

/-! ### Values -/

/-- The addresses of a value that is a sequence of them, each with its length in front. -/
inductive AreaList : Octets → List AreaAddress → Prop
  | nil : AreaList [] []
  | cons {n : UInt8} {address : AreaAddress} {rest : Octets} {more : List AreaAddress} :
      n.toNat = address.length → n.toNat ≤ 13 → AreaList rest more →
        AreaList (n :: (address ++ rest)) (address :: more)

/-- The reader of area addresses accepts just the sequences of them. -/
theorem readAreas_eq_ok_iff {fieldLength : UInt8} {value : Octets} {addresses : List AreaAddress} :
    readAreas fieldLength value = .ok addresses ↔ AreaList value addresses := by
  constructor
  · intro h
    fun_induction readAreas fieldLength value generalizing addresses with
    | case1 =>
        cases h
        exact .nil
    | case2 n rest hgreat => cases h
    | case3 n rest hsmall hshort => cases h
    | case4 n rest hsmall hlong ih =>
        obtain ⟨more, hmore, haddresses⟩ := DecodeError.bind_eq_ok.1 h
        cases haddresses
        have hlength : n.toNat = (rest.take n.toNat).length := by
          rw [List.length_take]
          omega
        have hlist := AreaList.cons hlength (Nat.not_lt.1 hsmall) (ih hmore)
        rwa [List.take_append_drop] at hlist
  · intro h
    induction h with
    | nil => rw [readAreas]
    | cons hlength hsmall hrest ih =>
        have hkept : ¬ maxAreaLength < _ := Nat.not_lt.2 hsmall
        rw [readAreas, if_neg hkept, if_neg (by simp [hlength]), hlength, List.drop_left,
          List.take_left, ih]
        rfl

/-- The neighbours of a value that is a sequence of them with sub-fields, and at most ten
octets that are left over. -/
inductive NeighborList : Octets → List Neighbor → Prop
  | leftover {value : Octets} : value.length ≤ 10 → NeighborList value []
  | cons (node : NodeId) (m m' m'' : UInt8) {n : UInt8} {sub rest : Octets}
      {more : List Neighbor} :
      n.toNat = sub.length → NeighborList rest more →
        NeighborList (node.toOctets ++ m :: m' :: m'' :: n :: (sub ++ rest))
          (⟨node, Octets.word24 m m' m''⟩ :: more)

/-- A string in which no neighbour fits has at most ten octets. -/
theorem length_le_of_no_neighbor {value : Octets}
    (h : ∀ a b c d e f p m m' m'' n rest,
      value = a :: b :: c :: d :: e :: f :: p :: m :: m' :: m'' :: n :: rest → False) :
    value.length ≤ 10 := by
  by_contra hlong
  match value with
  | a :: b :: c :: d :: e :: f :: p :: m :: m' :: m'' :: n :: rest =>
      exact h a b c d e f p m m' m'' n rest rfl
  | [] | [_] | [_, _] | [_, _, _] | [_, _, _, _] | [_, _, _, _, _] | [_, _, _, _, _, _]
  | [_, _, _, _, _, _, _] | [_, _, _, _, _, _, _, _] | [_, _, _, _, _, _, _, _, _]
  | [_, _, _, _, _, _, _, _, _, _] => simp at hlong

/-- The reader of neighbours steps over sub-fields by the lengths that the neighbours tell. -/
theorem readNeighbors_eq_ok_iff {value : Octets} {neighbors : List Neighbor} :
    readNeighbors value = .ok neighbors ↔ NeighborList value neighbors := by
  constructor
  · intro h
    fun_induction readNeighbors value generalizing neighbors with
    | case1 a b c d e f p m m' m'' n rest hshort => cases h
    | case2 a b c d e f p m m' m'' n rest hlong ih =>
        obtain ⟨more, hmore, hneighbors⟩ := DecodeError.bind_eq_ok.1 h
        cases hneighbors
        have hlength : n.toNat = (rest.take n.toNat).length := by
          rw [List.length_take]
          omega
        have hlist := NeighborList.cons ⟨⟨a, b, c, d, e, f⟩, p⟩ m m' m'' hlength (ih hmore)
        rwa [List.take_append_drop] at hlist
    | case3 value hnot =>
        cases h
        exact .leftover (length_le_of_no_neighbor hnot)
  · intro h
    induction h with
    | leftover hshort =>
        rw [readNeighbors]
        rintro a b c d e f p m m' m'' n rest rfl
        simp only [List.length_cons] at hshort
        omega
    | cons node m m' m'' hlength hrest ih =>
        simp only [NodeId.toOctets, SystemId.toOctets, List.cons_append, List.nil_append]
        rw [readNeighbors, if_neg (by simp [hlength]), hlength, List.drop_left, ih]
        rfl

/-- The purge originator that a value starts with: one or two system IDs after their
number. -/
inductive StartsWithOriginator : Octets → PurgeOriginator → Prop
  | one (system : SystemId) (rest : Octets) :
      StartsWithOriginator (1 :: (system.toOctets ++ rest)) ⟨system, none⟩
  | two (system other : SystemId) (rest : Octets) :
      StartsWithOriginator (2 :: (system.toOctets ++ (other.toOctets ++ rest)))
        ⟨system, some other⟩

end Tlv

theorem SystemId.read_eq_ok_iff {octets rest : Octets} {id : SystemId} :
    SystemId.read octets = .ok (id, rest) ↔ octets = id.toOctets ++ rest := by
  constructor
  · intro h
    simp only [SystemId.read] at h
    split at h
    · cases h
      rfl
    · cases h
  · rintro rfl
    rfl

namespace Octets

theorem readU8_eq_ok_iff {octets rest : Octets} {a : UInt8} :
    readU8 octets = .ok (a, rest) ↔ octets = a :: rest := by
  cases octets <;> simp [readU8]

end Octets

namespace Tlv

theorem readPurgeOriginator_one (rest : Octets) :
    readPurgeOriginator (1 :: rest) =
      (DecodeError.ofReading (SystemId.read rest) >>= fun first => .ok ⟨first.1, none⟩) :=
  rfl

theorem readPurgeOriginator_two (rest : Octets) :
    readPurgeOriginator (2 :: rest) =
      (DecodeError.ofReading (SystemId.read rest) >>= fun first =>
        DecodeError.ofReading (SystemId.read first.2) >>= fun second =>
          .ok ⟨first.1, some second.1⟩) :=
  rfl

theorem readPurgeOriginator_other {count : UInt8} (rest : Octets) (h : count ≠ 1 ∧ count ≠ 2) :
    readPurgeOriginator (count :: rest) = .error (.systemIdCount count) :=
  if_pos h

/-- The reader of a purge originator looks at the number of system IDs and at these, and at
nothing behind them. -/
theorem readPurgeOriginator_eq_ok_iff {value : Octets} {originator : PurgeOriginator} :
    readPurgeOriginator value = .ok originator ↔ StartsWithOriginator value originator := by
  constructor
  · intro h
    cases value with
    | nil => cases h
    | cons count rest =>
        by_cases hone : count = 1
        · rw [hone, readPurgeOriginator_one, DecodeError.bind_eq_ok] at h
          obtain ⟨⟨system, after⟩, hsystem, h⟩ := h
          rw [DecodeError.ofReading_eq_ok, SystemId.read_eq_ok_iff] at hsystem
          cases h
          rw [hone, hsystem]
          exact .one system after
        by_cases htwo : count = 2
        · rw [htwo, readPurgeOriginator_two] at h
          simp only [DecodeError.bind_eq_ok, DecodeError.ofReading_eq_ok, Prod.exists,
            SystemId.read_eq_ok_iff] at h
          obtain ⟨system, after, hsystem, other, last, hother, h⟩ := h
          cases h
          rw [htwo, hsystem, hother]
          exact .two system other last
        · rw [readPurgeOriginator_other rest ⟨hone, htwo⟩] at h
          cases h
  · rintro (⟨system, rest⟩ | ⟨system, other, rest⟩)
    · rfl
    · rfl

/-- A string of a length that addresses can have is their octets. -/
theorem flatMap_takeIpv4 : ∀ {value : Octets}, value.length % 4 = 0 →
    (takeIpv4 value).flatMap Ipv4.toOctets = value
  | [], _ => rfl
  | a :: b :: c :: d :: rest, hlength => by
      have hrest : rest.length % 4 = 0 := by
        simp only [List.length_cons] at hlength
        omega
      rw [takeIpv4, List.flatMap_cons, flatMap_takeIpv4 hrest]
      rfl
  | [_], hlength | [_, _], hlength | [_, _, _], hlength => by simp at hlength

theorem readIpv4_eq_ok_iff {fieldLength : UInt8} {value : Octets} {addresses : List Ipv4} :
    readIpv4 fieldLength value = .ok addresses ↔ value = addresses.flatMap Ipv4.toOctets := by
  constructor
  · intro h
    rw [readIpv4] at h
    split_ifs at h with hlength
    cases h
    exact (flatMap_takeIpv4 (not_not.1 hlength)).symm
  · rintro rfl
    exact readIpv4_flatMap fieldLength addresses

theorem flatMap_takeIpv6 : ∀ {value : Octets}, value.length % 16 = 0 →
    (takeIpv6 value).flatMap Ipv6.toOctets = value
  | [], _ => rfl
  | a :: b :: c :: d :: e :: f :: g :: h :: i :: j :: k :: l :: m :: n :: o :: p :: rest,
      hlength => by
      have hrest : rest.length % 16 = 0 := by
        simp only [List.length_cons] at hlength
        omega
      rw [takeIpv6, List.flatMap_cons, flatMap_takeIpv6 hrest]
      simp [Ipv6.toOctets, Ipv6.groups, Octets.ofU16_word16]
  | [_], hlength | [_, _], hlength | [_, _, _], hlength | [_, _, _, _], hlength
  | [_, _, _, _, _], hlength | [_, _, _, _, _, _], hlength | [_, _, _, _, _, _, _], hlength
  | [_, _, _, _, _, _, _, _], hlength | [_, _, _, _, _, _, _, _, _], hlength
  | [_, _, _, _, _, _, _, _, _, _], hlength | [_, _, _, _, _, _, _, _, _, _, _], hlength
  | [_, _, _, _, _, _, _, _, _, _, _, _], hlength
  | [_, _, _, _, _, _, _, _, _, _, _, _, _], hlength
  | [_, _, _, _, _, _, _, _, _, _, _, _, _, _], hlength
  | [_, _, _, _, _, _, _, _, _, _, _, _, _, _, _], hlength => by simp at hlength

theorem readIpv6_eq_ok_iff {fieldLength : UInt8} {value : Octets} {addresses : List Ipv6} :
    readIpv6 fieldLength value = .ok addresses ↔ value = addresses.flatMap Ipv6.toOctets := by
  constructor
  · intro h
    rw [readIpv6] at h
    split_ifs at h with hlength
    cases h
    exact (flatMap_takeIpv6 (not_not.1 hlength)).symm
  · rintro rfl
    exact readIpv6_flatMap fieldLength addresses

theorem readHostname_eq_ok_iff {value : Octets} {hostname : String} :
    readHostname value = .ok hostname ↔
      value ≠ [] ∧ hostname = String.ofList (Text.Utf8.decode value) := by
  cases value <;> simp [readHostname, eq_comm]

/-! ### What is taken in -/

/-- The values of the fields of a type, in their order. -/
def valuesOf (code : UInt8) (fields : List Raw) : List Octets :=
  (fields.filter fun raw => raw.code = code).map Raw.value

theorem valuesOf_concat (code : UInt8) (fields : List Raw) (raw : Raw) :
    valuesOf code (fields ++ [raw]) =
      valuesOf code fields ++ if raw.code = code then [raw.value] else [] := by
  rw [valuesOf, List.filter_append, List.map_append, ← valuesOf]
  split_ifs with hcode <;> simp [hcode]

/-- One more field, where each field of the type adds an item to a list. -/
def Adds {α : Type} (code : UInt8) (R : Octets → α → Prop) (raw : Raw) (before after : List α) :
    Prop :=
  if raw.code = code then ∃ a, R raw.value a ∧ after = before ++ [a] else after = before

theorem forall₂_concat_iff {α β : Type} {R : α → β → Prop} {l : List α} {a : α} {m : List β} :
    List.Forall₂ R (l ++ [a]) m ↔ ∃ n, List.Forall₂ R l n ∧ ∃ b, R a b ∧ m = n ++ [b] := by
  constructor
  · intro h
    induction l generalizing m with
    | nil =>
        cases h with
        | cons hab hrest =>
            cases hrest
            exact ⟨[], .nil, _, hab, rfl⟩
    | cons first l ih =>
        cases h with
        | cons hfirst hrest =>
            obtain ⟨n, hn, b, hab, rfl⟩ := ih hrest
            exact ⟨_ :: n, .cons hfirst hn, b, hab, rfl⟩
  · rintro ⟨n, hn, b, hab, rfl⟩
    exact List.rel_append hn (.cons hab .nil)

theorem forall₂_valuesOf_concat_iff {α : Type} {code : UInt8} {R : Octets → α → Prop}
    {fields : List Raw} {raw : Raw} {after : List α} :
    List.Forall₂ R (valuesOf code (fields ++ [raw])) after ↔
      ∃ before, List.Forall₂ R (valuesOf code fields) before ∧ Adds code R raw before after := by
  rw [valuesOf_concat]
  unfold Adds
  split_ifs with hcode
  · exact forall₂_concat_iff
  · simp

/-- One more field, where only the first field of the type counts. -/
def AddsFirst {α : Type} (code : UInt8) (R : Octets → α → Prop) (raw : Raw)
    (before after : Option α) : Prop :=
  if raw.code = code ∧ before = none then ∃ a, R raw.value a ∧ after = some a else after = before

theorem rel_none_iff {α β : Type} {R : α → β → Prop} {b : Option β} :
    Option.Rel R none b ↔ b = none := by
  cases b <;> simp

theorem rel_some_iff {α β : Type} {R : α → β → Prop} {a : α} {b : Option β} :
    Option.Rel R (some a) b ↔ ∃ c, R a c ∧ b = some c := by
  cases b <;> simp

theorem rel_head?_valuesOf_concat_iff {α : Type} {code : UInt8} {R : Octets → α → Prop}
    {fields : List Raw} {raw : Raw} {after : Option α} :
    Option.Rel R (valuesOf code (fields ++ [raw])).head? after ↔
      ∃ before, Option.Rel R (valuesOf code fields).head? before ∧
        AddsFirst code R raw before after := by
  rw [valuesOf_concat]
  unfold AddsFirst
  cases valuesOf code fields with
  | nil => by_cases hcode : raw.code = code <;> simp [hcode, rel_none_iff, rel_some_iff]
  | cons first more => simp [rel_some_iff]

end Tlv

attribute [ext] LspTlvs

namespace LspTlvs

open Tlv

@[mk_iff]
structure Takes (raw : Raw) (before after : LspTlvs) : Prop where
  areas : Adds Tlv.areas AreaList raw before.areas after.areas
  purgeOriginator : AddsFirst Tlv.purgeOriginator StartsWithOriginator raw before.purgeOriginator
    after.purgeOriginator
  isReach : Adds Tlv.isReach NeighborList raw before.isReach after.isReach
  protocols : after.protocols =
    if raw.code = Tlv.protocols then before.protocols.or (some raw.value) else before.protocols
  ipv4 : Adds Tlv.ipv4 (fun value addresses => value = addresses.flatMap Ipv4.toOctets) raw
    before.ipv4 after.ipv4
  ipv6 : Adds Tlv.ipv6 (fun value addresses => value = addresses.flatMap Ipv6.toOctets) raw
    before.ipv6 after.ipv6
  hostname :
    if raw.code = Tlv.hostname then
      raw.value ≠ [] ∧ after.hostname = some (String.ofList (Text.Utf8.decode raw.value))
    else after.hostname = before.hostname
  unknown : after.unknown = before.unknown ++ if raw.code ∈ knownCodes then [] else [raw.unknown]

/-- How a field is taken in depends on its type, and on whether one of that type was taken in
before. -/
theorem read_eq_ok_iff {raw : Raw} {before after : LspTlvs} :
    read before raw = .ok after ↔ Takes raw before after := by
  simp only [takes_iff, Adds, AddsFirst]
  by_cases hareas : raw.code = Tlv.areas
  · simp +decide only [read, hareas, DecodeError.bind_eq_ok, readAreas_eq_ok_iff, pure,
      Except.pure, if_true, if_false, Except.ok.injEq, LspTlvs.ext_iff, List.append_nil, false_and]
    grind
  by_cases horiginator : raw.code = Tlv.purgeOriginator
  · cases hbefore : before.purgeOriginator with
    | none =>
        simp +decide only [read, horiginator, hbefore, DecodeError.bind_eq_ok,
          readPurgeOriginator_eq_ok_iff, pure, Except.pure, if_true, if_false, Except.ok.injEq,
          LspTlvs.ext_iff, List.append_nil, true_and]
        grind
    | some kept =>
        simp +decide only [read, horiginator, hbefore, Option.isSome_some, if_true, if_false,
          Except.ok.injEq, LspTlvs.ext_iff, List.append_nil, true_and]
        grind
  by_cases hhostname : raw.code = Tlv.hostname
  · simp +decide only [read, hhostname, DecodeError.bind_eq_ok, readHostname_eq_ok_iff, pure,
      Except.pure, if_true, if_false, Except.ok.injEq, LspTlvs.ext_iff, List.append_nil, false_and]
    grind
  by_cases hreach : raw.code = Tlv.isReach
  · simp +decide only [read, hreach, DecodeError.bind_eq_ok, readNeighbors_eq_ok_iff, pure,
      Except.pure, if_true, if_false, Except.ok.injEq, LspTlvs.ext_iff, List.append_nil, false_and]
    grind
  by_cases hprotocols : raw.code = Tlv.protocols
  · simp +decide only [read, hprotocols, if_true, if_false, Except.ok.injEq, LspTlvs.ext_iff,
      List.append_nil, false_and]
    cases hbefore : before.protocols <;> grind
  by_cases hipv4 : raw.code = Tlv.ipv4
  · simp +decide only [read, hipv4, DecodeError.bind_eq_ok, readIpv4_eq_ok_iff, pure,
      Except.pure, if_true, if_false, Except.ok.injEq, LspTlvs.ext_iff, List.append_nil, false_and]
    grind
  by_cases hipv6 : raw.code = Tlv.ipv6
  · simp +decide only [read, hipv6, DecodeError.bind_eq_ok, readIpv6_eq_ok_iff, pure,
      Except.pure, if_true, if_false, Except.ok.injEq, LspTlvs.ext_iff, List.append_nil, false_and]
    grind
  · have hunknown : raw.code ∉ knownCodes := by
      simp only [knownCodes, List.mem_cons, List.not_mem_nil, or_false]
      tauto
    simp only [read, hareas, horiginator, hhostname, hreach, hprotocols, hipv4, hipv6, hunknown,
      if_false, Except.ok.injEq, LspTlvs.ext_iff, false_and]
    grind

/-- What is taken in from a sequence of fields: the lists, once for each field and in their
order, the first purge originator and the first list of protocols, and the last hostname. -/
structure Reads (fields : List Raw) (tlvs : LspTlvs) : Prop where
  areas : List.Forall₂ AreaList (valuesOf Tlv.areas fields) tlvs.areas
  purgeOriginator : Option.Rel StartsWithOriginator
    (valuesOf Tlv.purgeOriginator fields).head? tlvs.purgeOriginator
  isReach : List.Forall₂ NeighborList (valuesOf Tlv.isReach fields) tlvs.isReach
  protocols : tlvs.protocols = (valuesOf Tlv.protocols fields).head?
  ipv4 : List.Forall₂ (fun value addresses => value = addresses.flatMap Ipv4.toOctets)
    (valuesOf Tlv.ipv4 fields) tlvs.ipv4
  ipv6 : List.Forall₂ (fun value addresses => value = addresses.flatMap Ipv6.toOctets)
    (valuesOf Tlv.ipv6 fields) tlvs.ipv6
  hostname : tlvs.hostname = (valuesOf Tlv.hostname fields).getLast?.map fun value =>
    String.ofList (Text.Utf8.decode value)
  named : ∀ value ∈ valuesOf Tlv.hostname fields, value ≠ []
  unknown : tlvs.unknown = (fields.filter fun raw => raw.code ∉ knownCodes).map Raw.unknown

theorem reads_nil_iff {tlvs : LspTlvs} : Reads [] tlvs ↔ tlvs = empty := by
  constructor
  · intro h
    apply LspTlvs.ext
    · exact h.protocols
    · exact List.forall₂_nil_left_iff.1 h.areas
    · exact rel_none_iff.1 h.purgeOriginator
    · exact h.hostname
    · exact List.forall₂_nil_left_iff.1 h.isReach
    · exact List.forall₂_nil_left_iff.1 h.ipv4
    · exact List.forall₂_nil_left_iff.1 h.ipv6
    · exact h.unknown
  · rintro rfl
    exact ⟨.nil, .none, .nil, rfl, .nil, .nil, rfl, by simp [valuesOf], rfl⟩

/-- One more field at the end is taken in after all others. -/
theorem Reads.concat {fields : List Raw} {raw : Raw} {before after : LspTlvs}
    (hreads : Reads fields before) (htakes : Takes raw before after) :
    Reads (fields ++ [raw]) after where
  areas := forall₂_valuesOf_concat_iff.2 ⟨_, hreads.areas, htakes.areas⟩
  purgeOriginator :=
    rel_head?_valuesOf_concat_iff.2 ⟨_, hreads.purgeOriginator, htakes.purgeOriginator⟩
  isReach := forall₂_valuesOf_concat_iff.2 ⟨_, hreads.isReach, htakes.isReach⟩
  protocols := by
    rw [valuesOf_concat, htakes.protocols, hreads.protocols]
    split_ifs <;> simp
  ipv4 := forall₂_valuesOf_concat_iff.2 ⟨_, hreads.ipv4, htakes.ipv4⟩
  ipv6 := forall₂_valuesOf_concat_iff.2 ⟨_, hreads.ipv6, htakes.ipv6⟩
  hostname := by
    have hhostname := htakes.hostname
    rw [valuesOf_concat]
    split_ifs at hhostname ⊢ with hcode
    · simp [hhostname.2]
    · rw [hhostname, hreads.hostname, List.append_nil]
  named := by
    have hhostname := htakes.hostname
    rw [valuesOf_concat]
    split_ifs at hhostname ⊢ with hcode
    · intro value hvalue
      rcases List.mem_append.1 hvalue with hold | hnew
      · exact hreads.named value hold
      · rw [List.mem_singleton.1 hnew]
        exact hhostname.1
    · simpa using hreads.named
  unknown := by
    rw [htakes.unknown, hreads.unknown]
    split_ifs with hcode <;> simp [hcode]

/-- Before the last field was taken in, the others had been. -/
theorem Reads.exists_takes {fields : List Raw} {raw : Raw} {after : LspTlvs}
    (h : Reads (fields ++ [raw]) after) : ∃ before, Reads fields before ∧ Takes raw before after := by
  obtain ⟨areas, hareas, hareas'⟩ := forall₂_valuesOf_concat_iff.1 h.areas
  obtain ⟨originator, horiginator, horiginator'⟩ :=
    rel_head?_valuesOf_concat_iff.1 h.purgeOriginator
  obtain ⟨isReach, hreach, hreach'⟩ := forall₂_valuesOf_concat_iff.1 h.isReach
  obtain ⟨ipv4, hipv4, hipv4'⟩ := forall₂_valuesOf_concat_iff.1 h.ipv4
  obtain ⟨ipv6, hipv6, hipv6'⟩ := forall₂_valuesOf_concat_iff.1 h.ipv6
  refine ⟨⟨(valuesOf Tlv.protocols fields).head?, areas, originator,
    (valuesOf Tlv.hostname fields).getLast?.map fun value => String.ofList (Text.Utf8.decode value),
    isReach, ipv4, ipv6, (fields.filter fun raw => raw.code ∉ knownCodes).map Raw.unknown⟩,
    ⟨hareas, horiginator, hreach, rfl, hipv4, hipv6, rfl, ?_, rfl⟩,
    ⟨hareas', horiginator', hreach', ?_, hipv4', hipv6', ?_, ?_⟩⟩
  · intro value hvalue
    apply h.named
    rw [valuesOf_concat]
    exact List.mem_append_left _ hvalue
  · rw [h.protocols, valuesOf_concat]
    split_ifs <;> simp
  · have hnamed := h.named
    rw [h.hostname]
    rw [valuesOf_concat] at hnamed ⊢
    split_ifs at hnamed ⊢ with hcode
    · exact ⟨hnamed _ (by simp), by simp⟩
    · rw [List.append_nil]
  · rw [h.unknown]
    split_ifs with hcode <;> simp [hcode]

/-- The fields are taken in one after the other. -/
theorem foldlM_read_eq_ok_iff {fields : List Raw} {tlvs : LspTlvs} :
    fields.foldlM read empty = .ok tlvs ↔ Reads fields tlvs := by
  induction fields using List.reverseRecOn generalizing tlvs with
  | nil =>
      rw [reads_nil_iff, eq_comm (a := tlvs)]
      simp [pure, Except.pure]
  | append_singleton fields raw ih =>
      rw [List.foldlM_append, DecodeError.bind_eq_ok]
      simp only [ih, List.foldlM_cons, List.foldlM_nil, bind_pure, read_eq_ok_iff]
      exact ⟨fun ⟨before, hreads, htakes⟩ => hreads.concat htakes, Reads.exists_takes⟩

/-! ### Which fields are accepted -/

theorem exists_forall₂_iff {α β : Type} {R : α → β → Prop} {l : List α} :
    (∃ m, List.Forall₂ R l m) ↔ ∀ a ∈ l, ∃ b, R a b := by
  induction l with
  | nil => simp
  | cons a l ih =>
      rw [List.forall_mem_cons, ← ih]
      constructor
      · rintro ⟨m, hm⟩
        cases hm with
        | cons hab hrest => exact ⟨⟨_, hab⟩, _, hrest⟩
      · rintro ⟨⟨b, hab⟩, m, hm⟩
        exact ⟨b :: m, .cons hab hm⟩

/-- The values that a sequence of fields may have: area addresses of at most 13 octets behind
their lengths, one or two system IDs behind their number in the first purge originator,
neighbours with at most ten octets left over, whole IP addresses, hostnames with an octet.
Any other value may be anything. -/
@[mk_iff]
structure Acceptable (fields : List Raw) : Prop where
  areas : ∀ value ∈ valuesOf Tlv.areas fields, ∃ addresses, AreaList value addresses
  purgeOriginator : ∀ value ∈ (valuesOf Tlv.purgeOriginator fields).head?, ∃ count rest,
    value = count :: rest ∧ (count = 1 ∨ count = 2) ∧ 6 * count.toNat ≤ rest.length
  isReach : ∀ value ∈ valuesOf Tlv.isReach fields, ∃ neighbors, NeighborList value neighbors
  ipv4 : ∀ value ∈ valuesOf Tlv.ipv4 fields, value.length % 4 = 0
  ipv6 : ∀ value ∈ valuesOf Tlv.ipv6 fields, value.length % 16 = 0
  hostname : ∀ value ∈ valuesOf Tlv.hostname fields, value ≠ []

theorem exists_systemId_iff {octets : Octets} :
    6 ≤ octets.length ↔ ∃ (id : SystemId) (rest : Octets), octets = id.toOctets ++ rest := by
  constructor
  · intro h
    match octets with
    | a :: b :: c :: d :: e :: f :: rest => exact ⟨⟨a, b, c, d, e, f⟩, rest, rfl⟩
    | [] | [_] | [_, _] | [_, _, _] | [_, _, _, _] | [_, _, _, _, _] => simp at h
  · rintro ⟨id, rest, rfl⟩
    simp [SystemId.toOctets]

/-- Whether a value starts with a purge originator can be told from its first octet and its
length. -/
theorem exists_originator_iff {value : Octets} :
    (∃ originator, StartsWithOriginator value originator) ↔ ∃ count rest,
      value = count :: rest ∧ (count = 1 ∨ count = 2) ∧ 6 * count.toNat ≤ rest.length := by
  constructor
  · rintro ⟨_, ⟨system, rest⟩ | ⟨system, other, rest⟩⟩
    · exact ⟨1, _, rfl, .inl rfl, by simp [SystemId.toOctets]⟩
    · exact ⟨2, _, rfl, .inr rfl, by simp [SystemId.toOctets]⟩
  · rintro ⟨count, rest, rfl, rfl | rfl, hlength⟩
    · obtain ⟨system, rest, rfl⟩ := exists_systemId_iff.1 (show 6 ≤ rest.length from hlength)
      exact ⟨_, .one system rest⟩
    · have htwo : 12 ≤ rest.length := hlength
      obtain ⟨system, rest, rfl⟩ := exists_systemId_iff.1 (show 6 ≤ rest.length by omega)
      have hone : 6 ≤ rest.length := by
        simp [SystemId.toOctets] at htwo
        omega
      obtain ⟨other, rest, rfl⟩ := exists_systemId_iff.1 hone
      exact ⟨_, .two system other rest⟩

theorem exists_ipv4_iff {value : Octets} :
    (∃ addresses : List Ipv4, value = addresses.flatMap Ipv4.toOctets) ↔ value.length % 4 = 0 := by
  constructor
  · rintro ⟨addresses, rfl⟩
    rw [length_flatMap_of_size (fun address => show address.toOctets.length = 4 from rfl)]
    exact Nat.mul_mod_left _ _
  · exact fun h => ⟨takeIpv4 value, (flatMap_takeIpv4 h).symm⟩

theorem exists_ipv6_iff {value : Octets} :
    (∃ addresses : List Ipv6, value = addresses.flatMap Ipv6.toOctets) ↔ value.length % 16 = 0 := by
  constructor
  · rintro ⟨addresses, rfl⟩
    rw [length_flatMap_of_size (fun address => show address.toOctets.length = 16 from rfl)]
    exact Nat.mul_mod_left _ _
  · exact fun h => ⟨takeIpv6 value, (flatMap_takeIpv6 h).symm⟩

/-- A sequence of fields is taken in exactly if its values are acceptable. -/
theorem exists_reads_iff {fields : List Raw} :
    (∃ tlvs, Reads fields tlvs) ↔ Acceptable fields := by
  have hfirst : (∀ value ∈ (valuesOf Tlv.purgeOriginator fields).head?, ∃ count rest,
      value = count :: rest ∧ (count = 1 ∨ count = 2) ∧ 6 * count.toNat ≤ rest.length) ↔
      ∃ originator, Option.Rel StartsWithOriginator
        (valuesOf Tlv.purgeOriginator fields).head? originator := by
    cases (valuesOf Tlv.purgeOriginator fields).head? with
    | none => simp [rel_none_iff]
    | some value => simp [rel_some_iff, exists_originator_iff]
  rw [acceptable_iff, hfirst, ← exists_forall₂_iff, ← exists_forall₂_iff]
  simp only [← exists_ipv4_iff, ← exists_ipv6_iff]
  rw [← exists_forall₂_iff, ← exists_forall₂_iff]
  constructor
  · rintro ⟨tlvs, h⟩
    exact ⟨⟨_, h.areas⟩, ⟨_, h.purgeOriginator⟩, ⟨_, h.isReach⟩, ⟨_, h.ipv4⟩, ⟨_, h.ipv6⟩, h.named⟩
  · rintro ⟨⟨areas, hareas⟩, ⟨originator, horiginator⟩, ⟨isReach, hreach⟩, ⟨ipv4, hipv4⟩,
      ⟨ipv6, hipv6⟩, hnamed⟩
    exact ⟨⟨_, areas, originator, _, isReach, ipv4, ipv6, _⟩,
      ⟨hareas, horiginator, hreach, rfl, hipv4, hipv6, rfl, hnamed, rfl⟩⟩

end LspTlvs

end LinkState
