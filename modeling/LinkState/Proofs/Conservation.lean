import LinkState.Proofs.Fragments

/-!
# Fragments hold everything

Dividing values into fields keeps all of them, in order, and leaves no field empty.  Packing
takes fields from the front of each list, so that a fragment and what is left after it are
made of the fields of the whole.  As long as each field fits into a fragment of its own,
every fragment takes at least one, and when no more fragments come nothing is left.  A field
that does not fit stays, and all after it.
-/

namespace LinkState

/-- The values that fields may be repeated for. -/
structure Content where
  areas : List AreaAddress
  isReach : List Neighbor
  ipv4 : List Ipv4
  ipv6 : List Ipv6
  deriving DecidableEq, Repr

def Content.count (content : Content) : Nat :=
  content.areas.length + content.isReach.length + content.ipv4.length + content.ipv6.length

namespace Tlv

variable {α : Type} {size : α → Nat}

/-! ### Dividing values into fields -/

/-- Dividing values into fields loses none of them and keeps their order. -/
theorem flatten_divideFrom (size : α → Nat) (field : List α) (used : Nat) (values : List α) :
    (divideFrom size field used values).flatten = field ++ values := by
  induction values generalizing field used with
  | nil =>
      rw [divideFrom]
      split
      · rename_i hempty
        rw [List.isEmpty_iff.1 hempty]
        rfl
      · rw [List.flatten_singleton, List.append_nil]
  | cons value rest ih =>
      rw [divideFrom]
      split
      · rw [List.flatten_cons, ih, List.singleton_append]
      · rw [ih, List.append_assoc, List.singleton_append]

/-- The fields hold all values, in order. -/
theorem flatten_divide (size : α → Nat) (values : List α) :
    (divide size values).flatten = values :=
  flatten_divideFrom size [] 0 values

/-- No field comes out empty, since a value that starts a field fits into it. -/
theorem ne_nil_of_mem_divideFrom {field values : List α} {used : Nat}
    (hused : total size field = used) (hsize : ∀ value ∈ values, size value ≤ maxLength) :
    ∀ out ∈ divideFrom size field used values, out ≠ [] := by
  induction values generalizing field used with
  | nil =>
      intro out hout
      rw [divideFrom] at hout
      split at hout
      · cases hout
      · rename_i hnonempty
        rw [List.mem_singleton.1 hout]
        exact fun hnil => hnonempty (List.isEmpty_iff.2 hnil)
  | cons value rest ih =>
      have hrest : ∀ other ∈ rest, size other ≤ maxLength :=
        fun other hother => hsize other (List.mem_cons_of_mem _ hother)
      intro out hout
      rw [divideFrom] at hout
      split at hout
      · rename_i hfull
        rcases List.mem_cons.1 hout with rfl | hlater
        · -- A field is closed only if there is something in it, since a value fits on its own.
          rintro rfl
          rw [← hused, total, Nat.zero_add] at hfull
          exact Nat.not_lt.2 (hsize value List.mem_cons_self) hfull
        · exact ih (Nat.add_zero _) hrest out hlater
      · exact ih (by rw [total_append, hused]; exact congrArg _ (Nat.add_zero _)) hrest out hout

/-- No field is empty if the values fit into a field on their own. -/
theorem ne_nil_of_mem_divide {values : List α} (hsize : ∀ value ∈ values, size value ≤ maxLength)
    {field : List α} (h : field ∈ divide size values) : field ≠ [] :=
  ne_nil_of_mem_divideFrom rfl hsize field h

/-- Of values of at most 127 octets, every field but the last holds at least two. -/
theorem length_divideFrom_le {field values : List α} {used : Nat}
    (hsize : ∀ value ∈ values, size value ≤ 127) (hused : used ≤ 127 * field.length) :
    2 * (divideFrom size field used values).length ≤ field.length + values.length + 1 := by
  induction values generalizing field used with
  | nil =>
      rw [divideFrom]
      split
      · exact Nat.zero_le _
      · rename_i hnonempty
        have hpos : 0 < field.length :=
          List.length_pos_iff.2 fun hnil => hnonempty (List.isEmpty_iff.2 hnil)
        rw [List.length_singleton, List.length_nil]
        omega
  | cons value rest ih =>
      have hvalue : size value ≤ 127 := hsize value List.mem_cons_self
      have hrest : ∀ other ∈ rest, size other ≤ 127 :=
        fun other hother => hsize other (List.mem_cons_of_mem _ hother)
      rw [divideFrom, List.length_cons]
      split
      · -- A field with at most one value would have had room for another.
        rename_i hfull
        have hfull : 255 < used + size value := hfull
        have hlater : 2 * (divideFrom size [value] (size value) rest).length ≤
            1 + rest.length + 1 :=
          ih hrest hvalue
        rw [List.length_cons]
        omega
      · have hlonger : (field ++ [value]).length = field.length + 1 := List.length_append
        have hused : used + size value ≤ 127 * (field ++ [value]).length := by
          rw [hlonger]
          omega
        have hlater := ih hrest hused
        rw [hlonger] at hlater
        omega

/-- If two values always fit into a field, at most the last field has a single one. -/
theorem length_divide_le {values : List α} (hsize : ∀ value ∈ values, size value ≤ 127) :
    2 * (divide size values).length ≤ values.length + 1 := by
  have hlength := length_divideFrom_le hsize (Nat.zero_le (127 * ([] : List α).length))
  rw [List.length_nil, Nat.zero_add] at hlength
  exact hlength

/-- Fields that hold given values, in order.  None is empty, and none has more octets than its
length octet can tell. -/
structure Divided (octets : α → Octets) (values : List α) (fields : List (List α)) : Prop where
  whole : fields.flatten = values
  nonempty : ∀ field ∈ fields, field ≠ []
  short : ∀ field ∈ fields, (field.flatMap octets).length ≤ maxLength

/-- Some of the fields, from the front, hold all values only if no field is left. -/
theorem Divided.flatten_eq_iff {octets : α → Octets} {values : List α} {taken left : List (List α)}
    (h : Divided octets values (taken ++ left)) : taken.flatten = values ↔ left = [] := by
  have hwhole : taken.flatten ++ left.flatten = values := by
    rw [← List.flatten_append]
    exact h.whole
  constructor
  · intro htaken
    rw [htaken, List.append_right_eq_self, List.flatten_eq_nil_iff] at hwhole
    apply List.eq_nil_iff_forall_not_mem.2
    intro field hfield
    exact h.nonempty field (List.mem_append_right _ hfield) (hwhole field hfield)
  · rintro rfl
    rw [← hwhole, List.flatten_nil, List.append_nil]

theorem divided_divide {octets : α → Octets} {values : List α}
    (hoctets : ∀ value, (octets value).length = size value)
    (hsize : ∀ value ∈ values, size value ≤ maxLength) :
    Divided octets values (divide size values) where
  whole := flatten_divide size values
  nonempty _ hfield := ne_nil_of_mem_divide hsize hfield
  short field hfield := by
    rw [length_flatMap fun value _ => hoctets value]
    exact (divide_spec hsize hfield).1

/-! ### Packing fields -/

/-- Fields that fit on their own are all packed, or at least one of them is. -/
theorem eq_nil_of_pack_eq_nil {fields : List α} {room : Nat}
    (hfits : ∀ field ∈ fields, size field ≤ room) (h : (pack size fields room).taken = []) :
    fields = [] ∧ (pack size fields room).room = room := by
  cases fields with
  | nil => exact ⟨rfl, rfl⟩
  | cons field rest =>
      rw [pack, if_pos (hfits field List.mem_cons_self)] at h
      cases h

theorem le_total_of_mem (size : α → Nat) {fields : List α} {field : α} (h : field ∈ fields) :
    size field ≤ total size fields := by
  induction fields with
  | nil => cases h
  | cons first rest ih =>
      rw [total]
      rcases List.mem_cons.1 h with rfl | hrest
      · exact Nat.le_add_right _ _
      · exact Nat.le_trans (ih hrest) (Nat.le_add_left _ _)

end Tlv

namespace LspTlvs

variable {tlvs fragment left rest : LspTlvs} {fragments : List LspTlvs} {maxSize count : Nat}

/-! ### A fragment and what is left -/

/-- A fragment has the fields that occur once, and together with what is left after it the
others, in order. -/
structure Splits (tlvs fragment left : LspTlvs) : Prop where
  protocols : fragment.protocols = tlvs.protocols
  purgeOriginator : fragment.purgeOriginator = tlvs.purgeOriginator
  hostname : fragment.hostname = tlvs.hostname
  areas : fragment.areas ++ left.areas = tlvs.areas
  isReach : fragment.isReach ++ left.isReach = tlvs.isReach
  ipv4 : fragment.ipv4 ++ left.ipv4 = tlvs.ipv4
  ipv6 : fragment.ipv6 ++ left.ipv6 = tlvs.ipv6
  unknown : fragment.unknown ++ left.unknown = tlvs.unknown

/-- There are none of the fields that occur once. -/
structure Bare (tlvs : LspTlvs) : Prop where
  protocols : tlvs.protocols = none
  purgeOriginator : tlvs.purgeOriginator = none
  hostname : tlvs.hostname = none

/-- Each field that may be repeated is no longer than a length. -/
structure Fits (tlvs : LspTlvs) (maxSize : Nat) : Prop where
  areas : ∀ field ∈ tlvs.areas, areasSize field ≤ maxSize
  isReach : ∀ field ∈ tlvs.isReach, isReachSize field ≤ maxSize
  ipv4 : ∀ field ∈ tlvs.ipv4, ipv4Size field ≤ maxSize
  ipv6 : ∀ field ∈ tlvs.ipv6, ipv6Size field ≤ maxSize
  unknown : ∀ field ∈ tlvs.unknown, unknownSize field ≤ maxSize

def fieldCount (tlvs : LspTlvs) : Nat :=
  tlvs.areas.length + tlvs.isReach.length + tlvs.ipv4.length + tlvs.ipv6.length +
    tlvs.unknown.length

theorem Bare.eq_empty (h : tlvs.Bare) (hcount : tlvs.fieldCount = 0) : tlvs = empty := by
  simp only [fieldCount, Nat.add_eq_zero_iff, List.length_eq_zero_iff] at hcount
  obtain ⟨hprotocols, horiginator, hhostname⟩ := h
  obtain ⟨⟨⟨⟨hareas, hisReach⟩, hipv4⟩, hipv6⟩, hunknown⟩ := hcount
  cases tlvs
  simp_all [empty]

theorem splits_nextFragment (h : tlvs.nextFragment maxSize = some (fragment, left)) :
    Splits tlvs fragment left ∧ left.Bare := by
  simp only [nextFragment] at h
  split at h
  · cases h
  cases h
  exact ⟨⟨rfl, rfl, rfl, Tlv.pack_taken_append_left _ _, Tlv.pack_taken_append_left _ _,
    Tlv.pack_taken_append_left _ _, Tlv.pack_taken_append_left _ _,
    Tlv.pack_taken_append_left _ _⟩, ⟨rfl, rfl, rfl⟩⟩

theorem Splits.fieldCount (h : Splits tlvs fragment left) :
    fragment.fieldCount + left.fieldCount = tlvs.fieldCount := by
  simp only [LspTlvs.fieldCount, ← h.areas, ← h.isReach, ← h.ipv4, ← h.ipv6, ← h.unknown,
    List.length_append]
  omega

/-- What is left of fields that fit fits. -/
theorem Splits.fits (h : Splits tlvs fragment left) (hfits : tlvs.Fits maxSize) :
    left.Fits maxSize where
  areas field hfield := hfits.areas field (h.areas ▸ List.mem_append_right _ hfield)
  isReach field hfield := hfits.isReach field (h.isReach ▸ List.mem_append_right _ hfield)
  ipv4 field hfield := hfits.ipv4 field (h.ipv4 ▸ List.mem_append_right _ hfield)
  ipv6 field hfield := hfits.ipv6 field (h.ipv6 ▸ List.mem_append_right _ hfield)
  unknown field hfield := hfits.unknown field (h.unknown ▸ List.mem_append_right _ hfield)

/-- A field of a fragment is no longer than the fragment. -/
theorem fits_size (tlvs : LspTlvs) : tlvs.Fits tlvs.size where
  areas field hfield := by
    have hfield := Tlv.le_total_of_mem areasSize hfield
    rw [size]
    omega
  isReach field hfield := by
    have hfield := Tlv.le_total_of_mem isReachSize hfield
    rw [size]
    omega
  ipv4 field hfield := by
    have hfield := Tlv.le_total_of_mem ipv4Size hfield
    rw [size]
    omega
  ipv6 field hfield := by
    have hfield := Tlv.le_total_of_mem ipv6Size hfield
    rw [size]
    omega
  unknown field hfield := by
    have hfield := Tlv.le_total_of_mem unknownSize hfield
    rw [size]
    omega

/-- When all fields fit and no fragment comes next, there are no fields. -/
theorem eq_empty_of_nextFragment (hfits : tlvs.Fits maxSize)
    (h : tlvs.nextFragment maxSize = none) : tlvs = empty := by
  simp only [nextFragment] at h
  split at h
  · rename_i hempty
    simp only [empty, LspTlvs.mk.injEq] at hempty
    obtain ⟨hprotocols, hareas, horiginator, hhostname, hisReach, hipv4, hipv6, hunknown⟩ := hempty
    -- Nothing occurs once, so that each list is packed with all the room there is.
    simp only [hprotocols, horiginator, hhostname, Option.map_none, Option.getD_none,
      Nat.sub_zero] at hareas hipv4 hipv6 hisReach hunknown
    obtain ⟨hareas, hroom⟩ := Tlv.eq_nil_of_pack_eq_nil hfits.areas hareas
    rw [hroom] at hipv4 hipv6 hisReach hunknown
    obtain ⟨hipv4, hroom⟩ := Tlv.eq_nil_of_pack_eq_nil hfits.ipv4 hipv4
    rw [hroom] at hipv6 hisReach hunknown
    obtain ⟨hipv6, hroom⟩ := Tlv.eq_nil_of_pack_eq_nil hfits.ipv6 hipv6
    rw [hroom] at hisReach hunknown
    obtain ⟨hisReach, hroom⟩ := Tlv.eq_nil_of_pack_eq_nil hfits.isReach hisReach
    rw [hroom] at hunknown
    obtain ⟨hunknown, -⟩ := Tlv.eq_nil_of_pack_eq_nil hfits.unknown hunknown
    apply Bare.eq_empty ⟨hprotocols, horiginator, hhostname⟩
    rw [fieldCount, hareas, hisReach, hipv4, hipv6, hunknown]
    rfl
  · cases h

/-- When nothing occurs once, a fragment takes at least one field. -/
theorem Bare.fieldCount_lt (h : tlvs.Bare)
    (hnext : tlvs.nextFragment maxSize = some (fragment, left)) :
    left.fieldCount < tlvs.fieldCount := by
  obtain ⟨hsplits, -⟩ := splits_nextFragment hnext
  have hfragment : fragment.Bare := ⟨hsplits.protocols.trans h.protocols,
    hsplits.purgeOriginator.trans h.purgeOriginator, hsplits.hostname.trans h.hostname⟩
  have hsome : fragment.fieldCount ≠ 0 :=
    fun hnone => ne_empty_of_nextFragment hnext (hfragment.eq_empty hnone)
  have hcount := hsplits.fieldCount
  omega

/-! ### Fragments -/

/-- What each fragment takes from the front of a list makes up the list, with what is left. -/
theorem fragments_append {α : Type} {list : LspTlvs → List α}
    (hlist : ∀ {tlvs fragment left}, Splits tlvs fragment left →
      list fragment ++ list left = list tlvs)
    (h : tlvs.fragments maxSize count = (fragments, rest)) :
    fragments.flatMap list ++ list rest = list tlvs := by
  induction count generalizing tlvs fragments with
  | zero =>
      cases h
      rfl
  | succ count ih =>
      rw [LspTlvs.fragments] at h
      split at h
      · cases h
        rfl
      · rename_i first left hnext
        cases h
        rw [List.flatMap_cons, List.append_assoc, ih rfl]
        exact hlist (splits_nextFragment hnext).1

/-! ### All fragments -/

/-- Fragments of at most a given length are taken from fields until no more come. -/
inductive Fragmented (maxSize : Nat) : LspTlvs → List LspTlvs → LspTlvs → Prop
  | done {tlvs : LspTlvs} (hnext : tlvs.nextFragment maxSize = none) :
      Fragmented maxSize tlvs [] tlvs
  | next {tlvs fragment left rest : LspTlvs} {more : List LspTlvs}
      (hnext : tlvs.nextFragment maxSize = some (fragment, left))
      (hmore : Fragmented maxSize left more rest) : Fragmented maxSize tlvs (fragment :: more) rest

namespace Fragmented

theorem eq_of_nil (h : Fragmented maxSize tlvs [] rest) : tlvs = rest := by
  cases h
  rfl

/-- As many fragments as are asked for are all of them, if there are no more. -/
theorem fragments_eq (h : Fragmented maxSize tlvs fragments rest)
    (hcount : fragments.length ≤ count) : tlvs.fragments maxSize count = (fragments, rest) := by
  induction h generalizing count with
  | done hnext =>
      cases count with
      | zero => rfl
      | succ count => rw [LspTlvs.fragments, hnext]
  | next hnext _ ih =>
      cases count with
      | zero => cases hcount
      | succ count => simp only [LspTlvs.fragments, hnext, ih (Nat.le_of_succ_le_succ hcount)]

theorem bare (h : Fragmented maxSize tlvs fragments rest) (hbare : tlvs.Bare) :
    ∀ fragment ∈ fragments, fragment.Bare := by
  induction h with
  | done => exact fun _ hnone => nomatch hnone
  | next hnext _ ih =>
      obtain ⟨hsplits, hleft⟩ := splits_nextFragment hnext
      intro fragment hmem
      rcases List.mem_cons.1 hmem with rfl | hmore
      · exact ⟨hsplits.protocols.trans hbare.protocols,
          hsplits.purgeOriginator.trans hbare.purgeOriginator,
          hsplits.hostname.trans hbare.hostname⟩
      · exact ih hleft fragment hmore

end Fragmented

/-- Fields that all fit are used up, as every fragment takes at least one of them. -/
theorem Bare.fragmented (h : tlvs.Bare) (hfits : tlvs.Fits maxSize) :
    ∃ fragments, Fragmented maxSize tlvs fragments empty ∧
      fragments.length ≤ tlvs.fieldCount := by
  induction hcount : tlvs.fieldCount using Nat.strongRecOn generalizing tlvs with
  | ind count ih =>
      cases hnext : tlvs.nextFragment maxSize with
      | none =>
          obtain rfl := eq_empty_of_nextFragment hfits hnext
          exact ⟨[], .done hnext, Nat.zero_le _⟩
      | some next =>
          obtain ⟨fragment, left⟩ := next
          obtain ⟨hsplits, hleft⟩ := splits_nextFragment hnext
          have hfewer : left.fieldCount < count := hcount ▸ h.fieldCount_lt hnext
          obtain ⟨more, hmore, hlength⟩ := ih _ hfewer hleft (hsplits.fits hfits) rfl
          exact ⟨fragment :: more, .next hnext hmore, Nat.lt_of_le_of_lt hlength hfewer⟩

/-- When all fields fit, nothing is left after the last fragment.  Each fragment after the
first has a field. -/
theorem Fits.fragmented (hfits : tlvs.Fits maxSize) :
    ∃ fragments, Fragmented maxSize tlvs fragments empty ∧
      fragments.length ≤ tlvs.fieldCount + 1 := by
  cases hnext : tlvs.nextFragment maxSize with
  | none =>
      obtain rfl := eq_empty_of_nextFragment hfits hnext
      exact ⟨[], .done hnext, Nat.zero_le _⟩
  | some next =>
      obtain ⟨fragment, left⟩ := next
      obtain ⟨hsplits, hleft⟩ := splits_nextFragment hnext
      obtain ⟨more, hmore, hlength⟩ := hleft.fragmented (hsplits.fits hfits)
      have hcount := hsplits.fieldCount
      exact ⟨fragment :: more, .next hnext hmore, by rw [List.length_cons]; omega⟩

/-- Fields are spread over fragments of at most a given length: those that occur once are in
the first, and the others are in all of them, in order. -/
structure Spread (maxSize : Nat) (tlvs first : LspTlvs) (later : List LspTlvs) : Prop where
  size : ∀ fragment ∈ first :: later, fragment.size ≤ maxSize
  protocols : first.protocols = tlvs.protocols
  purgeOriginator : first.purgeOriginator = tlvs.purgeOriginator
  hostname : first.hostname = tlvs.hostname
  bare : ∀ fragment ∈ later, fragment.Bare
  areas : (first :: later).flatMap (·.areas) = tlvs.areas
  isReach : (first :: later).flatMap (·.isReach) = tlvs.isReach
  ipv4 : (first :: later).flatMap (·.ipv4) = tlvs.ipv4
  ipv6 : (first :: later).flatMap (·.ipv6) = tlvs.ipv6
  unknown : (first :: later).flatMap (·.unknown) = tlvs.unknown

/-- Fragments after which nothing is left hold all fields. -/
theorem Fragmented.spread {first : LspTlvs} {later : List LspTlvs}
    (h : Fragmented maxSize tlvs (first :: later) empty) (honce : tlvs.onceSize ≤ maxSize) :
    Spread maxSize tlvs first later := by
  have hall := h.fragments_eq (Nat.le_refl _)
  have hconserved {α : Type} {list : LspTlvs → List α}
      (hlist : ∀ {tlvs fragment left}, Splits tlvs fragment left →
        list fragment ++ list left = list tlvs) (hempty : list empty = []) :
      (first :: later).flatMap list = list tlvs := by
    rw [← fragments_append hlist hall, hempty, List.append_nil]
  have hsize : ∀ fragment ∈ first :: later, fragment.size ≤ maxSize := by
    intro fragment hmem
    rw [← Nat.max_eq_left honce]
    apply size_fragments_le
    rw [hall]
    exact hmem
  cases h with
  | next hnext hmore =>
      obtain ⟨hsplits, hleft⟩ := splits_nextFragment hnext
      exact {
        size := hsize
        protocols := hsplits.protocols
        purgeOriginator := hsplits.purgeOriginator
        hostname := hsplits.hostname
        bare := hmore.bare hleft
        areas := hconserved Splits.areas rfl
        isReach := hconserved Splits.isReach rfl
        ipv4 := hconserved Splits.ipv4 rfl
        ipv6 := hconserved Splits.ipv6 rfl
        unknown := hconserved Splits.unknown rfl }

/-! ### The fragments that advertise values -/

theorem sizeOf_le_of_divided {α : Type} {octets : α → Octets} {size : α → Nat} {values : List α}
    {fields : List (List α)} (hoctets : ∀ value, (octets value).length = size value)
    (h : Tlv.Divided octets values fields) (hmax : 257 ≤ maxSize) :
    ∀ field ∈ fields, sizeOf size field ≤ maxSize := by
  intro field hfield
  have hshort := h.short field hfield
  rw [Tlv.length_flatMap fun value _ => hoctets value] at hshort
  calc sizeOf size field
      = 2 + Tlv.total size field := rfl
    _ ≤ 2 + 255 := Nat.add_le_add_left hshort 2
    _ ≤ maxSize := hmax

section Values

variable {protocols : List UInt8} {areas : List AreaAddress} {hostname : Option String}
  {isReach : List Neighbor} {ipv4 : List Ipv4} {ipv6 : List Ipv6}

theorem length_areaOctets (address : AreaAddress) :
    (Tlv.areaOctets address).length = 1 + address.length := by
  rw [Tlv.areaOctets, List.length_cons, Nat.add_comm]

/-- The fields that may be repeated hold some content, and nothing else. -/
structure Holds (tlvs : LspTlvs) (content : Content) : Prop where
  areas : Tlv.Divided Tlv.areaOctets content.areas tlvs.areas
  isReach : Tlv.Divided Tlv.neighborOctets content.isReach tlvs.isReach
  ipv4 : Tlv.Divided Ipv4.toOctets content.ipv4 tlvs.ipv4
  ipv6 : Tlv.Divided Ipv6.toOctets content.ipv6 tlvs.ipv6
  unknown : tlvs.unknown = []

/-- The fields that are made of values hold just these. -/
theorem ofValues_holds (hareas : ∀ address ∈ areas, address.length ≤ 13) :
    (ofValues protocols areas hostname isReach ipv4 ipv6).Holds ⟨areas, isReach, ipv4, ipv6⟩ where
  areas := by
    apply Tlv.divided_divide length_areaOctets
    intro address haddress
    have hshort := hareas address haddress
    show 1 + address.length ≤ 255
    omega
  isReach := Tlv.divided_divide Tlv.length_neighborOctets fun _ _ => by decide
  ipv4 := Tlv.divided_divide (fun _ => rfl) fun _ _ => by decide
  ipv6 := Tlv.divided_divide (fun _ => rfl) fun _ _ => by decide
  unknown := rfl

/-- A field with its header has at most 257 octets. -/
theorem Holds.fits {content : Content} (h : tlvs.Holds content) (hmax : 257 ≤ maxSize) :
    tlvs.Fits maxSize where
  areas := sizeOf_le_of_divided length_areaOctets h.areas hmax
  isReach := sizeOf_le_of_divided Tlv.length_neighborOctets h.isReach hmax
  ipv4 := sizeOf_le_of_divided (fun _ => rfl) h.ipv4 hmax
  ipv6 := sizeOf_le_of_divided (fun _ => rfl) h.ipv6 hmax
  unknown := by
    rw [h.unknown]
    exact fun _ hnone => nomatch hnone

/-- Values are advertised in fields that hold them in order, of at most 255 octets and none
empty.  If a longest field and the fields that occur once fit into a fragment, finitely many
fragments come until nothing is left, none of them too long, which together have all
fields, in order, and the first of which has those that occur once. -/
theorem ofValues_spread (hareas : ∀ address ∈ areas, address.length ≤ 13)
    (hmax : 257 ≤ maxSize)
    (honce : protocolsSize protocols + (hostname.map hostnameSize).getD 0 ≤ maxSize) :
    let tlvs := ofValues protocols areas hostname isReach ipv4 ipv6
    tlvs.Holds ⟨areas, isReach, ipv4, ipv6⟩ ∧
    ∃ first later, Fragmented maxSize tlvs (first :: later) empty ∧
      Spread maxSize tlvs first later := by
  intro tlvs
  have hholds : tlvs.Holds ⟨areas, isReach, ipv4, ipv6⟩ := ofValues_holds hareas
  obtain ⟨fragments, hfragments, -⟩ := (hholds.fits hmax).fragmented
  refine ⟨hholds, ?_⟩
  cases fragments with
  | nil => exact nomatch congrArg LspTlvs.protocols hfragments.eq_of_nil
  | cons first later => exact ⟨first, later, hfragments, hfragments.spread honce⟩

/-- The fields of a system with a hundred IPv4 addresses. -/
def hundred : LspTlvs :=
  ofValues [0xCC] [[0x49]] (some "r1") [] (List.replicate 100 ⟨10, 0, 0, 1⟩) []

/-- Of a hundred addresses 63 fit into a field, and into a fragment with the fields that occur
once. -/
theorem hundred_spread :
    (hundred.fragments 265 256).1.map (fun fragment => fragment.ipv4.map List.length) =
      [[63], [37]] ∧
    hundred.Holds ⟨[[0x49]], [], List.replicate 100 ⟨10, 0, 0, 1⟩, []⟩ ∧
    ∃ first later, Fragmented 265 hundred (first :: later) empty ∧
      Spread 265 hundred first later :=
  ⟨by decide +kernel, ofValues_spread (by decide) (by decide) (by decide)⟩

end Values

end LspTlvs

end LinkState
