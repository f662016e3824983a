import LinkState.Proofs.IndexedStore
import LinkState.Proofs.Ranges

/-!
# Listing a database in the order of LSP IDs

LSP IDs are ordered field by field.  Strings of octets of one length are ordered one by one,
and so are the numbers that they write, and for LSP IDs all three orders are the same.  The
LSP IDs of a node lie side by side in it, and so do those of a system.  That is why a database
that lists its entries from one LSP ID to another lists all entries of a node, or of a
system, and no others.
-/

namespace LinkState

/-! ### Numbers in network order -/

namespace Octets

/-- The number that is written by a number and the octets after it. -/
def numberAfter (leading : Nat) (octets : Octets) : Nat :=
  octets.foldl (fun number octet => number * 256 + octet.toNat) leading

/-- The number that a string of octets writes, the most significant octet first. -/
def number (octets : Octets) : Nat :=
  numberAfter 0 octets

/-- Numbers with equally many octets after them compare first, and then the octets do. -/
theorem numberAfter_lt_iff {first second : Octets} (h : first.length = second.length)
    (m n : Nat) :
    numberAfter m first < numberAfter n second ↔ m < n ∨ m = n ∧ first < second := by
  induction first generalizing second m n with
  | nil =>
      have hsecond : second = [] := List.length_eq_zero_iff.1 h.symm
      simp [hsecond, numberAfter]
  | cons a first ih =>
      cases second with
      | nil => cases h
      | cons b second =>
          have ha := a.toNat_lt
          have hb := b.toNat_lt
          have hrest := ih (Nat.succ.inj h) (m * 256 + a.toNat) (n * 256 + b.toNat)
          have hdigits : m * 256 + a.toNat < n * 256 + b.toNat ↔ m < n ∨ m = n ∧ a < b := by
            rw [UInt8.lt_iff_toNat_lt]
            omega
          have hequal : m * 256 + a.toNat = n * 256 + b.toNat ↔ m = n ∧ a = b := by
            rw [← UInt8.toNat_inj]
            omega
          calc numberAfter m (a :: first) < numberAfter n (b :: second)
            _ ↔ (m < n ∨ m = n ∧ a < b) ∨ (m = n ∧ a = b) ∧ first < second := by
              rw [← hdigits, ← hequal]
              exact hrest
            _ ↔ m < n ∨ m = n ∧ (a < b ∨ a = b ∧ first < second) := by
              rw [and_or_left, or_assoc, and_assoc]
            _ ↔ m < n ∨ m = n ∧ a :: first < b :: second := by
              rw [List.cons_lt_cons_iff]

/-- Strings of one length are ordered like the numbers that they write. -/
theorem number_lt_iff {first second : Octets} (h : first.length = second.length) :
    first.number < second.number ↔ first < second := by
  simp [number, numberAfter_lt_iff h]

end Octets

/-! ### The order of LSP IDs -/

namespace LspId

variable {x y : LspId}

theorem number_toOctets (id : LspId) : id.toOctets.number = id.toNat := by
  simp [Octets.number, Octets.numberAfter, toOctets, SystemId.toOctets, toNat, SystemId.toNat]

theorem lt_iff_number_lt : x < y ↔ x.toOctets.number < y.toOctets.number := by
  rw [number_toOctets, number_toOctets]
  exact lt_iff

theorem lt_iff_toOctets_lt : x < y ↔ x.toOctets < y.toOctets := by
  rw [lt_iff_number_lt]
  exact Octets.number_lt_iff rfl

theorem eq_iff_number_eq : x = y ↔ x.toOctets.number = y.toOctets.number := by
  rw [number_toOctets, number_toOctets]
  exact ⟨congrArg toNat, toNat_injective⟩

/-- The successor of an LSP ID is the least that is greater. -/
theorem successor?_eq_some_iff : x.successor? = some y ↔ x < y ∧ ∀ z, x < z → ¬ z < y := by
  constructor
  · intro hnext
    have hnumber := toNat_successor hnext
    constructor
    · rw [lt_iff]
      omega
    · intro z hz
      rw [lt_iff] at hz
      rw [not_lt_iff]
      omega
  · rintro ⟨hless, hleast⟩
    have hne : x ≠ last := fun heq => y.not_last_lt (heq ▸ hless)
    obtain ⟨z, hnext⟩ := successor?_isSome hne
    have hnumber := toNat_successor hnext
    have hafter : x < z := by
      rw [lt_iff]
      omega
    have hy : z.toNat = y.toNat := by
      have hnot := hleast z hafter
      rw [not_lt_iff] at hnot
      rw [lt_iff] at hless
      omega
    rw [hnext, toNat_injective hy]

theorem successor?_eq_none_iff : x.successor? = none ↔ x = last := by
  constructor
  · intro hnone
    by_contra hne
    obtain ⟨y, hnext⟩ := successor?_isSome hne
    rw [hnone] at hnext
    cases hnext
  · rintro rfl
    rw [successor?, toNat_last]
    exact if_neg (Nat.lt_irrefl _)

end LspId

/-! ### Databases that are written -/

/-- A write that changes an entry leaves its LSP ID alone. -/
def Write.KeepsIds : Write → Prop
  | .update _ f => ∀ entry, (f entry).lsp.id = entry.lsp.id
  | _ => True

namespace Database

variable {database database' : Database}

/-- Each entry is stored under the LSP ID of its LSP. -/
def Keyed (database : Database) : Prop :=
  ∀ id entry, database.get? id = some entry → entry.lsp.id = id

/-- A write that leaves LSP IDs alone leaves every entry under its own. -/
theorem Keyed.write (h : database.Keyed) {w : Write} (hkeeps : w.KeepsIds)
    (hwrite : database.write w = some database') : database'.Keyed := by
  intro id entry hstored
  cases w with
  | insert new =>
      rw [Database.write] at hwrite
      split at hwrite
      · cases hwrite
      · obtain rfl := Option.some.inj hwrite
        by_cases hid : id = new.lsp.id
        · rw [hid, Table.get?_insert_self] at hstored
          rw [hid, ← Option.some.inj hstored]
        · rw [Table.get?_insert_of_ne _ _ hid] at hstored
          exact h id entry hstored
  | delete removed =>
      obtain rfl := Option.some.inj hwrite
      rw [Table.get?_erase] at hstored
      split at hstored
      · cases hstored
      · exact h id entry hstored
  | update changed f =>
      obtain rfl := Option.some.inj hwrite
      rw [Table.get?_modify_eq_map] at hstored
      obtain ⟨old, hold, rfl⟩ := Option.map_eq_some_iff.1 hstored
      have hid := h id old hold
      split
      · exact (hkeeps old).trans hid
      · exact hid

theorem Keyed.writes (h : database.Keyed) {writes : List Write}
    (hkeeps : ∀ w ∈ writes, w.KeepsIds)
    (hwritten : writes.foldlM Database.write database = some database') : database'.Keyed := by
  induction writes generalizing database with
  | nil =>
      obtain rfl := Option.some.inj hwritten
      exact h
  | cons w rest ih =>
      obtain ⟨next, hnext, hrest⟩ := Option.bind_eq_some_iff.1 hwritten
      have hnextKeyed := h.write (hkeeps w List.mem_cons_self) hnext
      exact ih hnextKeyed (fun w hw => hkeeps w (List.mem_cons_of_mem _ hw)) hrest

/-! ### Listings -/

/-- A list consists of the entries whose LSP IDs satisfy a condition, each of them once, in
the order of the LSP IDs. -/
structure Lists (database : Database) (condition : LspId → Prop) (entries : List Entry) :
    Prop where
  ascending : entries.Pairwise fun a b => a.lsp.id < b.lsp.id
  once : entries.Nodup
  mem_iff : ∀ entry, entry ∈ entries ↔ entry ∈ database.values ∧ condition entry.lsp.id

/-- The table is in the order of the LSP IDs, and so is what is selected from it. -/
theorem Keyed.lists_select (h : database.Keyed) (condition : LspId → Bool) :
    database.Lists (fun id => condition id = true) (database.select condition) := by
  have hkey : ∀ p ∈ database.toList, p.2.lsp.id = p.1 :=
    fun p hp => h p.1 p.2 (Table.mem_toList.1 hp)
  have hascending : (database.select condition).Pairwise fun a b => a.lsp.id < b.lsp.id := by
    apply List.pairwise_map.2
    apply (database.sorted.filter _).imp_of_mem
    intro p q hp hq hless
    rw [hkey p (List.mem_filter.1 hp).1, hkey q (List.mem_filter.1 hq).1]
    exact LspId.lt_iff.2 hless
  constructor
  · exact hascending
  · apply hascending.imp
    intro a b hless heq
    rw [heq, LspId.lt_iff] at hless
    exact Nat.lt_irrefl _ hless
  · intro entry
    simp only [select, Table.values, List.mem_map, List.mem_filter]
    constructor
    · rintro ⟨p, ⟨hp, hcondition⟩, rfl⟩
      exact ⟨⟨p, hp, rfl⟩, (hkey p hp).symm ▸ hcondition⟩
    · rintro ⟨⟨p, hp, rfl⟩, hcondition⟩
      exact ⟨p, ⟨hp, hkey p hp ▸ hcondition⟩, rfl⟩

theorem Lists.congr {condition condition' : LspId → Prop} {entries : List Entry}
    (h : database.Lists condition entries) (hsame : ∀ id, condition id ↔ condition' id) :
    database.Lists condition' entries :=
  { h with mem_iff := fun entry => (h.mem_iff entry).trans (by rw [hsame]) }

theorem Keyed.lists_ofNode (h : database.Keyed) (node : NodeId) :
    database.Lists (fun id => id.node = node) (database.ofNode node) := by
  rw [ofNode, range]
  apply (h.lists_select _).congr
  intro id
  rw [decide_eq_true_eq]
  exact LspId.within_node_iff

theorem Keyed.lists_ofSystem (h : database.Keyed) (system : SystemId) :
    database.Lists (fun id => id.system = system) (database.ofSystem system) := by
  rw [ofSystem, range]
  apply (h.lists_select _).congr
  intro id
  rw [decide_eq_true_eq]
  exact LspId.within_system_iff

/-- LSP IDs are ordered like the strings of octets that they travel as, and like the numbers
that these write.  The successor of an LSP ID is the least that is greater, and the greatest
alone has none.  However a database was written, it lists the entries of a node, and those of
a system, in this order, each once and no others. -/
theorem listed_in_order :
    (∀ a b : LspId, (a < b ↔ a.toOctets.number < b.toOctets.number) ∧
      (a = b ↔ a.toOctets.number = b.toOctets.number) ∧ (a < b ↔ a.toOctets < b.toOctets)) ∧
    (∀ a b : LspId, a.successor? = some b ↔ a < b ∧ ∀ c, a < c → ¬ c < b) ∧
    (∀ a : LspId, a.successor? = none ↔ a = .last) ∧
    ∀ {writes : List Write} {database : Database}, (∀ w ∈ writes, w.KeepsIds) →
      writes.foldlM Database.write Table.empty = some database →
        (∀ node, database.Lists (fun id => id.node = node) (database.ofNode node)) ∧
        ∀ system, database.Lists (fun id => id.system = system) (database.ofSystem system) := by
  refine ⟨fun a b => ?_, fun a b => LspId.successor?_eq_some_iff,
    fun a => LspId.successor?_eq_none_iff, fun {writes database} hkeeps hwritten => ?_⟩
  · exact ⟨LspId.lt_iff_number_lt, LspId.eq_iff_number_eq, LspId.lt_iff_toOctets_lt⟩
  · have hempty : Keyed Table.empty := by
      intro id entry hstored
      cases hstored
    have hkeyed := hempty.writes hkeeps hwritten
    exact ⟨hkeyed.lists_ofNode, hkeyed.lists_ofSystem⟩

def entryOf (id : LspId) : Entry :=
  ⟨Lsp.make 0 .one 1200 id 1 .none .empty, true, none, none, none⟩

/-- Two fragments of a pseudonode, of which one is changed later, and between and behind them
a fragment of another system and one that is removed again. -/
def fragmentWrites : List Write :=
  let pseudonode : NodeId := ⟨⟨0, 0, 0, 0, 0, 2⟩, 5⟩
  let next : NodeId := ⟨⟨0, 0, 0, 0, 0, 2⟩, 6⟩
  [.insert (entryOf (.ofNode pseudonode 255)), .insert (entryOf ⟨⟨0, 0, 0, 0, 1, 0⟩, 5, 0⟩),
    .insert (entryOf (.ofNode pseudonode 0)), .insert (entryOf (.ofNode next 0)),
    .update (.ofNode pseudonode 255) fun entry => { entry with received := false },
    .delete (.ofNode next 0)]

theorem fragmentWrites_keepsIds : ∀ w ∈ fragmentWrites, w.KeepsIds := by
  intro w hw
  simp only [fragmentWrites, List.mem_cons, List.not_mem_nil, or_false] at hw
  rcases hw with rfl | rfl | rfl | rfl | rfl | rfl
  case inr.inr.inr.inr.inl => exact fun _ => rfl
  all_goals trivial

theorem listed_in_order_fragments :
    ∃ database, fragmentWrites.foldlM Database.write Table.empty = some database ∧
      database.Lists (fun id => id.node = ⟨⟨0, 0, 0, 0, 0, 2⟩, 5⟩)
        (database.ofNode ⟨⟨0, 0, 0, 0, 0, 2⟩, 5⟩) ∧
      (database.ofNode ⟨⟨0, 0, 0, 0, 0, 2⟩, 5⟩).map (·.lsp.id.fragment) = [0, 255] ∧
      database.Lists (fun id => id.system = ⟨0, 0, 0, 0, 0, 2⟩)
        (database.ofSystem ⟨0, 0, 0, 0, 0, 2⟩) := by
  have hwritten : (fragmentWrites.foldlM Database.write Table.empty).any (fun database =>
      (database.ofNode ⟨⟨0, 0, 0, 0, 0, 2⟩, 5⟩).map (·.lsp.id.fragment) = [0, 255]) = true := by
    decide +kernel
  obtain ⟨database, hdatabase, hlisted⟩ := (Option.any_eq_true _ _).1 hwritten
  obtain ⟨hnode, hsystem⟩ := listed_in_order.2.2.2 fragmentWrites_keepsIds hdatabase
  exact ⟨database, hdatabase, hnode _, of_decide_eq_true hlisted, hsystem _⟩

end Database

end LinkState
