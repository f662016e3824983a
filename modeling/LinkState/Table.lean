import LinkState.Identifier

/-!
# Ordered tables

A table is a finite map that lists its keys in ascending order.  Keys are
ordered through a faithful numbering, so that any two keys with one rank are
the same key.  The sortedness of the list belongs to the type, and the view of
a table is the partial function `get?`: each operation below comes with the
equation that says what it does to that view.
-/

namespace LinkState

/-- Keys that are numbered faithfully; the numbering gives their order. -/
class Key (κ : Type) where
  rank : κ → Nat
  rank_injective : ∀ {x y : κ}, rank x = rank y → x = y

instance : Key Nat := ⟨id, id⟩
instance : Key UInt8 := ⟨UInt8.toNat, UInt8.toNat_inj.1⟩
instance : Key UInt32 := ⟨UInt32.toNat, UInt32.toNat_inj.1⟩
instance : Key SystemId := ⟨SystemId.toNat, SystemId.toNat_injective⟩
instance : Key LspId := ⟨LspId.toNat, LspId.toNat_injective⟩

/-- A finite map with its keys in ascending order. -/
structure Table (κ α : Type) [Key κ] where
  toList : List (κ × α)
  sorted : toList.Pairwise fun a b => Key.rank a.1 < Key.rank b.1

namespace Table

variable {κ α β : Type} [Key κ]

instance [DecidableEq κ] [DecidableEq α] : DecidableEq (Table κ α) := fun s t =>
  decidable_of_iff (s.toList = t.toList)
    ⟨fun h => by cases s; cases t; cases h; rfl, fun h => h ▸ rfl⟩

def empty : Table κ α := ⟨[], .nil⟩

instance : EmptyCollection (Table κ α) := ⟨empty⟩

instance : Inhabited (Table κ α) := ⟨empty⟩

/-- The value listed first for a key. -/
def find (key : κ) : List (κ × α) → Option α
  | [] => none
  | (k, a) :: rest => if Key.rank k = Key.rank key then some a else find key rest

def get? (table : Table κ α) (key : κ) : Option α :=
  find key table.toList

def contains (table : Table κ α) (key : κ) : Bool :=
  (table.get? key).isSome

def size (table : Table κ α) : Nat :=
  table.toList.length

def isEmpty (table : Table κ α) : Bool :=
  table.toList.isEmpty

def keys (table : Table κ α) : List κ :=
  table.toList.map (·.1)

/-- The values in the order of their keys. -/
def values (table : Table κ α) : List α :=
  table.toList.map (·.2)

/-- Puts a value in its place in a sorted list, instead of the one that was
listed under its key. -/
def place (key : κ) (value : α) : List (κ × α) → List (κ × α)
  | [] => [(key, value)]
  | (k, a) :: rest =>
      if Key.rank key < Key.rank k then (key, value) :: (k, a) :: rest
      else if Key.rank key = Key.rank k then (key, value) :: rest
      else (k, a) :: place key value rest

theorem mem_place {key : κ} {value : α} {list : List (κ × α)} {p : κ × α}
    (h : p ∈ place key value list) : p = (key, value) ∨ p ∈ list := by
  induction list with
  | nil => simpa [place] using h
  | cons head tail ih =>
      obtain ⟨k, a⟩ := head
      rw [place] at h
      split at h
      · simpa using h
      · split at h
        · rcases List.mem_cons.1 h with h | h
          · exact .inl h
          · exact .inr (List.mem_cons_of_mem _ h)
        · rcases List.mem_cons.1 h with h | h
          · exact .inr (h ▸ List.mem_cons_self)
          · exact (ih h).imp_right (List.mem_cons_of_mem _)

theorem sorted_place (key : κ) (value : α) {list : List (κ × α)}
    (h : list.Pairwise fun a b => Key.rank a.1 < Key.rank b.1) :
    (place key value list).Pairwise fun a b => Key.rank a.1 < Key.rank b.1 := by
  induction list with
  | nil => simp [place]
  | cons head tail ih =>
      obtain ⟨k, a⟩ := head
      obtain ⟨hhead, htail⟩ := List.pairwise_cons.1 h
      rw [place]
      split
      · rename_i hlt
        refine List.pairwise_cons.2 ⟨fun p hp => ?_, h⟩
        rcases List.mem_cons.1 hp with rfl | hp
        · exact hlt
        · exact Nat.lt_trans hlt (hhead p hp)
      · split
        · rename_i heq
          exact List.pairwise_cons.2 ⟨fun p hp => heq ▸ hhead p hp, htail⟩
        · refine List.pairwise_cons.2 ⟨fun p hp => ?_, ih htail⟩
          rcases mem_place hp with rfl | hp
          · show Key.rank k < Key.rank key
            omega
          · exact hhead p hp

def insert (table : Table κ α) (key : κ) (value : α) : Table κ α :=
  ⟨place key value table.toList, sorted_place key value table.sorted⟩

/-- Keeps the pairs that satisfy a condition. -/
def filter (table : Table κ α) (keep : κ → α → Bool) : Table κ α :=
  ⟨table.toList.filter fun p => keep p.1 p.2, table.sorted.filter _⟩

def erase (table : Table κ α) (key : κ) : Table κ α :=
  table.filter fun k _ => Key.rank k != Key.rank key

def map (table : Table κ α) (f : κ → α → β) : Table κ β :=
  ⟨table.toList.map fun p => (p.1, f p.1 p.2), List.pairwise_map.2 table.sorted⟩

/-- Replaces the value of one key, if there is one. -/
def modify (table : Table κ α) (key : κ) (f : α → α) : Table κ α :=
  table.map fun k a => if Key.rank k = Key.rank key then f a else a

/-- The table of the given pairs; of two pairs with one key the later counts. -/
def ofList (pairs : List (κ × α)) : Table κ α :=
  pairs.foldl (fun table p => table.insert p.1 p.2) empty

/-! ### The view -/

theorem find_place (key k : κ) (value : α) (list : List (κ × α)) :
    find k (place key value list) =
      if Key.rank k = Key.rank key then some value else find k list := by
  induction list with
  | nil => simp [place, find, eq_comm]
  | cons head tail ih =>
      obtain ⟨k', a⟩ := head
      rw [place]
      split
      · simp [find, eq_comm]
      · split
        · rename_i heq
          simp only [find, heq, eq_comm]
          split <;> rfl
        · rename_i hne
          simp only [find, ih]
          by_cases h : Key.rank k = Key.rank key
          · have hother : Key.rank k' ≠ Key.rank k := by omega
            simp [h, h ▸ hother]
          · simp [h]

theorem find_filter (keep : κ → α → Bool) (key : κ) {list : List (κ × α)}
    (h : list.Pairwise fun a b => Key.rank a.1 < Key.rank b.1) :
    find key (list.filter fun p => keep p.1 p.2) = (find key list).filter (keep key) := by
  induction list with
  | nil => rfl
  | cons head tail ih =>
      obtain ⟨k, a⟩ := head
      obtain ⟨hhead, htail⟩ := List.pairwise_cons.1 h
      have hnone : Key.rank k = Key.rank key →
          find key (tail.filter fun p => keep p.1 p.2) = none := by
        intro hk
        have : ∀ l : List (κ × α), (∀ p ∈ l, Key.rank k < Key.rank p.1) →
            find key l = none := by
          intro l
          induction l with
          | nil => intro _; rfl
          | cons p rest ihl =>
              intro hl
              have hp := hl p List.mem_cons_self
              have hne : Key.rank p.1 ≠ Key.rank key := by omega
              rw [find, if_neg hne]
              exact ihl fun q hq => hl q (List.mem_cons_of_mem _ hq)
        exact this _ fun p hp => hhead p (List.mem_filter.1 hp).1
      rw [List.filter_cons]
      by_cases hk : Key.rank k = Key.rank key
      · have heq : k = key := Key.rank_injective hk
        subst heq
        by_cases hkeep : keep k a
        · simp [find, hkeep, Option.filter]
        · simp [find, hkeep, hnone, Option.filter]
      · split <;> simp [find, hk, ih htail]

theorem find_map (f : κ → α → β) (key : κ) (list : List (κ × α)) :
    find key (list.map fun p => (p.1, f p.1 p.2)) = (find key list).map (f key) := by
  induction list with
  | nil => rfl
  | cons head tail ih =>
      obtain ⟨k, a⟩ := head
      by_cases hk : Key.rank k = Key.rank key
      · have heq : k = key := Key.rank_injective hk
        simp [find, heq]
      · simp [find, hk, ih]

@[simp] theorem get?_empty (key : κ) : (empty : Table κ α).get? key = none := rfl

theorem get?_insert (table : Table κ α) (key k : κ) (value : α) :
    (table.insert key value).get? k =
      if Key.rank k = Key.rank key then some value else table.get? k :=
  find_place key k value table.toList

theorem get?_filter (table : Table κ α) (keep : κ → α → Bool) (key : κ) :
    (table.filter keep).get? key = (table.get? key).filter (keep key) :=
  find_filter keep key table.sorted

theorem get?_erase (table : Table κ α) (key k : κ) :
    (table.erase key).get? k = if Key.rank k = Key.rank key then none else table.get? k := by
  rw [erase, get?_filter]
  by_cases h : Key.rank k = Key.rank key <;> cases table.get? k <;> simp [Option.filter, h]

theorem get?_map (table : Table κ α) (f : κ → α → β) (key : κ) :
    (table.map f).get? key = (table.get? key).map (f key) :=
  find_map f key table.toList

theorem get?_modify (table : Table κ α) (key k : κ) (f : α → α) :
    (table.modify key f).get? k =
      if Key.rank k = Key.rank key then (table.get? k).map f else table.get? k := by
  rw [modify, get?_map]
  by_cases h : Key.rank k = Key.rank key <;> simp [h]

end Table

end LinkState
