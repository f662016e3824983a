import LinkState.Database
import LinkState.Proofs.Table

/-!
# A database behind indices

The entries of a database lie in an arena, which hands out an index for each
entry that is put into it, and a table leads from LSP IDs to indices.  Looking
at a dead index, or storing a second entry under one LSP ID, is a fault.  As long
as no LSP ID is stored twice every index in the table is live, and the store
reads like the database it stands for.
-/

namespace LinkState

/-- What is used of an arena. -/
structure Arena (α ι : Type) where
  empty : α
  insert : α → Entry → ι × α
  remove : α → ι → α
  get? : α → ι → Option Entry
  set : α → ι → Entry → α

/-- An arena keeps its promises: an index that is handed out was not live before,
and what happens at one index does not concern the others. -/
structure Arena.Lawful {α ι : Type} (arena : Arena α ι) : Prop where
  fresh : ∀ contents entry, arena.get? contents (arena.insert contents entry).1 = none
  get?_insert_self : ∀ contents entry,
    arena.get? (arena.insert contents entry).2 (arena.insert contents entry).1 = some entry
  get?_insert_of_ne : ∀ contents entry index, index ≠ (arena.insert contents entry).1 →
    arena.get? (arena.insert contents entry).2 index = arena.get? contents index
  get?_remove_of_ne : ∀ contents removed index, index ≠ removed →
    arena.get? (arena.remove contents removed) index = arena.get? contents index
  get?_set_self : ∀ contents index entry, (arena.get? contents index).isSome = true →
    arena.get? (arena.set contents index entry) index = some entry
  get?_set_of_ne : ∀ contents changed entry index, index ≠ changed →
    arena.get? (arena.set contents changed entry) index = arena.get? contents index

inductive StoreFault
  | duplicate (id : LspId)
  | deadIndex (id : LspId)
  deriving DecidableEq, Repr

inductive Write
  | insert (entry : Entry)
  | delete (id : LspId)
  | update (id : LspId) (f : Entry → Entry)

/-- A database after a write; there must be no other entry for an LSP that is
inserted. -/
def Database.write (database : Database) : Write → Option Database
  | .insert entry =>
      if database.contains entry.lsp.id then none else some (database.insert entry.lsp.id entry)
  | .delete id => some (database.erase id)
  | .update id f => some (database.modify id f)

/-- The entries in an arena, and the index of each by its LSP ID. -/
structure IndexedStore (α ι : Type) where
  contents : α
  indices : Table LspId ι

namespace IndexedStore

variable {α ι : Type} (arena : Arena α ι)

def empty : IndexedStore α ι := ⟨arena.empty, Table.empty⟩

def read (store : IndexedStore α ι) (id : LspId) : Except StoreFault (Option Entry) :=
  match store.indices.get? id with
  | none => .ok none
  | some index =>
      match arena.get? store.contents index with
      | some entry => .ok (some entry)
      | none => .error (.deadIndex id)

/-- The entries that were found, unless one was not. -/
def collect : List (LspId × Option Entry) → Except StoreFault (List Entry)
  | [] => .ok []
  | (_, some entry) :: rest => (collect rest).map (entry :: ·)
  | (id, none) :: _ => .error (.deadIndex id)

/-- All entries in the order of their LSP IDs. -/
def entries (store : IndexedStore α ι) : Except StoreFault (List Entry) :=
  collect (store.indices.map fun _ index => arena.get? store.contents index).toList

def write (store : IndexedStore α ι) : Write → Except StoreFault (IndexedStore α ι)
  | .insert entry =>
      let (index, contents) := arena.insert store.contents entry
      if store.indices.contains entry.lsp.id then .error (.duplicate entry.lsp.id)
      else .ok ⟨contents, store.indices.insert entry.lsp.id index⟩
  | .delete id =>
      match store.indices.get? id with
      | none => .ok store
      | some index => .ok ⟨arena.remove store.contents index, store.indices.erase id⟩
  | .update id f =>
      match store.indices.get? id with
      | none => .ok store
      | some index =>
          match arena.get? store.contents index with
          | some entry => .ok { store with contents := arena.set store.contents index (f entry) }
          | none => .error (.deadIndex id)

/-- The indices of a store are live and lead to the entries of a database, and no
two are the same. -/
structure Represents (store : IndexedStore α ι) (database : Database) : Prop where
  live : ∀ id, (store.indices.get? id).map (arena.get? store.contents) =
    (database.get? id).map some
  distinct : ∀ {a b index}, store.indices.get? a = some index →
    store.indices.get? b = some index → a = b

namespace Represents

variable {arena} {store : IndexedStore α ι} {database database' : Database}

theorem empty : (IndexedStore.empty arena).Represents arena Table.empty where
  live := fun _ => rfl
  distinct := fun h => by cases h

theorem read_eq (h : store.Represents arena database) (id : LspId) :
    store.read arena id = .ok (database.get? id) := by
  have hlive := h.live id
  rw [read]
  cases hindex : store.indices.get? id <;> cases hentry : database.get? id <;>
    rw [hindex, hentry] at hlive <;> simp_all

/-- No index leads nowhere, so that all entries are found, in the order of the database. -/
theorem entries_eq (h : store.Represents arena database) :
    store.entries arena = .ok database.values := by
  have hcollect : ∀ pairs : List (LspId × Entry),
      collect (pairs.map fun p => (p.1, some p.2)) = .ok (pairs.map (·.2)) := by
    intro pairs
    induction pairs with
    | nil => rfl
    | cons p rest ih =>
        rw [List.map_cons, collect, ih]
        rfl
  have htable : (store.indices.map fun _ index => arena.get? store.contents index) =
      database.map fun _ entry => some entry := by
    ext1 id
    rw [Table.get?_map, Table.get?_map]
    exact h.live id
  rw [entries, htable]
  exact hcollect database.toList

theorem contains_eq (h : store.Represents arena database) (id : LspId) :
    store.indices.contains id = database.contains id := by
  have hlive := h.live id
  simp only [Table.contains]
  cases hindex : store.indices.get? id <;> cases hentry : database.get? id <;>
    rw [hindex, hentry] at hlive <;> simp_all

theorem entry_of_index (h : store.Represents arena database) {id : LspId} {index : ι}
    (hindex : store.indices.get? id = some index) :
    ∃ entry, database.get? id = some entry ∧ arena.get? store.contents index = some entry := by
  have hlive := h.live id
  rw [hindex] at hlive
  obtain ⟨entry, hentry, hsome⟩ := Option.map_eq_some_iff.1 hlive.symm
  exact ⟨entry, hentry, hsome.symm⟩

theorem entry_of_no_index (h : store.Represents arena database) {id : LspId}
    (hindex : store.indices.get? id = none) : database.get? id = none := by
  have hlive := h.live id
  rw [hindex] at hlive
  exact Option.map_eq_none_iff.1 hlive.symm

/-- The arena hands out an index that was not live, so that no two LSP IDs come to share one. -/
theorem insert (h : store.Represents arena database) (hlawful : arena.Lawful) (entry : Entry) :
    Represents arena ⟨(arena.insert store.contents entry).2,
      store.indices.insert entry.lsp.id (arena.insert store.contents entry).1⟩
      (database.insert entry.lsp.id entry) := by
  have hnew : ∀ {id index}, store.indices.get? id = some index →
      index ≠ (arena.insert store.contents entry).1 := by
    intro id index hindex heq
    obtain ⟨old, -, hlive⟩ := h.entry_of_index hindex
    rw [heq, hlawful.fresh] at hlive
    cases hlive
  constructor
  · intro id
    by_cases hid : id = entry.lsp.id
    · simp only [hid, Table.get?_insert_self, Option.map_some, hlawful.get?_insert_self]
    · rw [Table.get?_insert_of_ne _ _ hid, Table.get?_insert_of_ne _ _ hid, ← h.live id]
      cases hindex : store.indices.get? id with
      | none => rfl
      | some index =>
          exact congrArg some (hlawful.get?_insert_of_ne _ _ _ (hnew hindex))
  · intro a b index ha hb
    dsimp only at ha hb
    by_cases hida : a = entry.lsp.id <;> by_cases hidb : b = entry.lsp.id
    · rw [hida, hidb]
    · rw [hida, Table.get?_insert_self] at ha
      rw [Table.get?_insert_of_ne _ _ hidb] at hb
      exact absurd (Option.some.inj ha).symm (hnew hb)
    · rw [Table.get?_insert_of_ne _ _ hida] at ha
      rw [hidb, Table.get?_insert_self] at hb
      exact absurd (Option.some.inj hb).symm (hnew ha)
    · rw [Table.get?_insert_of_ne _ _ hida] at ha
      rw [Table.get?_insert_of_ne _ _ hidb] at hb
      exact h.distinct ha hb

/-- The index of an entry is given up together with the entry. -/
theorem delete (h : store.Represents arena database) (hlawful : arena.Lawful) {id : LspId}
    {index : ι} (hindex : store.indices.get? id = some index) :
    Represents arena ⟨arena.remove store.contents index, store.indices.erase id⟩
      (database.erase id) := by
  constructor
  · intro other
    by_cases hid : other = id
    · simp only [hid, Table.get?_erase_self, Option.map_none]
    · rw [Table.get?_erase_of_ne _ hid, Table.get?_erase_of_ne _ hid, ← h.live other]
      cases hother : store.indices.get? other with
      | none => rfl
      | some kept =>
          refine congrArg some (hlawful.get?_remove_of_ne _ _ _ fun heq => hid ?_)
          exact h.distinct hother (heq ▸ hindex)
  · intro a b kept ha hb
    have hkept : ∀ {other}, (store.indices.erase id).get? other = some kept →
        store.indices.get? other = some kept := by
      intro other hother
      rw [Table.get?_erase] at hother
      split at hother
      · cases hother
      · exact hother
    exact h.distinct (hkept ha) (hkept hb)

theorem update (h : store.Represents arena database) (hlawful : arena.Lawful) {id : LspId}
    {index : ι} {entry : Entry} (hindex : store.indices.get? id = some index)
    (hentry : arena.get? store.contents index = some entry) (f : Entry → Entry) :
    Represents arena { store with contents := arena.set store.contents index (f entry) }
      (database.modify id f) := by
  refine ⟨fun other => ?_, h.distinct⟩
  rw [Table.get?_modify]
  by_cases hid : other = id
  · obtain ⟨stored, hstored, hsome⟩ := h.entry_of_index hindex
    obtain rfl : entry = stored := Option.some.inj (hentry.symm.trans hsome)
    have hset := hlawful.get?_set_self store.contents index (f entry) (by rw [hentry]; rfl)
    simp only [hid, hindex, hstored, if_true, Option.map_some, hset]
  · rw [if_neg (by simpa using hid), ← h.live other]
    cases hother : store.indices.get? other with
    | none => rfl
    | some kept =>
        refine congrArg some (hlawful.get?_set_of_ne _ _ _ _ fun heq => hid ?_)
        exact h.distinct hother (heq ▸ hindex)

/-- A write that the database allows raises no fault. -/
theorem write (h : store.Represents arena database) (hlawful : arena.Lawful) {w : Write}
    (hwrite : database.write w = some database') :
    ∃ store', store.write arena w = .ok store' ∧ store'.Represents arena database' := by
  cases w with
  | insert entry =>
      rw [Database.write] at hwrite
      split at hwrite
      · cases hwrite
      · rename_i habsent
        obtain rfl := Option.some.inj hwrite
        refine ⟨_, ?_, h.insert hlawful entry⟩
        simp only [IndexedStore.write, h.contains_eq, habsent, Bool.false_eq_true, if_false]
  | delete id =>
      obtain rfl := Option.some.inj hwrite
      cases hindex : store.indices.get? id with
      | none =>
          have habsent := h.entry_of_no_index hindex
          refine ⟨store, by simp only [IndexedStore.write, hindex], ?_⟩
          rw [Table.erase_of_get?_eq_none habsent]
          exact h
      | some index =>
          exact ⟨_, by simp only [IndexedStore.write, hindex], h.delete hlawful hindex⟩
  | update id f =>
      obtain rfl := Option.some.inj hwrite
      cases hindex : store.indices.get? id with
      | none =>
          have habsent := h.entry_of_no_index hindex
          have hsame : Table.modify database id f = database := by
            ext1 other
            rw [Table.get?_modify]
            split
            · rename_i hid
              rw [Key.rank_inj.1 hid, habsent]
              rfl
            · rfl
          refine ⟨store, by simp only [IndexedStore.write, hindex], ?_⟩
          rw [hsame]
          exact h
      | some index =>
          obtain ⟨entry, -, hentry⟩ := h.entry_of_index hindex
          exact ⟨_, by simp only [IndexedStore.write, hindex, hentry],
            h.update hlawful hindex hentry f⟩

/-- However a database came about by writes that it allows, the store that is
written in the same way raises no fault and represents it. -/
theorem writes (h : store.Represents arena database) (hlawful : arena.Lawful)
    {writes : List Write} (hwrites : writes.foldlM Database.write database = some database') :
    ∃ store', writes.foldlM (IndexedStore.write arena) store = .ok store' ∧
      store'.Represents arena database' := by
  induction writes generalizing store database with
  | nil =>
      obtain rfl := Option.some.inj hwrites
      exact ⟨store, rfl, h⟩
  | cons w rest ih =>
      obtain ⟨next, hnext, hrest⟩ := Option.bind_eq_some_iff.1 hwrites
      obtain ⟨store', hstore, hrepresents⟩ := h.write hlawful hnext
      obtain ⟨final, hfinal, hfinally⟩ := ih hrepresents hrest
      refine ⟨final, ?_, hfinally⟩
      rw [List.foldlM_cons, hstore]
      exact hfinal

end Represents

end IndexedStore

/-! ### An arena -/

/-- The slots of an arena, each free or taken by an entry with the generation in
which it was put there, the free slots with the one that was freed last in front,
and the generation, which changes with every removal. -/
structure Slots where
  slots : List (Option (Nat × Entry))
  free : List Nat
  generation : Nat

abbrev SlotIndex := Nat × Nat

namespace Slots

/-- The entry at an index, if the slot is still taken in that generation. -/
def get? (contents : Slots) (index : SlotIndex) : Option Entry :=
  match contents.slots[index.1]? with
  | some (some (generation, entry)) => if generation = index.2 then some entry else none
  | _ => none

/-- Takes the slot that was freed last, or a new one if there is none. -/
def insert (contents : Slots) (entry : Entry) : SlotIndex × Slots :=
  match contents.free with
  | slot :: free =>
      if contents.slots[slot]? = some none then
        ((slot, contents.generation),
          { contents with
            slots := contents.slots.set slot (some (contents.generation, entry)), free := free })
      else
        ((contents.slots.length, contents.generation),
          { contents with slots := contents.slots ++ [some (contents.generation, entry)] })
  | [] =>
      ((contents.slots.length, contents.generation),
        { contents with slots := contents.slots ++ [some (contents.generation, entry)] })

def remove (contents : Slots) (index : SlotIndex) : Slots :=
  match contents.get? index with
  | some _ =>
      ⟨contents.slots.set index.1 none, index.1 :: contents.free, contents.generation + 1⟩
  | none => contents

def set (contents : Slots) (index : SlotIndex) (entry : Entry) : Slots :=
  match contents.get? index with
  | some _ => { contents with slots := contents.slots.set index.1 (some (index.2, entry)) }
  | none => contents

def arena : Arena Slots SlotIndex := ⟨⟨[], [], 0⟩, insert, remove, get?, set⟩

/-- An entry is put into a free slot, or into a new one behind all others. -/
theorem insert_cases (contents : Slots) (entry : Entry) :
    (∃ slot free, contents.slots[slot]? = some none ∧ contents.insert entry =
      ((slot, contents.generation), ⟨contents.slots.set slot (some (contents.generation, entry)),
        free, contents.generation⟩)) ∨
    contents.insert entry = ((contents.slots.length, contents.generation),
      ⟨contents.slots ++ [some (contents.generation, entry)], contents.free,
        contents.generation⟩) := by
  rw [insert]
  split
  · split
    · rename_i slot free _ hslot
      exact .inl ⟨slot, free, hslot, rfl⟩
    · exact .inr rfl
  · exact .inr rfl

theorem get?_congr {contents other : Slots} {index : SlotIndex}
    (h : contents.slots[index.1]? = other.slots[index.1]?) :
    contents.get? index = other.get? index := by
  simp only [get?]
  rw [h]

theorem slot_of_live {contents : Slots} {index : SlotIndex} {entry : Entry}
    (h : contents.get? index = some entry) :
    contents.slots[index.1]? = some (some (index.2, entry)) := by
  rw [get?] at h
  split at h
  · rename_i generation stored hslot
    split at h
    · rename_i hgeneration
      rw [hslot, hgeneration, Option.some.inj h]
    · cases h
  · cases h

/-- A slot is live in one generation only. -/
theorem get?_of_slot {contents : Slots} {index : SlotIndex} {generation : Nat} {entry : Entry}
    (hslot : contents.slots[index.1]? = some (some (generation, entry)))
    (hne : index.2 ≠ generation) : contents.get? index = none := by
  rw [get?]
  rw [hslot]
  exact if_neg hne.symm

theorem get?_insert_index (contents : Slots) (entry : Entry) :
    contents.get? (contents.insert entry).1 = none := by
  rcases contents.insert_cases entry with ⟨slot, free, hslot, heq⟩ | heq
  · simp [heq, get?, hslot]
  · simp [heq, get?]

theorem get?_insert_self (contents : Slots) (entry : Entry) :
    (contents.insert entry).2.get? (contents.insert entry).1 = some entry := by
  rcases contents.insert_cases entry with ⟨slot, free, hslot, heq⟩ | heq
  · have hbound : slot < contents.slots.length := (List.getElem?_eq_some_iff.1 hslot).1
    simp [heq, get?, hbound]
  · simp [heq, get?]

/-- Every other index leads where it led before: an old index of the slot that is taken has
another generation. -/
theorem get?_insert_of_ne (contents : Slots) (entry : Entry) {index : SlotIndex}
    (hne : index ≠ (contents.insert entry).1) :
    (contents.insert entry).2.get? index = contents.get? index := by
  rcases contents.insert_cases entry with ⟨slot, free, hslot, heq⟩ | heq
  · rw [heq] at hne ⊢
    by_cases hsame : index.1 = slot
    · have hother : index.2 ≠ contents.generation := fun h => hne (Prod.ext hsame h)
      have hbound : slot < contents.slots.length := (List.getElem?_eq_some_iff.1 hslot).1
      rw [get?_of_slot (by rw [hsame]; exact List.getElem?_set_self hbound) hother, get?, hsame,
        hslot]
    · exact get?_congr (List.getElem?_set_ne (Ne.symm hsame))
  · rw [heq] at hne ⊢
    by_cases hsame : index.1 = contents.slots.length
    · have hother : index.2 ≠ contents.generation := fun h => hne (Prod.ext hsame h)
      rw [get?_of_slot (by rw [hsame]; exact List.getElem?_concat_length) hother, get?,
        List.getElem?_eq_none (Nat.le_of_eq hsame.symm)]
    · apply get?_congr
      rcases Nat.lt_or_ge index.1 contents.slots.length with hold | hnew
      · exact List.getElem?_append_left hold
      · rw [List.getElem?_eq_none hnew, List.getElem?_eq_none]
        rw [List.length_append, List.length_singleton]
        omega

/-- The indices other than a live one do not notice what happens to its slot,
as long as the slot is not taken in another generation. -/
theorem get?_set_slot {contents other : Slots} {changed index : SlotIndex} {old : Entry}
    {slot : Option (Nat × Entry)} (hlive : contents.get? changed = some old)
    (hslots : other.slots = contents.slots.set changed.1 slot)
    (hslot : ∀ taken, slot = some taken → taken.1 = changed.2) (hne : index ≠ changed) :
    other.get? index = contents.get? index := by
  have hold := slot_of_live hlive
  have hbound := (List.getElem?_eq_some_iff.1 hold).1
  by_cases hsame : index.1 = changed.1
  · have hother : index.2 ≠ changed.2 := fun h => hne (Prod.ext hsame h)
    have hnow : other.slots[index.1]? = some slot := by
      rw [hslots, hsame, List.getElem?_set_self hbound]
    have hbefore : contents.get? index = none := get?_of_slot (hsame ▸ hold) hother
    rw [hbefore]
    cases slot with
    | none => rw [get?, hnow]
    | some taken => exact get?_of_slot hnow (hslot taken rfl ▸ hother)
  · apply get?_congr
    rw [hslots]
    exact List.getElem?_set_ne (Ne.symm hsame)

theorem get?_remove_of_ne (contents : Slots) {removed index : SlotIndex} (hne : index ≠ removed) :
    (contents.remove removed).get? index = contents.get? index := by
  rw [remove]
  split
  · rename_i entry hlive
    exact get?_set_slot hlive rfl (fun taken h => by cases h) hne
  · rfl

theorem get?_set_self {contents : Slots} {index : SlotIndex} (entry : Entry)
    (hlive : (contents.get? index).isSome = true) :
    (contents.set index entry).get? index = some entry := by
  obtain ⟨old, hold⟩ := Option.isSome_iff_exists.1 hlive
  have hbound := (List.getElem?_eq_some_iff.1 (slot_of_live hold)).1
  rw [set, hold]
  simp [get?, List.getElem?_set_self hbound]

theorem get?_set_of_ne (contents : Slots) {changed index : SlotIndex} (entry : Entry)
    (hne : index ≠ changed) : (contents.set changed entry).get? index = contents.get? index := by
  rw [set]
  split
  · rename_i old hlive
    exact get?_set_slot hlive rfl (fun taken h => by cases h; rfl) hne
  · rfl

theorem arena_lawful : arena.Lawful where
  fresh := get?_insert_index
  get?_insert_self := get?_insert_self
  get?_insert_of_ne := fun contents entry _ hne => contents.get?_insert_of_ne entry hne
  get?_remove_of_ne := fun contents _ _ hne => contents.get?_remove_of_ne hne
  get?_set_self := fun _ _ entry hlive => get?_set_self entry hlive
  get?_set_of_ne := fun contents _ entry _ hne => contents.get?_set_of_ne entry hne

end Slots

end LinkState
