import LinkState.Table
import Mathlib.Algebra.GroupWithZero.Nat
import Mathlib.Data.List.Nodup
import Mathlib.Data.List.Perm.Basic

/-!
# Tables as partial functions

A table is determined by its view `get?`.  Its list holds exactly the pairs of
that view, each key once and in ascending order.
-/

namespace LinkState

@[simp]
theorem Key.rank_inj {κ : Type} [Key κ] {x y : κ} : Key.rank x = Key.rank y ↔ x = y :=
  ⟨Key.rank_injective, congrArg Key.rank⟩

namespace Table

variable {κ α β : Type} [Key κ]

theorem get?_insert_self (table : Table κ α) (key : κ) (value : α) :
    (table.insert key value).get? key = some value := by
  simp [get?_insert]

theorem get?_insert_of_ne (table : Table κ α) {key k : κ} (value : α) (h : k ≠ key) :
    (table.insert key value).get? k = table.get? k := by
  simp [get?_insert, h]

theorem get?_erase_self (table : Table κ α) (key : κ) : (table.erase key).get? key = none := by
  simp [get?_erase]

theorem get?_erase_of_ne (table : Table κ α) {key k : κ} (h : k ≠ key) :
    (table.erase key).get? k = table.get? k := by
  simp [get?_erase, h]

theorem contains_insert [DecidableEq κ] (table : Table κ α) (key k : κ) (value : α) :
    (table.insert key value).contains k = (decide (k = key) || table.contains k) := by
  by_cases h : k = key <;> simp [contains, get?_insert, h]

theorem contains_erase [DecidableEq κ] (table : Table κ α) (key k : κ) :
    (table.erase key).contains k = (decide (k ≠ key) && table.contains k) := by
  by_cases h : k = key <;> simp [contains, get?_erase, h]

theorem get?_modify_eq_map [DecidableEq κ] (table : Table κ α) (key k : κ) (f : α → α) :
    (table.modify key f).get? k =
      (table.get? k).map fun value => if k = key then f value else value := by
  rw [modify, get?_map]
  simp only [Key.rank_inj]

/-! ### The list of a table -/

theorem mem_of_find_eq_some {key : κ} {value : α} {list : List (κ × α)}
    (h : find key list = some value) : (key, value) ∈ list := by
  induction list with
  | nil => simp [find] at h
  | cons head tail ih =>
      obtain ⟨k, a⟩ := head
      rw [find] at h
      split at h
      · rename_i hk
        obtain rfl := Key.rank_injective hk
        simp_all
      · exact List.mem_cons_of_mem _ (ih h)

theorem find_eq_some_of_mem {key : κ} {value : α} {list : List (κ × α)}
    (hsorted : list.Pairwise fun a b => Key.rank a.1 < Key.rank b.1)
    (h : (key, value) ∈ list) : find key list = some value := by
  induction list with
  | nil => simp at h
  | cons head tail ih =>
      obtain ⟨k, a⟩ := head
      obtain ⟨hhead, htail⟩ := List.pairwise_cons.1 hsorted
      rcases List.mem_cons.1 h with heq | hmem
      · cases heq
        simp [find]
      · have hlt : Key.rank k < Key.rank key := hhead _ hmem
        rw [find, if_neg (Nat.ne_of_lt hlt)]
        exact ih htail hmem

theorem mem_toList {table : Table κ α} {key : κ} {value : α} :
    (key, value) ∈ table.toList ↔ table.get? key = some value :=
  ⟨find_eq_some_of_mem table.sorted, mem_of_find_eq_some⟩

theorem mem_values {table : Table κ α} {value : α} :
    value ∈ table.values ↔ ∃ key, table.get? key = some value := by
  simp [values, ← mem_toList]

theorem nodup_keys (table : Table κ α) : table.keys.Nodup := by
  refine List.pairwise_map.2 (table.sorted.imp fun {a b} hlt heq => ?_)
  rw [heq] at hlt
  exact Nat.lt_irrefl _ hlt

theorem nodup_of_sorted {list : List (κ × α)}
    (h : list.Pairwise fun a b => Key.rank a.1 < Key.rank b.1) : list.Nodup := by
  refine h.imp fun {a b} hlt heq => ?_
  rw [heq] at hlt
  exact Nat.lt_irrefl _ hlt

/-- Two lists in the order of their keys that hold the same pairs are the same list. -/
theorem eq_of_sorted {first second : List (κ × α)}
    (hfirst : first.Pairwise fun a b => Key.rank a.1 < Key.rank b.1)
    (hsecond : second.Pairwise fun a b => Key.rank a.1 < Key.rank b.1)
    (h : ∀ p, p ∈ first ↔ p ∈ second) : first = second := by
  have hperm : first.Perm second :=
    (List.perm_ext_iff_of_nodup (nodup_of_sorted hfirst) (nodup_of_sorted hsecond)).2 h
  refine hperm.eq_of_pairwise (fun a b _ _ hab hba => ?_) hfirst hsecond
  exact absurd (Nat.lt_trans hab hba) (Nat.lt_irrefl _)

/-- Two tables with one view are the same table. -/
@[ext]
theorem ext_get? {s t : Table κ α} (h : ∀ key, s.get? key = t.get? key) : s = t := by
  have hlist : s.toList = t.toList := by
    refine eq_of_sorted s.sorted t.sorted fun p => ?_
    rw [mem_toList, mem_toList, h]
  cases s
  cases t
  cases hlist
  rfl

theorem insert_erase (table : Table κ α) (key : κ) (value : α) :
    (table.erase key).insert key value = table.insert key value := by
  ext1 k
  by_cases h : k = key <;> simp [get?_insert, get?_erase, h]

theorem erase_modify (table : Table κ α) (key : κ) (f : α → α) :
    (table.modify key f).erase key = table.erase key := by
  ext1 k
  by_cases h : k = key <;> simp [get?_modify, get?_erase, h]

theorem erase_of_get?_eq_none {table : Table κ α} {key : κ} (h : table.get? key = none) :
    table.erase key = table := by
  ext1 k
  by_cases hk : k = key <;> simp [get?_erase, hk, h]

theorem insert_of_get? {table : Table κ α} {key : κ} {value : α}
    (h : table.get? key = some value) : table.insert key value = table := by
  ext1 k
  by_cases hk : k = key
  · rw [hk, get?_insert_self, h]
  · exact get?_insert_of_ne _ _ hk

/-! ### Totals -/

/-- The sum of the weights of all values. -/
def total (table : Table κ α) (weight : α → Nat) : Nat :=
  (table.values.map weight).sum

/-- An insertion replaces the pair under its key, and only changes the order otherwise. -/
theorem toList_insert_perm (table : Table κ α) (key : κ) (value : α) :
    (table.insert key value).toList.Perm ((key, value) :: (table.erase key).toList) := by
  have hfree : ∀ other, (key, other) ∉ (table.erase key).toList := by
    intro other hmem
    rw [mem_toList, get?_erase_self] at hmem
    cases hmem
  refine (List.perm_ext_iff_of_nodup (nodup_of_sorted (table.insert key value).sorted)
    (List.nodup_cons.2 ⟨hfree value, nodup_of_sorted (table.erase key).sorted⟩)).2 ?_
  rintro ⟨k, other⟩
  rw [List.mem_cons, mem_toList, mem_toList]
  by_cases hk : k = key
  · subst hk
    rw [get?_insert_self, get?_erase_self]
    simp [eq_comm]
  · rw [get?_insert_of_ne _ _ hk, get?_erase_of_ne _ hk]
    simp [hk]

theorem total_insert (table : Table κ α) (key : κ) (value : α) (weight : α → Nat) :
    (table.insert key value).total weight = weight value + (table.erase key).total weight := by
  have hperm := (((table.toList_insert_perm key value).map Prod.snd).map weight).sum_nat
  simpa [total, values] using hperm

/-- The total with the weight of one value taken apart. -/
theorem total_eq_erase {table : Table κ α} {key : κ} {value : α}
    (h : table.get? key = some value) (weight : α → Nat) :
    table.total weight = weight value + (table.erase key).total weight := by
  rw [← total_insert, insert_of_get? h]

/-- If each weight is made up for by parts of a given weight, the total is. -/
theorem total_le_flatMap {table : Table κ α} {weight : α → Nat} {parts : κ × α → List β}
    {most : Nat} (h : ∀ p ∈ table.toList, weight p.2 ≤ most * (parts p).length) :
    table.total weight ≤ most * (table.toList.flatMap parts).length := by
  rw [total, values]
  generalize table.toList = list at h
  induction list with
  | nil => exact Nat.zero_le _
  | cons p rest ih =>
      have hhead := h p List.mem_cons_self
      have hrest := ih fun q hq => h q (List.mem_cons_of_mem _ hq)
      simp only [List.map_cons, List.sum_cons, List.flatMap_cons, List.length_append,
        Nat.mul_add]
      exact Nat.add_le_add hhead hrest

/-! ### Tables of given pairs -/

theorem get?_foldl_insert {pairs : List (κ × α)} {table : Table κ α} {key : κ} {value : α}
    (h : (pairs.foldl (fun table p => table.insert p.1 p.2) table).get? key = some value) :
    (key, value) ∈ pairs ∨ table.get? key = some value := by
  induction pairs generalizing table with
  | nil => exact .inr h
  | cons first rest ih =>
      rcases ih h with hmem | hinsert
      · exact .inl (List.mem_cons_of_mem _ hmem)
      · by_cases hk : key = first.1
        · rw [hk, get?_insert_self] at hinsert
          obtain rfl := Option.some.inj hinsert
          exact .inl (hk ▸ List.mem_cons_self)
        · rw [get?_insert_of_ne _ _ hk] at hinsert
          exact .inr hinsert

theorem mem_of_get?_ofList {pairs : List (κ × α)} {key : κ} {value : α}
    (h : (ofList pairs).get? key = some value) : (key, value) ∈ pairs := by
  rcases get?_foldl_insert h with hmem | hempty
  · exact hmem
  · cases hempty

end Table

end LinkState
