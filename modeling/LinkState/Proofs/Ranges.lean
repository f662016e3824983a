import LinkState.Database
import LinkState.Proofs.LspIdOrder
import LinkState.Proofs.Table

/-!
# Ranges of a database

The entries of a range are listed in the order of their LSP IDs.  Storing or
removing an entry outside a range leaves the range alone, two ranges that meet
are the range of both, and the first entries from an LSP ID on are the range up
to the last of them.
-/

namespace LinkState

namespace Table

variable {κ α : Type} [Key κ]

theorem filter_insert {table : Table κ α} {keep : κ → α → Bool} {key : κ} {value : α}
    (h : ∀ a, keep key a = false) : (table.insert key value).filter keep = table.filter keep := by
  ext1 k
  rw [get?_filter, get?_filter]
  by_cases hk : k = key
  · subst hk
    rw [get?_insert_self]
    cases table.get? k <;> simp [Option.filter, h]
  · rw [get?_insert_of_ne _ _ hk]

theorem filter_erase {table : Table κ α} {keep : κ → α → Bool} {key : κ}
    (h : ∀ a, keep key a = false) : (table.erase key).filter keep = table.filter keep := by
  ext1 k
  rw [get?_filter, get?_filter]
  by_cases hk : k = key
  · subst hk
    rw [get?_erase_self]
    cases table.get? k <;> simp [Option.filter, h]
  · rw [get?_erase_of_ne _ hk]

end Table

namespace Database

variable {database : Database} {start stop next last : LspId}

def within (start stop : LspId) (id : LspId) (_ : Entry) : Bool :=
  ¬ id < start ∧ ¬ stop < id

theorem within_of_lt {id : LspId} (h : stop < id) (entry : Entry) :
    within start stop id entry = false :=
  decide_eq_false fun hin => hin.2 h

theorem range_insert_of_lt {id : LspId} (entry : Entry) (h : stop < id) :
    Database.range (database.insert id entry) start stop = database.range start stop :=
  congrArg Table.values (Table.filter_insert fun entry => within_of_lt h entry)

theorem range_erase_of_lt {id : LspId} (h : stop < id) :
    Database.range (database.erase id) start stop = database.range start stop :=
  congrArg Table.values (Table.filter_erase fun entry => within_of_lt h entry)

/-- If each element that satisfies the second condition comes after each that
satisfies the first, listing those of the first and then those of the second
lists all in order. -/
theorem filter_append_filter {α : Type} {p q : α → Bool} {list : List α}
    (h : list.Pairwise fun a b => ¬ (q a = true ∧ p b = true))
    (hdisjoint : ∀ a ∈ list, ¬ (p a = true ∧ q a = true)) :
    list.filter p ++ list.filter q = list.filter fun a => p a || q a := by
  induction list with
  | nil => rfl
  | cons a rest ih =>
      obtain ⟨hhead, htail⟩ := List.pairwise_cons.1 h
      have hrest := ih htail fun b hb => hdisjoint b (List.mem_cons_of_mem _ hb)
      have hboth := hdisjoint a List.mem_cons_self
      cases hp : p a with
      | true =>
          have hq : q a = false := by simpa [hp] using hboth
          simp [hp, hq, ← hrest]
      | false =>
          cases hq : q a with
          | true =>
              have hnone : rest.filter p = [] := by
                refine List.filter_eq_nil_iff.2 fun b hb hpb => hhead b hb ⟨hq, hpb⟩
              rw [hnone, List.nil_append] at hrest
              simp [hp, hq, hnone, ← hrest]
          | false => simp [hp, hq, hrest]

/-- A range that ends right before another one starts makes one range with it. -/
theorem range_append_range (hnext : stop.successor? = some next) (hstart : ¬ stop < start)
    (hlast : ¬ last < next) :
    database.range start stop ++ database.range next last = database.range start last := by
  have hsuccessor := LspId.toNat_successor hnext
  rw [LspId.not_lt_iff] at hstart hlast
  unfold range select
  rw [← List.map_append, filter_append_filter]
  · congr 2
    funext p
    simp only [← Bool.decide_or, decide_eq_decide, LspId.not_lt_iff]
    omega
  · refine database.sorted.imp fun {a b} (hless : a.1.toNat < b.1.toNat) => ?_
    simp only [decide_eq_true_eq, LspId.not_lt_iff]
    omega
  · intro p _
    simp only [decide_eq_true_eq, LspId.not_lt_iff]
    omega

theorem range_all (database : Database) :
    database.range LspId.first LspId.last = database.values := by
  unfold range select
  rw [List.filter_eq_self.2 fun p _ => decide_eq_true ⟨p.1.not_lt_first, p.1.not_last_lt⟩]
  rfl

theorem range_last (database : Database) (start : LspId) :
    database.range start LspId.last = database.since start := by
  unfold range since select
  congr 2
  funext p
  simp [p.1.not_last_lt]

/-- In a sorted list, the elements up to the last of the first `count` are these,
and the others come after it. -/
theorem filter_of_getLast?_take {list : List (LspId × Entry)} {count : Nat}
    (hsorted : list.Pairwise fun a b => a.1.toNat < b.1.toNat) {last : LspId × Entry}
    (hlast : (list.take count).getLast? = some last) :
    (list.filter fun p => decide (¬ last.1 < p.1)) = list.take count ∧
      ∀ p ∈ list.drop count, last.1 < p.1 := by
  obtain ⟨before, hbefore⟩ := List.getLast?_eq_some_iff.1 hlast
  have hsplit : list = list.take count ++ list.drop count := (List.take_append_drop _ _).symm
  rw [hsplit, hbefore] at hsorted
  obtain ⟨hfirst, -, hcross⟩ := List.pairwise_append.1 hsorted
  have hafter : ∀ p ∈ list.drop count, last.1 < p.1 :=
    fun p hp => LspId.lt_iff.2 (hcross last (by simp) p hp)
  have htaken : (list.take count).filter (fun p => decide (¬ last.1 < p.1)) =
      list.take count := by
    refine List.filter_eq_self.2 fun p hp => decide_eq_true (LspId.not_lt_iff.2 ?_)
    rw [hbefore] at hp
    rcases List.mem_append.1 hp with hin | hin
    · exact Nat.le_of_lt ((List.pairwise_append.1 hfirst).2.2 p hin last (by simp))
    · exact Nat.le_of_eq (congrArg (fun p => p.1.toNat) (List.mem_singleton.1 hin))
  have hdropped : (list.drop count).filter (fun p => decide (¬ last.1 < p.1)) = [] :=
    List.filter_eq_nil_iff.2 fun p hp => by simpa using hafter p hp
  refine ⟨?_, hafter⟩
  conv_lhs => rw [hsplit, List.filter_append, htaken, hdropped, List.append_nil]

/-- A range is cut off the entries from its start on. -/
theorem range_eq_filter (database : Database) (start stop : LspId) :
    database.range start stop =
      ((database.toList.filter fun p => decide (¬ p.1 < start)).filter
        fun p => decide (¬ stop < p.1)).map (·.2) := by
  rw [List.filter_filter]
  unfold range select
  congr 2
  funext p
  simp [and_comm]

/-- If more than `count` entries follow, the first `count` of them are the range
that ends at the last of these, which is not the greatest LSP ID. -/
theorem range_take {count : Nat} (hpos : 0 < count)
    (hmore : count < (database.since start).length) :
    ∃ stop entry, database.get? stop = some entry ∧
      ((database.since start).take count).getLast? = some entry ∧ ¬ stop < start ∧
      stop ≠ LspId.last ∧ database.range start stop = (database.since start).take count := by
  have hsorted : (database.toList.filter fun p => decide (¬ p.1 < start)).Pairwise
      fun a b => a.1.toNat < b.1.toNat := database.sorted.filter _
  have hmem : ∀ p ∈ database.toList.filter fun p => decide (¬ p.1 < start),
      database.get? p.1 = some p.2 ∧ ¬ p.1 < start := by
    intro p hp
    obtain ⟨hstored, hstart⟩ := List.mem_filter.1 hp
    exact ⟨Table.mem_toList.1 hstored, by simpa using hstart⟩
  unfold since select at hmore ⊢
  rw [List.length_map] at hmore
  simp only [range_eq_filter]
  generalize (database.toList.filter fun p => decide (¬ p.1 < start)) = list at *
  cases hlast : (list.take count).getLast? with
  | none =>
      have hlength := congrArg List.length (List.getLast?_eq_none_iff.1 hlast)
      rw [List.length_take, List.length_nil] at hlength
      omega
  | some last =>
      obtain ⟨hstored, hstart⟩ := hmem last (List.mem_of_mem_take (List.mem_of_getLast? hlast))
      obtain ⟨hfilter, hafter⟩ := filter_of_getLast?_take hsorted hlast
      refine ⟨last.1, last.2, hstored, ?_, hstart, fun heq => ?_, ?_⟩
      · rw [← List.map_take, List.getLast?_map, hlast]
        rfl
      · have hnonempty : list.drop count ≠ [] := by
          rw [Ne, List.drop_eq_nil_iff]
          omega
        obtain ⟨p, hp⟩ := List.exists_mem_of_ne_nil _ hnonempty
        exact p.1.not_last_lt (heq ▸ hafter p hp)
      · rw [hfilter, List.map_take]

end Database

end LinkState
