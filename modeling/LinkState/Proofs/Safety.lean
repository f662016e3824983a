import LinkState.Proofs.IndexedStore
import LinkState.Proofs.PageCoherence

/-!
# No check ever fails

In no step does a check fail, and the page that is asked for is always there.
Steps write to the database in a way that never stores two entries under one LSP
ID, so a store which keeps the entries behind indices never looks at a dead one.
-/

namespace LinkState.LevelState

variable {level : Level} {config : Config} {now : Nat} {s t : LevelState}

/-! ### Writes to the database -/

/-- The database came about by writes that it allows. -/
def Written (database : Database) : Prop :=
  ∃ writes : List Write, writes.foldlM Database.write Table.empty = some database

theorem Written.append {database database' : Database} (h : Written database)
    (writes : List Write) (hwrites : writes.foldlM Database.write database = some database') :
    Written database' := by
  obtain ⟨before, hbefore⟩ := h
  refine ⟨before ++ writes, ?_⟩
  rw [List.foldlM_append, hbefore]
  exact hwrites

/-- An entry takes the place of another one under its LSP ID. -/
theorem Written.replace {database : Database} (h : Written database) {id : LspId} {entry : Entry}
    (hid : entry.lsp.id = id) : Written (database.insert id entry) := by
  subst hid
  apply h.append [.delete entry.lsp.id, .insert entry]
  have habsent : (database.erase entry.lsp.id).contains entry.lsp.id = false := by
    simp [Table.contains_erase]
  have hinsert : Database.write (database.erase entry.lsp.id) (.insert entry) =
      some (database.insert entry.lsp.id entry) := by
    rw [Database.write, habsent, if_neg Bool.false_ne_true, Table.insert_erase]
  simpa [Database.write] using hinsert

theorem foldlM_delete (ids : List LspId) (database : Database) :
    (ids.map Write.delete).foldlM Database.write database =
      some (ids.foldl Table.erase database) := by
  induction ids generalizing database with
  | nil => rfl
  | cons id rest ih =>
      rw [List.map_cons, List.foldlM_cons, List.foldl_cons, ← ih]
      rfl

theorem get?_foldl_erase {ids : List LspId} {database : Database} {id : LspId}
    (h : ∀ entry, database.get? id = some entry → id ∈ ids) :
    (ids.foldl Table.erase database).get? id = none := by
  induction ids generalizing database with
  | nil =>
      cases hstored : database.get? id with
      | none => exact hstored
      | some entry => exact absurd (h entry hstored) List.not_mem_nil
  | cons head rest ih =>
      apply ih
      intro entry hstored
      by_cases hid : id = head
      · rw [hid, Table.get?_erase_self] at hstored
        cases hstored
      · rw [Table.get?_erase_of_ne _ hid] at hstored
        exact (List.mem_cons.1 (h entry hstored)).resolve_left hid

/-- All entries are removed one by one. -/
theorem Written.drain {database : Database} (h : Written database) : Written Table.empty := by
  have hempty : database.keys.foldl Table.erase database = Table.empty := by
    ext1 id
    rw [get?_foldl_erase fun entry hstored => ?_, Table.get?_empty]
    exact List.mem_map.2 ⟨(id, entry), Table.mem_toList.2 hstored, rfl⟩
  apply h.append (database.keys.map .delete)
  rw [foldlM_delete, hempty]

/-- Every step writes to the database as it allows. -/
theorem Step.written {heard : Lsp → Prop} (hstep : Step heard s t) (h : Written s.database) :
    Written t.database := by
  cases hstep.effect with
  | installs hinstalls =>
      obtain ⟨counters, history, number, trace, rfl⟩ := hinstalls
      exact h.replace (congrArg Lsp.id (s.armed_lsp _ _))
  | @removes id entry hstored heq =>
      obtain ⟨trace, hremove⟩ := remove_eq hstored
      rw [heq, hremove]
      exact h.append [.delete id] rfl
  | buildsPage _ heq => rwa [heq]
  | rearranges _ _ hdatabase => rwa [hdatabase]

theorem Reachable.written (h : Reachable Proper level config now s) : Written s.database :=
  (h.invariant (fun _ => trivial) Proper.running (P := fun s => Written s.database) ⟨[], rfl⟩
    (fun _ hwritten hstep => hstep.written hwritten) fun _ hwritten => hwritten.drain).2

/-! ### Sequence numbers -/

/-- A new instance of an own LSP is stored with the sequence number after the
greatest of the given and the stored one. -/
theorem storedSeqno_originate {lsp : Lsp} {seqno : UInt32}
    (h : nextSeqno? (max lsp.seqno (s.storedSeqno lsp.id)) = some seqno) :
    ((s.originate lsp).storedSeqno lsp.id).toNat =
      (max lsp.seqno (s.storedSeqno lsp.id)).toNat + 1 := by
  rw [← toNat_nextSeqno h]
  obtain ⟨counters, history, number, trace, heq⟩ := originate_installs h
  have hid : (s.freshInstance lsp seqno).id = lsp.id := rfl
  rw [heq, storedSeqno]
  dsimp only
  rw [hid, Table.get?_insert_self, Option.map_some, armed_lsp]
  rfl

/-! ### Pages -/

/-- A page other than the last one has a summary at the greatest index that is
looked at, and ends there. -/
theorem Describes.last_summary {page : Page} (h : s.Describes page)
    (hstop : page.stop ≠ LspId.last) :
    ∃ summary, page.entries[max s.pageCapacity 1 - 1]? = some summary ∧ summary.id = page.stop := by
  obtain ⟨hlength, hlast⟩ := h.full hstop
  obtain ⟨summary, hsummary, hid⟩ := Option.map_eq_some_iff.1 hlast
  have hlimit : page.entries.length = max s.pageCapacity 1 := hlength
  rw [List.getLast?_eq_getElem?, hlimit] at hsummary
  exact ⟨summary, hsummary, hid⟩

theorem page_isSome (s : LevelState) (index : Nat) : (s.page index).1.isSome = true := by
  obtain ⟨page, built, -, hpage, -⟩ := s.page_eq index
  rw [hpage]
  rfl

/-! ### All checks -/

/-- Whatever is asked of a level, no check fails: no LSP is purged twice, every
stored entry has one of its two timers, and no LSP is stored twice.  The page
that is asked for is there, and the pages that are built end at their last
summaries.  Sequence numbers do not wrap around.  A store behind the indices of
an arena that is written like the database, or in any other way that a database
allows, never looks at a dead index and reads like the database. -/
theorem no_check_fails {α ι : Type} {arena : Arena α ι} (hlawful : arena.Lawful)
    (h : Reachable Proper level config now s) :
    s.fault = none ∧
    (∀ index, (s.page index).1.isSome = true) ∧
    (∀ page ∈ s.pages, page.stop ≠ LspId.last →
      ∃ summary, page.entries[max s.pageCapacity 1 - 1]? = some summary ∧
        summary.id = page.stop) ∧
    (∀ lsp, nextSeqno? (max lsp.seqno (s.storedSeqno lsp.id)) ≠ none →
      ((s.originate lsp).storedSeqno lsp.id).toNat =
        (max lsp.seqno (s.storedSeqno lsp.id)).toNat + 1) ∧
    (∃ writes : List Write, writes.foldlM Database.write Table.empty = some s.database) ∧
    ∀ (writes : List Write) (database : Database),
      writes.foldlM Database.write Table.empty = some database →
      ∃ store, writes.foldlM (IndexedStore.write arena) (IndexedStore.empty arena) = .ok store ∧
        (∀ id, store.read arena id = .ok (database.get? id)) ∧
        store.entries arena = .ok database.values := by
  have hpaged := h.paged
  refine ⟨h.constant.2.2, s.page_isSome, fun page hmem => (hpaged.describes page hmem).last_summary,
    fun lsp hnext => ?_, h.written, fun writes database hwrites => ?_⟩
  · obtain ⟨seqno, hseqno⟩ := Option.ne_none_iff_exists'.1 hnext
    exact storedSeqno_originate hseqno
  · obtain ⟨store, hstore, hrepresents⟩ :=
      IndexedStore.Represents.empty.writes hlawful hwrites
    exact ⟨store, hstore, hrepresents.read_eq, hrepresents.entries_eq⟩

/-- Two fragments lie in the slots of an arena. -/
theorem no_check_fails_originated :
    originated.fault = none ∧ originated.database.size = 2 ∧
    ∃ (writes : List Write) (store : IndexedStore Slots SlotIndex),
      writes.foldlM (IndexedStore.write Slots.arena) (IndexedStore.empty Slots.arena) = .ok store ∧
        store.entries Slots.arena = .ok originated.database.values := by
  obtain ⟨hfault, -, -, -, ⟨writes, hwrites⟩, hstores⟩ :=
    no_check_fails Slots.arena_lawful originated_reachable
  obtain ⟨store, hstore, -, hentries⟩ := hstores writes originated.database hwrites
  exact ⟨hfault, by decide +kernel, writes, store, hstore, hentries⟩

end LinkState.LevelState
