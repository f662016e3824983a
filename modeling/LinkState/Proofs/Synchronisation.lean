import LinkState.Proofs.Lifetimes
import LinkState.Proofs.PageCoherence
import LinkState.Proofs.SummaryReview

/-!
# Synchronisation of two databases

When a level has received all pages of a neighbour's database, each LSP is settled by
the one page that covers it, and no other page is concerned with it.  A page tells of
each LSP of its range what was stored when the page was built, but for the remaining
lifetime that is what is stored now.
-/

namespace LinkState.LevelState

variable {level : Level} {config config' : Config} {now now' : Nat} {s t a b : LevelState}
  {id : LspId} {circuit : CircuitId} {page : Page}

/-! ### What a page tells -/

def told (page : Page) (id : LspId) : Option LspSummary :=
  (Table.ofList (page.entries.map fun summary => (summary.id, summary))).get? id

/-- A page tells of its range what was stored at some time. -/
structure Dated (s : LevelState) (page : Page) : Prop where
  entries : ∃ time, time ≤ s.now ∧ page.entries =
    (s.database.range page.start page.stop).map fun entry => entry.lsp.summary time

theorem Dated.congr (h : s.Dated page) (hnow : s.now ≤ t.now)
    (hrange : t.database.range page.start page.stop = s.database.range page.start page.stop) :
    t.Dated page := by
  obtain ⟨time, htime, hentries⟩ := h.entries
  exact ⟨time, Nat.le_trans htime hnow, hrange ▸ hentries⟩

/-- A page tells only of LSPs that it covers, and of these what was stored. -/
theorem told_some {time : Nat} {summary : LspSummary} (h : s.Consistent)
    (hentries : page.entries =
      (s.database.range page.start page.stop).map fun entry => entry.lsp.summary time)
    (htold : told page id = some summary) :
    page.covers id = true ∧
      ∃ entry, s.database.get? id = some entry ∧ entry.lsp.summary time = summary := by
  obtain ⟨listed, hlisted, heq⟩ := List.mem_map.1 (Table.mem_of_get?_ofList htold)
  rw [hentries] at hlisted
  obtain ⟨entry, hentry, rfl⟩ := List.mem_map.1 hlisted
  obtain ⟨k, hstored, hin⟩ := mem_select.1 hentry
  cases heq
  have hid : (entry.lsp.summary time).id = k := h.keys hstored
  rw [hid]
  exact ⟨hin, entry, hstored, rfl⟩

theorem Dated.not_told (hdated : s.Dated page) (h : s.Consistent)
    (hcovers : page.covers id = false) : told page id = none := by
  obtain ⟨time, -, hentries⟩ := hdated.entries
  refine Option.eq_none_iff_forall_ne_some.2 fun summary htold => ?_
  rw [(told_some h hentries htold).1] at hcovers
  cases hcovers

/-! ### Hearing pages -/

/-- A level can receive on a circuit what another one sends. -/
structure Ready (a : LevelState) (circuit : CircuitId) (b : LevelState) : Prop where
  sender : a.Consistent
  level : a.level = b.level
  receiver : b.Consistent
  flagged : b.Flagged
  registered : b.circuits.contains circuit = true

theorem Ready.after (h : Ready a circuit b) {touched : LspId → Prop} (hconsistent : t.Consistent)
    (hspares : Spares touched b t) : Ready a circuit t where
  sender := h.sender
  level := h.level.trans hspares.level.symm
  receiver := hconsistent
  flagged := h.flagged.of_spares hspares
  registered := hspares.circuits ▸ h.registered

def neighbor : LevelState :=
  let system : SystemId := ⟨0, 0, 0, 0, 0, 1⟩
  ((start .one (Config.ofSystem system) 0).perform (.addCircuit ⟨1, "eth1", .broadcast⟩)).perform
    (.receiveLsp none (Lsp.make 0 .one 1200 ⟨system, 0, 0⟩ 3 .none .empty))

end LinkState.LevelState
