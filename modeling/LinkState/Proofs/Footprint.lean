import LinkState.Proofs.Locality
import Mathlib.Data.List.TakeWhile

/-!
# What is done about one LSP, told apart from where it is done

A level sees of an LSP its entry, its flags on each circuit and the deferred copy of
it; the numbers of timers, which depend on everything that went before, are left out.
Two states are alike for an LSP if this and the surroundings are the same.  What is done
about the LSP in two such states leaves them alike, leaves everything about other LSPs
as it was, and leaves the same mark on what all LSPs share: the counters, the pages and
the log.
-/

namespace LinkState

/-! ### Entries without the numbers of their timers -/

namespace Entry

/-- What an entry says, with the times at which its timers are due. -/
structure Shape where
  lsp : Lsp
  received : Bool
  life : Option Nat
  zeroAge : Option Nat
  refresh : Option Nat

def shape (entry : Entry) : Shape where
  lsp := entry.lsp
  received := entry.received
  life := entry.lifeTimer.map (·.due)
  zeroAge := entry.zeroAgeTimer.map (·.due)
  refresh := entry.refreshTimer.map (·.due)

variable {a b : Entry}

theorem lsp_congr (h : a.shape = b.shape) : a.lsp = b.lsp :=
  congrArg Shape.lsp h

theorem received_congr (h : a.shape = b.shape) : a.received = b.received :=
  congrArg Shape.received h

theorem life_congr (h : a.shape = b.shape) :
    a.lifeTimer.map (·.due) = b.lifeTimer.map (·.due) :=
  congrArg Shape.life h

theorem isPurged_congr (h : a.shape = b.shape) : a.isPurged = b.isPurged := by
  rw [isPurged, isPurged, lsp_congr h]

theorem isPlaceholder_congr (h : a.shape = b.shape) : a.isPlaceholder = b.isPlaceholder := by
  rw [isPlaceholder, isPlaceholder, lsp_congr h]

end Entry

/-! ### The shared records -/

namespace Counters

def plus (a b : Counters) : Counters :=
  ⟨a.corruptedLsps + b.corruptedLsps, a.ownPurges + b.ownPurges, a.skippedSeqnos + b.skippedSeqnos,
    a.exhaustedSeqnos + b.exhaustedSeqnos, a.touched || b.touched⟩

@[simp] theorem plus_zero (a : Counters) : a.plus zero = a := by
  simp [plus, zero]

theorem plus_assoc (a b c : Counters) : (a.plus b).plus c = a.plus (b.plus c) := by
  simp [plus, UInt32.add_assoc, Bool.or_assoc]

theorem plus_right_comm (a b c : Counters) : (a.plus b).plus c = (a.plus c).plus b := by
  have hcomm : ∀ x y z : UInt32, x + y + z = x + z + y := fun x y z => by
    rw [UInt32.add_assoc, UInt32.add_comm y, UInt32.add_assoc]
  simp only [plus, hcomm, Bool.or_right_comm]

end Counters

/-- An installed LSP as it is logged, but for the number of the item. -/
structure ChronicleItem where
  id : LspId
  seqno : UInt32
  received : Bool
  reason : InstallReason

/-- What an item of the log says apart from its number. -/
def HistoryItem.unnumbered (item : HistoryItem) : ChronicleItem :=
  ⟨item.id, item.seqno, item.received, item.reason⟩

abbrev Chronicle := List HistoryItem × UInt32

def Chronicle.note (log : Chronicle) (item : ChronicleItem) : Chronicle :=
  ((⟨log.2 + 1, item.id, item.seqno, item.received, item.reason⟩ :: log.1).take
    LevelState.historySize, log.2 + 1)

/-- LSPs that wait for an election, with one more if there is any. -/
def keeping (deferred : Table UInt8 (Table LspId DeferredLsp)) (id : LspId) :
    Option DeferredLsp → Table UInt8 (Table LspId DeferredLsp)
  | some copy =>
      deferred.insert id.pseudonode
        (((deferred.get? id.pseudonode).getD Table.empty).insert id copy)
  | none => deferred

/-- The mark that is left on what all LSPs share: what was counted, whether pages
were discarded, what was logged, and the copy that was deferred. -/
structure Footprint where
  counted : Counters
  discards : Bool
  logged : List ChronicleItem
  kept : Option DeferredLsp

namespace Footprint

def none : Footprint := ⟨Counters.zero, false, [], .none⟩

def andThen (f g : Footprint) : Footprint :=
  ⟨f.counted.plus g.counted, f.discards || g.discards, f.logged ++ g.logged, g.kept.or f.kept⟩

end Footprint

/-! ### Flags -/

namespace Flooding

/-- A change of flags that concerns one LSP, and depends on nothing but the flags of
that LSP. -/
structure Local (id : LspId) (change : Flooding → Flooding) : Prop where
  confined : ∀ flooding, Confined id flooding (change flooding)
  congr : ∀ {before other : Flooding},
    (∀ circuit, before.marks circuit id = other.marks circuit id) →
    ∀ circuit, (change before).marks circuit id = (change other).marks circuit id

namespace Local

variable {id : LspId} {first second : Flooding → Flooding}

theorem comp (h : Local id first) (h' : Local id second) :
    Local id fun flooding => second (first flooding) where
  confined := fun flooding => (h.confined flooding).trans (h'.confined _)
  congr := fun hsame => h'.congr (h.congr hsame)

/-- A change of the flags of each circuit. -/
theorem of_get? {change : Flooding → Flooding} (f : CircuitId → CircuitFlags → CircuitFlags)
    (g : CircuitId → Marks → Marks)
    (hconfined : ∀ flooding, Confined id flooding (change flooding))
    (hget : ∀ flooding circuit, (change flooding).get? circuit =
      (Table.get? flooding circuit).map (f circuit))
    (hmarks : ∀ circuit flags, (f circuit flags).marks id = g circuit (flags.marks id)) :
    Local id change where
  confined := hconfined
  congr := fun {before other} hsame circuit => by
    have hafter : ∀ flooding : Flooding, (change flooding).marks circuit id =
        (flooding.marks circuit id).map (g circuit) := by
      intro flooding
      rw [marks, marks, hget, Option.map_map, Option.map_map]
      exact Option.map_congr fun flags _ => hmarks circuit flags
    rw [hafter, hafter, hsame]

end Local

end Flooding

def Marks.set (marks : Marks) (flag : Flag) (summary : LspSummary) : Marks :=
  match flag with
  | .srm => if summary.seqno = 0 then marks else { marks with srm := true }
  | .ssn => { marks with ssn := some summary }

def Marks.clear (marks : Marks) : Flag → Marks
  | .srm => { marks with srm := false }
  | .ssn => { marks with ssn := none }

theorem CircuitFlags.marks_set (flags : CircuitFlags) (flag : Flag) (summary : LspSummary) :
    (flags.set flag summary).marks summary.id = (flags.marks summary.id).set flag summary := by
  cases flag with
  | srm =>
      by_cases hseqno : summary.seqno = 0
      · simp [CircuitFlags.set, Marks.set, hseqno]
      · rw [marks_set_srm flags hseqno, Marks.set, if_neg hseqno]
  | ssn => exact marks_set_ssn flags summary

theorem CircuitFlags.marks_clear (flags : CircuitFlags) (flag : Flag) (id : LspId) :
    (flags.clear flag id).marks id = (flags.marks id).clear flag := by
  cases flag with
  | srm => exact marks_clear_srm flags id
  | ssn => exact marks_clear_ssn flags id

namespace Flooding

theorem set_local (flag : Flag) (summary : LspSummary) (circuit : CircuitId) :
    Local summary.id fun flooding => flooding.set flag summary circuit :=
  .of_get? _ (fun c marks => if c = circuit then marks.set flag summary else marks)
    (fun flooding => set_confined flooding flag summary circuit)
    (fun flooding c => get?_set flooding flag summary circuit c) fun c flags => by
      split
      · exact flags.marks_set flag summary
      · rfl

theorem clear_local (flag : Flag) (id : LspId) (circuit : CircuitId) :
    Local id fun flooding => flooding.clear flag id circuit :=
  .of_get? _ (fun c marks => if c = circuit then marks.clear flag else marks)
    (fun flooding => clear_confined flooding flag id circuit)
    (fun flooding c => get?_clear flooding flag id circuit c) fun c flags => by
      split
      · exact flags.marks_clear flag id
      · rfl

theorem setAll_local (flag : Flag) (summary : LspSummary) (except : Option CircuitId) :
    Local summary.id fun flooding => flooding.setAll flag summary except :=
  .of_get? _ (fun c marks => if some c = except then marks else marks.set flag summary)
    (fun flooding => setAll_confined flooding flag summary except)
    (fun flooding c => get?_setAll flooding flag summary except c) fun c flags => by
      split
      · rfl
      · exact flags.marks_set flag summary

theorem clearAll_local (flag : Flag) (id : LspId) (except : Option CircuitId) :
    Local id fun flooding => flooding.clearAll flag id except :=
  .of_get? _ (fun c marks => if some c = except then marks else marks.clear flag)
    (fun flooding => clearAll_confined flooding flag id except)
    (fun flooding c => get?_clearAll flooding flag id except c) fun c flags => by
      split
      · rfl
      · exact flags.marks_clear flag id

end Flooding

namespace LevelState

variable {s s' t t' u u' : LevelState} {id other : LspId} {lsp : Lsp} {f g : Footprint}

/-! ### What is seen of an LSP -/

def deferred? (s : LevelState) (id : LspId) : Option DeferredLsp :=
  (s.deferred.get? id.pseudonode).bind (·.get? id)

@[simp] theorem deferred?_tell (s : LevelState) (event : Event) (id : LspId) :
    (s.tell event).deferred? id = s.deferred? id :=
  rfl

def log (s : LevelState) : Chronicle :=
  (s.history, s.lastHistoryNumber)

/-- Two states are alike for an LSP: their surroundings are the same, and so is what is
seen of the LSP. -/
structure Alike (id : LspId) (s s' : LevelState) : Prop where
  surroundings : s'.surroundings = s.surroundings
  entry : (s'.database.get? id).map Entry.shape = (s.database.get? id).map Entry.shape
  marks : ∀ circuit, s'.flooding.marks circuit id = s.flooding.marks circuit id
  deferred : s'.deferred? id = s.deferred? id

namespace Alike

theorem refl (id : LspId) (s : LevelState) : Alike id s s :=
  ⟨rfl, rfl, fun _ => rfl, rfl⟩

theorem symm (h : Alike id s s') : Alike id s' s where
  surroundings := h.surroundings.symm
  entry := h.entry.symm
  marks := fun circuit => (h.marks circuit).symm
  deferred := h.deferred.symm

theorem trans (h : Alike id s t) (h' : Alike id t u) : Alike id s u where
  surroundings := h'.surroundings.trans h.surroundings
  entry := h'.entry.trans h.entry
  marks := fun circuit => (h'.marks circuit).trans (h.marks circuit)
  deferred := h'.deferred.trans h.deferred

theorem level (h : Alike id s s') : s'.level = s.level :=
  congrArg Surroundings.level h.surroundings

theorem config (h : Alike id s s') : s'.config = s.config :=
  congrArg Surroundings.config h.surroundings

theorem now (h : Alike id s s') : s'.now = s.now :=
  congrArg Surroundings.now h.surroundings

theorem isOwn (h : Alike id s s') (k : LspId) : s'.isOwn k = s.isOwn k := by
  rw [LevelState.isOwn, LevelState.isOwn, h.config]

theorem isPointToPoint (h : Alike id s s') (circuit : CircuitId) :
    s'.isPointToPoint circuit = s.isPointToPoint circuit := by
  have hcircuits : s'.circuits = s.circuits := congrArg Surroundings.circuits h.surroundings
  rw [LevelState.isPointToPoint, LevelState.isPointToPoint, hcircuits]

theorem supports? (h : Alike id s s') (pseudonode : UInt8) :
    s'.supports? pseudonode = s.supports? pseudonode := by
  have helections : s'.elections = s.elections := congrArg Surroundings.elections h.surroundings
  rw [LevelState.supports?, LevelState.supports?, helections]

theorem summaryOf (h : Alike id s s') (lsp : Lsp) : s'.summaryOf lsp = s.summaryOf lsp := by
  rw [LevelState.summaryOf, LevelState.summaryOf, h.now]

theorem purgeOriginator (h : Alike id s s') : s'.purgeOriginator = s.purgeOriginator := by
  rw [LevelState.purgeOriginator, LevelState.purgeOriginator, h.config]

/-- A stored entry has a counterpart that says the same. -/
theorem stored (h : Alike id s s') {entry : Entry} (hstored : s.database.get? id = some entry) :
    ∃ entry', s'.database.get? id = some entry' ∧ entry'.shape = entry.shape := by
  have hentry := h.entry
  rw [hstored] at hentry
  exact Option.map_eq_some_iff.1 hentry

theorem absent (h : Alike id s s') (habsent : s.database.get? id = none) :
    s'.database.get? id = none := by
  have hentry := h.entry
  rw [habsent] at hentry
  exact Option.map_eq_none_iff.1 hentry

/-- Whatever is read off what an entry says is the same. -/
theorem map_stored {α : Type} (h : Alike id s s') {read : Entry → α}
    (hread : ∀ {a b : Entry}, a.shape = b.shape → read a = read b) :
    (s'.database.get? id).map read = (s.database.get? id).map read := by
  cases hstored : s.database.get? id with
  | none => rw [h.absent hstored]
  | some entry =>
      obtain ⟨entry', hstored', hshape⟩ := h.stored hstored
      rw [hstored', Option.map_some, Option.map_some, hread hshape]

theorem storedSeqno (h : Alike id s s') : s'.storedSeqno id = s.storedSeqno id := by
  rw [LevelState.storedSeqno, LevelState.storedSeqno,
    h.map_stored fun hshape => by rw [Entry.lsp_congr hshape]]

theorem recency (h : Alike lsp.id s s') : s'.recency lsp = s.recency lsp := by
  rw [LevelState.recency, LevelState.recency, h.map_stored Entry.lsp_congr]

end Alike

/-! ### What is left of a change -/

/-- Between two states something was done about one LSP: the mark it left is as given,
and nothing else has changed. -/
structure Leaves (id : LspId) (f : Footprint) (s t : LevelState) : Prop where
  surroundings : t.surroundings = s.surroundings
  entries : ∀ other, other ≠ id → t.database.get? other = s.database.get? other
  marks : ∀ circuit other, other ≠ id →
    t.flooding.marks circuit other = s.flooding.marks circuit other
  generators : t.generators = s.generators
  deferred : t.deferred = keeping s.deferred id f.kept
  counters : t.counters = s.counters.plus f.counted
  pages : t.pages = if f.discards then Page.keepBefore s.pages id else s.pages
  log : t.log = f.logged.foldl Chronicle.note s.log
  fault : t.fault = s.fault

/-- Of two copies of an LSP that are kept one after the other, the later one counts. -/
theorem keeping_or (deferred : Table UInt8 (Table LspId DeferredLsp)) (id : LspId)
    (earlier later : Option DeferredLsp) :
    keeping (keeping deferred id earlier) id later = keeping deferred id (later.or earlier) := by
  cases later with
  | none => rfl
  | some copy =>
      cases earlier with
      | none => rfl
      | some old =>
          simp only [keeping, Option.some_or, Table.get?_insert_self, Option.getD_some]
          ext1 pseudonode
          by_cases hnode : pseudonode = id.pseudonode
          · subst hnode
            rw [Table.get?_insert_self, Table.get?_insert_self]
            congr 1
            ext1 k
            by_cases hid : k = id
            · rw [hid, Table.get?_insert_self, Table.get?_insert_self]
            · rw [Table.get?_insert_of_ne _ _ hid, Table.get?_insert_of_ne _ _ hid,
                Table.get?_insert_of_ne _ _ hid]
          · rw [Table.get?_insert_of_ne _ _ hnode, Table.get?_insert_of_ne _ _ hnode,
              Table.get?_insert_of_ne _ _ hnode]

theorem keepBefore_comm (pages : List Page) (a b : LspId) :
    Page.keepBefore (Page.keepBefore pages a) b = Page.keepBefore (Page.keepBefore pages b) a := by
  simp only [Page.keepBefore, List.takeWhile_takeWhile, and_comm]

theorem keepBefore_self (pages : List Page) (id : LspId) :
    Page.keepBefore (Page.keepBefore pages id) id = Page.keepBefore pages id := by
  exact List.takeWhile_idem

namespace Leaves

theorem refl (id : LspId) (s : LevelState) : Leaves id .none s s where
  surroundings := rfl
  entries := fun _ _ => rfl
  marks := fun _ _ _ => rfl
  generators := rfl
  deferred := rfl
  counters := s.counters.plus_zero.symm
  pages := rfl
  log := rfl
  fault := rfl

theorem trans (h : Leaves id f s t) (h' : Leaves id g t u) : Leaves id (f.andThen g) s u where
  surroundings := h'.surroundings.trans h.surroundings
  entries := fun other hne => (h'.entries other hne).trans (h.entries other hne)
  marks := fun circuit other hne => (h'.marks circuit other hne).trans (h.marks circuit other hne)
  generators := h'.generators.trans h.generators
  deferred := by rw [h'.deferred, h.deferred, keeping_or]; rfl
  counters := by rw [h'.counters, h.counters, Counters.plus_assoc]; rfl
  pages := by
    rw [h'.pages, h.pages, Footprint.andThen]
    cases f.discards <;> cases g.discards <;> simp [keepBefore_self]
  log := by rw [h'.log, h.log, Footprint.andThen, List.foldl_append]
  fault := h'.fault.trans h.fault

end Leaves

/-- In two states the same was done about one LSP: the states were left alike for it, and
the same mark was left, with so many items of the log at most. -/
def Twins (most : Nat) (id : LspId) (s t s' t' : LevelState) : Prop :=
  Alike id t t' ∧ ∃ f : Footprint, f.logged.length ≤ most ∧ Leaves id f s t ∧ Leaves id f s' t'

namespace Twins

variable {most more : Nat}

theorem alike (h : Twins most id s t s' t') : Alike id t t' := h.1

theorem refl (h : Alike id s s') : Twins 0 id s s s' s' :=
  ⟨h, .none, Nat.le_refl _, .refl id s, .refl id s'⟩

theorem trans (h : Twins most id s t s' t') (h' : Twins more id t u t' u') :
    Twins (most + more) id s u s' u' := by
  obtain ⟨-, f, hf, hst, hst'⟩ := h
  obtain ⟨halike, g, hg, htu, htu'⟩ := h'
  refine ⟨halike, f.andThen g, ?_, hst.trans htu, hst'.trans htu'⟩
  rw [Footprint.andThen, List.length_append]
  exact Nat.add_le_add hf hg

theorem mono (h : Twins most id s t s' t') (hle : most ≤ more) : Twins more id s t s' t' := by
  obtain ⟨halike, f, hf, hst, hst'⟩ := h
  exact ⟨halike, f, Nat.le_trans hf hle, hst, hst'⟩

/-! ### Single changes -/

theorem tell (h : Alike id s s') (event event' : Event) :
    Twins 0 id s (s.tell event) s' (s'.tell event') := by
  obtain ⟨-, f, hf, hs, hs'⟩ := refl h
  exact ⟨⟨h.surroundings, h.entry, h.marks, h.deferred⟩, f, hf,
    ⟨hs.surroundings, hs.entries, hs.marks, hs.generators, hs.deferred, hs.counters, hs.pages,
      hs.log, hs.fault⟩,
    ⟨hs'.surroundings, hs'.entries, hs'.marks, hs'.generators, hs'.deferred, hs'.counters,
      hs'.pages, hs'.log, hs'.fault⟩⟩

/-- Counting adds the same, whatever was counted before. -/
theorem count (h : Alike id s s') (note : Counters → Counters) (added : Counters)
    (hadded : ∀ counters, { note counters with touched := true } = counters.plus added) :
    Twins 0 id s (s.count note) s' (s'.count note) := by
  have hleaves : ∀ s : LevelState, Leaves id ⟨added, false, [], none⟩ s (s.count note) := fun s =>
    { surroundings := rfl
      entries := fun _ _ => rfl
      marks := fun _ _ _ => rfl
      generators := rfl
      deferred := rfl
      counters := hadded s.counters
      pages := rfl
      log := rfl
      fault := rfl }
  exact ⟨⟨h.surroundings, h.entry, h.marks, h.deferred⟩, _, Nat.le_refl _, hleaves s, hleaves s'⟩

theorem reflag (h : Alike id s s') {change : Flooding → Flooding}
    (hchange : Flooding.Local id change) :
    Twins 0 id s { s with flooding := change s.flooding } s'
      { s' with flooding := change s'.flooding } := by
  have hleaves : ∀ s : LevelState,
      Leaves id .none s { s with flooding := change s.flooding } := fun s =>
    { Leaves.refl id s with
      marks := fun circuit other hne => (hchange.confined s.flooding).marks circuit other hne
      log := rfl }
  exact ⟨⟨h.surroundings, h.entry, hchange.congr h.marks, h.deferred⟩, _, Nat.le_refl _, hleaves s,
    hleaves s'⟩

end Twins

/-! ### Installing -/

def newShape (s : LevelState) (lsp : Lsp) (received : Bool) : Entry.Shape :=
  if lsp.lifetime = 0 then
    ⟨lsp, received, none, some (s.now + seconds s.config.zeroAge.toNat), none⟩
  else
    ⟨lsp, received, some (s.now + seconds (s.lifeSeconds lsp)), none,
      if isRefreshed s.config.system lsp received then
        some (s.now + seconds s.config.refreshSeconds)
      else none⟩

theorem armed_shape (s : LevelState) (lsp : Lsp) (received : Bool) :
    (s.armed lsp received).1.shape = s.newShape lsp received := by
  unfold armed arm newShape
  dsimp only
  split_ifs <;> rfl

theorem newShape_congr (h : s'.surroundings = s.surroundings) (lsp : Lsp) (received : Bool) :
    s'.newShape lsp received = s.newShape lsp received := by
  have hnow : s'.now = s.now := congrArg Surroundings.now h
  have hconfig : s'.config = s.config := congrArg Surroundings.config h
  simp only [newShape, lifeSeconds, hnow, hconfig]

theorem Alike.newShape (h : Alike id s s') (lsp : Lsp) (received : Bool) :
    s'.newShape lsp received = s.newShape lsp received :=
  newShape_congr h.surroundings lsp received

theorem log_startLife (s : LevelState) (lsp : Lsp) (received : Bool) :
    (s.startLife lsp received).2.log = s.log := by
  unfold startLife
  split <;> rfl

theorem log_startRefresh (s : LevelState) (entry : Entry) :
    (s.startRefresh entry).2.log = s.log := by
  unfold startRefresh
  split <;> rfl

theorem log_store (s : LevelState) (entry : Entry) : (s.store entry).log = s.log := by
  unfold store
  dsimp only
  split_ifs <;> rfl

/-- Every installation is logged. -/
theorem log_install (s : LevelState) (lsp : Lsp) (received : Bool) :
    (s.install lsp received).log =
      s.log.note ⟨lsp.id, lsp.seqno, received, contentChange (s.database.get? lsp.id) lsp⟩ := by
  obtain ⟨trace, hdiscard⟩ :=
    (s.tell (.lspChanged .installed s.level lsp.mention)).discardPages_eq lsp.id
  simp only [install, log_store, log_startRefresh, log_startLife]
  rw [detach_eq, hdiscard]
  rfl

theorem contentChange_congr (h : Alike lsp.id s s') :
    contentChange (s'.database.get? lsp.id) lsp = contentChange (s.database.get? lsp.id) lsp := by
  cases hstored : s.database.get? lsp.id with
  | none => rw [h.absent hstored]
  | some entry =>
      obtain ⟨entry', hstored', hshape⟩ := h.stored hstored
      rw [hstored']
      simp only [contentChange, Entry.lsp_congr hshape]

namespace Twins

variable {most more : Nat}

/-- The same LSP is installed. -/
theorem install (lsp : Lsp) (h : Alike lsp.id s s') (received : Bool) :
    Twins 1 lsp.id s (s.install lsp received) s' (s'.install lsp received) := by
  have hleaves : ∀ s : LevelState, Leaves lsp.id ⟨Counters.zero, true,
      [⟨lsp.id, lsp.seqno, received, contentChange (s.database.get? lsp.id) lsp⟩], none⟩ s
      (s.install lsp received) := by
    intro s
    have hlog := s.log_install lsp received
    obtain ⟨trace, history, number, heq⟩ := s.install_eq lsp received
    rw [heq] at hlog ⊢
    exact
      { surroundings := rfl
        entries := fun other hne => Table.get?_insert_of_ne _ _ hne
        marks := fun _ _ _ => rfl
        generators := rfl
        deferred := rfl
        counters := s.counters.plus_zero.symm
        pages := rfl
        log := hlog
        fault := rfl }
  have hleaves' := hleaves s'
  rw [contentChange_congr h] at hleaves'
  refine ⟨?_, _, ?_, hleaves s, hleaves'⟩
  case refine_2 => exact Nat.le_refl 1
  have hentry : (s'.armed lsp received).1.shape = (s.armed lsp received).1.shape := by
    rw [armed_shape, armed_shape, h.newShape]
  obtain ⟨trace, history, number, heq⟩ := s.install_eq lsp received
  obtain ⟨trace', history', number', heq'⟩ := s'.install_eq lsp received
  rw [heq, heq']
  refine ⟨h.surroundings, ?_, h.marks, h.deferred⟩
  simp only [Table.get?_insert_self, Option.map_some, hentry]

/-- Marking for sending on all circuits but one. -/
theorem flood (h : Alike lsp.id s s') (except : Option CircuitId) :
    Twins 0 lsp.id s (s.flood lsp except) s' (s'.flood lsp except) := by
  have hflood := reflag h ((Flooding.setAll_local .srm (s.summaryOf lsp) except).comp
    (Flooding.clearAll_local .ssn lsp.id except))
  rw [LevelState.flood, LevelState.flood, h.summaryOf]
  exact hflood

theorem setFlag (h : Alike lsp.id s s') (flag : Flag) (circuit : CircuitId) :
    Twins 0 lsp.id s (s.setFlag flag (s.summaryOf lsp) circuit) s'
      (s'.setFlag flag (s'.summaryOf lsp) circuit) := by
  rw [h.summaryOf]
  exact reflag h (Flooding.set_local flag (s.summaryOf lsp) circuit)

theorem clearFlag (h : Alike id s s') (flag : Flag) (circuit : CircuitId) :
    Twins 0 id s (s.clearFlag flag id circuit) s' (s'.clearFlag flag id circuit) :=
  reflag h (Flooding.clear_local flag id circuit)

theorem clearFlags (h : Alike id s s') (flag : Flag) (except : Option CircuitId) :
    Twins 0 id s (s.clearFlags flag id except) s' (s'.clearFlags flag id except) :=
  reflag h (Flooding.clearAll_local flag id except)

theorem installAndFlood (lsp : Lsp) (h : Alike lsp.id s s') (received : Bool) :
    Twins 1 lsp.id s (s.installAndFlood lsp received) s' (s'.installAndFlood lsp received) :=
  (install lsp h received).trans (flood (install lsp h received).alike none)

theorem acknowledge (h : Alike lsp.id s s') (circuit : CircuitId) :
    Twins 0 lsp.id s (s.acknowledge circuit lsp) s' (s'.acknowledge circuit lsp) := by
  rw [LevelState.acknowledge, LevelState.acknowledge, h.isPointToPoint]
  split
  · exact setFlag h .ssn circuit
  · exact refl h

/-- One more LSP waits for an election. -/
theorem keep (h : Alike id s s') (copy : DeferredLsp) :
    Twins 0 id s { s with deferred := keeping s.deferred id (some copy) }
      s' { s' with deferred := keeping s'.deferred id (some copy) } := by
  have hleaves : ∀ s : LevelState, Leaves id ⟨Counters.zero, false, [], some copy⟩ s
      { s with deferred := keeping s.deferred id (some copy) } := fun s =>
    { Leaves.refl id s with deferred := rfl, log := rfl }
  have hdeferred : ∀ s : LevelState,
      { s with deferred := keeping s.deferred id (some copy) }.deferred? id = some copy :=
    fun s => by simp [deferred?, keeping, Table.get?_insert_self]
  exact ⟨⟨h.surroundings, h.entry, h.marks, (hdeferred _).trans (hdeferred _).symm⟩, _,
    Nat.le_refl _, hleaves s, hleaves s'⟩

theorem defer (h : Alike lsp.id s s') (circuit : CircuitId) :
    Twins 0 lsp.id s (s.defer circuit lsp) s' (s'.defer circuit lsp) := by
  have hwaiting : ∀ s : LevelState,
      ((s.deferred.get? lsp.id.pseudonode).getD Table.empty).get? lsp.id =
        s.deferred? lsp.id := by
    intro s
    rw [deferred?]
    cases s.deferred.get? lsp.id.pseudonode <;> rfl
  have htold := tell h (.lspChanged .deferred s.level lsp.mention)
    (.lspChanged .deferred s'.level lsp.mention)
  have hsame : s'.deferred? lsp.id = s.deferred? lsp.id := h.deferred
  unfold LevelState.defer
  dsimp only
  rw [hwaiting, hwaiting, deferred?_tell, deferred?_tell, hsame]
  split
  · exact htold.trans (keep htold.alike ⟨circuit, lsp⟩)
  · exact htold

end Twins

end LevelState

end LinkState
