import LinkState.Proofs.Decomposition
import LinkState.Proofs.FloodingFlags

/-!
# What is done about one LSP concerns no other

A level sees of an LSP its entry and its flags on each circuit.  Whatever is done
about one LSP leaves the view of every other as it is, and leaves alone what is
given to the level from outside.  Generations that are pending stay pending.
-/

namespace LinkState

/-! ### Flags -/

/-- The flags of an LSP on a circuit: whether it is to be sent, and the summary to
acknowledge. -/
structure Marks where
  srm : Bool
  ssn : Option LspSummary

namespace CircuitFlags

variable {flags : CircuitFlags} {id other : LspId}

def marks (flags : CircuitFlags) (id : LspId) : Marks :=
  ⟨flags.srm.contains id, flags.ssn.get? id⟩

theorem marks_set_srm (flags : CircuitFlags) {summary : LspSummary} (h : summary.seqno ≠ 0) :
    (flags.set .srm summary).marks summary.id = ⟨true, (flags.marks summary.id).ssn⟩ := by
  simp [marks, set, h, Table.contains_insert]

theorem marks_set_ssn (flags : CircuitFlags) (summary : LspSummary) :
    (flags.set .ssn summary).marks summary.id =
      ⟨(flags.marks summary.id).srm, some summary⟩ := by
  simp [marks, set, Table.get?_insert_self]

theorem marks_clear_srm (flags : CircuitFlags) (id : LspId) :
    (flags.clear .srm id).marks id = ⟨false, (flags.marks id).ssn⟩ := by
  simp [marks, clear, Table.contains_erase]

theorem marks_clear_ssn (flags : CircuitFlags) (id : LspId) :
    (flags.clear .ssn id).marks id = ⟨(flags.marks id).srm, none⟩ := by
  simp [marks, clear, Table.get?_erase_self]

theorem marks_set_of_ne (flags : CircuitFlags) (flag : Flag) {summary : LspSummary}
    (h : other ≠ summary.id) : (flags.set flag summary).marks other = flags.marks other := by
  cases flag with
  | srm =>
      rw [set]
      split
      · rfl
      · simp [marks, Table.contains_insert, h]
  | ssn => simp [marks, set, Table.get?_insert_of_ne _ _ h]

theorem marks_clear_of_ne (flags : CircuitFlags) (flag : Flag) (h : other ≠ id) :
    (flags.clear flag id).marks other = flags.marks other := by
  cases flag with
  | srm => simp [marks, clear, Table.contains_erase, h]
  | ssn => simp [marks, clear, Table.get?_erase_of_ne _ h]

end CircuitFlags

namespace Flooding

/-- The flags of an LSP on a circuit.  There are none on an unknown circuit. -/
def marks (flooding : Flooding) (circuit : CircuitId) (id : LspId) : Option Marks :=
  (flooding.get? circuit).map fun flags => flags.marks id

/-- Two states of the flags differ in those of one LSP only. -/
structure Confined (id : LspId) (before after : Flooding) : Prop where
  contains : ∀ circuit, after.contains circuit = before.contains circuit
  marks : ∀ circuit other, other ≠ id →
    after.marks circuit other = before.marks circuit other

namespace Confined

variable {id : LspId} {before middle after : Flooding}

theorem refl (id : LspId) (flooding : Flooding) : Confined id flooding flooding :=
  ⟨fun _ => rfl, fun _ _ _ => rfl⟩

theorem trans (h : Confined id before middle) (h' : Confined id middle after) :
    Confined id before after where
  contains := fun circuit => (h'.contains circuit).trans (h.contains circuit)
  marks := fun circuit other hne =>
    (h'.marks circuit other hne).trans (h.marks circuit other hne)

/-- The flags of each circuit are changed for one LSP only. -/
theorem of_get? (f : CircuitId → CircuitFlags → CircuitFlags)
    (hget : ∀ circuit, after.get? circuit = (before.get? circuit).map (f circuit))
    (hflags : ∀ circuit flags other, other ≠ id →
      (f circuit flags).marks other = flags.marks other) : Confined id before after where
  contains := fun circuit => by
    rw [Table.contains, Table.contains, hget, Option.isSome_map]
  marks := fun circuit other hne => by
    rw [Flooding.marks, Flooding.marks, hget, Option.map_map]
    exact Option.map_congr fun flags _ => hflags circuit flags other hne

end Confined

theorem set_confined (flooding : Flooding) (flag : Flag) (summary : LspSummary)
    (circuit : CircuitId) : Confined summary.id flooding (flooding.set flag summary circuit) := by
  refine .of_get? _ (fun c => get?_set _ _ _ _ c) fun c flags other hne => ?_
  split
  · exact flags.marks_set_of_ne flag hne
  · rfl

theorem clear_confined (flooding : Flooding) (flag : Flag) (id : LspId) (circuit : CircuitId) :
    Confined id flooding (flooding.clear flag id circuit) := by
  refine .of_get? _ (fun c => get?_clear _ _ _ _ c) fun c flags other hne => ?_
  split
  · exact flags.marks_clear_of_ne flag hne
  · rfl

theorem setAll_confined (flooding : Flooding) (flag : Flag) (summary : LspSummary)
    (except : Option CircuitId) :
    Confined summary.id flooding (flooding.setAll flag summary except) := by
  refine .of_get? _ (fun c => get?_setAll _ _ _ _ c) fun c flags other hne => ?_
  split
  · rfl
  · exact flags.marks_set_of_ne flag hne

theorem clearAll_confined (flooding : Flooding) (flag : Flag) (id : LspId)
    (except : Option CircuitId) :
    Confined id flooding (flooding.clearAll flag id except) := by
  refine .of_get? _ (fun c => get?_clearAll _ _ _ _ c) fun c flags other hne => ?_
  split
  · rfl
  · exact flags.marks_clear_of_ne flag hne

theorem removeLsp_confined (flooding : Flooding) (id : LspId) :
    Confined id flooding (flooding.removeLsp id) :=
  (clearAll_confined _ .srm id none).trans (clearAll_confined _ .ssn id none)

end Flooding

namespace LevelState

variable {s t u : LevelState} {id : LspId} {circuit : CircuitId} {lsp : Lsp}

theorem flooded_confined (flooding : Flooding) (summary : LspSummary)
    (except : Option CircuitId) :
    Flooding.Confined summary.id flooding (flooded flooding summary except) :=
  (Flooding.setAll_confined _ .srm summary except).trans
    (Flooding.clearAll_confined _ .ssn summary.id except)

theorem acceptedFlags_confined (s : LevelState) (circuit : CircuitId) (lsp : Lsp) :
    Flooding.Confined lsp.id s.flooding (s.acceptedFlags circuit lsp) := by
  refine (Flooding.clear_confined _ .srm lsp.id circuit).trans ?_
  refine Flooding.Confined.trans ?_ (flooded_confined _ (s.summaryOf lsp) (some circuit))
  split
  · exact Flooding.set_confined _ .ssn (s.summaryOf lsp) circuit
  · exact Flooding.clear_confined _ .ssn lsp.id circuit

theorem acknowledgedFlags_confined (s : LevelState) (circuit : CircuitId) (lsp : Lsp) :
    Flooding.Confined lsp.id s.flooding (s.acknowledgedFlags circuit lsp) := by
  rw [acknowledgedFlags]
  split
  · exact Flooding.set_confined _ .ssn (s.summaryOf lsp) circuit
  · exact .refl _ _

theorem markAll_database (s : LevelState) (circuit : CircuitId) (entries : List Entry) :
    (entries.foldl (fun s entry => s.setFlag .srm (s.summaryOf entry.lsp) circuit) s).database =
      s.database := by
  induction entries generalizing s with
  | nil => rfl
  | cons entry rest ih => exact ih _

/-! ### Views -/

/-- What is given to a level from outside. -/
structure Surroundings where
  level : Level
  config : Config
  advertised : Advertisement
  now : Nat
  circuits : Table CircuitId Circuit
  elections : Table UInt8 Election

def surroundings (s : LevelState) : Surroundings :=
  ⟨s.level, s.config, s.advertised, s.now, s.circuits, s.elections⟩

/-- What a level sees of an LSP: its entry, and its flags on each circuit. -/
structure View where
  entry : Option Entry
  marks : CircuitId → Option Marks

def view (s : LevelState) (id : LspId) : View :=
  ⟨s.database.get? id, fun circuit => s.flooding.marks circuit id⟩

theorem view_eq (hentry : t.database.get? id = s.database.get? id)
    (hmarks : ∀ circuit, t.flooding.marks circuit id = s.flooding.marks circuit id) :
    t.view id = s.view id := by
  rw [view, view, hentry]
  exact congrArg _ (funext hmarks)

def Pending (s : LevelState) (pseudonode : UInt8) : Prop :=
  (s.kept? (.generate pseudonode)).isSome = true

/-- Between two states, what was done about the LSPs that are touched concerned no
other LSP, and no generation was given up. -/
structure Spares (touched : LspId → Prop) (s t : LevelState) : Prop where
  surroundings : t.surroundings = s.surroundings
  flagged : ∀ circuit, t.flooding.contains circuit = s.flooding.contains circuit
  view : ∀ id, ¬ touched id → t.view id = s.view id
  generators : ∀ pseudonode, s.generators.contains pseudonode = true →
    t.generators.contains pseudonode = true
  pending : ∀ pseudonode, s.Pending pseudonode → t.Pending pseudonode

namespace Spares

variable {touched : LspId → Prop}

theorem refl (touched : LspId → Prop) (s : LevelState) : Spares touched s s :=
  ⟨rfl, fun _ => rfl, fun _ _ => rfl, fun _ h => h, fun _ h => h⟩

theorem trans (h : Spares touched s t) (h' : Spares touched t u) : Spares touched s u where
  surroundings := h'.surroundings.trans h.surroundings
  flagged := fun circuit => (h'.flagged circuit).trans (h.flagged circuit)
  view := fun id hid => (h'.view id hid).trans (h.view id hid)
  generators := fun _ hcontains => h'.generators _ (h.generators _ hcontains)
  pending := fun _ hpending => h'.pending _ (h.pending _ hpending)

theorem mono {others : LspId → Prop} (h : Spares touched s t)
    (hsub : ∀ id, touched id → others id) : Spares others s t :=
  { h with view := fun id hid => h.view id fun htouched => hid (hsub id htouched) }

theorem level (h : Spares touched s t) : t.level = s.level :=
  congrArg Surroundings.level h.surroundings

theorem config (h : Spares touched s t) : t.config = s.config :=
  congrArg Surroundings.config h.surroundings

theorem now (h : Spares touched s t) : t.now = s.now :=
  congrArg Surroundings.now h.surroundings

theorem circuits (h : Spares touched s t) : t.circuits = s.circuits :=
  congrArg Surroundings.circuits h.surroundings

theorem get? (h : Spares touched s t) (hid : ¬ touched id) :
    t.database.get? id = s.database.get? id :=
  congrArg View.entry (h.view id hid)

/-- Records of what happened are no concern of any LSP. -/
theorem note (touched : LspId → Prop) (s : LevelState) (counters : Counters)
    (trace : List Event) : Spares touched s { s with counters := counters, trace := trace } :=
  ⟨rfl, fun _ => rfl, fun _ _ => rfl, fun _ h => h, fun _ h => h⟩

theorem tell (touched : LspId → Prop) (s : LevelState) (event : Event) :
    Spares touched s (s.tell event) :=
  .note touched s s.counters (event :: s.trace)

theorem count (touched : LspId → Prop) (s : LevelState) (f : Counters → Counters) :
    Spares touched s (s.count f) :=
  .note touched s { f s.counters with touched := true } s.trace

/-- A fold spares what none of its rounds touches. -/
theorem foldl {α : Type} {f : LevelState → α → LevelState} {items : List α}
    {P : LevelState → Prop} (hs : P s)
    (hf : ∀ {t item}, item ∈ items → P t → P (f t item) ∧ Spares touched t (f t item)) :
    P (items.foldl f s) ∧ Spares touched s (items.foldl f s) := by
  induction items generalizing s with
  | nil => exact ⟨hs, .refl _ _⟩
  | cons item rest ih =>
      obtain ⟨hround, hspares⟩ := hf List.mem_cons_self hs
      obtain ⟨hrest, hspares'⟩ := ih hround fun hmem => hf (List.mem_cons_of_mem _ hmem)
      exact ⟨hrest, hspares.trans hspares'⟩

/-- Only the flags of one LSP change. -/
theorem reflag {flooding : Flooding} (h : Flooding.Confined id s.flooding flooding) :
    Spares (· = id) s { s with flooding := flooding } := by
  refine ⟨rfl, h.contains, fun other hother => ?_, fun _ h => h, fun _ h => h⟩
  exact view_eq rfl fun circuit => h.marks circuit other hother

theorem installs {received : Bool} {flooding : Flooding}
    (hinstalls : Installs s lsp received flooding t)
    (h : Flooding.Confined lsp.id s.flooding flooding) : Spares (· = lsp.id) s t := by
  obtain ⟨counters, history, number, trace, rfl⟩ := hinstalls
  refine ⟨rfl, h.contains, fun other hother => ?_, fun _ h => h, fun _ h => h⟩
  exact view_eq (Table.get?_insert_of_ne _ _ hother) fun circuit => h.marks circuit other hother

theorem installsFlooded {received : Bool}
    (hinstalls : Installs s lsp received (flooded s.flooding (s.summaryOf lsp) none) t) :
    Spares (· = lsp.id) s t :=
  installs hinstalls (flooded_confined s.flooding (s.summaryOf lsp) none)

theorem remove {entry : Entry} (hstored : s.database.get? id = some entry) :
    Spares (· = id) s (s.remove id) := by
  obtain ⟨trace, heq⟩ := remove_eq hstored
  have hflags := Flooding.removeLsp_confined s.flooding id
  rw [heq]
  refine ⟨rfl, hflags.contains, fun other hother => ?_, fun _ h => h, fun _ h => h⟩
  exact view_eq (Table.get?_erase_of_ne _ hother) fun circuit =>
    hflags.marks circuit other hother

end Spares

/-- Scheduling a generation makes it pending. -/
theorem pending_scheduleGeneration (s : LevelState) (pseudonode : UInt8) (span : Nat) :
    (s.scheduleGeneration pseudonode span).Pending pseudonode := by
  cases hkept : s.kept? (.generate pseudonode) with
  | some handle =>
      rw [scheduleGeneration_pending span hkept, Pending, hkept]
      rfl
  | none =>
      obtain ⟨trace, heq⟩ := scheduleGeneration_idle span hkept
      rw [heq, Pending, kept?, Table.get?_insert_self]
      rfl

namespace Spares

variable {touched : LspId → Prop}

theorem scheduleGeneration (touched : LspId → Prop) (s : LevelState) (pseudonode : UInt8)
    (span : Nat) : Spares touched s (s.scheduleGeneration pseudonode span) := by
  have hpending := s.pending_scheduleGeneration pseudonode span
  cases hkept : s.kept? (.generate pseudonode) with
  | some handle =>
      rw [scheduleGeneration_pending span hkept]
      exact .refl _ _
  | none =>
      obtain ⟨trace, heq⟩ := scheduleGeneration_idle span hkept
      rw [heq] at hpending ⊢
      refine ⟨rfl, fun _ => rfl, fun _ _ => rfl, fun other hcontains => ?_, fun other hother => ?_⟩
      · simp only [Table.contains_insert, hcontains, Bool.or_true]
      · by_cases heq : other = pseudonode
        · exact heq ▸ hpending
        · rw [Pending, kept?, Table.get?_insert_of_ne _ _ heq]
          exact hother

/-! ### Operations -/

theorem purge (h : s.Consistent) {entry : Entry} (reason : PurgeReason)
    (hstored : s.database.get? id = some entry) (hlive : entry.isPurged = false) :
    Spares (· = id) s (s.purge id reason) := by
  have hid : (s.purgeOf entry.lsp).id = id := h.keys hstored
  have hspares := installsFlooded
    (purge_installs reason hstored hlive (zeroAgeTimer_of_live h hstored hlive))
  rwa [hid] at hspares

theorem forcePurge (s : LevelState) (lsp : Lsp) (reason : PurgeReason) :
    Spares (· = lsp.id) s (s.forcePurge lsp reason) := by
  have hspares := installsFlooded (s.forcePurge_installs lsp reason)
  exact hspares

theorem originate (s : LevelState) (lsp : Lsp) : Spares (· = lsp.id) s (s.originate lsp) := by
  cases hnext : nextSeqno? (max lsp.seqno (s.storedSeqno lsp.id)) with
  | some seqno =>
      have hspares := installsFlooded (originate_installs hnext)
      exact hspares
  | none =>
      obtain ⟨counters, trace, heq⟩ := originate_exhausted hnext
      rw [heq]
      refine (note _ s counters trace).trans ?_
      split
      · exact forcePurge _ _ _
      · exact .refl _ _

theorem delete {entry : Entry} (hstored : s.database.get? id = some entry) :
    Spares (· = id) s (s.delete id) := by
  have hremove := (remove hstored).trans
    (tell _ _ (.lspChanged .deleted s.level entry.lsp.mention))
  simp only [LevelState.delete, hstored]
  apply hremove.trans
  split
  · exact scheduleGeneration _ _ _ 0
  · exact .refl _ _

theorem expire (h : s.Consistent) {entry : Entry}
    (hstored : s.database.get? id = some entry) (hlive : entry.isPurged = false) :
    Spares (· = id) s (s.expire id) := by
  simp only [LevelState.expire, hstored]
  split
  · exact delete hstored
  · exact purge h .expired hstored hlive

theorem resolveConfusion (h : s.Consistent) {entry : Entry}
    (hstored : s.database.get? id = some entry) (hlive : entry.isPurged = false) :
    Spares (· = id) s (s.resolveConfusion id) := by
  simp only [LevelState.resolveConfusion, hstored]
  refine (tell _ s (.lspChanged .confused s.level entry.lsp.mention)).trans ?_
  split
  · exact purge (h.tell _) .confusion hstored hlive
  · refine (count _ _ fun c => { c with skippedSeqnos := c.skippedSeqnos + 1 }).trans ?_
    have horiginate := originate ((s.tell (.lspChanged .confused s.level
      entry.lsp.mention)).count fun c => { c with skippedSeqnos := c.skippedSeqnos + 1 }) entry.lsp
    rwa [h.keys hstored] at horiginate

theorem acknowledge (s : LevelState) (circuit : CircuitId) (lsp : Lsp) :
    Spares (· = lsp.id) s (s.acknowledge circuit lsp) := by
  rw [acknowledge_eq]
  exact reflag (s.acknowledgedFlags_confined circuit lsp)

theorem acceptSame (h : s.Consistent) (circuit : CircuitId) (lsp : Lsp) :
    Spares (· = lsp.id) s (s.acceptSame circuit lsp (s.database.get? lsp.id)) := by
  rw [LevelState.acceptSame]
  split
  · rename_i hconfused
    cases hstored : s.database.get? lsp.id with
    | none => simp [hstored] at hconfused
    | some entry =>
        simp only [hstored, Option.map_some, Option.getD_some, isConfused, Bool.and_eq_true,
          Bool.not_eq_true'] at hconfused
        exact resolveConfusion h hstored hconfused.1.1
  · exact (reflag (Flooding.clearAll_confined _ .srm lsp.id none)).trans (acknowledge _ _ _)

theorem answerOlder (s : LevelState) (circuit : CircuitId) (entry : Entry) :
    Spares (· = entry.lsp.id) s (s.answerOlder circuit entry) :=
  ((reflag (Flooding.set_confined _ .srm (s.summaryOf entry.lsp) circuit)).trans
    (reflag (Flooding.clear_confined _ .ssn entry.lsp.id circuit))).trans
      (reflag (Flooding.clearAll_confined _ .srm entry.lsp.id (some circuit)))

theorem accept (s : LevelState) (circuit : CircuitId) (lsp : Lsp) :
    Spares (· = lsp.id) s (s.accept circuit lsp) := by
  have hspares := installs (s.accept_installs circuit lsp) (s.acceptedFlags_confined circuit _)
  rwa [completed_id] at hspares

theorem recordPurge (s : LevelState) (circuit : CircuitId) (lsp : Lsp) :
    Spares (· = lsp.id) s (s.recordPurge circuit lsp) := by
  have hspares := installs (s.recordPurge_installs circuit lsp)
    (s.acknowledgedFlags_confined circuit lsp)
  exact hspares

theorem judged (h : s.Consistent) (hjudged : Judged s circuit lsp t) :
    Spares (· = lsp.id) s t := by
  cases hjudged with
  | recorded => exact recordPurge s circuit lsp
  | accepted => exact accept s circuit lsp
  | outlived outlived =>
      have hpurge : Step (fun _ => True) s (s.purge lsp.id .expired) :=
        purge_step h .expired outlived.stored outlived.live
      exact (purge h .expired outlived.stored outlived.live).trans
        (acceptSame (h.step hpurge) circuit lsp)
  | same => exact acceptSame h circuit lsp
  | older _ stored => exact h.keys stored ▸ answerOlder s circuit _

/-- The answer to an own LSP concerns that LSP only. -/
theorem answered (h : s.Consistent) (hanswered : Answered s circuit lsp t) :
    Spares (· = lsp.id) s t := by
  cases hanswered with
  | deferred =>
      obtain ⟨deferred, trace, heq⟩ := s.defer_eq circuit lsp
      rw [heq]
      exact ⟨rfl, fun _ => rfl, fun _ _ => rfl, fun _ h => h, fun _ h => h⟩
  | unsupported => exact forcePurge s lsp _
  | removed => exact forcePurge s lsp _
  | @superseded entry _ known =>
      refine (count _ s fun c => { c with skippedSeqnos := c.skippedSeqnos + 1 }).trans ?_
      have horiginate := originate
        (s.count fun c => { c with skippedSeqnos := c.skippedSeqnos + 1 })
        { entry.lsp with seqno := lsp.seqno }
      have hid : entry.lsp.id = lsp.id := h.keys (stored_of_known known).1
      exact hid ▸ horiginate

theorem receiveFrom (h : s.Consistent) (circuit : CircuitId) (lsp : Lsp) :
    Spares (· = lsp.id) s (s.receiveFrom circuit lsp) := by
  have hreceived := receiveFrom_received h circuit lsp
  have hcount : ∀ counters, Spares (· = lsp.id) s { s with counters := counters } :=
    fun counters => note _ s counters s.trace
  have hconsistent : ∀ counters, { s with counters := counters }.Consistent :=
    fun _ => h.congr rfl rfl rfl rfl
  generalize s.receiveFrom circuit lsp = t at hreceived
  cases hreceived with
  | discarded _ counters event => exact note _ s counters (event :: s.trace)
  | answered counters _ _ hanswered => exact (hcount _).trans (answered (hconsistent _) hanswered)
  | judged counters _ _ hjudged => exact (hcount _).trans (judged (hconsistent _) hjudged)

theorem requestUnknown (s : LevelState) (circuit : CircuitId) (summary : LspSummary) :
    Spares (· = summary.id) s (s.requestUnknown circuit summary) := by
  by_cases hasked : summary.lifetime ≠ 0 ∧ summary.checksum ≠ 0 ∧ summary.seqno ≠ 0
  · have hspares := installs (s.requestUnknown_installs circuit hasked) (Flooding.set_confined _
      .ssn (s.summaryOf (s.placeholder summary.lifetime summary.id)) circuit)
    exact hspares
  · rw [LevelState.requestUnknown, if_neg hasked]
    exact .refl _ _

theorem settleSent (s : LevelState) (circuit : CircuitId) (id : LspId) :
    Spares (· = id) s (s.settleSent circuit id) := by
  rw [LevelState.settleSent]
  split
  · exact reflag (Flooding.clear_confined _ .srm id circuit)
  · exact .refl _ _

/-- A summary concerns the LSP that it is about. -/
theorem review (h : s.Consistent) (circuit : CircuitId) (summary : LspSummary) :
    Spares (· = summary.id) s (s.review circuit summary) := by
  rw [LevelState.review]
  cases hstored : s.database.get? summary.id with
  | none => exact requestUnknown s circuit summary
  | some entry =>
      have hid : entry.lsp.id = summary.id := h.keys hstored
      have hset : ∀ (s : LevelState) (flag : Flag),
          Spares (· = summary.id) s (s.setFlag flag (s.summaryOf entry.lsp) circuit) :=
        fun s flag => hid ▸ reflag (Flooding.set_confined _ flag (s.summaryOf entry.lsp) circuit)
      dsimp only
      rw [reviewStored]
      split
      · split
        · rename_i hconfused
          simp only [isConfused, Bool.and_eq_true, Bool.not_eq_true'] at hconfused
          exact resolveConfusion h hstored hconfused.1.1
        · exact settleSent s circuit summary.id
      · exact (reflag (Flooding.clear_confined _ .ssn summary.id circuit)).trans (hset _ .srm)
      · exact (hset s .ssn).trans (settleSent _ circuit summary.id)

/-- Marking LSPs for sending concerns these only. -/
theorem markAll (s : LevelState) (circuit : CircuitId) (entries : List Entry) :
    Spares (fun id => ∃ entry ∈ entries, entry.lsp.id = id) s
      (entries.foldl (fun s entry => s.setFlag .srm (s.summaryOf entry.lsp) circuit) s) := by
  refine (foldl (P := fun _ => True) trivial fun {t entry} hmem _ => ⟨trivial, ?_⟩).2
  refine (reflag (Flooding.set_confined t.flooding .srm (t.summaryOf entry.lsp) circuit)).mono ?_
  exact fun id hid => ⟨entry, hmem, hid.symm⟩

end Spares

end LevelState

end LinkState
