import LinkState.Proofs.FloodingInvariant

/-!
# What a level makes of a neighbour's summaries

A neighbour tells which instance of an LSP it holds, or that it holds none.  What a
level does about that LSP follows from this and from its own view of the LSP.  A
complete sequence numbers PDU tells this of every LSP in its range and of no other.
-/

namespace LinkState

namespace Flooding

variable {circuit c : CircuitId} {id : LspId}

theorem marks_set_elsewhere (flooding : Flooding) (flag : Flag) (summary : LspSummary)
    (h : c ≠ circuit) (id : LspId) :
    (flooding.set flag summary circuit).marks c id = flooding.marks c id := by
  rw [marks, marks, get?_set]
  cases flooding.get? c <;> simp [h]

theorem marks_set_here (flooding : Flooding) (flag : Flag) (summary : LspSummary)
    (circuit : CircuitId) (id : LspId) :
    (flooding.set flag summary circuit).marks circuit id =
      (flooding.get? circuit).map fun flags => (flags.set flag summary).marks id := by
  rw [marks, get?_set]
  cases flooding.get? circuit <;> simp

end Flooding

/-- A summary tells of an instance that can be asked for. -/
def LspSummary.Requestable (summary : LspSummary) : Prop :=
  summary.lifetime ≠ 0 ∧ summary.checksum ≠ 0 ∧ summary.seqno ≠ 0

instance (summary : LspSummary) : Decidable summary.Requestable :=
  inferInstanceAs (Decidable (_ ∧ _ ∧ _))

/-- Two summaries tell of one instance.  Of the remaining lifetimes it matters only
whether they are zero. -/
structure LspSummary.Alike (first second : LspSummary) : Prop where
  seqno : first.seqno = second.seqno
  checksum : first.checksum = second.checksum
  expired : first.lifetime = 0 ↔ second.lifetime = 0

/-- How the instance that a summary tells of compares with an entry. -/
def Entry.recencyOf (entry : Entry) (summary : LspSummary) : Recency :=
  Recency.compare (some entry.lsp) summary.seqno summary.lifetime none

namespace LevelState

variable {s t : LevelState} {id : LspId} {circuit c : CircuitId} {summary : LspSummary}

namespace View

def sends (view : View) (circuit : CircuitId) : Bool :=
  ((view.marks circuit).map (·.srm)).getD false

/-- Whether an LSP is to be acknowledged, or asked for, on a circuit. -/
def acknowledges (view : View) (circuit : CircuitId) : Bool :=
  ((view.marks circuit).bind (·.ssn)).isSome

end View

theorem isSet_srm (s : LevelState) (circuit : CircuitId) (id : LspId) :
    s.flooding.isSet .srm circuit id = (s.view id).sends circuit := by
  simp only [Flooding.isSet, View.sends, view, Flooding.marks]
  cases s.flooding.get? circuit <;> rfl

theorem sends_setFlag (hflags : s.flooding.contains circuit = true) (hseqno : summary.seqno ≠ 0)
    (hid : summary.id = id) : ((s.setFlag .srm summary circuit).view id).sends circuit = true := by
  obtain ⟨flags, hflags⟩ := Option.isSome_iff_exists.1 hflags
  show (((s.flooding.set .srm summary circuit).marks circuit id).map (·.srm)).getD false = true
  rw [Flooding.marks_set_here, hflags, ← hid, Option.map_some, flags.marks_set_srm hseqno]
  rfl

def Asks (told : Option LspSummary) (entry : Option Entry) : Prop :=
  entry = none ∧ ∃ summary, told = some summary ∧ summary.Requestable

/-- Both hold live instances with one sequence number that differ. -/
def Conflicts (told : Option LspSummary) (entry : Option Entry) : Prop :=
  ∃ summary stored, told = some summary ∧ entry = some stored ∧
    stored.recencyOf summary = .same ∧ isConfused stored summary.lifetime summary.checksum = true

/-- What becomes of an LSP once a neighbour on a circuit has told which instance it
holds. -/
structure Synchronised (circuit : CircuitId) (told : Option LspSummary) (before after : View) :
    Prop where
  missing : ∀ {stored}, told = none → before.entry = some stored → stored.isLive = true →
    after.sends circuit = true
  older : ∀ {summary stored}, told = some summary → before.entry = some stored →
    stored.recencyOf summary = .older →
      after.sends circuit = true ∧ after.acknowledges circuit = false
  newer : ∀ {summary stored}, told = some summary → before.entry = some stored →
    stored.recencyOf summary = .newer → after.acknowledges circuit = true
  asked : Asks told before.entry → after.acknowledges circuit = true ∧
    ∃ placeholder, after.entry = some placeholder ∧ placeholder.isPlaceholder = true
  kept : ¬ Asks told before.entry → ¬ Conflicts told before.entry → after.entry = before.entry
  others : ¬ Conflicts told before.entry → ∀ c, c ≠ circuit → after.marks c = before.marks c
  quiet : (∀ {stored}, told = none → before.entry = some stored → stored.isLive = false) →
    (∀ {summary}, told = some summary → ∃ stored, before.entry = some stored ∧
      stored.recencyOf summary = .same) → ¬ Conflicts told before.entry →
    ∀ c, (after.sends c = true → before.sends c = true) ∧
      (after.acknowledges c = true → before.acknowledges c = true)

/-- Only a greater sequence number makes a stored copy the more recent one. -/
theorem seqno_of_older {entry : Entry} (h : entry.recencyOf summary = .older) :
    entry.lsp.seqno ≠ 0 := by
  have hfields : Recency.ofFields entry.lsp.seqno entry.lsp.lifetime summary.seqno
      summary.lifetime = .older := by
    simpa [Entry.recencyOf, Recency.compare] using h
  intro hzero
  rw [hzero, Recency.ofFields] at hfields
  have hnotless : ¬ summary.seqno < 0 := UInt32.not_lt_zero
  split_ifs at hfields

/-! ### What is told of one instance at different times -/

section Alike

variable {first second : LspSummary}

theorem recencyOf_alike (h : first.Alike second) (stored : Entry) :
    stored.recencyOf first = stored.recencyOf second := by
  simp only [Entry.recencyOf, Recency.compare, Recency.ofFields, h.seqno, ne_eq, h.expired]

theorem isConfused_alike (h : first.Alike second) (stored : Entry) :
    isConfused stored first.lifetime first.checksum =
      isConfused stored second.lifetime second.checksum := by
  have hlive : (first.lifetime != 0) = (second.lifetime != 0) := by
    rw [Bool.eq_iff_iff, bne_iff_ne, bne_iff_ne]
    exact not_congr h.expired
  rw [isConfused, isConfused, hlive, h.checksum]

theorem requestable_alike (h : first.Alike second) : first.Requestable ↔ second.Requestable := by
  simp only [LspSummary.Requestable, ne_eq, h.expired, h.checksum, h.seqno]

/-- What becomes of an LSP does not depend on when a neighbour has told of its
instance. -/
theorem Synchronised.of_alike {before after : View} (halike : first.Alike second)
    (h : Synchronised circuit (some first) before after) :
    Synchronised circuit (some second) before after := by
  have hasks : Asks (some first) before.entry ↔ Asks (some second) before.entry := by
    simp [Asks, requestable_alike halike]
  have hconflicts : Conflicts (some first) before.entry ↔ Conflicts (some second) before.entry := by
    simp [Conflicts, recencyOf_alike halike, isConfused_alike halike]
  constructor
  · intro stored htold
    cases htold
  · intro summary stored htold hstored holder
    cases htold
    exact h.older rfl hstored ((recencyOf_alike halike stored).trans holder)
  · intro summary stored htold hstored hnewer
    cases htold
    exact h.newer rfl hstored ((recencyOf_alike halike stored).trans hnewer)
  · exact fun hasked => h.asked (hasks.2 hasked)
  · exact fun hunasked hagreed => h.kept (mt hasks.1 hunasked) (mt hconflicts.1 hagreed)
  · exact fun hagreed => h.others (mt hconflicts.1 hagreed)
  · intro _ hsame hagreed
    refine h.quiet (fun htold => by cases htold) ?_ (mt hconflicts.1 hagreed)
    intro summary htold
    cases htold
    obtain ⟨stored, hstored, hrecency⟩ := hsame rfl
    exact ⟨stored, hstored, (recencyOf_alike halike stored).trans hrecency⟩

end Alike

/-! ### One instance on both sides -/

/-- A view in which nothing changes is in order if there is nothing to say. -/
theorem Synchronised.refl {told : Option LspSummary} {view : View}
    (hmissing : ∀ {stored}, told = none → view.entry = some stored → stored.isLive = false)
    (hknown : ∀ {summary stored}, told = some summary → view.entry = some stored →
      stored.recencyOf summary = .same)
    (hasks : ¬ Asks told view.entry) : Synchronised circuit told view view where
  missing := fun htold hstored hlive => by simp [hmissing htold hstored] at hlive
  older := fun htold hstored holder => by simp [hknown htold hstored] at holder
  newer := fun htold hstored hnewer => by simp [hknown htold hstored] at hnewer
  asked := fun hcontra => absurd hcontra hasks
  kept := fun _ _ => rfl
  others := fun _ _ _ => rfl
  quiet := fun _ _ _ _ => ⟨fun h => h, fun h => h⟩

/-! ### One summary -/

/-- An entry that is kept is in order once its flags are. -/
theorem Synchronised.of_kept {before after : View} {stored : Entry}
    (hstored : before.entry = some stored) (hentry : after.entry = before.entry)
    (hothers : ∀ c, c ≠ circuit → after.marks c = before.marks c)
    (holder : stored.recencyOf summary = .older →
      after.sends circuit = true ∧ after.acknowledges circuit = false)
    (hnewer : stored.recencyOf summary = .newer → after.acknowledges circuit = true)
    (hsame : stored.recencyOf summary = .same →
      (after.sends circuit = true → before.sends circuit = true) ∧
        (after.acknowledges circuit = true → before.acknowledges circuit = true)) :
    Synchronised circuit (some summary) before after where
  missing := fun htold => by cases htold
  older := fun htold hstored' => by
    cases htold
    cases hstored.symm.trans hstored'
    exact holder
  newer := fun htold hstored' => by
    cases htold
    cases hstored.symm.trans hstored'
    exact hnewer
  asked := fun hasks => by
    rw [hstored] at hasks
    cases hasks.1
  kept := fun _ _ => hentry
  others := fun _ => hothers
  quiet := fun _ hknown _ c => by
    obtain ⟨stored', hstored', hrecency⟩ := hknown rfl
    cases hstored.symm.trans hstored'
    by_cases hc : c = circuit
    · exact hc ▸ hsame hrecency
    · rw [View.sends, View.sends, View.acknowledges, View.acknowledges, hothers c hc]
      exact ⟨fun h => h, fun h => h⟩

theorem review_consistent (h : s.Consistent) (circuit : CircuitId) (summary : LspSummary) :
    (s.review circuit summary).Consistent :=
  have hsteps : Steps (fun _ => True) s (s.review circuit summary) := review_steps h circuit summary
  h.steps hsteps

theorem reviews_spare (h : s.Consistent) (circuit : CircuitId) (summaries : List LspSummary) :
    (summaries.foldl (fun s summary => s.review circuit summary) s).Consistent ∧
      Spares (fun id => ∃ summary ∈ summaries, summary.id = id) s
        (summaries.foldl (fun s summary => s.review circuit summary) s) := by
  refine Spares.foldl h fun {t summary} hmem ht => ⟨review_consistent ht circuit summary, ?_⟩
  exact (Spares.review ht circuit summary).mono fun id hid => ⟨summary, hmem, hid.symm⟩

/-- Each summary of a PDU is listed under the ID of its LSP. -/
theorem listed_id {snp : Snp} (h : (listed snp).get? id = some summary) : summary.id = id := by
  rcases Table.mem_of_get?_ofList h with hmem
  obtain ⟨other, -, heq⟩ := List.mem_map.1 hmem
  cases heq
  rfl

theorem listed_nodup (snp : Snp) : ((listed snp).values.map (·.id)).Nodup := by
  have hids : (listed snp).values.map (·.id) = (listed snp).keys := by
    rw [Table.values, Table.keys, List.map_map]
    exact List.map_congr_left fun p hp => listed_id (Table.mem_toList.1 hp)
  rw [hids]
  exact (listed snp).nodup_keys

/-! ### The range of a PDU -/

theorem markAll_marks (s : LevelState) (entries : List Entry) (hc : c ≠ circuit) (id : LspId) :
    (entries.foldl (fun s entry => s.setFlag .srm (s.summaryOf entry.lsp) circuit)
      s).flooding.marks c id = s.flooding.marks c id := by
  induction entries generalizing s with
  | nil => rfl
  | cons entry rest ih => exact (ih _).trans (Flooding.marks_set_elsewhere _ _ _ hc id)

theorem markAll_sends {entries : List Entry} (hflags : s.flooding.contains circuit = true)
    (hknown : ∀ entry ∈ entries, entry.isPlaceholder = false)
    (hmem : ∃ entry ∈ entries, entry.lsp.id = id) :
    ((entries.foldl (fun s entry => s.setFlag .srm (s.summaryOf entry.lsp) circuit) s).view
      id).sends circuit = true := by
  induction entries generalizing s with
  | nil => simp at hmem
  | cons first rest ih =>
      rw [List.foldl_cons]
      have hset := Flooding.set_confined s.flooding .srm (s.summaryOf first.lsp) circuit
      by_cases hlater : ∃ entry ∈ rest, entry.lsp.id = id
      · exact ih ((hset.contains circuit).trans hflags)
          (fun entry hentry => hknown entry (List.mem_cons_of_mem _ hentry)) hlater
      · have hid : first.lsp.id = id := by
          obtain ⟨entry, hentry, hid⟩ := hmem
          rcases List.mem_cons.1 hentry with rfl | hrest
          · exact hid
          · exact absurd ⟨entry, hrest, hid⟩ hlater
        rw [(Spares.markAll _ circuit rest).view id hlater]
        have hseqno : first.lsp.seqno ≠ 0 := by
          simpa [Entry.isPlaceholder] using hknown first List.mem_cons_self
        exact sends_setFlag hflags hseqno hid

/-- The LSPs that a neighbour turns out to lack are the live ones in the range that are
not listed. -/
theorem mem_unlisted (h : s.Consistent) {start stop : LspId} {listed : Table LspId LspSummary} :
    (∃ entry ∈ (s.database.range start stop).filter fun entry =>
        !listed.contains entry.lsp.id && entry.isLive, entry.lsp.id = id) ↔
      listed.contains id = false ∧ (¬ id < start ∧ ¬ stop < id) ∧
        ∃ entry, s.database.get? id = some entry ∧ entry.isLive = true := by
  constructor
  · rintro ⟨entry, hmem, rfl⟩
    obtain ⟨hselected, hmissing⟩ := List.mem_filter.1 hmem
    obtain ⟨k, hstored, hin⟩ := mem_select.1 hselected
    obtain rfl := h.keys hstored
    simp only [Bool.and_eq_true, Bool.not_eq_true'] at hmissing
    exact ⟨hmissing.1, by simpa using hin, entry, hstored, hmissing.2⟩
  · rintro ⟨hunlisted, hin, entry, hstored, hlive⟩
    have hid := h.keys hstored
    refine ⟨entry, List.mem_filter.2 ⟨mem_select.2 ⟨id, hstored, by simpa using hin⟩, ?_⟩, hid⟩
    rw [hid, hunlisted, hlive]
    rfl

theorem sendUnlisted_view (h : s.Consistent) {start stop : LspId}
    {listed : Table LspId LspSummary}
    (hid : ¬ (listed.contains id = false ∧ ¬ id < start ∧ ¬ stop < id)) :
    (s.sendUnlisted circuit start stop listed).view id = s.view id := by
  refine (Spares.markAll s circuit _).view id fun hmem => ?_
  obtain ⟨hunlisted, hin, -⟩ := (mem_unlisted h).1 hmem
  exact hid ⟨hunlisted, hin⟩

/-- An LSP in the range that is not listed is one that the neighbour lacks. -/
theorem sendUnlisted_synchronised (h : s.Consistent)
    (hflags : s.flooding.contains circuit = true) {start stop : LspId}
    {listed : Table LspId LspSummary} (hunlisted : listed.contains id = false)
    (hin : ¬ id < start ∧ ¬ stop < id) :
    Synchronised circuit none (s.view id)
      ((s.sendUnlisted circuit start stop listed).view id) where
  missing := fun {stored} _ hstored hlive => by
    refine markAll_sends hflags (fun entry hentry => ?_)
      ((mem_unlisted h).2 ⟨hunlisted, hin, stored, hstored, hlive⟩)
    have hmissing := (List.mem_filter.1 hentry).2
    rw [Bool.and_eq_true, Entry.isLive_iff] at hmissing
    exact hmissing.2.2
  older := fun htold => by cases htold
  newer := fun htold => by cases htold
  asked := fun ⟨_, _, htold, _⟩ => by cases htold
  kept := fun _ _ => by
    show (s.sendUnlisted circuit start stop listed).database.get? id = s.database.get? id
    rw [sendUnlisted, markAll_database]
  others := fun _ c hc => markAll_marks s _ hc id
  quiet := fun hended _ _ c => by
    have hview : (s.sendUnlisted circuit start stop listed).view id = s.view id := by
      refine (Spares.markAll s circuit _).view id fun hmem => ?_
      obtain ⟨-, -, entry, hstored, hlive⟩ := (mem_unlisted h).1 hmem
      rw [hended rfl hstored] at hlive
      cases hlive
    rw [hview]
    exact ⟨fun h => h, fun h => h⟩

section Page

variable {snp : Snp} {start stop : LspId}

theorem reviewAll_eq (hrange : snp.range = some (start, stop)) (s : LevelState)
    (circuit : CircuitId) :
    s.reviewAll circuit snp =
      ((listed snp).values.foldl (fun s summary => s.review circuit summary) s).sendUnlisted circuit
        start stop (listed snp) := by
  simp only [reviewAll, hrange]

theorem not_told {summaries : Table LspId LspSummary}
    (hkeyed : ∀ {id summary}, summaries.get? id = some summary → summary.id = id)
    (hunlisted : summaries.get? id = none) :
    ¬ ∃ summary ∈ summaries.values, summary.id = id := by
  rintro ⟨summary, hmem, hid⟩
  obtain ⟨k, hstored⟩ := Table.mem_values.1 hmem
  rw [← hkeyed hstored, hid, hunlisted] at hstored
  cases hstored

/-- A complete sequence numbers PDU is no concern of the LSPs that it neither lists nor
has in its range. -/
theorem reviewAll_view (h : s.Consistent) (hrange : snp.range = some (start, stop))
    (hunlisted : (listed snp).get? id = none) (hout : ¬ (¬ id < start ∧ ¬ stop < id)) :
    (s.reviewAll circuit snp).view id = s.view id := by
  obtain ⟨hconsistent, hspares⟩ := reviews_spare h circuit (listed snp).values
  rw [reviewAll_eq hrange, sendUnlisted_view hconsistent fun hcontra => hout hcontra.2]
  exact hspares.view id (not_told listed_id hunlisted)

/-- Processing a complete sequence numbers PDU leaves alone what is given from outside. -/
theorem reviewAll_spares (h : s.Consistent) (circuit : CircuitId)
    (hrange : snp.range = some (start, stop)) :
    (s.reviewAll circuit snp).Consistent ∧
      Spares (fun _ => True) s (s.reviewAll circuit snp) := by
  obtain ⟨hconsistent, hspares⟩ := reviews_spare h circuit (listed snp).values
  rw [reviewAll_eq hrange]
  have hsteps : Steps (fun _ => True) _ _ :=
    sendUnlisted_steps hconsistent circuit start stop (listed snp)
  refine ⟨hconsistent.steps hsteps, (hspares.mono fun _ _ => trivial).trans ?_⟩
  exact (Spares.markAll _ circuit _).mono fun _ _ => trivial

end Page

end LevelState

end LinkState
