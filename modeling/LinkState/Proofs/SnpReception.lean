import LinkState.Proofs.ForeignLsps
import LinkState.Proofs.Interference
import LinkState.Proofs.SummaryReview
import Mathlib.Data.List.Induction

/-!
# What comes of a sequence numbers PDU

The summaries of a PDU are processed one by one while the database changes underneath.  What
comes of a summary is decided by what is seen of its LSP alone, and processing it changes
nothing about any other LSP.  So the outcome for each LSP is a function of the state before
the PDU and of the last summary that the PDU lists for it, or of its range if it lists none.
-/

namespace LinkState

/-! ### What a PDU tells -/

namespace Snp

/-- What a PDU tells of an LSP: of several summaries the last one counts. -/
def tells (snp : Snp) (id : LspId) : Option LspSummary :=
  (snp.tlvs.summaries.filter fun summary => summary.id = id).getLast?

def Spans (snp : Snp) (id : LspId) : Prop :=
  ∃ start stop, snp.range = some (start, stop) ∧ ¬ id < start ∧ ¬ stop < id

end Snp

namespace LevelState

/-- Of several summaries for one LSP the last one is listed. -/
theorem listed_get? (snp : Snp) (id : LspId) : (listed snp).get? id = snp.tells id := by
  rw [listed, Snp.tells]
  induction snp.tlvs.summaries using List.reverseRecOn with
  | nil => rfl
  | append_singleton rest last ih =>
      have hinsert : Table.ofList ((rest ++ [last]).map fun summary => (summary.id, summary)) =
          (Table.ofList (rest.map fun summary => (summary.id, summary))).insert last.id last := by
        simp [Table.ofList, List.map_append, List.foldl_append]
      rw [hinsert, List.filter_append]
      by_cases hid : id = last.id
      · rw [hid, Table.get?_insert_self]
        simp
      · rw [Table.get?_insert_of_ne _ _ hid, ih]
        simp [Ne.symm hid]

variable {s s' t u : LevelState} {id : LspId} {circuit : CircuitId} {summary : LspSummary}

/-! ### One summary in two states -/

namespace Twins

theorem requestUnknown (h : Alike summary.id s s') (circuit : CircuitId) :
    Twins 1 summary.id s (s.requestUnknown circuit summary) s'
      (s'.requestUnknown circuit summary) := by
  unfold LevelState.requestUnknown
  split
  · dsimp only
    rw [h.now, h.level]
    set placeholder := Lsp.make s.now s.level summary.lifetime summary.id 0 .none .empty
    have hinstalled : Twins 1 summary.id s (s.install placeholder true) s'
      (s'.install placeholder true) := install placeholder h true
    rw [h.summaryOf]
    exact hinstalled.trans
      (reflag hinstalled.alike (Flooding.set_local .ssn (s.summaryOf placeholder) circuit))
  · exact (refl h).mono (Nat.zero_le 1)

theorem settleSent (h : Alike id s s') (circuit : CircuitId) :
    Twins 0 id s (s.settleSent circuit id) s' (s'.settleSent circuit id) := by
  rw [LevelState.settleSent, LevelState.settleSent, h.isPointToPoint]
  split
  · exact clearFlag h .srm circuit
  · exact refl h

theorem reviewStored (hs : s.Consistent) (hs' : s'.Consistent) (h : Alike summary.id s s')
    {entry entry' : Entry} (hstored : s.database.get? summary.id = some entry)
    (hshape : entry'.shape = entry.shape) (circuit : CircuitId) :
    Twins 1 summary.id s (s.reviewStored circuit entry summary) s'
      (s'.reviewStored circuit entry' summary) := by
  have hid : entry.lsp.id = summary.id := hs.keys hstored
  have hconfused : isConfused entry' summary.lifetime summary.checksum =
      isConfused entry summary.lifetime summary.checksum := by
    rw [isConfused, isConfused, Entry.isPurged_congr hshape, Entry.lsp_congr hshape]
  unfold LevelState.reviewStored
  rw [Entry.lsp_congr hshape, hconfused]
  cases Recency.compare (some entry.lsp) summary.seqno summary.lifetime none with
  | same =>
      dsimp only
      split
      · rename_i hcase
        exact resolveConfusion hs hs' h hstored (live_of_confused hcase)
      · exact (settleSent h circuit).mono (Nat.zero_le 1)
  | older =>
      have hcleared := clearFlag h .ssn circuit
      have halike := hcleared.alike
      rw [← hid] at halike hcleared ⊢
      have hset := setFlag halike .srm circuit
      exact (hcleared.trans hset).mono (Nat.zero_le 1)
  | newer =>
      rw [← hid] at h ⊢
      have hset := setFlag h .ssn circuit
      exact (hset.trans (settleSent hset.alike circuit)).mono (Nat.zero_le 1)

/-- What comes of a summary is decided by what is seen of its LSP. -/
theorem review (hs : s.Consistent) (hs' : s'.Consistent) (h : Alike summary.id s s')
    (circuit : CircuitId) :
    Twins 1 summary.id s (s.review circuit summary) s' (s'.review circuit summary) := by
  rw [LevelState.review, LevelState.review]
  cases hstored : s.database.get? summary.id with
  | none =>
      rw [h.absent hstored]
      exact requestUnknown h circuit
  | some entry =>
      obtain ⟨entry', hstored', hshape⟩ := h.stored hstored
      rw [hstored']
      exact reviewStored hs hs' h hstored hshape circuit

end Twins

/-- Of several summaries each has the outcome that it would have alone, and nothing comes of
them for any other LSP. -/
theorem reviews_alike (h : s.Consistent) (circuit : CircuitId) {summaries : List LspSummary}
    (hnodup : (summaries.map (·.id)).Nodup) :
    (∀ summary ∈ summaries, Alike summary.id (s.review circuit summary)
        (summaries.foldl (fun s summary => s.review circuit summary) s)) ∧
      ∀ id, id ∉ summaries.map (·.id) →
        Alike id s (summaries.foldl (fun s summary => s.review circuit summary) s) := by
  induction summaries generalizing s with
  | nil => exact ⟨fun _ hmem => absurd hmem List.not_mem_nil, fun id _ => .refl id s⟩
  | cons first rest ih =>
      obtain ⟨hnotin, hrest⟩ := List.nodup_cons.1 hnodup
      have hconsistent := review_consistent h circuit first
      obtain ⟨-, f, -, hleaves, -⟩ := Twins.review h h (.refl first.id s) circuit
      obtain ⟨hlisted, hothers⟩ := ih hconsistent hrest
      rw [List.foldl_cons]
      constructor
      · intro summary hmem
        rcases List.mem_cons.1 hmem with rfl | hlater
        · exact hothers summary.id hnotin
        · have hne : summary.id ≠ first.id := fun hid =>
            hnotin (List.mem_map.2 ⟨summary, hlater, hid⟩)
          have hreview := Twins.review h hconsistent (hleaves.alike hne) circuit
          exact hreview.alike.trans (hlisted summary hlater)
      · intro id hid
        rw [List.map_cons, List.mem_cons, not_or] at hid
        exact (hleaves.alike hid.1).trans (hothers id hid.2)

/-! ### The verdict on one summary -/

/-- On which circuits an LSP is to be sent once a neighbour turns out to have it: no longer
on the circuit to it, if this is a point-to-point circuit. -/
def spared (s : LevelState) (circuit : CircuitId) (id : LspId) : CircuitId → Bool :=
  if s.isPointToPoint circuit then Function.update (s.sent id) circuit false else s.sent id

/-- What is stored of an LSP says what it said before. -/
def KeepsEntry (s : LevelState) (id : LspId) (t : LevelState) : Prop :=
  (t.database.get? id).map Entry.shape = (s.database.get? id).map Entry.shape

/-- What comes of a summary that a neighbour on a circuit lists for an LSP. -/
structure Reviewed (circuit : CircuitId) (summary : LspSummary) (s t : LevelState) : Prop where
  requested : s.database.get? summary.id = none → summary.Requestable →
    t.Stores (s.placeholder summary.lifetime summary.id) true ∧
      t.Shows summary.id (s.sent summary.id) (Function.update (s.noted summary.id) circuit
        (some (s.summaryOf (s.placeholder summary.lifetime summary.id))))
  ignored : s.database.get? summary.id = none → ¬ summary.Requestable →
    s.KeepsEntry summary.id t ∧ t.Shows summary.id (s.sent summary.id) (s.noted summary.id)
  older : ∀ stored, s.database.get? summary.id = some stored → stored.recencyOf summary = .older →
    s.KeepsEntry summary.id t ∧
      t.Shows summary.id (Function.update (s.sent summary.id) circuit true)
        (Function.update (s.noted summary.id) circuit none)
  newer : ∀ stored, s.database.get? summary.id = some stored → stored.recencyOf summary = .newer →
    s.KeepsEntry summary.id t ∧
      t.Shows summary.id (s.spared circuit summary.id)
        (Function.update (s.noted summary.id) circuit (some (s.summaryOf stored.lsp)))
  same : ∀ stored, s.database.get? summary.id = some stored → stored.recencyOf summary = .same →
    isConfused stored summary.lifetime summary.checksum = false →
      s.KeepsEntry summary.id t ∧
        t.Shows summary.id (s.spared circuit summary.id) (s.noted summary.id)
  purged : ∀ stored, s.database.get? summary.id = some stored → stored.recencyOf summary = .same →
    isConfused stored summary.lifetime summary.checksum = true → stored.received = true →
      t.Stores (s.purgeOf stored.lsp) true ∧
        t.Shows summary.id (fun c => decide (stored.lsp.seqno ≠ 0) || s.sent summary.id c)
          fun _ => none
  renewed : ∀ stored, s.database.get? summary.id = some stored → stored.recencyOf summary = .same →
    isConfused stored summary.lifetime summary.checksum = true → stored.received = false →
      stored.lsp.seqno ≠ 0xFFFFFFFF →
        t.Stores (s.freshInstance stored.lsp (stored.lsp.seqno + 1)) false ∧
          t.Shows summary.id (fun _ => true) fun _ => none
  exhausted : ∀ stored, s.database.get? summary.id = some stored →
    stored.recencyOf summary = .same →
      isConfused stored summary.lifetime summary.checksum = true → stored.received = false →
        stored.lsp.seqno = 0xFFFFFFFF →
          t.Stores (s.forcedPurge stored.lsp) false ∧
            (s.forcedPurge stored.lsp).seqno = 0xFFFFFFFF ∧
            t.Shows summary.id (fun _ => true) fun _ => none

/-- What comes of an LSP that a complete PDU from a circuit does not list, although it is in
the range of the PDU: if it is live, the neighbour lacks it. -/
def Missed (circuit : CircuitId) (id : LspId) (s t : LevelState) : Prop :=
  s.KeepsEntry id t ∧
    t.Shows id
      (if ((s.database.get? id).map Entry.isLive).getD false then
        Function.update (s.sent id) circuit true
      else s.sent id)
      (s.noted id)

/-! ### From one state to one that is alike -/

namespace Alike

theorem keepsEntry (halike : Alike id t u) (h : s.KeepsEntry id t) : s.KeepsEntry id u :=
  halike.entry.trans h

theorem stores {lsp : Lsp} {received : Bool} (halike : Alike id t u) (hid : lsp.id = id)
    (h : t.Stores lsp received) : u.Stores lsp received := by
  subst hid
  rw [Stores, halike.newShape, halike.entry]
  exact h

theorem shows {sent : CircuitId → Bool} {noted : CircuitId → Option LspSummary}
    (halike : Alike id t u) (h : t.Shows id sent noted) : u.Shows id sent noted := by
  intro c hc
  have hcircuits : u.circuits = t.circuits := congrArg Surroundings.circuits halike.surroundings
  obtain ⟨hsent, hnoted⟩ := h c (hcircuits ▸ hc)
  exact ⟨(sent_congr (halike.marks c)).trans hsent, (noted_congr (halike.marks c)).trans hnoted⟩

end Alike

/-- What comes of a summary can be told from what is seen of its LSP. -/
theorem Reviewed.of_alike (halike : Alike summary.id t u) (hkeys : s.Consistent)
    (h : Reviewed circuit summary s t) : Reviewed circuit summary s u where
  requested := fun hnone hasked =>
    (h.requested hnone hasked).imp (halike.stores rfl) halike.shows
  ignored := fun hnone hasked => (h.ignored hnone hasked).imp halike.keepsEntry halike.shows
  older := fun stored hstored holder =>
    (h.older stored hstored holder).imp halike.keepsEntry halike.shows
  newer := fun stored hstored hnewer =>
    (h.newer stored hstored hnewer).imp halike.keepsEntry halike.shows
  same := fun stored hstored hsame hclear =>
    (h.same stored hstored hsame hclear).imp halike.keepsEntry halike.shows
  purged := fun stored hstored hsame hconfused hreceived =>
    (h.purged stored hstored hsame hconfused hreceived).imp
      (halike.stores (hkeys.keys hstored)) halike.shows
  renewed := fun stored hstored hsame hconfused hown hseqno =>
    (h.renewed stored hstored hsame hconfused hown hseqno).imp
      (halike.stores (hkeys.keys hstored)) halike.shows
  exhausted := fun stored hstored hsame hconfused hown hseqno =>
    (h.exhausted stored hstored hsame hconfused hown hseqno).imp
      (halike.stores (hkeys.keys hstored)) (And.imp_right halike.shows)

/-! ### One summary -/

theorem spared_apply (s : LevelState) (circuit c : CircuitId) (id : LspId) :
    s.spared circuit id c =
      if c = circuit ∧ s.isPointToPoint circuit = true then false else s.sent id c := by
  rw [spared]
  cases s.isPointToPoint circuit <;> simp [Function.update_apply]

theorem marks_settleSent (s : LevelState) (circuit c : CircuitId) (id : LspId) :
    (s.settleSent circuit id).flooding.marks c id =
      (s.flooding.marks c id).map fun marks =>
        if c = circuit ∧ s.isPointToPoint circuit = true then marks.clear .srm else marks := by
  rw [settleSent]
  split
  · rename_i hkind
    simp only [hkind, and_true]
    exact s.flooding.marks_clear .srm id circuit c
  · rename_i hkind
    simp [hkind]

theorem settleSent_circuits (s : LevelState) (circuit : CircuitId) (id : LspId) :
    (s.settleSent circuit id).circuits = s.circuits := by
  rw [settleSent]
  split <;> rfl

theorem settleSent_shows (hflagged : s.Flagged) (circuit : CircuitId) (id : LspId) :
    (s.settleSent circuit id).Shows id (s.spared circuit id) (s.noted id) := by
  refine (hflagged.shows (s.settleSent_circuits circuit id) _
    fun c => s.marks_settleSent circuit c id).congr (fun c => ?_) fun c => ?_
  · rw [spared_apply]
    split <;> rfl
  · split <;> rfl

/-- An unknown LSP is asked for on the circuit, and nothing else is marked. -/
theorem requestUnknown_shows (hflagged : s.Flagged) (hasked : summary.Requestable)
    (circuit : CircuitId) :
    (s.requestUnknown circuit summary).Shows summary.id (s.sent summary.id)
      (Function.update (s.noted summary.id) circuit
        (some (s.summaryOf (s.placeholder summary.lifetime summary.id)))) := by
  have hinstalls := s.requestUnknown_installs circuit hasked
  have hmarks : ∀ c, (s.requestUnknown circuit summary).flooding.marks c summary.id =
      (s.flooding.marks c summary.id).map fun marks => if c = circuit then
        marks.set .ssn (s.summaryOf (s.placeholder summary.lifetime summary.id)) else marks :=
    fun c => by
      rw [hinstalls.flags]
      exact Flooding.marks_set _ _ _ _ c
  have hshows := hflagged.shows hinstalls.circuits _ hmarks
  refine hshows.congr (fun c => ?_) fun c => ?_
  · by_cases hc : c = circuit <;> simp [hc, Marks.set]
  · by_cases hc : c = circuit <;> simp [hc, Marks.set]

section Stored

variable {stored : Entry} (h : s.Consistent) (hflagged : s.Flagged)
  (hstored : s.database.get? summary.id = some stored)
include h hflagged hstored

/-- The stored LSP is to be sent to a neighbour that holds an older instance. -/
theorem older_shows (holder : stored.recencyOf summary = .older) (circuit : CircuitId) :
    ((s.clearFlag .ssn summary.id circuit).setFlag .srm (s.summaryOf stored.lsp) circuit).Shows
      summary.id (Function.update (s.sent summary.id) circuit true)
      (Function.update (s.noted summary.id) circuit none) := by
  have hseqno : (s.summaryOf stored.lsp).seqno ≠ 0 := seqno_of_older holder
  have hid : stored.lsp.id = summary.id := h.keys hstored
  have hmarks : ∀ c, ((s.flooding.clear .ssn summary.id circuit).set .srm
      (s.summaryOf stored.lsp) circuit).marks c summary.id =
        (s.flooding.marks c summary.id).map fun marks =>
          if c = circuit then ⟨true, none⟩ else marks := by
    intro c
    have hset := (s.flooding.clear .ssn summary.id circuit).marks_set .srm
      (s.summaryOf stored.lsp) circuit c
    rw [show (s.summaryOf stored.lsp).id = summary.id from hid] at hset
    rw [hset, Flooding.marks_clear, Option.map_map]
    refine Option.map_congr fun marks _ => ?_
    by_cases hc : c = circuit <;> simp [hc, Marks.set, Marks.clear, hseqno]
  have hshows := hflagged.shows (t := (s.clearFlag .ssn summary.id circuit).setFlag .srm
    (s.summaryOf stored.lsp) circuit) rfl _ hmarks
  refine hshows.congr (fun c => ?_) fun c => ?_
  · by_cases hc : c = circuit <;> simp [hc]
  · by_cases hc : c = circuit <;> simp [hc]

/-- A neighbour that holds a newer instance is asked for it, and on a point-to-point circuit the
stored one is not sent any more. -/
theorem newer_shows (circuit : CircuitId) :
    ((s.setFlag .ssn (s.summaryOf stored.lsp) circuit).settleSent circuit summary.id).Shows
      summary.id (s.spared circuit summary.id)
      (Function.update (s.noted summary.id) circuit (some (s.summaryOf stored.lsp))) := by
  have hid : stored.lsp.id = summary.id := h.keys hstored
  have hmarks : ∀ c, ((s.setFlag .ssn (s.summaryOf stored.lsp) circuit).settleSent circuit
      summary.id).flooding.marks c summary.id =
        (s.flooding.marks c summary.id).map fun marks =>
          ⟨if c = circuit ∧ s.isPointToPoint circuit = true then false else marks.srm,
            if c = circuit then some (s.summaryOf stored.lsp) else marks.ssn⟩ := by
    intro c
    have hset := s.flooding.marks_set .ssn (s.summaryOf stored.lsp) circuit c
    rw [show (s.summaryOf stored.lsp).id = summary.id from hid] at hset
    rw [marks_settleSent]
    show Option.map _ ((s.flooding.set .ssn (s.summaryOf stored.lsp) circuit).marks c
      summary.id) = _
    rw [hset, Option.map_map]
    refine Option.map_congr fun marks _ => ?_
    have hkind : (s.setFlag .ssn (s.summaryOf stored.lsp) circuit).isPointToPoint circuit =
        s.isPointToPoint circuit := rfl
    by_cases hc : c = circuit <;> cases hcase : s.isPointToPoint circuit <;>
      simp [hc, hkind, hcase, Marks.set, Marks.clear]
  have hcircuits := (s.setFlag .ssn (s.summaryOf stored.lsp) circuit).settleSent_circuits circuit
    summary.id
  refine (hflagged.shows hcircuits _ hmarks).congr (fun c => ?_) fun c => ?_
  · rw [spared_apply]
  · simp only [Function.update_apply]

end Stored

/-- Records of what happened have no part in what is installed. -/
theorem Installs.of_note {lsp : Lsp} {received : Bool} {flooding : Flooding} {counters : Counters}
    {trace : List Event}
    (h : Installs { s with counters := counters, trace := trace } lsp received flooding t) :
    Installs s lsp received flooding t := by
  obtain ⟨counters, history, number, trace, rfl⟩ := h
  exact ⟨counters, history, number, trace, rfl⟩

section Own

variable {stored : Entry} (hkey : stored.lsp.id = id)
  (hstored : s.database.get? id = some stored) (hown : stored.received = false)
include hkey hstored hown

omit hkey in
theorem resolveConfusion_own : ∃ counters trace, s.resolveConfusion id =
    { s with counters := counters, trace := trace }.originate stored.lsp := by
  simp only [resolveConfusion, hstored, hown, Bool.false_eq_true, if_false]
  exact ⟨_, _, rfl⟩

/-- An own copy that is confused with another is followed by a new instance. -/
theorem resolveConfusion_renews (hseqno : stored.lsp.seqno ≠ 0xFFFFFFFF) :
    Installs s (s.freshInstance stored.lsp (stored.lsp.seqno + 1)) false
      (flooded s.flooding (s.summaryOf (s.freshInstance stored.lsp (stored.lsp.seqno + 1))) none)
      (s.resolveConfusion id) := by
  have hnext : nextSeqno? (max stored.lsp.seqno (s.storedSeqno stored.lsp.id)) =
      some (stored.lsp.seqno + 1) := by
    rw [max_storedSeqno (hkey ▸ hstored), nextSeqno?, if_neg hseqno]
  obtain ⟨counters, trace, heq⟩ := resolveConfusion_own hstored hown
  rw [heq]
  exact (originate_installs (s := { s with counters := counters, trace := trace }) hnext).of_note

/-- An own copy with the greatest sequence number that is confused with another is
purged. -/
theorem resolveConfusion_exhausts (hlive : stored.isPurged = false)
    (hseqno : stored.lsp.seqno = 0xFFFFFFFF) :
    Installs s (s.forcedPurge stored.lsp) false
      (flooded s.flooding (s.summaryOf (s.forcedPurge stored.lsp)) none)
      (s.resolveConfusion id) := by
  have hnext : nextSeqno? (max stored.lsp.seqno (s.storedSeqno stored.lsp.id)) = none := by
    rw [max_storedSeqno (hkey ▸ hstored), nextSeqno?, if_pos hseqno]
  have hpresent : ((s.database.get? stored.lsp.id).map fun entry => !entry.isPurged).getD false =
      true := by
    rw [hkey, hstored, Option.map_some, hlive]
    rfl
  obtain ⟨counters, trace, heq⟩ := resolveConfusion_own hstored hown
  obtain ⟨counters', trace', horiginate⟩ :=
    originate_exhausted (s := { s with counters := counters, trace := trace }) hnext
  rw [heq, horiginate, if_pos hpresent]
  exact (forcePurge_installs { s with counters := counters', trace := trace' } stored.lsp
    .maxSeqno).of_note

end Own

theorem KeepsEntry.of_database (hdatabase : t.database = s.database) : s.KeepsEntry id t := by
  rw [KeepsEntry, hdatabase]

/-- What comes of one summary, by the comparison with what is stored. -/
theorem review_reviewed (h : s.Consistent) (hflagged : s.Flagged) (circuit : CircuitId)
    (summary : LspSummary) : Reviewed circuit summary s (s.review circuit summary) := by
  have hreview : ∀ {stored}, s.database.get? summary.id = some stored →
      s.review circuit summary = s.reviewStored circuit stored summary := fun hstored => by
    rw [review, hstored]
  have hunknown : s.database.get? summary.id = none →
      s.review circuit summary = s.requestUnknown circuit summary := fun hnone => by
    rw [review, hnone]
  -- A copy that is confused with the stored one is resolved, whatever comes of that.
  have hresolve : ∀ {stored}, s.database.get? summary.id = some stored →
      stored.recencyOf summary = .same →
      isConfused stored summary.lifetime summary.checksum = true →
        s.review circuit summary = s.resolveConfusion summary.id := by
    intro stored hstored hsame hconfused
    have hsame' : Recency.compare (some stored.lsp) summary.seqno summary.lifetime none = .same :=
      hsame
    rw [hreview hstored, reviewStored, hsame']
    exact if_pos hconfused
  constructor
  case requested =>
    intro hnone hasked
    rw [hunknown hnone]
    exact ⟨(s.requestUnknown_installs circuit hasked).stores,
      requestUnknown_shows hflagged hasked circuit⟩
  case ignored =>
    intro hnone hasked
    have hsame : s.requestUnknown circuit summary = s := if_neg hasked
    rw [hunknown hnone, hsame]
    exact ⟨rfl, fun c _ => ⟨rfl, rfl⟩⟩
  case older =>
    intro stored hstored holder
    have holder' : Recency.compare (some stored.lsp) summary.seqno summary.lifetime none = .older :=
      holder
    rw [hreview hstored, reviewStored, holder']
    exact ⟨rfl, older_shows h hflagged hstored holder circuit⟩
  case newer =>
    intro stored hstored hnewer
    have hnewer' : Recency.compare (some stored.lsp) summary.seqno summary.lifetime none = .newer :=
      hnewer
    rw [hreview hstored, reviewStored, hnewer']
    exact ⟨.of_database (settleSent_database _ circuit _), newer_shows h hflagged hstored circuit⟩
  case same =>
    intro stored hstored hsame hclear
    have hsame' : Recency.compare (some stored.lsp) summary.seqno summary.lifetime none = .same :=
      hsame
    rw [hreview hstored, reviewStored, hsame']
    dsimp only
    rw [hclear, if_neg Bool.false_ne_true]
    exact ⟨.of_database (s.settleSent_database circuit _), settleSent_shows hflagged circuit _⟩
  case purged =>
    intro stored hstored hsame hconfused hreceived
    have hinstalls := resolveConfusion_installs h hstored (live_of_confused hconfused) hreceived
    rw [hresolve hstored hsame hconfused]
    have hshows := Installs.flooded_shows hflagged hinstalls (h.keys hstored)
    exact ⟨hinstalls.stores, hshows⟩
  case renewed =>
    intro stored hstored hsame hconfused hown hseqno
    have hid := h.keys hstored
    have hinstalls := resolveConfusion_renews hid hstored hown hseqno
    have hshows := Installs.flooded_shows hflagged hinstalls hid
    have hnonzero : (s.freshInstance stored.lsp (stored.lsp.seqno + 1)).seqno ≠ 0 := by
      have hnext : nextSeqno? stored.lsp.seqno = some (stored.lsp.seqno + 1) := if_neg hseqno
      have hnat := toNat_nextSeqno hnext
      intro hzero
      rw [show stored.lsp.seqno + 1 = 0 from hzero] at hnat
      cases hnat
    rw [hresolve hstored hsame hconfused]
    exact ⟨hinstalls.stores, hshows.congr (fun c => by simp [hnonzero]) fun _ => rfl⟩
  case exhausted =>
    intro stored hstored hsame hconfused hown hseqno
    have hid := h.keys hstored
    have hinstalls :=
      resolveConfusion_exhausts hid hstored hown (live_of_confused hconfused) hseqno
    have hshows := Installs.flooded_shows hflagged hinstalls hid
    have hmax : (s.forcedPurge stored.lsp).seqno = 0xFFFFFFFF := by
      show max (s.storedSeqno stored.lsp.id) stored.lsp.seqno = 0xFFFFFFFF
      rw [hid, storedSeqno, hstored, Option.map_some, Option.getD_some, hseqno]
      decide
    rw [hresolve hstored hsame hconfused]
    refine ⟨hinstalls.stores, hmax, hshows.congr (fun c => ?_) fun _ => rfl⟩
    rw [hmax]
    rfl

/-! ### The LSPs that a neighbour lacks -/

/-- What is to be acknowledged does not depend on what is to be sent. -/
theorem noted_setFlag_srm (s : LevelState) (summary : LspSummary) (circuit c : CircuitId)
    (id : LspId) : (s.setFlag .srm summary circuit).noted id c = s.noted id c := by
  show (s.flooding.set .srm summary circuit).acknowledgement? c id =
    s.flooding.acknowledgement? c id
  rw [Flooding.acknowledgement?, Flooding.acknowledgement?, Flooding.get?_set]
  cases s.flooding.get? c with
  | none => rfl
  | some flags =>
      by_cases hc : c = circuit
      · simp only [Option.map_some, hc, if_true, CircuitFlags.set]
        split <;> rfl
      · simp [hc]

theorem noted_markAll (s : LevelState) (entries : List Entry) (c : CircuitId) :
    (entries.foldl (fun s entry => s.setFlag .srm (s.summaryOf entry.lsp) circuit) s).noted id c =
      s.noted id c := by
  induction entries generalizing s with
  | nil => rfl
  | cons entry rest ih => exact (ih _).trans (s.noted_setFlag_srm _ circuit c id)

/-- Marking some LSPs for sending is not seen of the others. -/
theorem markAll_alike {entries : List Entry} (hid : ¬ ∃ entry ∈ entries, entry.lsp.id = id) :
    Alike id s
      (entries.foldl (fun s entry => s.setFlag .srm (s.summaryOf entry.lsp) circuit) s) := by
  induction entries generalizing s with
  | nil => exact .refl id s
  | cons entry rest ih =>
      have hset := Twins.setFlag (.refl entry.lsp.id s) .srm circuit
      obtain ⟨-, f, -, hleaves, -⟩ := hset
      have hne : id ≠ entry.lsp.id := fun hcontra =>
        hid ⟨entry, List.mem_cons_self, hcontra.symm⟩
      exact (hleaves.alike hne).trans
        (ih fun ⟨later, hmem, hcontra⟩ => hid ⟨later, List.mem_cons_of_mem _ hmem, hcontra⟩)

/-- An LSP that is not listed is marked for sending if it is live. -/
theorem sendUnlisted_missed (h : s.Consistent) (hflags : s.flooding.contains circuit = true)
    {start stop : LspId} {listed : Table LspId LspSummary}
    (hunlisted : listed.contains id = false) (hin : ¬ id < start ∧ ¬ stop < id) :
    Missed circuit id s (s.sendUnlisted circuit start stop listed) := by
  refine ⟨.of_database (s.markAll_database circuit _), fun c _ => ⟨?_, noted_markAll s _ c⟩⟩
  have hsettled := sendUnlisted_synchronised h hflags hunlisted hin
  split
  · rename_i hlive
    obtain ⟨stored, hstored, hlive⟩ : ∃ stored, s.database.get? id = some stored ∧
        stored.isLive = true := by
      cases hstored : s.database.get? id <;> simp_all
    by_cases hc : c = circuit
    · subst hc
      rw [Function.update_self]
      exact ((s.sendUnlisted c start stop listed).isSet_srm c id).trans
        (hsettled.missing rfl hstored hlive)
    · rw [Function.update_of_ne hc]
      exact sent_congr (hsettled.others (fun hcontra => by
        obtain ⟨_, _, htold, -⟩ := hcontra
        cases htold) c hc)
  · rename_i hended
    refine sent_congr ((markAll_alike fun hmem => hended ?_).marks c)
    obtain ⟨-, -, stored, hstored, hlive⟩ := (mem_unlisted h).1 hmem
    rw [hstored, Option.map_some, hlive]
    rfl

theorem Missed.of_view (h : Missed circuit id t u) (hview : t.view id = s.view id) :
    Missed circuit id s u := by
  have hdatabase : t.database.get? id = s.database.get? id := congrArg View.entry hview
  have hmarks : ∀ c, t.flooding.marks c id = s.flooding.marks c id :=
    congrFun (congrArg View.marks hview)
  have hsent : t.sent id = s.sent id := funext fun c => sent_congr (hmarks c)
  have hnoted : t.noted id = s.noted id := funext fun c => noted_congr (hmarks c)
  rw [Missed, KeepsEntry, hdatabase, hsent, hnoted] at h
  exact h

/-! ### The whole PDU -/

section Pdu

variable {snp : Snp}

theorem sendUnlisted_alike (h : s.Consistent) {start stop : LspId}
    {listed : Table LspId LspSummary}
    (hid : ¬ (listed.contains id = false ∧ ¬ id < start ∧ ¬ stop < id)) :
    Alike id s (s.sendUnlisted circuit start stop listed) := by
  refine markAll_alike fun hmem => ?_
  obtain ⟨hunlisted, hin, -⟩ := (mem_unlisted h).1 hmem
  exact hid ⟨hunlisted, hin⟩

/-- A summary that is listed alone decides what comes of its LSP. -/
theorem reviewAll_reviewed (h : s.Consistent) (hflagged : s.Flagged) (circuit : CircuitId)
    (htold : snp.tells id = some summary) :
    Reviewed circuit summary s (s.reviewAll circuit snp) := by
  have hlisted : (listed snp).get? id = some summary := (listed_get? snp id).trans htold
  obtain rfl := listed_id hlisted
  obtain ⟨hconsistent, -⟩ := reviews_spare h circuit (listed snp).values
  have halike := (reviews_alike h circuit (listed_nodup snp)).1 summary
    (Table.mem_values.2 ⟨_, hlisted⟩)
  refine (review_reviewed h hflagged circuit summary).of_alike (halike.trans ?_) h
  rw [reviewAll]
  split
  · exact sendUnlisted_alike hconsistent (by simp [Table.contains, hlisted])
  · exact .refl _ _

/-- An LSP in the range that is not listed is one that the neighbour lacks. -/
theorem reviewAll_missed (h : s.Consistent) (hflags : s.flooding.contains circuit = true)
    (htold : snp.tells id = none) (hspans : snp.Spans id) :
    Missed circuit id s (s.reviewAll circuit snp) := by
  obtain ⟨start, stop, hrange, hin⟩ := hspans
  have hlisted : (listed snp).get? id = none := (listed_get? snp id).trans htold
  obtain ⟨hconsistent, hspares⟩ := reviews_spare h circuit (listed snp).values
  rw [reviewAll_eq hrange]
  refine Missed.of_view ?_ (hspares.view id (not_told listed_id hlisted))
  refine sendUnlisted_missed hconsistent ((hspares.flagged circuit).trans hflags) ?_ hin
  rw [Table.contains, hlisted]
  rfl

/-- An LSP that is neither listed nor in the range is no concern of the PDU. -/
theorem reviewAll_untouched (h : s.Consistent) (circuit : CircuitId) (htold : snp.tells id = none)
    (hspans : ¬ snp.Spans id) : (s.reviewAll circuit snp).view id = s.view id := by
  have hlisted : (listed snp).get? id = none := (listed_get? snp id).trans htold
  cases hrange : snp.range with
  | none =>
      simp only [reviewAll, hrange]
      exact (reviews_spare h circuit (listed snp).values).2.view id (not_told listed_id hlisted)
  | some range =>
      obtain ⟨start, stop⟩ := range
      exact reviewAll_view h hrange hlisted fun hin => hspans ⟨start, stop, hrange, hin⟩

theorem reviewAll_circuits (h : s.Consistent) (circuit : CircuitId) (snp : Snp) :
    (s.reviewAll circuit snp).circuits = s.circuits := by
  obtain ⟨-, hspares⟩ := reviews_spare h circuit (listed snp).values
  cases hrange : snp.range with
  | none =>
      simp only [reviewAll, hrange]
      exact hspares.circuits
  | some range =>
      obtain ⟨start, stop⟩ := range
      exact (reviewAll_spares h circuit hrange).2.circuits

variable {level : Level} {config : Config} {now : Nat}

/-- In every reachable state, a sequence numbers PDU from a circuit that is known is processed.
What comes of each LSP is decided by the state before the PDU and by the last summary that the
PDU lists for the LSP, whatever else it lists; an LSP in the range of a complete PDU that is not
listed is marked for sending if it is live, and nothing changes for any other LSP. -/
theorem snp_reception (h : Reachable Proper level config now s)
    (hcircuit : s.circuits.contains circuit = true) (hlevel : snp.level = s.level)
    (hrange : ∀ start stop, snp.range = some (start, stop) → ¬ stop < start) :
    ∃ t, s.receiveSnp circuit snp = (t, none) ∧ t.circuits = s.circuits ∧
      (∀ id summary, snp.tells id = some summary →
        summary.id = id ∧ Reviewed circuit summary s t) ∧
      (∀ id, snp.tells id = none → snp.Spans id → Missed circuit id s t) ∧
      ∀ id, snp.tells id = none → ¬ snp.Spans id → t.view id = s.view id := by
  have hflags : s.flooding.contains circuit = true := (h.flagged.circuits circuit).trans hcircuit
  have herror : rangeError? circuit snp.range = none := by
    cases hsome : snp.range with
    | none => rfl
    | some range => exact if_neg (hrange range.1 range.2 hsome)
  refine ⟨s.reviewAll circuit snp, ?_, reviewAll_circuits h.consistent circuit snp,
    fun id summary htold => ⟨?_, reviewAll_reviewed h.consistent h.flagged circuit htold⟩,
    fun id => reviewAll_missed h.consistent hflags,
    fun id => reviewAll_untouched h.consistent circuit⟩
  · simp [receiveSnp, hcircuit, hlevel, herror]
  · exact listed_id ((listed_get? snp id).trans htold)

/-- A neighbour lists an old instance of the LSP that is relayed, an unknown LSP, and then a newer
instance of the first one: both LSPs are asked for, and none is sent any longer. -/
theorem snp_reception_relaying :
    let old : LspSummary := ⟨900, ⟨⟨1, 0, 0, 0, 0, 0⟩, 0, 0⟩, 5, 0x1234⟩
    let newer : LspSummary := ⟨900, ⟨⟨1, 0, 0, 0, 0, 0⟩, 0, 0⟩, 9, 0x1234⟩
    let unknown : LspSummary := ⟨900, ⟨⟨2, 0, 0, 0, 0, 0⟩, 0, 0⟩, 3, 0x1234⟩
    let snp :=
      Snp.make .one ⟨⟨2, 0, 0, 0, 0, 0⟩, 0⟩ none (SnpTlvs.ofSummaries [old, unknown, newer])
    relaying.circuits.contains 2 = true ∧ snp.level = relaying.level ∧
      (∀ start stop, snp.range = some (start, stop) → ¬ stop < start) ∧
      relaying.flooding.isSet .srm 2 newer.id = true ∧
      ∃ t, relaying.receiveSnp 2 snp = (t, none) ∧ t.flooding.isSet .srm 2 newer.id = false ∧
        (t.flooding.acknowledgement? 2 newer.id).map (·.seqno) = some 7 ∧
        (t.flooding.acknowledgement? 2 unknown.id).map (·.seqno) = some 0 := by
  intro old newer unknown snp
  have hreachable : Reachable Proper .one Config.default 0 relaying :=
    relaying_reachable.mono fun hallowed => hallowed.proper
  have hcircuit : relaying.circuits.contains 2 = true := by decide +kernel
  have hlevel : snp.level = relaying.level := by decide +kernel
  have hrange : ∀ start stop, snp.range = some (start, stop) → ¬ stop < start := by
    rintro start stop ⟨⟩
  obtain ⟨t, hreceive, hcircuits, hlisted, -⟩ :=
    snp_reception hreachable hcircuit hlevel hrange
  have hcontains : t.circuits.contains 2 = true := hcircuits ▸ hcircuit
  have hnewer := (hlisted newer.id newer (by decide +kernel)).2
  have hunknown := (hlisted unknown.id unknown (by decide +kernel)).2
  obtain ⟨stored, hstored⟩ := Option.isSome_iff_exists.1
    (show (relaying.database.get? newer.id).isSome = true by decide +kernel)
  have hrecency : (relaying.database.get? newer.id).map (·.recencyOf newer) = some .newer := by
    decide +kernel
  have hseqno : (relaying.database.get? newer.id).map (·.lsp.seqno) = some 7 := by decide +kernel
  rw [hstored, Option.map_some, Option.some.injEq] at hrecency hseqno
  obtain ⟨hsent, hnoted⟩ := (hnewer.newer stored hstored hrecency).2 2 hcontains
  obtain ⟨-, hasked⟩ := (hunknown.requested (by decide +kernel) (by decide +kernel)).2 2 hcontains
  refine ⟨hcircuit, hlevel, hrange, by decide +kernel, t, hreceive,
    hsent.trans (by decide +kernel), ?_, ?_⟩
  · rw [show t.flooding.acknowledgement? 2 newer.id = _ from hnoted, Function.update_self]
    exact congrArg some hseqno
  · rw [show t.flooding.acknowledgement? 2 unknown.id = _ from hasked, Function.update_self]
    rfl

end Pdu

end LevelState

end LinkState
