import LinkState.Proofs.Sendability

/-!
# What a level shows of an LSP

On each circuit that is known, a level shows whether an LSP is to be sent there and what is
to be acknowledged of it.  Both follow from the flags of the LSP on that circuit.
-/

namespace LinkState

namespace Flooding

theorem isSet_srm_eq (flooding : Flooding) (c : CircuitId) (id : LspId) :
    flooding.isSet .srm c id = ((flooding.marks c id).map (·.srm)).getD false := by
  simp only [isSet, marks]
  cases flooding.get? c <;> rfl

theorem acknowledgement?_eq (flooding : Flooding) (c : CircuitId) (id : LspId) :
    flooding.acknowledgement? c id = (flooding.marks c id).bind (·.ssn) := by
  simp only [acknowledgement?, marks]
  cases flooding.get? c <;> rfl

end Flooding

namespace LevelState

variable {s t : LevelState} {id : LspId} {lsp : Lsp} {received : Bool}

/-! ### What is shown -/

def sent (s : LevelState) (id : LspId) (c : CircuitId) : Bool :=
  s.flooding.isSet .srm c id

/-- What is to be acknowledged of an LSP on each circuit. -/
def noted (s : LevelState) (id : LspId) (c : CircuitId) : Option LspSummary :=
  s.flooding.acknowledgement? c id

/-- On each known circuit an LSP is to be sent, and a summary of it is to be
acknowledged, just as told. -/
def Shows (s : LevelState) (id : LspId) (sent : CircuitId → Bool)
    (noted : CircuitId → Option LspSummary) : Prop :=
  ∀ c, s.circuits.contains c = true → s.sent id c = sent c ∧ s.noted id c = noted c

/-- What is stored of an LSP says what a newly installed one says, with its timers. -/
def Stores (s : LevelState) (lsp : Lsp) (received : Bool) : Prop :=
  (s.database.get? lsp.id).map Entry.shape = some (s.newShape lsp received)

theorem Shows.congr {sent sent' : CircuitId → Bool} {noted noted' : CircuitId → Option LspSummary}
    (h : t.Shows id sent noted) (hsent : ∀ c, sent c = sent' c) (hnoted : ∀ c, noted c = noted' c) :
    t.Shows id sent' noted' := by
  rw [← funext hsent, ← funext hnoted]
  exact h

section

variable {c : CircuitId} (h : t.flooding.marks c id = s.flooding.marks c id)
include h

theorem sent_congr : t.sent id c = s.sent id c := by
  rw [sent, sent, Flooding.isSet_srm_eq, Flooding.isSet_srm_eq, h]

theorem noted_congr : t.noted id c = s.noted id c := by
  rw [noted, noted, Flooding.acknowledgement?_eq, Flooding.acknowledgement?_eq, h]

end

/-! ### Flags that are changed -/

/-- There are flags for each circuit that is known. -/
theorem Flagged.marks (h : s.Flagged) {c : CircuitId} (hc : s.circuits.contains c = true)
    (id : LspId) : s.flooding.marks c id = some ⟨s.sent id c, s.noted id c⟩ := by
  rw [← h.circuits] at hc
  obtain ⟨flags, hflags⟩ := Option.isSome_iff_exists.1 hc
  have hmarks : s.flooding.marks c id = some (flags.marks id) := by
    rw [Flooding.marks, hflags, Option.map_some]
  rw [sent, noted, Flooding.isSet_srm_eq, Flooding.acknowledgement?_eq, hmarks]
  rfl

/-- What is shown of an LSP follows from what becomes of its flags. -/
theorem Flagged.shows (hflagged : s.Flagged) (hcircuits : t.circuits = s.circuits)
    (g : CircuitId → Marks → Marks)
    (hmarks : ∀ c, t.flooding.marks c id = (s.flooding.marks c id).map (g c)) :
    t.Shows id (fun c => (g c ⟨s.sent id c, s.noted id c⟩).srm)
      fun c => (g c ⟨s.sent id c, s.noted id c⟩).ssn := by
  intro c hc
  rw [sent, noted, Flooding.isSet_srm_eq, Flooding.acknowledgement?_eq, hmarks,
    hflagged.marks (hcircuits ▸ hc)]
  exact ⟨rfl, rfl⟩

/-- An LSP that is stored with the sequence number zero, if at all, is not to be sent. -/
theorem Sendable.unsent (h : s.Sendable) (hzero : ∀ seqno, s.seqno? id = some seqno → seqno = 0)
    (c : CircuitId) : s.sent id c = false := by
  rw [sent, Flooding.isSet_srm_eq]
  cases hmarks : s.flooding.marks c id with
  | none => rfl
  | some marks =>
      cases hsrm : marks.srm with
      | false => exact hsrm
      | true =>
          obtain ⟨seqno, hstored, hseqno⟩ := h.stored hmarks hsrm
          exact absurd (hzero seqno hstored) hseqno

/-! ### LSPs that are installed -/

namespace Installs

variable {flooding : Flooding}

theorem stores (h : Installs s lsp received flooding t) : t.Stores lsp received := by
  obtain ⟨counters, history, number, trace, rfl⟩ := h
  show Option.map Entry.shape ((s.database.insert lsp.id _).get? lsp.id) =
    some (s.newShape lsp received)
  rw [Table.get?_insert_self, Option.map_some, armed_shape]

theorem circuits (h : Installs s lsp received flooding t) : t.circuits = s.circuits := by
  obtain ⟨counters, history, number, trace, rfl⟩ := h
  rfl

theorem flags (h : Installs s lsp received flooding t) : t.flooding = flooding := by
  obtain ⟨counters, history, number, trace, rfl⟩ := h
  rfl

/-- An LSP that is installed and flooded is to be sent on all circuits if its sequence
number is not zero, and to be acknowledged on none. -/
theorem flooded_shows (hflagged : s.Flagged)
    (h : Installs s lsp received (flooded s.flooding (s.summaryOf lsp) none) t)
    (hid : lsp.id = id) :
    t.Shows id (fun c => decide (lsp.seqno ≠ 0) || s.sent id c) fun _ => none := by
  subst hid
  have hmarks : ∀ c, t.flooding.marks c lsp.id = (s.flooding.marks c lsp.id).map fun marks =>
      (marks.set .srm (s.summaryOf lsp)).clear .ssn := fun c => by
    rw [h.flags]
    exact marks_flooded s.flooding (s.summaryOf lsp) none c
  refine (hflagged.shows h.circuits _ hmarks).congr (fun c => ?_) fun c => rfl
  have hseqno : (s.summaryOf lsp).seqno = lsp.seqno := rfl
  by_cases hzero : lsp.seqno = 0 <;> simp [Marks.set, Marks.clear, hseqno, hzero]

/-- With the sequence number zero it is to be sent nowhere, if it takes the place of
nothing that could be sent. -/
theorem superseding_shows (hflagged : s.Flagged) (hsendable : s.Sendable)
    (h : Installs s lsp received (flooded s.flooding (s.summaryOf lsp) none) t)
    (hid : lsp.id = id) (hnewer : ∀ seqno, s.seqno? id = some seqno → seqno ≠ 0 → lsp.seqno ≠ 0) :
    t.Shows id (fun _ => decide (lsp.seqno ≠ 0)) fun _ => none := by
  refine (flooded_shows hflagged h hid).congr (fun c => ?_) fun _ => rfl
  by_cases hzero : lsp.seqno = 0
  · have hunsent : s.sent id c = false :=
      hsendable.unsent (fun seqno hstored => by_contra fun hseqno =>
        hnewer seqno hstored hseqno hzero) c
    simp [hzero, hunsent]
  · simp [hzero]

end Installs

end LevelState

end LinkState
