import LinkState.Proofs.OwnLsps

/-!
# The order of arrival does not matter

Of the copies of an LSP of another system, the one with the greatest sequence
number is left in the end, whatever the order in which they arrive, however often
each arrives, and on whatever circuits.  Two levels that have heard the same copies
hold the same content.
-/

namespace LinkState

/-- What a copy of an LSP says: its sequence number, its checksum, its flags and its
fields. -/
def Lsp.content (lsp : Lsp) : UInt32 × UInt16 × LspFlags × LspTlvs :=
  (lsp.seqno, lsp.checksum, lsp.flags, lsp.tlvs)

theorem Lsp.seqno_eq_of_content_eq {a b : Lsp} (h : a.content = b.content) : a.seqno = b.seqno :=
  congrArg Prod.fst h

/-! ### The latest of several copies -/

/-- An LSP says what one of several copies says, and none of these has a greater
sequence number. -/
structure Latest (copies : List Lsp) (lsp : Lsp) : Prop where
  copied : ∃ copy ∈ copies, copy.content = lsp.content
  greatest : ∀ copy ∈ copies, copy.seqno ≤ lsp.seqno

/-- Copies with one sequence number say the same. -/
def Coherent (copies : List Lsp) : Prop :=
  ∀ a ∈ copies, ∀ b ∈ copies, a.seqno = b.seqno → a.content = b.content

instance (copies : List Lsp) : Decidable (Coherent copies) :=
  inferInstanceAs (Decidable (∀ a ∈ copies, ∀ b ∈ copies, _ → _))

/-- Everything that one list of copies says is said by another, too. -/
def SaidBy (copies others : List Lsp) : Prop :=
  ∀ copy ∈ copies, ∃ other ∈ others, other.content = copy.content

section Latest

variable {copies others more : List Lsp} {a b : Lsp}

theorem SaidBy.refl (copies : List Lsp) : SaidBy copies copies :=
  fun copy hmem => ⟨copy, hmem, rfl⟩

theorem Coherent.of_saidBy (h : Coherent others) (hsaid : SaidBy copies others) :
    Coherent copies := by
  intro a ha b hb hseqno
  obtain ⟨first, hfirst, hcontent⟩ := hsaid a ha
  obtain ⟨second, hsecond, hcontent'⟩ := hsaid b hb
  rw [← hcontent, ← hcontent']
  apply h first hfirst second hsecond
  rw [Lsp.seqno_eq_of_content_eq hcontent, hseqno, Lsp.seqno_eq_of_content_eq hcontent']

/-- The latest of some copies stands for all of them when more copies come in. -/
theorem Latest.trans (h : Latest copies a) (h' : Latest (a :: more) b) :
    Latest (copies ++ more) b where
  copied := by
    obtain ⟨copy, hmem, hcontent⟩ := h'.copied
    rcases List.mem_cons.1 hmem with rfl | hmore
    · obtain ⟨first, hfirst, hsame⟩ := h.copied
      exact ⟨first, List.mem_append_left _ hfirst, hsame.trans hcontent⟩
    · exact ⟨copy, List.mem_append_right _ hmore, hcontent⟩
  greatest := by
    intro copy hmem
    rcases List.mem_append.1 hmem with hcopy | hmore
    · exact UInt32.le_trans (h.greatest copy hcopy) (h'.greatest a List.mem_cons_self)
    · exact h'.greatest copy (List.mem_cons_of_mem _ hmore)

theorem Latest.seqno_le (h : Latest copies a) (h' : Latest others b)
    (hsaid : SaidBy copies others) : a.seqno ≤ b.seqno := by
  obtain ⟨copy, hmem, hcontent⟩ := h.copied
  obtain ⟨other, hother, hsame⟩ := hsaid copy hmem
  rw [← Lsp.seqno_eq_of_content_eq (hsame.trans hcontent)]
  exact h'.greatest other hother

/-- The latest of the same copies say the same. -/
theorem Latest.content_eq (h : Latest copies a) (h' : Latest others b)
    (hcoherent : Coherent copies) (hsaid : SaidBy copies others) (hback : SaidBy others copies) :
    a.content = b.content := by
  obtain ⟨copy, hmem, hcontent⟩ := h.copied
  obtain ⟨other, hother, hcontent'⟩ := h'.copied
  obtain ⟨again, hagain, hsame⟩ := hback other hother
  have hseqno : a.seqno = b.seqno :=
    UInt32.le_antisymm (h.seqno_le h' hsaid) (h'.seqno_le h hback)
  have hcopies : copy.seqno = again.seqno := by
    rw [Lsp.seqno_eq_of_content_eq hcontent, hseqno,
      Lsp.seqno_eq_of_content_eq (hsame.trans hcontent')]
  rw [← hcontent, hcoherent copy hmem again hagain hcopies, hsame, hcontent']

end Latest

namespace LevelState

variable {s t : LevelState} {circuit : CircuitId} {lsp : Lsp}

/-! ### One copy -/

theorem seqno_lt_of_older {stored lsp : Lsp} (h : Recency.ofLsp (some stored) lsp = .older) :
    lsp.seqno < stored.seqno := by
  simp only [Recency.ofLsp, Recency.compare] at h
  split at h
  · cases h
  · rw [Recency.ofFields] at h
    split_ifs at h with hless hgreater
    exact hgreater

/-- A copy that is the same as the stored one is known with its sequence number. -/
theorem known_of_same (hcarrying : s.Carrying) (hcarries : lsp.Carries) (hnumbered : lsp.seqno ≠ 0)
    (hsame : s.recency lsp = .same) :
    ∃ stored, s.known? lsp.id = some stored ∧ stored.lsp.seqno = lsp.seqno := by
  cases hstored : s.database.get? lsp.id with
  | none =>
      rw [recency, hstored] at hsame
      cases hsame
  | some stored =>
      rw [recency_of_stored hstored] at hsame
      have hseqno := seqno_of_same hsame (hcarrying.carries hstored) hcarries
      refine ⟨stored, known_of_stored hstored ?_, hseqno.symm⟩
      rw [Entry.isPlaceholder, ← hseqno, decide_eq_false hnumbered]

/-- A stored copy that another one is older than is known. -/
theorem known_of_older {stored : Entry} (hstored : s.database.get? lsp.id = some stored)
    (holder : s.recency lsp = .older) :
    s.known? lsp.id = some stored ∧ lsp.seqno < stored.lsp.seqno := by
  rw [recency_of_stored hstored] at holder
  have hless := seqno_lt_of_older holder
  refine ⟨known_of_stored hstored (decide_eq_false fun hzero => ?_), hless⟩
  rw [hzero] at hless
  exact UInt32.not_lt_zero hless

/-- A live copy that is accepted is known as it is. -/
theorem accept_known (s : LevelState) (circuit : CircuitId) (hlive : lsp.isExpired = false)
    (hnumbered : lsp.seqno ≠ 0) :
    ∃ entry, (s.accept circuit lsp).known? lsp.id = some entry ∧ entry.lsp = lsp := by
  obtain ⟨entry, hentry, hlsp, -⟩ := (s.accept_installs circuit lsp).stored
  rw [completed_of_live hlive] at hentry hlsp
  refine ⟨entry, known_of_stored hentry ?_, hlsp⟩
  rw [Entry.isPlaceholder, hlsp, decide_eq_false hnumbered]

/-- A copy with the checksum of the known one changes only flags. -/
theorem acceptSame_known {stored : Entry} (hknown : s.known? lsp.id = some stored)
    (hsame : stored.lsp.checksum = lsp.checksum) :
    (s.acceptSame circuit lsp (s.database.get? lsp.id)).known? lsp.id = some stored := by
  have hclear : isConfused stored lsp.lifetime lsp.checksum = false := by
    simp [isConfused, hsame]
  simp only [acceptSame, (stored_of_known hknown).1, Option.map_some, Option.getD_some, hclear,
    acknowledge_eq]
  exact hknown

/-- What is left of the stored copy and of a live copy of an LSP of another system
is the one with the greater sequence number. -/
theorem receiveFrom_live (h : s.Consistent) (hcarrying : s.Carrying) (circuit : CircuitId)
    (hvalid : lsp.Valid) (hlive : lsp.isExpired = false) (hnumbered : lsp.seqno ≠ 0)
    (hforeign : s.isOwn lsp.id = false) (hcarries : lsp.Carries)
    (hreplaceable : ∀ entry, s.known? lsp.id = some entry → entry.isPurged = false)
    (hcoherent : ∀ entry, s.known? lsp.id = some entry → entry.lsp.seqno = lsp.seqno →
      entry.lsp.content = lsp.content) :
    ∃ entry, (s.receiveFrom circuit lsp).known? lsp.id = some entry ∧ entry.isPurged = false ∧
      (entry.lsp = lsp ∧
          (∀ stored, s.known? lsp.id = some stored → stored.lsp.seqno ≤ lsp.seqno) ∨
        s.known? lsp.id = some entry ∧ lsp.seqno ≤ entry.lsp.seqno) := by
  have hreceived := receiveFrom_received h circuit lsp
  generalize s.receiveFrom circuit lsp = t at hreceived
  cases hreceived with
  | discarded invalid => exact absurd hvalid invalid
  | answered _ _ own => simp [hforeign] at own
  | judged counters _ _ judged =>
      cases judged with
      | recorded expired => simp [hlive] at expired
      | outlived purge => exact absurd purge.expired (by simp [hlive])
      | accepted newer =>
          obtain ⟨entry, hknown, hlsp⟩ :=
            accept_known { s with counters := counters } circuit hlive hnumbered
          refine ⟨entry, hknown, ?_, .inl ⟨hlsp, fun stored hstored => ?_⟩⟩
          · rw [Entry.isPurged, hlsp, hlive]
          · have hrecency : s.recency lsp = .newer := newer
            rw [recency_of_stored (stored_of_known hstored).1] at hrecency
            exact le_of_newer hrecency
      | same same =>
          obtain ⟨stored, hknown, hseqno⟩ := known_of_same hcarrying hcarries hnumbered same
          -- Coherent copies are not confused.
          have hsame : stored.lsp.checksum = lsp.checksum :=
            congrArg (·.2.1) (hcoherent stored hknown hseqno)
          refine ⟨stored, acceptSame_known hknown hsame, hreplaceable stored hknown,
            .inr ⟨hknown, ?_⟩⟩
          rw [hseqno]
          exact UInt32.le_refl _
      | @older entry older stored =>
          obtain ⟨hknown, hless⟩ := known_of_older stored older
          exact ⟨entry, hknown, hreplaceable entry hknown, .inr ⟨hknown, UInt32.le_of_lt hless⟩⟩

/-! ### Many copies -/

/-- An LSP that arrives on a circuit after a span of time. -/
structure Arrival where
  span : Nat
  circuit : CircuitId
  lsp : Lsp

def arrive (s : LevelState) (arrival : Arrival) : Outcome :=
  (s.advance arrival.span).receiveLsp (some arrival.circuit) arrival.lsp

/-- The state after several LSPs have arrived, up to the first one that was refused. -/
def arriveAll (s : LevelState) : List Arrival → Outcome
  | [] => (s, none)
  | arrival :: rest =>
      match s.arrive arrival with
      | (t, none) => t.arriveAll rest
      | (t, some error) => (t, some error)

def heardCopies (arrivals : List Arrival) (id : LspId) : List Lsp :=
  (arrivals.map (·.lsp)).filter (·.id = id)

/-- All copies of an LSP: the one that is known, and those that arrive. -/
def copies (s : LevelState) (arrivals : List Arrival) (id : LspId) : List Lsp :=
  ((s.known? id).map (·.lsp)).toList ++ heardCopies arrivals id

/-- LSPs of other systems arrive on known circuits.  They are valid and live, their octets
carry their sequence numbers, none of them takes the place of a purge, and copies of one
LSP with one sequence number say the same. -/
structure Mergeable (s : LevelState) (arrivals : List Arrival) : Prop where
  registered : ∀ arrival ∈ arrivals, s.circuits.contains arrival.circuit = true
  level : ∀ arrival ∈ arrivals, arrival.lsp.level = s.level
  valid : ∀ arrival ∈ arrivals, arrival.lsp.Valid
  live : ∀ arrival ∈ arrivals, arrival.lsp.isExpired = false
  numbered : ∀ arrival ∈ arrivals, arrival.lsp.seqno ≠ 0
  foreign : ∀ arrival ∈ arrivals, s.isOwn arrival.lsp.id = false
  carries : ∀ arrival ∈ arrivals, arrival.lsp.Carries
  replaceable : ∀ arrival ∈ arrivals, ∀ entry, s.known? arrival.lsp.id = some entry →
    entry.isPurged = false
  coherent : ∀ arrival ∈ arrivals, Coherent (s.copies arrivals arrival.lsp.id)

/-- What is known of an LSP is live and the latest of some copies. -/
def Holds (t : LevelState) (id : LspId) (copies : List Lsp) : Prop :=
  ∃ entry, t.known? id = some entry ∧ entry.isPurged = false ∧ Latest copies entry.lsp

section Arrival

variable {arrival : Arrival} {rest : List Arrival} {id : LspId}

theorem heardCopies_self (arrival : Arrival) :
    heardCopies [arrival] arrival.lsp.id = [arrival.lsp] := by
  simp [heardCopies]

theorem copies_cons (s : LevelState) (arrival : Arrival) (rest : List Arrival) (id : LspId) :
    s.copies (arrival :: rest) id = s.copies [arrival] id ++ heardCopies rest id := by
  rw [copies, copies, List.append_assoc]
  congr 1
  rw [heardCopies, heardCopies, heardCopies, ← List.filter_append]
  rfl

theorem copies_of_known {entry : Entry} (h : s.known? id = some entry) (arrivals : List Arrival) :
    s.copies arrivals id = entry.lsp :: heardCopies arrivals id := by
  rw [copies, h]
  rfl

theorem copies_cons_of_ne (h : t.known? id = s.known? id) (hne : arrival.lsp.id ≠ id) :
    s.copies (arrival :: rest) id = t.copies rest id := by
  rw [copies, copies, h]
  simp [heardCopies, hne]

theorem known_eq (h : t.database.get? id = s.database.get? id) : t.known? id = s.known? id := by
  rw [known?, known?, h]

/-- What is known after an arrival was known before or has arrived. -/
theorem Holds.saidBy (h : Holds t arrival.lsp.id (s.copies [arrival] arrival.lsp.id))
    (hothers : ∀ id, arrival.lsp.id ≠ id → t.known? id = s.known? id) (rest : List Arrival)
    (id : LspId) : SaidBy (t.copies rest id) (s.copies (arrival :: rest) id) := by
  by_cases hid : arrival.lsp.id = id
  · subst hid
    obtain ⟨entry, hknown, -, hlatest⟩ := h
    rw [copies_of_known hknown, copies_cons]
    intro copy hmem
    rcases List.mem_cons.1 hmem with rfl | hmem
    · obtain ⟨other, hother, hcontent⟩ := hlatest.copied
      exact ⟨other, List.mem_append_left _ hother, hcontent⟩
    · exact ⟨copy, List.mem_append_right _ hmem, rfl⟩
  · rw [copies_cons_of_ne (hothers id hid) hid]
    exact .refl _

/-- After an arrival, the rest can arrive. -/
theorem Mergeable.after (h : s.Mergeable (arrival :: rest)) (hlevel : t.level = s.level)
    (hconfig : t.config = s.config) (hcircuits : t.circuits = s.circuits)
    (hholds : Holds t arrival.lsp.id (s.copies [arrival] arrival.lsp.id))
    (hothers : ∀ id, arrival.lsp.id ≠ id → t.known? id = s.known? id) : t.Mergeable rest := by
  have hin : ∀ {other}, other ∈ rest → other ∈ arrival :: rest := List.mem_cons_of_mem _
  constructor
  case registered =>
    intro other hmem
    rw [hcircuits]
    exact h.registered other (hin hmem)
  case level =>
    intro other hmem
    rw [hlevel]
    exact h.level other (hin hmem)
  case foreign =>
    intro other hmem
    rw [isOwn, hconfig]
    exact h.foreign other (hin hmem)
  case replaceable =>
    intro other hmem entry hknown
    by_cases hid : arrival.lsp.id = other.lsp.id
    · obtain ⟨held, hheld, hlive, -⟩ := hholds
      rw [← hid, hheld] at hknown
      exact Option.some.inj hknown ▸ hlive
    · rw [hothers _ hid] at hknown
      exact h.replaceable other (hin hmem) entry hknown
  case coherent =>
    intro other hmem
    exact (h.coherent other (hin hmem)).of_saidBy (hholds.saidBy hothers rest _)
  case valid => exact fun other hmem => h.valid other (hin hmem)
  case live => exact fun other hmem => h.live other (hin hmem)
  case numbered => exact fun other hmem => h.numbered other (hin hmem)
  case carries => exact fun other hmem => h.carries other (hin hmem)

/-- Of the known copy and the one that arrives the latest is left. -/
theorem receiveFrom_holds (hconsistent : s.Consistent) (hcarrying : s.Carrying)
    (h : s.Mergeable (arrival :: rest)) :
    Holds (s.receiveFrom arrival.circuit arrival.lsp) arrival.lsp.id
      (s.copies [arrival] arrival.lsp.id) := by
  have hmem : arrival ∈ arrival :: rest := List.mem_cons_self
  have hcoherent : ∀ entry, s.known? arrival.lsp.id = some entry →
      entry.lsp.seqno = arrival.lsp.seqno → entry.lsp.content = arrival.lsp.content := by
    intro entry hknown
    apply h.coherent arrival hmem
    · simp [copies, hknown]
    · simp [copies, heardCopies]
  obtain ⟨entry, hentry, hlive, hcase⟩ := receiveFrom_live hconsistent hcarrying
    arrival.circuit (h.valid arrival hmem) (h.live arrival hmem) (h.numbered arrival hmem)
    (h.foreign arrival hmem) (h.carries arrival hmem) (h.replaceable arrival hmem) hcoherent
  refine ⟨entry, hentry, hlive, ?_⟩
  rcases hcase with ⟨hlsp, hstored⟩ | ⟨hknown, hle⟩
  · rw [hlsp]
    refine ⟨⟨arrival.lsp, by simp [copies, heardCopies], rfl⟩, fun copy hcopy => ?_⟩
    rw [copies, heardCopies_self] at hcopy
    rcases List.mem_append.1 hcopy with hin | hin
    · obtain ⟨stored, hstored', rfl⟩ := Option.map_eq_some_iff.1 (Option.mem_toList.1 hin)
      exact hstored stored hstored'
    · rw [List.mem_singleton.1 hin]
      exact UInt32.le_refl _
  · rw [copies_of_known hknown, heardCopies_self]
    refine ⟨⟨entry.lsp, List.mem_cons_self, rfl⟩, fun copy hcopy => ?_⟩
    rcases List.mem_cons.1 hcopy with rfl | hin
    · exact UInt32.le_refl _
    · rw [List.mem_singleton.1 hin]
      exact hle

/-- One arrival: the latest copy is left, the entries of other LSPs stay as they are,
and the rest can arrive. -/
theorem arrive_holds (hconsistent : s.Consistent) (hcarrying : s.Carrying)
    (h : s.Mergeable (arrival :: rest)) :
    ∃ t, s.arrive arrival = (t, none) ∧ t.Consistent ∧ t.Carrying ∧ t.Mergeable rest ∧
      Holds t arrival.lsp.id (s.copies [arrival] arrival.lsp.id) ∧
      ∀ id, arrival.lsp.id ≠ id → t.database.get? id = s.database.get? id := by
  have hmem : arrival ∈ arrival :: rest := List.mem_cons_self
  have hregistered : (s.advance arrival.span).circuits.contains arrival.circuit = true :=
    h.registered arrival hmem
  have hlevel : arrival.lsp.level = (s.advance arrival.span).level := h.level arrival hmem
  have hadvanced : (s.advance arrival.span).Consistent := hconsistent.congr rfl rfl rfl rfl
  have hcarrying' : (s.advance arrival.span).Carrying := hcarrying.congr rfl
  have hmergeable : (s.advance arrival.span).Mergeable (arrival :: rest) := { h with }
  have hholds := receiveFrom_holds hadvanced hcarrying' hmergeable
  have hspares := Spares.receiveFrom hadvanced arrival.circuit arrival.lsp
  have hsteps : Steps Lsp.Carries (s.advance arrival.span)
      ((s.advance arrival.span).receiveFrom arrival.circuit arrival.lsp) :=
    receiveFrom_steps hadvanced hregistered (h.carries arrival hmem) hlevel
  obtain ⟨hconsistent', hcarrying'⟩ := hsteps.invariant
    (P := fun t => t.Consistent ∧ t.Carrying)
    (fun ht hstep => ⟨ht.1.step hstep, ht.2.step id hstep⟩) ⟨hadvanced, hcarrying'⟩
  have hothers : ∀ id, arrival.lsp.id ≠ id →
      ((s.advance arrival.span).receiveFrom arrival.circuit arrival.lsp).database.get? id =
        s.database.get? id := fun id hne => hspares.get? (Ne.symm hne)
  refine ⟨_, ?_, hconsistent', hcarrying', ?_, hholds, hothers⟩
  · exact receiveLsp_registered hregistered hlevel
  · exact h.after hspares.level hspares.config hspares.circuits hholds
      fun id hne => known_eq (hothers id hne)

/-- Several arrivals: of each LSP the latest copy is left, and the entries of other
LSPs stay as they are. -/
theorem arriveAll_holds {arrivals : List Arrival} (hconsistent : s.Consistent)
    (hcarrying : s.Carrying) (h : s.Mergeable arrivals) :
    ∃ t, s.arriveAll arrivals = (t, none) ∧
      (∀ arrival ∈ arrivals, Holds t arrival.lsp.id (s.copies arrivals arrival.lsp.id)) ∧
      ∀ id, (∀ arrival ∈ arrivals, arrival.lsp.id ≠ id) →
        t.database.get? id = s.database.get? id := by
  induction arrivals generalizing s with
  | nil => exact ⟨s, rfl, fun _ hmem => absurd hmem List.not_mem_nil, fun _ _ => rfl⟩
  | cons arrival rest ih =>
      obtain ⟨u, harrive, hconsistent', hcarrying', hrest, hholds, hothers⟩ :=
        arrive_holds hconsistent hcarrying h
      obtain ⟨t, harriveAll, hheld, hothers'⟩ := ih hconsistent' hcarrying' hrest
      refine ⟨t, ?_, ?_, fun id hid => ?_⟩
      · simp only [arriveAll, harrive]
        exact harriveAll
      · -- The copies of an LSP are heard one after the other, or it is heard no more.
        have hlater : ∀ id, (∀ other ∈ rest, other.lsp.id ≠ id) ∨
            Holds t id (u.copies rest id) := by
          intro id
          by_cases hmore : ∃ other ∈ rest, other.lsp.id = id
          · obtain ⟨other, hmem, rfl⟩ := hmore
            exact .inr (hheld other hmem)
          · exact .inl fun other hmem heq => hmore ⟨other, hmem, heq⟩
        have hfirst : Holds t arrival.lsp.id (s.copies (arrival :: rest) arrival.lsp.id) := by
          rw [copies_cons]
          obtain ⟨entry, hknown, hlive, hlatest⟩ := hholds
          rcases hlater arrival.lsp.id with hnone | ⟨last, hlast, hlive', hlatest'⟩
          · have hempty : heardCopies rest arrival.lsp.id = [] := by
              simpa [heardCopies] using hnone
            rw [hempty, List.append_nil]
            exact ⟨entry, (known_eq (hothers' _ hnone)).trans hknown, hlive, hlatest⟩
          · rw [copies_of_known hknown] at hlatest'
            exact ⟨last, hlast, hlive', hlatest.trans hlatest'⟩
        intro other hmem
        by_cases hid : arrival.lsp.id = other.lsp.id
        · rw [← hid]
          exact hfirst
        · rcases List.mem_cons.1 hmem with rfl | hmem
          · exact absurd rfl hid
          · rw [copies_cons_of_ne (known_eq (hothers _ hid)) hid]
            exact hheld other hmem
      · rw [hothers' id fun other hmem => hid other (List.mem_cons_of_mem _ hmem),
          hothers id (hid arrival List.mem_cons_self)]

end Arrival

/-! ### The same copies in another order -/

def content? (s : LevelState) (id : LspId) : Option (UInt32 × UInt16 × LspFlags × LspTlvs) :=
  (s.known? id).map (·.lsp.content)

/-- Two levels that know the same of an LSP, and hear the same, have copies that say the same. -/
theorem copies_saidBy {arrivals arrivals' : List Arrival} {id : LspId}
    (hknown : s.content? id = t.content? id)
    (hsame : ∀ lsp, lsp ∈ arrivals.map (·.lsp) ↔ lsp ∈ arrivals'.map (·.lsp)) :
    SaidBy (s.copies arrivals id) (t.copies arrivals' id) := by
  intro copy hmem
  rw [copies] at hmem ⊢
  rcases List.mem_append.1 hmem with hin | hin
  · obtain ⟨entry, hentry, rfl⟩ := Option.map_eq_some_iff.1 (Option.mem_toList.1 hin)
    rw [content?, content?, hentry, Option.map_some] at hknown
    obtain ⟨other, hother, hcontent⟩ := Option.map_eq_some_iff.1 hknown.symm
    exact ⟨other.lsp, by simp [hother], hcontent⟩
  · obtain ⟨hheard, hid⟩ := List.mem_filter.1 hin
    exact ⟨copy, List.mem_append_right _ (List.mem_filter.2 ⟨(hsame copy).1 hheard, hid⟩), rfl⟩

/-- Proper operations that hand in LSPs whose octets carry their sequence number, as those
do that an LSP was read from. -/
def Faithful (s : LevelState) (operation : Operation) : Prop :=
  s.Proper operation ∧ operation.Hears Lsp.Carries

variable {level : Level} {config : Config} {now : Nat}

theorem Reachable.carrying (h : Reachable Faithful level config now s) :
    s.Consistent ∧ s.Carrying := by
  have hinvariant : Sound Lsp.Carries s ∧ s.Carrying := h.invariant
    (fun hdecode => (Pdu.decoded_of_decode hdecode).carries)
    (fun {s operation} hallowed => by
      by_cases hstop : operation = .stop
      · exact .inr hstop
      · exact .inl ⟨hallowed.1, hallowed.2, hstop⟩)
    (.of_empty rfl) (fun _ hs hstep => hs.step id hstep) fun _ _ => .of_empty rfl
  exact ⟨hinvariant.1.consistent, hinvariant.2⟩

/-- LSPs of other systems arrive at a level, in any order, at any times before a
timer fires, any number of times each, and on any known circuits.  None of them is
refused.  What is left of each LSP is live and is the latest of its copies, the one
that was known included, and all other entries stay as they are.  A level that has
known the same before and hears the same copies in another order knows the same
of them in the end. -/
theorem arrival_order_irrelevant {arrivals : List Arrival}
    (h : Reachable Faithful level config now s) (hmergeable : s.Mergeable arrivals) :
    ∃ t, s.arriveAll arrivals = (t, none) ∧
      (∀ arrival ∈ arrivals, ∃ entry, t.database.get? arrival.lsp.id = some entry ∧
        entry.isLive = true ∧ Latest (s.copies arrivals arrival.lsp.id) entry.lsp) ∧
      (∀ id, (∀ arrival ∈ arrivals, arrival.lsp.id ≠ id) →
        t.database.get? id = s.database.get? id) ∧
      ∀ {level' config' now' s' arrivals'}, Reachable Faithful level' config' now' s' →
        s'.Mergeable arrivals' →
        (∀ lsp, lsp ∈ arrivals.map (·.lsp) ↔ lsp ∈ arrivals'.map (·.lsp)) →
        (∀ arrival ∈ arrivals, s.content? arrival.lsp.id = s'.content? arrival.lsp.id) →
        ∃ t', s'.arriveAll arrivals' = (t', none) ∧
          ∀ arrival ∈ arrivals, t.content? arrival.lsp.id = t'.content? arrival.lsp.id := by
  obtain ⟨hconsistent, hcarrying⟩ := h.carrying
  obtain ⟨t, harrive, hholds, hothers⟩ := arriveAll_holds hconsistent hcarrying hmergeable
  refine ⟨t, harrive, fun arrival hmem => ?_, hothers, ?_⟩
  · obtain ⟨entry, hknown, hlive, hlatest⟩ := hholds arrival hmem
    obtain ⟨hstored, hplaceholder⟩ := stored_of_known hknown
    exact ⟨entry, hstored, Entry.isLive_iff.2 ⟨hlive, hplaceholder⟩, hlatest⟩
  · intro level' config' now' s' arrivals' h' hmergeable' hsame hknown
    obtain ⟨hconsistent', hcarrying'⟩ := h'.carrying
    obtain ⟨t', harrive', hholds', -⟩ := arriveAll_holds hconsistent' hcarrying' hmergeable'
    refine ⟨t', harrive', fun arrival hmem => ?_⟩
    obtain ⟨entry, hentry, -, hlatest⟩ := hholds arrival hmem
    obtain ⟨other, hother, heq⟩ := List.mem_map.1
      ((hsame arrival.lsp).1 (List.mem_map.2 ⟨arrival, hmem, rfl⟩))
    obtain ⟨entry', hentry', -, hlatest'⟩ := hholds' other hother
    rw [heq] at hentry' hlatest'
    rw [content?, content?, hentry, hentry', Option.map_some, Option.map_some]
    exact congrArg some (hlatest.content_eq hlatest' (hmergeable.coherent arrival hmem)
      (copies_saidBy (hknown arrival hmem) hsame)
      (copies_saidBy (hknown arrival hmem).symm fun lsp => (hsame lsp).symm))

/-- A level with two circuits that has asked for an LSP. -/
def asking : LevelState :=
  (((start .one Config.default 0).perform (.addCircuit ⟨1, "eth1", .broadcast⟩)).perform
    (.addCircuit ⟨2, "eth2", .pointToPoint⟩)).perform (.receiveSnp 1
      (Snp.make .one ⟨SystemId.zero, 0⟩ none
        (SnpTlvs.ofSummaries [⟨900, ⟨⟨1, 0, 0, 0, 0, 0⟩, 0, 0⟩, 9, 0x1234⟩])))

theorem asking_reachable : Reachable Faithful .one Config.default 0 asking := by
  rw [asking]
  refine Reachable.perform ?_ ⟨trivial, trivial⟩
  refine Reachable.perform ?_ ⟨trivial, trivial⟩
  exact Reachable.perform Reachable.start ⟨trivial, trivial⟩

def instanceOf (seqno : UInt32) : Lsp :=
  Lsp.make 0 .one 900 ⟨⟨1, 0, 0, 0, 0, 0⟩, 0, 0⟩ seqno .none .empty

theorem asking_mergeable {arrivals : List Arrival}
    (hregistered : ∀ arrival ∈ arrivals, asking.circuits.contains arrival.circuit = true)
    (hmem : ∀ arrival ∈ arrivals, arrival.lsp = instanceOf 7 ∨ arrival.lsp = instanceOf 9)
    (hcoherent : ∀ arrival ∈ arrivals, Coherent (asking.copies arrivals arrival.lsp.id)) :
    asking.Mergeable arrivals := by
  have hall : ∀ {P : Lsp → Prop}, P (instanceOf 7) → P (instanceOf 9) →
      ∀ arrival ∈ arrivals, P arrival.lsp := by
    intro P hseven hnine arrival harrival
    rcases hmem arrival harrival with heq | heq <;> rw [heq] <;> assumption
  have hunknown : ∀ arrival ∈ arrivals, asking.known? arrival.lsp.id = none :=
    hall (P := fun lsp => asking.known? lsp.id = none) (by decide +kernel) (by decide +kernel)
  exact
    { registered := hregistered
      level := hall (P := fun lsp => lsp.level = asking.level) (by decide +kernel)
        (by decide +kernel)
      valid := hall ⟨by decide +kernel, by decide +kernel⟩ ⟨by decide +kernel, by decide +kernel⟩
      live := hall (P := fun lsp => lsp.isExpired = false) rfl rfl
      numbered := hall (P := fun lsp => lsp.seqno ≠ 0) (by decide) (by decide)
      foreign := hall (P := fun lsp => asking.isOwn lsp.id = false) (by decide +kernel)
        (by decide +kernel)
      carries := hall (Lsp.make_carries ..) (Lsp.make_carries ..)
      replaceable := fun arrival harrival entry hknown => by
        rw [hunknown arrival harrival] at hknown
        cases hknown
      coherent := hcoherent }

/-- The placeholder gives way to the greater of two sequence numbers, whichever
arrives first. -/
theorem arrival_order_irrelevant_asking :
    ∃ t t', asking.arriveAll [⟨0, 1, instanceOf 9⟩, ⟨5, 2, instanceOf 7⟩] = (t, none) ∧
      asking.arriveAll [⟨0, 2, instanceOf 7⟩, ⟨1, 1, instanceOf 7⟩, ⟨1, 1, instanceOf 9⟩] =
        (t', none) ∧
      t.content? ⟨⟨1, 0, 0, 0, 0, 0⟩, 0, 0⟩ = t'.content? ⟨⟨1, 0, 0, 0, 0, 0⟩, 0, 0⟩ ∧
      ∃ entry, t.database.get? ⟨⟨1, 0, 0, 0, 0, 0⟩, 0, 0⟩ = some entry ∧
        9 ≤ entry.lsp.seqno := by
  have hfirst : asking.Mergeable [⟨0, 1, instanceOf 9⟩, ⟨5, 2, instanceOf 7⟩] :=
    asking_mergeable (by decide +kernel) (by simp) (by decide +kernel)
  have hsecond : asking.Mergeable
      [⟨0, 2, instanceOf 7⟩, ⟨1, 1, instanceOf 7⟩, ⟨1, 1, instanceOf 9⟩] :=
    asking_mergeable (by decide +kernel) (by simp) (by decide +kernel)
  obtain ⟨t, harrive, hlatest, -, hother⟩ := arrival_order_irrelevant asking_reachable hfirst
  obtain ⟨t', harrive', hsame⟩ := hother asking_reachable hsecond
    (by simp [or_comm]) fun _ _ => rfl
  obtain ⟨entry, hentry, -, hgreatest⟩ := hlatest ⟨0, 1, instanceOf 9⟩ (by simp)
  exact ⟨t, t', harrive, harrive', hsame ⟨0, 1, instanceOf 9⟩ (by simp), entry, hentry,
    hgreatest.greatest (instanceOf 9) (by decide +kernel)⟩

end LevelState

end LinkState
