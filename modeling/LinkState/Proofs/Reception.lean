import LinkState.Proofs.Decomposition

/-!
# Following what is heard

All that is heard from the network comes down to LSPs that are received on a circuit, to
summaries that are reviewed, and to flags that are set.  A relation between states that leads
through each of these leads through whole PDUs, and through the LSPs that were deferred.
-/

namespace LinkState.LevelState

/-- The octets of an LSP of the level that come from a known circuit are processed. -/
theorem receiveLspOctets_received {s : LevelState} {circuit : CircuitId} {octets : Octets}
    {lsp : Lsp} (hregistered : s.circuits.contains circuit = true)
    (hdecode : Pdu.decode s.now octets = .ok (.lsp lsp)) (hlevel : lsp.level = s.level) :
    (s.receiveLspOctets (some circuit) octets).1 =
      (s.tell (.pduReceived circuit (.lsp lsp))).receiveFrom circuit lsp := by
  have hreceive := @receiveLsp_registered (s.tell (.pduReceived circuit (.lsp lsp))) circuit lsp
    hregistered hlevel
  rw [receiveLspOctets, hdecode]
  dsimp only
  rw [hreceive]

/-- An LSP that the system hands in itself is originated or refused. -/
theorem receiveLsp_handedIn (s : LevelState) (lsp : Lsp) :
    (s.receiveLsp none lsp).1 = s ∨ (s.receiveLsp none lsp).1 = s.originate lsp := by
  simp only [receiveLsp]
  split
  · exact .inl rfl
  · split
    · exact .inr rfl
    · exact .inl rfl

theorem receiveLspOctets_handedIn (s : LevelState) (octets : Octets) :
    (s.receiveLspOctets none octets).1 = s ∨
      ∃ lsp, (s.receiveLspOctets none octets).1 = s.originate lsp := by
  rw [receiveLspOctets]
  cases Pdu.decode s.now octets with
  | error => exact .inl rfl
  | ok pdu =>
      cases pdu with
      | snp => exact .inl rfl
      | lsp lsp => exact (s.receiveLsp_handedIn lsp).imp_right fun heq => ⟨lsp, heq⟩

/-- A relation between states leads from those with a property through each of the changes
that make up what is heard from the network. -/
structure Follows (P : LevelState → Prop) (R : LevelState → LevelState → Prop) : Prop where
  refl : ∀ s, R s s
  trans : ∀ {s t u}, R s t → R t u → R s u
  kept : ∀ {s t}, P s → Steps (fun _ => True) s t → P t
  consistent : ∀ {s}, P s → s.Consistent
  tell : ∀ s event, R s (s.tell event)
  mark : ∀ s summary circuit, R s (s.setFlag .srm summary circuit)
  take : ∀ s deferred, R s { s with deferred := deferred }
  receive : ∀ {s} circuit lsp, P s → R s (s.receiveFrom circuit lsp)
  review : ∀ {s} circuit summary, P s → R s (s.review circuit summary)

namespace Follows

variable {P : LevelState → Prop} {R S : LevelState → LevelState → Prop} {s : LevelState}

/-- What leads through the single changes does so in a weaker form, too. -/
theorem mono (h : Follows P R) (htrans : ∀ {s t u}, S s t → S t u → S s u)
    (hweaker : ∀ {s t}, R s t → S s t) : Follows P S where
  refl := fun s => hweaker (h.refl s)
  trans := htrans
  kept := h.kept
  consistent := h.consistent
  tell := fun s event => hweaker (h.tell s event)
  mark := fun s summary circuit => hweaker (h.mark s summary circuit)
  take := fun s deferred => hweaker (h.take s deferred)
  receive := fun circuit lsp hs => hweaker (h.receive circuit lsp hs)
  review := fun circuit summary hs => hweaker (h.review circuit summary hs)

theorem foldl (h : Follows P R) {α : Type} {f : LevelState → α → LevelState} (items : List α)
    {Q : LevelState → Prop} (hs : Q s) (hf : ∀ {t item}, Q t → Q (f t item) ∧ R t (f t item)) :
    R s (items.foldl f s) := by
  have hfollows : Q (items.foldl f s) ∧ R s (items.foldl f s) := by
    refine List.foldlRecOn (motive := fun t => Q t ∧ R s t) items f ⟨hs, h.refl s⟩ ?_
    intro t ht item _
    obtain ⟨hround, hrelated⟩ := hf ht.1
    exact ⟨hround, h.trans ht.2 hrelated⟩
  exact hfollows.2

theorem markAll (h : Follows P R) (s : LevelState) (circuit : CircuitId) (entries : List Entry) :
    R s (entries.foldl (fun s entry => s.setFlag .srm (s.summaryOf entry.lsp) circuit) s) :=
  h.foldl entries (Q := fun _ => True) trivial fun {t _} _ => ⟨trivial, h.mark t _ circuit⟩

/-- Once a circuit is registered, LSPs are marked for it at most. -/
theorem addCircuit (h : Follows P R) (s : LevelState) (circuit : Circuit) :
    R { s.tell (.circuitAdded circuit) with
        flooding := s.flooding.addCircuit circuit.id
        circuits := s.circuits.insert circuit.id circuit }
      (s.addCircuit circuit) := by
  unfold LevelState.addCircuit
  dsimp only
  split
  · exact h.markAll _ circuit.id _
  · exact h.refl _

theorem receiveLsp (h : Follows P R) (hs : P s) (circuit : CircuitId) (lsp : Lsp) :
    R s (s.receiveLsp (some circuit) lsp).1 := by
  simp only [LevelState.receiveLsp]
  split
  · exact h.refl s
  · split
    · exact h.receive circuit lsp hs
    · exact h.refl s

theorem receiveLspOctets (h : Follows P R) (hs : P s) (circuit : CircuitId) (octets : Octets) :
    R s (s.receiveLspOctets (some circuit) octets).1 := by
  rw [LevelState.receiveLspOctets]
  cases Pdu.decode s.now octets with
  | error => exact h.refl s
  | ok pdu =>
      apply h.trans (h.tell s (.pduReceived circuit pdu))
      cases pdu with
      | lsp lsp => exact h.receiveLsp (h.kept hs (tell_steps s rfl)) circuit lsp
      | snp => exact h.refl _

/-- An LSP that comes from a circuit, or is handed in by the system itself. -/
theorem receiveAnyLsp (h : Follows P R) (hs : P s)
    (horiginate : ∀ lsp, R s (s.originate lsp)) (circuit : Option CircuitId) (lsp : Lsp) :
    R s (s.receiveLsp circuit lsp).1 := by
  cases circuit with
  | some circuit => exact h.receiveLsp hs circuit lsp
  | none =>
      rcases s.receiveLsp_handedIn lsp with heq | heq
      · rw [heq]
        exact h.refl s
      · rw [heq]
        exact horiginate lsp

theorem receiveAnyLspOctets (h : Follows P R) (hs : P s)
    (horiginate : ∀ lsp, R s (s.originate lsp)) (circuit : Option CircuitId) (octets : Octets) :
    R s (s.receiveLspOctets circuit octets).1 := by
  cases circuit with
  | some circuit => exact h.receiveLspOctets hs circuit octets
  | none =>
      rcases s.receiveLspOctets_handedIn octets with heq | ⟨lsp, heq⟩
      · rw [heq]
        exact h.refl s
      · rw [heq]
        exact horiginate lsp

theorem reviewAll (h : Follows P R) (hs : P s) (circuit : CircuitId) (snp : Snp) :
    R s (s.reviewAll circuit snp) := by
  have hreviews : R s
      ((listed snp).values.foldl (fun s summary => s.review circuit summary) s) :=
    h.foldl _ hs fun {t summary} ht =>
      ⟨h.kept ht (review_steps (h.consistent ht) circuit summary), h.review circuit summary ht⟩
  unfold LevelState.reviewAll
  dsimp only
  split
  · exact h.trans hreviews (h.markAll _ circuit _)
  · exact hreviews

theorem receiveSnp (h : Follows P R) (hs : P s) (circuit : CircuitId) (snp : Snp) :
    R s (s.receiveSnp circuit snp).1 := by
  rw [LevelState.receiveSnp]
  split
  · exact h.refl s
  · split
    · exact h.refl s
    · split
      · exact h.refl s
      · exact h.reviewAll hs circuit snp

theorem receiveSnpOctets (h : Follows P R) (hs : P s) (circuit : CircuitId) (octets : Octets) :
    R s (s.receiveSnpOctets circuit octets).1 := by
  rw [LevelState.receiveSnpOctets]
  cases Pdu.decode s.now octets with
  | error => exact h.refl s
  | ok pdu =>
      apply h.trans (h.tell s (.pduReceived circuit pdu))
      cases pdu with
      | snp snp => exact h.receiveSnp (h.kept hs (tell_steps s rfl)) circuit snp
      | lsp => exact h.refl _

theorem resume (h : Follows P R) (hs : P s) (deferred : DeferredLsp) : R s (s.resume deferred) := by
  have hreceived := h.receiveLsp hs deferred.circuit deferred.lsp
  rcases tellOutcome_eq (s.receiveLsp (some deferred.circuit) deferred.lsp) with heq | ⟨_, heq⟩
  · rw [LevelState.resume, heq]
    exact hreceived
  · rw [LevelState.resume, heq]
    exact h.trans hreceived (h.tell _ _)

theorem resumeAll (h : Follows P R) (hs : P s) (pseudonode : UInt8) :
    R s (s.resumeAll pseudonode) := by
  rw [LevelState.resumeAll]
  split
  · exact h.refl s
  · have htake : Step (fun _ => True) s { s with deferred := s.deferred.erase pseudonode } :=
      .takeDeferred pseudonode
    refine h.trans (h.take s _) (h.foldl _ (h.kept hs htake.steps) fun {t deferred} ht => ?_)
    exact ⟨h.kept ht (resume_steps (h.consistent ht) trivial), h.resume ht deferred⟩

end Follows

end LinkState.LevelState
