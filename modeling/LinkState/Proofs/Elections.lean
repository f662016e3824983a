import LinkState.Proofs.Stillness

/-!
# Own LSPs of pseudonodes

A system advertises itself, and the pseudonodes for which it is elected.  Unless LSPs are
handed in by the system itself, a live own LSP always belongs to one of these nodes: only
its generator makes the first instance, later ones follow a live one, and all are purged
when the election is lost.
-/

namespace LinkState.LevelState

variable {heard : Lsp → Prop} {s t u : LevelState} {id : LspId} {circuit : CircuitId} {lsp : Lsp}
  {pseudonode : UInt8}

/-- Every live own LSP belongs to a node that the system advertises, and each of these nodes
has a generator. -/
structure Entitled (s : LevelState) : Prop where
  advertised : ∀ {id}, s.isOwn id = true → s.published? id ≠ none →
    s.supports? id.pseudonode = some true
  generator : ∀ {pseudonode}, s.supports? pseudonode = some true →
    s.generators.contains pseudonode = true

/-- Between two states, no own LSP has come to be live unless the system advertises its
node, and no generator is gone. -/
structure Restrained (s t : LevelState) : Prop where
  surroundings : t.surroundings = s.surroundings
  generators : ∀ {pseudonode}, s.generators.contains pseudonode = true →
    t.generators.contains pseudonode = true
  published : ∀ {id}, s.isOwn id = true → t.published? id ≠ none →
    s.published? id ≠ none ∨ s.supports? id.pseudonode = some true

theorem Entitled.restrained (h : s.Entitled) (hst : Restrained s t) : t.Entitled where
  advertised := by
    intro id hown hpublished
    rw [isOwn_congr hst.surroundings] at hown
    rw [supports?_congr hst.surroundings]
    exact (hst.published hown hpublished).elim (h.advertised hown) fun hsupports => hsupports
  generator := by
    intro pseudonode hsupports
    rw [supports?_congr hst.surroundings] at hsupports
    exact hst.generators (h.generator hsupports)

namespace Restrained

theorem trans (h : Restrained s t) (h' : Restrained t u) : Restrained s u where
  surroundings := h'.surroundings.trans h.surroundings
  generators := fun hcontains => h'.generators (h.generators hcontains)
  published := by
    intro id hown hpublished
    rcases h'.published (isOwn_congr h.surroundings id ▸ hown) hpublished with hlive | hsupports
    · exact h.published hown hlive
    · exact .inr (supports?_congr h.surroundings id.pseudonode ▸ hsupports)

theorem of_database (hsurroundings : t.surroundings = s.surroundings)
    (hdatabase : t.database = s.database)
    (hgenerators : ∀ {pseudonode}, s.generators.contains pseudonode = true →
      t.generators.contains pseudonode = true) : Restrained s t where
  surroundings := hsurroundings
  generators := hgenerators
  published := by
    intro id _ hpublished
    have hsame : t.published? id = s.published? id := published_congr (by rw [hdatabase])
    exact .inl (hsame ▸ hpublished)

theorem refl (s : LevelState) : Restrained s s :=
  of_database rfl rfl fun hcontains => hcontains

theorem tell (s : LevelState) (event : Event) : Restrained s (s.tell event) :=
  of_database rfl rfl fun hcontains => hcontains

/-- Only the LSPs that are touched can come to be live. -/
theorem of_spares {touched : LspId → Prop} (h : Spares touched s t)
    (htouched : ∀ id, touched id → s.isOwn id = true → t.published? id ≠ none →
      s.published? id ≠ none ∨ s.supports? id.pseudonode = some true) : Restrained s t where
  surroundings := h.surroundings
  generators := h.generators _
  published := by
    intro id hown hpublished
    by_cases hid : touched id
    · exact htouched id hid hown hpublished
    · rw [published_congr (h.get? hid)] at hpublished
      exact .inl hpublished

theorem of_spares_database {touched : LspId → Prop} (h : Spares touched s t)
    (hdatabase : t.database = s.database) : Restrained s t :=
  of_database h.surroundings hdatabase (h.generators _)

/-- An LSP that is no longer live is no concern. -/
theorem of_silent (h : Spares (· = id) s t) (hsilent : t.published? id = none) :
    Restrained s t := by
  refine of_spares h ?_
  rintro _ rfl _ hpublished
  exact absurd hsilent hpublished

end Restrained

theorem Stilled.restrained (h : Stilled s t) : Restrained s t where
  surroundings := h.surroundings
  generators := fun hcontains => h.generators ▸ hcontains
  published := fun hown hpublished => .inl (h.published hown hpublished)

/-! ### Generating and timers -/

/-- Fragments are built for nodes only that the system advertises. -/
theorem supports_of_mem_build (h : lsp ∈ s.build pseudonode) :
    s.supports? lsp.id.pseudonode = some true := by
  have hnode : lsp.id.pseudonode = pseudonode := congrArg NodeId.pseudonode (built_of_mem h).node
  rw [hnode]
  by_contra hunsupported
  have hbodies := bodies_unsupported hunsupported
  rw [bodies, List.map_eq_nil_iff] at hbodies
  rw [hbodies] at h
  cases h

theorem renewAll_restrained (s : LevelState) (pseudonode : UInt8) :
    Restrained s ((s.build pseudonode).foldl renew s) := by
  refine List.foldlRecOn _ _ (.refl s) fun t hst lsp hmem => hst.trans ?_
  refine .of_spares (renew_spares t lsp) ?_
  rintro _ rfl _ _
  rw [supports?_congr hst.surroundings]
  exact .inr (supports_of_mem_build hmem)

/-- Generating LSPs brings to life only what the system advertises. -/
theorem generate_restrained (h : Sound heard s) (pseudonode : UInt8) :
    Restrained s (s.generate pseudonode) := by
  have hrenew := renewAll_restrained s pseudonode
  have hsound := h.steps (renewAll_steps h fun lsp (hmem : lsp ∈ s.build pseudonode) =>
    isOwn_of_mem_build hmem)
  set t := (s.build pseudonode).foldl renew s
  have hsub : ((liveIds (t.database.ofNode ⟨t.config.system, pseudonode⟩)).filter fun id =>
      !(s.build pseudonode).any fun lsp => lsp.id = id).Sublist
        (liveIds (t.database.ofNode ⟨t.config.system, pseudonode⟩)) := List.filter_sublist
  have hpurge := purgeRange_stilled hsound.consistent _ _ hsub
  exact (hrenew.trans hpurge.restrained).trans
    (.of_spares_database (endGeneration_spares _ pseudonode _) rfl)

/-- No timer brings an own LSP to life that the system does not advertise. -/
theorem fireNext_restrained (h : Sound heard s) (hfire : s.fireNext? = some t) :
    Restrained s t := by
  cases fireNext_fired h.consistent hfire with
  | expired stored _ _ _ live => exact (expire_stilled h.consistent stored live).restrained
  | deleted stored => exact .of_silent (Spares.delete stored) (delete_published stored)
  | refreshed stored _ _ live _ =>
      refine ((Stilled.tell s _).trans (originate_stilled fun _ => ?_)).restrained
      rw [← h.consistent.keys stored] at stored
      exact published_ne_none stored live
  | @generated pseudonode handle kept due =>
      have hbegin : Step heard s (s.disarmed (.generate pseudonode)) := .beginGeneration kept due
      have hdisarmed : Restrained s (s.disarmed (.generate pseudonode)) := by
        refine .of_database rfl rfl fun {other} hcontains => ?_
        simp only [disarmed]
        rw [Table.contains, Table.get?_modify_eq_map, Option.isSome_map]
        exact hcontains
      exact hdisarmed.trans (generate_restrained (h.step hbegin) pseudonode)

theorem fireUpTo_restrained (h : Sound heard s) (fuel : Nat) :
    Restrained s (fireUpTo fuel s).2 := by
  induction fuel generalizing s with
  | zero => exact .refl s
  | succ fuel ih =>
      rw [fireUpTo]
      split
      · exact .refl s
      · rename_i next hnext
        exact (fireNext_restrained h hnext).trans (ih (h.steps (fireNext_steps h hnext)))

/-! ### Requests of the surroundings -/

/-- What the proofs about single requests rely on. -/
structure Orderly (s : LevelState) : Prop where
  sound : Sound (fun _ => True) s
  guarded : s.Guarded

theorem Orderly.steps (h : s.Orderly) (hsteps : Steps (fun _ => True) s t) : t.Orderly :=
  ⟨h.sound.steps hsteps, h.guarded.steps hsteps⟩

/-- Nothing that is heard from the network brings an own LSP to life. -/
theorem stilled_follows : Follows Orderly Stilled where
  refl := .refl
  trans := .trans
  kept := fun hs => hs.steps
  consistent := fun hs => hs.sound.consistent
  tell := .tell
  mark := fun _ _ _ => .of_database rfl rfl rfl
  take := fun _ _ => .of_database rfl rfl rfl
  receive := fun circuit lsp hs =>
    receiveFrom_stilled hs.sound.consistent hs.guarded circuit lsp
  review := fun circuit summary hs =>
    review_stilled hs.sound.consistent hs.guarded circuit summary

/-- To purge all own LSPs is to cancel generations, and to purge live LSPs. -/
theorem Follows.purgeOwn {R : LevelState → LevelState → Prop} (h : Follows Orderly R)
    (hstilled : ∀ {s t}, Stilled s t → R s t)
    (hcancel : ∀ s pseudonode, R s (s.cancelGeneration pseudonode)) (hs : s.Orderly) :
    R s s.purgeOwn := by
  have hcancelled : R s (s.generators.keys.foldl cancelGeneration s) :=
    h.foldl _ (Q := fun _ => True) trivial fun {t pseudonode} _ =>
      ⟨trivial, hcancel t pseudonode⟩
  have hsteps : Steps (fun _ => True) s (s.generators.keys.foldl cancelGeneration s) :=
    foldl_steps (fun _ _ _ => .single (.cancelGeneration _)) hs.sound
  apply h.trans hcancelled
  exact hstilled (purgeRange_stilled (hs.steps hsteps).sound.consistent _ _ (.refl _))

theorem restrained_follows : Follows Orderly Restrained :=
  stilled_follows.mono .trans Stilled.restrained

/-- Octets that the system hands in itself change nothing when they are refused. -/
theorem receiveLspOctets_refused {octets : Octets}
    (hrefused : (s.receiveLspOctets none octets).2 ≠ none) :
    (s.receiveLspOctets none octets).1 = s := by
  rw [receiveLspOctets] at hrefused ⊢
  cases hdecode : Pdu.decode s.now octets with
  | error => rfl
  | ok pdu =>
      rw [hdecode] at hrefused
      cases pdu with
      | snp => rfl
      | lsp lsp =>
          simp only [receiveLsp] at hrefused ⊢
          split
          · rfl
          · split
            · rename_i hlevel hown
              rw [if_neg hlevel, if_pos hown] at hrefused
              exact absurd rfl hrefused
            · rfl

theorem purgeLsp_stilled (h : s.Consistent)
    (hlive : ∀ entry, s.database.get? id = some entry → entry.isPurged = false) :
    Stilled s (s.purgeLsp id).1 := by
  rw [purgeLsp]
  split
  · rename_i hcontains
    obtain ⟨entry, hstored⟩ := Option.isSome_iff_exists.1 hcontains
    exact purge_stilled h .removed hstored (hlive entry hstored)
  · exact .refl s

theorem cancelGeneration_restrained (s : LevelState) (pseudonode : UInt8) :
    Restrained s (s.cancelGeneration pseudonode) := by
  cases hstored : s.generators.get? pseudonode with
  | none =>
      simp only [cancelGeneration, hstored]
      exact .refl s
  | some generator =>
      simp only [cancelGeneration, hstored, cancel_eq]
      refine .of_database rfl rfl fun {other} hcontains => ?_
      rw [Table.contains_insert, hcontains, Bool.or_true]

theorem purgeOwn_restrained (h : s.Orderly) : Restrained s s.purgeOwn :=
  restrained_follows.purgeOwn Stilled.restrained cancelGeneration_restrained h

/-! ### Elections -/

/-- Every live own LSP belongs to a node that the system advertises, and each of these nodes
has a generator, but for the LSPs of one pseudonode and for its generator. -/
structure EntitledBut (pseudonode : UInt8) (s : LevelState) : Prop where
  advertised : ∀ {id}, s.isOwn id = true → id.pseudonode ≠ pseudonode → s.published? id ≠ none →
    s.supports? id.pseudonode = some true
  generator : ∀ {other}, other ≠ pseudonode → s.supports? other = some true →
    s.generators.contains other = true

namespace EntitledBut

/-- The outcome of an election concerns one pseudonode only. -/
theorem of_election (h : s.Entitled) {elections : Table UInt8 Election}
    (hothers : ∀ other, other ≠ pseudonode → elections.get? other = s.elections.get? other) :
    EntitledBut pseudonode { s with elections := elections } := by
  have hsame : ∀ other, other ≠ pseudonode →
      { s with elections := elections }.supports? other = s.supports? other := by
    intro other hother
    rw [supports?, supports?, hothers other hother]
  constructor
  · intro id hown hother hpublished
    rw [hsame _ hother]
    exact h.advertised hown hpublished
  · intro other hother hsupports
    rw [hsame _ hother] at hsupports
    exact h.generator hsupports

/-- Once the system is elected for a pseudonode, this has a generator. -/
theorem startGenerator (h : EntitledBut pseudonode s)
    (hsupports : s.supports? pseudonode = some true) :
    (s.startGenerator pseudonode).Entitled := by
  have hspares := Spares.scheduleGeneration (fun _ => False) s pseudonode
    (seconds (s.config.delaySeconds pseudonode))
  have hpending := s.pending_scheduleGeneration pseudonode
    (seconds (s.config.delaySeconds pseudonode))
  rw [LevelState.startGenerator]
  constructor
  · intro id hown hpublished
    rw [hspares.supports?]
    by_cases hid : id.pseudonode = pseudonode
    · rw [hid, hsupports]
    · rw [published_congr (hspares.get? not_false)] at hpublished
      rw [isOwn_congr hspares.surroundings] at hown
      exact h.advertised hown hid hpublished
  · intro other hother
    by_cases hid : other = pseudonode
    · obtain ⟨handle, hkept⟩ := Option.isSome_iff_exists.1 hpending
      obtain ⟨generator, hstored, -⟩ := generator_of_kept? hkept
      rw [hid, Table.contains, hstored]
      rfl
    · rw [hspares.supports?] at hother
      exact hspares.generators _ (h.generator hid hother)

/-- Once the LSPs of the pseudonode are purged, nothing is left of it. -/
theorem purgeNode (h : EntitledBut pseudonode s) (hconsistent : s.Consistent)
    (hunelected : s.supports? pseudonode ≠ some true) :
    (s.purgeNode ⟨s.config.system, pseudonode⟩).Entitled := by
  obtain ⟨hspares, hsilent⟩ := purgeNode_silent hconsistent ⟨s.config.system, pseudonode⟩
  constructor
  · intro id hown hpublished
    rw [isOwn_congr hspares.surroundings] at hown
    have hother : id.pseudonode ≠ pseudonode := by
      rintro rfl
      have hsystem : id.system = s.config.system := of_decide_eq_true hown
      exact hpublished (hsilent id (by rw [LspId.node, hsystem]))
    have hkept := hspares.get? fun hnode => hother (congrArg NodeId.pseudonode hnode)
    rw [published_congr hkept] at hpublished
    rw [hspares.supports?]
    exact h.advertised hown hother hpublished
  · intro other hsupports
    rw [hspares.supports?] at hsupports
    exact hspares.generators _ (h.generator (fun hid => hunelected (hid ▸ hsupports)) hsupports)

/-- Removing the generator of a pseudonode ends what is published for it. -/
theorem removeGenerator (h : EntitledBut pseudonode s) (hconsistent : s.Consistent)
    (hunelected : s.supports? pseudonode ≠ some true)
    (hidle : s.generators.contains pseudonode = false → ∀ {id}, s.isOwn id = true →
      id.pseudonode = pseudonode → s.published? id = none) :
    (s.removeGenerator pseudonode).Entitled := by
  cases hstored : s.generators.get? pseudonode with
  | none =>
      simp only [LevelState.removeGenerator, hstored]
      constructor
      · intro id hown hpublished
        refine h.advertised hown (fun hid => hpublished ?_) hpublished
        exact hidle (by simp [Table.contains, hstored]) hown hid
      · intro other hsupports
        exact h.generator (fun hid => hunelected (hid ▸ hsupports)) hsupports
  | some generator =>
      have hkept : s.kept? (.generate pseudonode) = generator.timer := by simp [kept?, hstored]
      have hdropped := hconsistent.dropGenerator pseudonode
      rw [hkept] at hdropped
      simp only [LevelState.removeGenerator, hstored, cancel_eq]
      refine purgeNode ⟨h.advertised, fun {other} hother hsupports => ?_⟩ (hdropped.tell _)
        hunelected
      show (s.generators.erase pseudonode).contains other = true
      rw [Table.contains, Table.get?_erase_of_ne _ hother]
      exact h.generator hother hsupports

end EntitledBut

namespace Entitled

/-- A pseudonode without a generator publishes nothing. -/
theorem idle (h : s.Entitled) (hidle : s.generators.contains pseudonode = false)
    (hown : s.isOwn id = true) (hid : id.pseudonode = pseudonode) : s.published? id = none := by
  by_contra hpublished
  have hcontains := h.generator (h.advertised hown hpublished)
  rw [hid, hidle] at hcontains
  cases hcontains

/-- An election that is won gives the pseudonode a generator, and one that is not purges its
LSPs. -/
theorem recordElection (h : s.Entitled) (hconsistent : s.Consistent) (hother : pseudonode ≠ 0)
    (election : Option Election) : (s.recordElection pseudonode election).Entitled := by
  have hconsistent' : ∀ elections, { s with elections := elections }.Consistent :=
    fun _ => hconsistent.congr rfl rfl rfl rfl
  cases election with
  | none =>
      have hbut : EntitledBut pseudonode { s with elections := s.elections.erase pseudonode } :=
        .of_election h fun other hne => Table.get?_erase_of_ne _ hne
      refine hbut.removeGenerator (hconsistent' _) ?_ fun hidle => h.idle hidle
      simp [supports?, hother, Table.get?_erase_self]
  | some election =>
      have hbut : EntitledBut pseudonode
          { s with elections := s.elections.insert pseudonode election } :=
        .of_election h fun other hne => Table.get?_insert_of_ne _ _ hne
      simp only [LevelState.recordElection]
      split
      · rename_i helected
        apply hbut.startGenerator
        simp [supports?, hother, Table.get?_insert_self, helected]
      · rename_i hlost
        refine hbut.removeGenerator (hconsistent' _) ?_ fun hidle => h.idle hidle
        simpa [supports?, hother, Table.get?_insert_self] using hlost

theorem setElection (h : s.Entitled) (horderly : s.Orderly) (pseudonode : UInt8)
    (election : Option Election) : (s.setElection pseudonode election).Entitled := by
  have htell : (s.tell (.electionChanged pseudonode election)).Entitled :=
    h.restrained (.tell s _)
  have horderly' : (s.tell (.electionChanged pseudonode election)).Orderly :=
    horderly.steps (tell_steps s rfl)
  unfold LevelState.setElection
  dsimp only
  split
  · exact htell
  · rename_i hother
    have hsteps := recordElection_steps horderly'.sound pseudonode election
    exact (htell.recordElection horderly'.sound.consistent hother election).restrained
      (restrained_follows.resumeAll (horderly'.steps hsteps) pseudonode)

/-- Circuits, flags, pages and the clock are no concern of own LSPs. -/
theorem congr (h : s.Entitled) (hconfig : t.config = s.config)
    (helections : t.elections = s.elections) (hdatabase : t.database = s.database)
    (hgenerators : t.generators = s.generators) : t.Entitled := by
  constructor
  · intro id hown hpublished
    rw [isOwn, hconfig] at hown
    rw [published?, hdatabase] at hpublished
    rw [supports?, helections]
    exact h.advertised hown hpublished
  · intro pseudonode hsupports
    rw [supports?, helections] at hsupports
    rw [hgenerators]
    exact h.generator hsupports

theorem addCircuit (h : s.Entitled) (circuit : Circuit) : (s.addCircuit circuit).Entitled := by
  have hadded : { s.tell (.circuitAdded circuit) with
      flooding := s.flooding.addCircuit circuit.id
      circuits := s.circuits.insert circuit.id circuit }.Entitled := h.congr rfl rfl rfl rfl
  exact hadded.restrained (restrained_follows.addCircuit s circuit)

theorem setAdvertisement (h : s.Entitled) (advertised : Advertisement) :
    (s.setAdvertisement advertised).Entitled := by
  rw [LevelState.setAdvertisement]
  split
  · exact h
  · have hadvertised : { s with advertised := advertised }.Entitled := h.congr rfl rfl rfl rfl
    have hspares :=
      Spares.scheduleGeneration (fun _ => False) { s with advertised := advertised } 0 0
    exact hadvertised.restrained (.of_spares hspares fun _ hfalse => hfalse.elim)

end Entitled

/-! ### Runs -/

/-- What may be asked of a level that hears LSPs from circuits as octets, is handed none by
the system itself but such as it refuses, and is not stopped. -/
def Listening (s : LevelState) : Operation → Prop
  | .receiveLsp _ _ | .stop => False
  | .receiveLspOctets none octets => (s.receiveLspOctets none octets).2 ≠ none
  | operation => s.Proper operation

theorem Listening.proper {operation : Operation} (h : s.Listening operation) :
    s.Proper operation := by
  cases operation with
  | purgeLsp id => exact h
  | _ => trivial

/-- Whatever is asked of a listening level, it stays entitled to its own LSPs. -/
theorem perform_entitled (h : s.Entitled) (horderly : s.Orderly) {operation : Operation}
    (hallowed : s.Listening operation) : (s.perform operation).Entitled := by
  cases operation with
  | receiveLsp => cases hallowed
  | receiveLspOctets circuit octets =>
      cases circuit with
      | none =>
          rw [perform, receiveLspOctets_refused hallowed]
          exact h
      | some circuit =>
          exact h.restrained (restrained_follows.receiveLspOctets horderly circuit octets)
  | receiveSnp circuit snp =>
      exact h.restrained (restrained_follows.receiveSnp horderly circuit snp)
  | receiveSnpOctets circuit octets =>
      exact h.restrained (restrained_follows.receiveSnpOctets horderly circuit octets)
  | addCircuit circuit => exact h.addCircuit circuit
  | removeCircuit circuit => exact h.congr rfl rfl rfl rfl
  | setElection pseudonode election => exact h.setElection horderly pseudonode election
  | setAdvertisement advertised => exact h.setAdvertisement advertised
  | purgeOwn => exact h.restrained (purgeOwn_restrained horderly)
  | purgeLsp id =>
      exact h.restrained (purgeLsp_stilled horderly.sound.consistent hallowed).restrained
  | fire most => exact h.restrained (fireUpTo_restrained horderly.sound most)
  | page index =>
      obtain ⟨pages, trace, heq⟩ := s.page_state_eq index
      show (s.page index).2.Entitled
      rw [heq]
      exact h.congr rfl rfl rfl rfl
  | advance span => exact h.congr rfl rfl rfl rfl
  | stop => cases hallowed

variable {level : Level} {config : Config} {now : Nat}

/-- In every state of a level that only listens, the live own LSPs belong to nodes that the
system advertises. -/
theorem Reachable.entitled (h : Reachable Listening level config now s) : s.Entitled := by
  induction h with
  | start =>
      have hblank : EntitledBut 0 (blank level config now) := by
        constructor
        · intro id _ _ hpublished
          exact absurd rfl hpublished
        · intro other hother hsupports
          rw [supports?, if_neg hother] at hsupports
          cases hsupports
      exact hblank.startGenerator rfl
  | perform hbefore hallowed ih =>
      have hproper := hbefore.mono Listening.proper
      exact perform_entitled ih ⟨hproper.sound, hproper.guarded⟩ hallowed

end LinkState.LevelState
