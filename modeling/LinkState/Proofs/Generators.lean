import LinkState.Proofs.GenerationSpacing

/-!
# Generators and elections

A system has a generator for itself and for each pseudonode for which it is elected, and
the outcome of an election decides about it.  There is one other way for a pseudonode to
come by a generator: when an own LSP is deleted whose sequence numbers are used up, its
generation is restarted, and nobody asks then whether the system is elected.  Any neighbor
can send such an LSP.  The generator stays until the next outcome is known.
-/

namespace LinkState.LevelState

variable {s t u : LevelState} {pseudonode other : UInt8} {id : LspId} {restarted again : Bool}

/-! ### Restarts -/

/-- Whether an ID is that of a stored own LSP of a pseudonode whose sequence numbers are
used up. -/
def isExhausted (s : LevelState) (pseudonode : UInt8) (id : LspId) : Bool :=
  s.isOwn id && decide (id.pseudonode = pseudonode) &&
    (s.database.get? id).any fun entry => entry.lsp.seqno = 0xFFFFFFFF

/-- Whether the timer that is processed next restarts the generation of a pseudonode. -/
def restartsNext (s : LevelState) (pseudonode : UInt8) : Bool :=
  match s.timers.pop? s.now with
  | some (⟨_, _, .delete id⟩, _) => s.isExhausted pseudonode id
  | _ => false

/-- Whether the generation of a pseudonode is restarted while timers that are due are
processed, at most as many as given. -/
def restartsUpTo (pseudonode : UInt8) : Nat → LevelState → Bool
  | 0, _ => false
  | fuel + 1, s =>
      match s.fireNext? with
      | none => false
      | some t => s.restartsNext pseudonode || restartsUpTo pseudonode fuel t

def restartsIn (pseudonode : UInt8) (s : LevelState) : Operation → Bool
  | .fire most => restartsUpTo pseudonode most s
  | _ => false

/-! ### Between two outcomes -/

/-- Between two states, the outcome of the election for a pseudonode stays the same, and so
does its generator, unless the generation is restarted. -/
structure Persists (pseudonode : UInt8) (restarted : Bool) (s t : LevelState) : Prop where
  supports : t.supports? pseudonode = s.supports? pseudonode
  generator : t.generators.contains pseudonode = (s.generators.contains pseudonode || restarted)

namespace Persists

theorem of_contains (helections : t.elections = s.elections)
    (hcontains : t.generators.contains pseudonode = s.generators.contains pseudonode) :
    Persists pseudonode false s t where
  supports := by rw [supports?, supports?, helections]
  generator := by rw [hcontains, Bool.or_false]

theorem of_generators (helections : t.elections = s.elections)
    (hgenerators : t.generators = s.generators) : Persists pseudonode false s t :=
  of_contains helections (by rw [hgenerators])

theorem of_elections {elections : Table UInt8 Election}
    (h : elections.get? pseudonode = s.elections.get? pseudonode) :
    Persists pseudonode false s { s with elections := elections } where
  supports := by rw [supports?, supports?, h]
  generator := (Bool.or_false _).symm

theorem refl (pseudonode : UInt8) (s : LevelState) : Persists pseudonode false s s :=
  of_generators rfl rfl

theorem trans (h : Persists pseudonode restarted s t) (h' : Persists pseudonode again t u) :
    Persists pseudonode (restarted || again) s u where
  supports := h'.supports.trans h.supports
  generator := by rw [h'.generator, h.generator, Bool.or_assoc]

/-- What happens without a restart beforehand makes no difference. -/
theorem after (h : Persists pseudonode false s t) (h' : Persists pseudonode restarted t u) :
    Persists pseudonode restarted s u :=
  h.trans h'

theorem contains (h : Persists pseudonode restarted s t)
    (hcontains : s.generators.contains pseudonode = true) :
    t.generators.contains pseudonode = true := by
  rw [h.generator, hcontains, Bool.true_or]

end Persists

theorem Stilled.persists (h : Stilled s t) : Persists pseudonode false s t :=
  .of_generators (congrArg Surroundings.elections h.surroundings) h.generators

theorem persists_follows : Follows Orderly (Persists pseudonode false) :=
  stilled_follows.mono Persists.after Stilled.persists

theorem originate_persists (s : LevelState) (lsp : Lsp) :
    Persists pseudonode false s (s.originate lsp) :=
  .of_generators (congrArg Surroundings.elections (Spares.originate s lsp).surroundings)
    (s.originate_generators lsp)

theorem contains_of_kept? {handle : Handle} (h : s.kept? (.generate pseudonode) = some handle) :
    s.generators.contains pseudonode = true := by
  obtain ⟨generator, hstored, -⟩ := generator_of_kept? h
  rw [Table.contains, hstored]
  rfl

/-- A pseudonode whose generation is scheduled has a generator from then on. -/
theorem scheduleGeneration_persists (s : LevelState) (other : UInt8) (span : Nat) :
    Persists pseudonode (decide (other = pseudonode)) s (s.scheduleGeneration other span) := by
  have hspares := Spares.scheduleGeneration (fun _ => False) s other span
  apply Persists.mk (hspares.supports? pseudonode)
  cases hkept : s.kept? (.generate other) with
  | some handle =>
      rw [scheduleGeneration_pending span hkept]
      by_cases hother : other = pseudonode
      · rw [contains_of_kept? (hother ▸ hkept), Bool.true_or]
      · rw [decide_eq_false hother, Bool.or_false]
  | none =>
      obtain ⟨trace, heq⟩ := scheduleGeneration_idle span hkept
      rw [heq]
      show (s.generators.insert other _).contains pseudonode = _
      rw [Table.contains_insert, Bool.or_comm]
      simp only [eq_comm]

theorem startGenerator_persists (s : LevelState) (other : UInt8) :
    Persists pseudonode (decide (other = pseudonode)) s (s.startGenerator other) :=
  s.scheduleGeneration_persists other _

theorem cancelGeneration_persists (s : LevelState) (other : UInt8) :
    Persists pseudonode false s (s.cancelGeneration other) := by
  cases hstored : s.generators.get? other with
  | none =>
      simp only [cancelGeneration, hstored]
      exact .refl pseudonode s
  | some generator =>
      simp only [cancelGeneration, hstored, cancel_eq]
      refine .of_contains rfl ?_
      rw [Table.contains_insert, Bool.or_eq_right_iff_imp]
      intro hother
      rw [of_decide_eq_true hother, Table.contains, hstored]
      rfl

theorem purgeOwn_persists (h : s.Orderly) : Persists pseudonode false s s.purgeOwn :=
  persists_follows.purgeOwn Stilled.persists cancelGeneration_persists h

/-! ### Timers -/

/-- When an own LSP is deleted whose sequence numbers are used up, its pseudonode has a
generator afterwards, whoever is elected. -/
theorem delete_persists {entry : Entry} (hstored : s.database.get? id = some entry) :
    Persists pseudonode (s.isExhausted pseudonode id) s (s.delete id) := by
  by_cases hexhausted : s.isOwn id = true ∧ entry.lsp.seqno = 0xFFFFFFFF
  · obtain ⟨trace, heq⟩ := remove_eq hstored
    have hremoved : Persists pseudonode false s
        ((s.remove id).tell (.lspChanged .deleted s.level entry.lsp.mention)) := by
      rw [heq]
      exact .of_generators rfl rfl
    have hown : ((s.remove id).tell
        (.lspChanged .deleted s.level entry.lsp.mention)).isOwn id = true := by
      rw [heq]
      exact hexhausted.1
    have hrestarts : s.isExhausted pseudonode id = decide (id.pseudonode = pseudonode) := by
      simp [isExhausted, hexhausted, hstored]
    have hdeleted : s.delete id = ((s.remove id).tell
        (.lspChanged .deleted s.level entry.lsp.mention)).scheduleGeneration id.pseudonode 0 := by
      simp only [delete, hstored, hown, hexhausted.2, decide_true, Bool.and_true, if_true]
    rw [hrestarts, hdeleted]
    exact hremoved.after (scheduleGeneration_persists _ _ 0)
  · have hrestarts : s.isExhausted pseudonode id = false := by
      cases hown : s.isOwn id with
      | false => simp [isExhausted, hown]
      | true =>
          have hseqno : entry.lsp.seqno ≠ 0xFFFFFFFF := fun hlast => hexhausted ⟨hown, hlast⟩
          simp [isExhausted, hstored, hseqno]
    rw [hrestarts]
    exact (delete_stilled hstored hexhausted).persists

theorem generate_persists (h : Sound (fun _ => True) s) (other : UInt8) :
    Persists pseudonode false s (s.generate other) := by
  obtain ⟨t, hspares, hgenerators, heq⟩ := generate_eq h other
  rw [heq]
  constructor
  · exact hspares.supports? pseudonode
  · rw [Table.contains, Table.get?_modify_eq_map, Option.isSome_map, hgenerators, Bool.or_false]
    rfl

theorem disarmed_persists (s : LevelState) (other : UInt8) :
    Persists pseudonode false s (s.disarmed (.generate other)) := by
  refine .of_contains rfl ?_
  simp only [disarmed]
  rw [Table.contains, Table.get?_modify_eq_map, Option.isSome_map]
  rfl

/-- No timer creates or removes a generator, but for a deletion that restarts the generation. -/
theorem fireNext_persists (h : s.Orderly) (hfire : s.fireNext? = some t) :
    Persists pseudonode (s.restartsNext pseudonode) s t := by
  have hconsistent := h.sound.consistent
  obtain ⟨⟨timer, rest⟩, hpop, hfired⟩ := Option.map_eq_some_iff.1 hfire
  obtain ⟨hmem, hdue, rfl⟩ := TimerQueue.pop?_eq_some hconsistent.timers.nodup hpop
  have hkept := hconsistent.timers.kept_of_mem hmem
  obtain ⟨number, due, event⟩ := timer
  subst hfired
  dsimp only at hkept hdue ⊢
  cases event with
  | expire id =>
      obtain ⟨entry, hstored, -, hlive, -⟩ := entry_of_lifeTimer hconsistent hkept
      rw [restartsNext, hpop, fire_expire hconsistent hkept]
      exact (expire_stilled hconsistent hstored hlive).persists
  | delete id =>
      obtain ⟨entry, hstored, -⟩ := Option.bind_eq_some_iff.1 hkept
      rw [restartsNext, hpop, fire_delete hconsistent hkept]
      exact delete_persists hstored
  | refresh id =>
      obtain ⟨entry, -, -, -, -, heq⟩ := fire_refresh hconsistent hkept
      rw [restartsNext, hpop, heq]
      exact (Stilled.tell s _).persists.after (originate_persists _ entry.lsp)
  | generate other =>
      have hbegin : Step (fun _ => True) s (s.disarmed (.generate other)) :=
        .beginGeneration hkept hdue
      rw [restartsNext, hpop, fire_generate hkept]
      exact (s.disarmed_persists other).after (generate_persists (h.sound.step hbegin) other)

theorem fireUpTo_persists (h : s.Orderly) (fuel : Nat) :
    Persists pseudonode (restartsUpTo pseudonode fuel s) s (fireUpTo fuel s).2 := by
  induction fuel generalizing s with
  | zero => exact .refl pseudonode s
  | succ fuel ih =>
      rw [restartsUpTo, fireUpTo]
      cases hfire : s.fireNext? with
      | none => exact .refl pseudonode s
      | some t =>
          have hnext := h.steps (fireNext_steps h.sound hfire)
          exact (fireNext_persists h hfire).trans (ih hnext)

/-! ### Outcomes of elections -/

theorem isElected_iff {election : Option Election} :
    isElected election = true ↔ election.map (·.elected) = some true := by
  cases election <;> simp [isElected]

/-- An outcome decides whether its pseudonode has a generator. -/
structure Decided (pseudonode : UInt8) (election : Option Election) (s : LevelState) : Prop where
  supports : s.supports? pseudonode = election.map (·.elected)
  generator : s.generators.contains pseudonode = isElected election

theorem Decided.persists {election : Option Election} (h : Decided pseudonode election s)
    (hst : Persists pseudonode false s t) : Decided pseudonode election t where
  supports := hst.supports.trans h.supports
  generator := by rw [hst.generator, h.generator, Bool.or_false]

theorem removeGenerator_contains (h : s.Consistent) (pseudonode other : UInt8) :
    (s.removeGenerator pseudonode).generators.contains other =
      (decide (other ≠ pseudonode) && s.generators.contains other) := by
  rw [(removeGenerator_stilled h pseudonode).generators, Table.contains_erase]

theorem removeGenerator_supports (h : s.Consistent) (pseudonode other : UInt8) :
    (s.removeGenerator pseudonode).supports? other = s.supports? other :=
  supports?_congr (removeGenerator_stilled h pseudonode).surroundings other

/-- A system that is elected has a generator for the pseudonode, and one that is not has none. -/
theorem recordElection_decided (h : s.Consistent) (hnumbered : pseudonode ≠ 0)
    (election : Option Election) :
    Decided pseudonode election (s.recordElection pseudonode election) := by
  have hconsistent : ∀ elections, { s with elections := elections }.Consistent :=
    fun _ => h.congr rfl rfl rfl rfl
  cases election with
  | none =>
      rw [recordElection]
      constructor
      · rw [removeGenerator_supports (hconsistent _), supports?, if_neg hnumbered,
          Table.get?_erase_self, Option.map_none]
      · rw [removeGenerator_contains (hconsistent _)]
        simp [isElected]
  | some election =>
      have hsupports : { s with
          elections := s.elections.insert pseudonode election }.supports? pseudonode =
            some election.elected := by
        rw [supports?, if_neg hnumbered, Table.get?_insert_self]
        rfl
      rw [recordElection]
      split
      · rename_i helected
        have hstarted : Persists pseudonode (decide (pseudonode = pseudonode)) _ _ :=
          startGenerator_persists { s with elections := s.elections.insert pseudonode election }
            pseudonode
        constructor
        · rw [hstarted.supports, hsupports]
          rfl
        · rw [hstarted.generator, isElected, Option.any_some, helected,
            decide_eq_true rfl, Bool.or_true]
      · rename_i hlost
        constructor
        · rw [removeGenerator_supports (hconsistent _), hsupports]
          rfl
        · rw [removeGenerator_contains (hconsistent _)]
          simp [isElected, hlost]

theorem removeGenerator_persists (h : s.Consistent) (hother : other ≠ pseudonode) :
    Persists pseudonode false s (s.removeGenerator other) where
  supports := removeGenerator_supports h other pseudonode
  generator := by
    rw [removeGenerator_contains h, decide_eq_true hother.symm, Bool.true_and, Bool.or_false]

/-- The outcome of an election does not concern other pseudonodes. -/
theorem recordElection_persists (h : s.Consistent) (hother : other ≠ pseudonode)
    (election : Option Election) :
    Persists pseudonode false s (s.recordElection other election) := by
  have hconsistent : ∀ elections, { s with elections := elections }.Consistent :=
    fun _ => h.congr rfl rfl rfl rfl
  cases election with
  | none =>
      have hrecorded : Persists pseudonode false s
          { s with elections := s.elections.erase other } :=
        .of_elections (Table.get?_erase_of_ne _ hother.symm)
      exact hrecorded.after (removeGenerator_persists (hconsistent _) hother)
  | some election =>
      have hrecorded : Persists pseudonode false s
          { s with elections := s.elections.insert other election } :=
        .of_elections (Table.get?_insert_of_ne _ _ hother.symm)
      apply hrecorded.after
      rw [recordElection]
      split
      · rw [← decide_eq_false hother]
        exact startGenerator_persists _ other
      · exact removeGenerator_persists (hconsistent _) hother

theorem setElection_decided (h : s.Orderly) (hnumbered : pseudonode ≠ 0)
    (election : Option Election) :
    Decided pseudonode election (s.setElection pseudonode election) := by
  have horderly : (s.tell (.electionChanged pseudonode election)).Orderly :=
    h.steps (tell_steps s rfl)
  rw [setElection]
  generalize s.tell (.electionChanged pseudonode election) = s at horderly
  rw [if_neg hnumbered]
  have hrecorded := horderly.steps (recordElection_steps horderly.sound pseudonode election)
  have hdecided := recordElection_decided horderly.sound.consistent hnumbered election
  exact hdecided.persists (persists_follows.resumeAll hrecorded pseudonode)

theorem setElection_persists (h : s.Orderly) (hother : other ≠ pseudonode)
    (election : Option Election) :
    Persists pseudonode false s (s.setElection other election) := by
  have horderly : (s.tell (.electionChanged other election)).Orderly :=
    h.steps (tell_steps s rfl)
  apply (Stilled.tell s (.electionChanged other election)).persists.after
  rw [setElection]
  generalize s.tell (.electionChanged other election) = s at horderly
  split
  · exact .refl pseudonode s
  · have hrecorded := horderly.steps (recordElection_steps horderly.sound other election)
    have hpersists := recordElection_persists horderly.sound.consistent hother election
    exact hpersists.after (persists_follows.resumeAll hrecorded other)

/-! ### Operations -/

/-- What the system advertises is generated for itself, which has a generator already. -/
theorem setAdvertisement_persists (h : s.generators.contains 0 = true)
    (advertised : Advertisement) :
    Persists pseudonode false s (s.setAdvertisement advertised) := by
  rw [setAdvertisement]
  split
  · exact .refl pseudonode s
  · have hset : Persists pseudonode false s { s with advertised := advertised } :=
      .of_generators rfl rfl
    apply hset.after
    have hscheduled : Persists pseudonode (decide (0 = pseudonode)) _ _ :=
      scheduleGeneration_persists { s with advertised := advertised } 0 0
    apply Persists.mk hscheduled.supports
    rw [hscheduled.generator]
    by_cases hnumbered : 0 = pseudonode
    · rw [← hnumbered, h, Bool.true_or, Bool.true_or]
    · rw [decide_eq_false hnumbered]

/-- Nothing but the outcome of its election decides about the generator of a pseudonode, apart
from a restart. -/
theorem perform_persists (h : s.Orderly) (hfirst : s.generators.contains 0 = true)
    {operation : Operation} (hallowed : s.Running (fun _ => True) operation)
    (hother : ∀ election, operation ≠ .setElection pseudonode election) :
    Persists pseudonode (s.restartsIn pseudonode operation) s (s.perform operation) := by
  cases operation with
  | receiveLsp circuit lsp =>
      exact persists_follows.receiveAnyLsp h s.originate_persists circuit lsp
  | receiveLspOctets circuit octets =>
      exact persists_follows.receiveAnyLspOctets h s.originate_persists circuit octets
  | receiveSnp circuit snp => exact persists_follows.receiveSnp h circuit snp
  | receiveSnpOctets circuit octets => exact persists_follows.receiveSnpOctets h circuit octets
  | addCircuit circuit =>
      apply Persists.after ?_ (persists_follows.addCircuit s circuit)
      exact .of_generators rfl rfl
  | removeCircuit circuit => exact .of_generators rfl rfl
  | setElection other election =>
      apply setElection_persists h
      rintro rfl
      exact hother election rfl
  | setAdvertisement advertised => exact setAdvertisement_persists hfirst advertised
  | purgeOwn => exact purgeOwn_persists h
  | purgeLsp id => exact (purgeLsp_stilled h.sound.consistent hallowed.proper).persists
  | fire most => exact fireUpTo_persists h most
  | page index =>
      obtain ⟨pages, trace, heq⟩ := s.page_state_eq index
      show Persists pseudonode false s (s.page index).2
      rw [heq]
      exact .of_generators rfl rfl
  | advance span => exact .of_generators rfl rfl
  | stop => exact absurd rfl hallowed.running

/-! ### Runs -/

variable {level : Level} {config : Config} {now : Nat}

/-- A run of a level that is not stopped, with whether the generation of a pseudonode was
restarted since the last outcome of its election, or since the start. -/
inductive ElectionRun (pseudonode : UInt8) (level : Level) (config : Config) (now : Nat) :
    Bool → LevelState → Prop
  | start : ElectionRun pseudonode level config now false (LevelState.start level config now)
  | elect {restarted : Bool} {s : LevelState}
      (h : ElectionRun pseudonode level config now restarted s) (election : Option Election) :
      ElectionRun pseudonode level config now false
        (s.perform (.setElection pseudonode election))
  | perform {restarted : Bool} {s : LevelState} {operation : Operation}
      (h : ElectionRun pseudonode level config now restarted s)
      (hallowed : s.Running (fun _ => True) operation)
      (hother : ∀ election, operation ≠ .setElection pseudonode election) :
      ElectionRun pseudonode level config now
        (restarted || s.restartsIn pseudonode operation) (s.perform operation)

theorem Running.setElection (s : LevelState) (pseudonode : UInt8) (election : Option Election) :
    s.Running (fun _ => True) (.setElection pseudonode election) where
  proper := trivial
  hears := trivial
  running := nofun

/-- Every state of a level that is not stopped is reached by such a run. -/
theorem Reachable.electionRun (h : Reachable (Running fun _ => True) level config now s)
    (pseudonode : UInt8) : ∃ restarted, ElectionRun pseudonode level config now restarted s := by
  induction h with
  | start => exact ⟨false, .start⟩
  | @perform s operation _ hallowed ih =>
      obtain ⟨restarted, hrun⟩ := ih
      by_cases houtcome : ∃ election, operation = .setElection pseudonode election
      · obtain ⟨election, rfl⟩ := houtcome
        exact ⟨false, hrun.elect election⟩
      · exact ⟨_, hrun.perform hallowed fun election heq => houtcome ⟨election, heq⟩⟩

theorem ElectionRun.reachable (h : ElectionRun pseudonode level config now restarted s) :
    Reachable (Running fun _ => True) level config now s := by
  induction h with
  | start => exact .start
  | elect _ election ih => exact ih.perform (.setElection _ pseudonode election)
  | perform _ hallowed _ ih => exact ih.perform hallowed

theorem Reachable.orderly (h : Reachable (Running fun _ => True) level config now s) :
    s.Orderly := by
  have hproper : Reachable Proper level config now s := h.mono Running.proper
  exact ⟨hproper.sound, hproper.guarded⟩

/-- The system itself always has a generator. -/
theorem Reachable.generates_itself (h : Reachable (Running fun _ => True) level config now s) :
    s.generators.contains 0 = true := by
  induction h with
  | start =>
      rw [LevelState.start, (startGenerator_persists _ 0).generator]
      rfl
  | @perform s operation hbefore hallowed ih =>
      by_cases houtcome : ∃ election, operation = .setElection 0 election
      · obtain ⟨election, rfl⟩ := houtcome
        exact ih
      · apply (perform_persists hbefore.orderly ih hallowed ?_).contains ih
        exact fun election heq => houtcome ⟨election, heq⟩

/-- A node has a generator just if the system supports it, or if its generation was restarted.
An outcome decides about the generator, and all else keeps it as it is or restarts it. -/
theorem ElectionRun.generator (h : ElectionRun pseudonode level config now restarted s) :
    s.generators.contains pseudonode = true ↔
      s.supports? pseudonode = some true ∨ restarted = true := by
  induction h with
  | start =>
      have hstarted : Persists pseudonode (decide (0 = pseudonode)) _ _ :=
        startGenerator_persists (blank level config now) 0
      have hnone : (blank level config now).generators.contains pseudonode = false := rfl
      rw [LevelState.start, hstarted.generator, hstarted.supports, hnone, Bool.false_or]
      by_cases hnumbered : pseudonode = 0
      · simp [supports?, hnumbered]
      · have hunknown : (blank level config now).supports? pseudonode = none := by
          rw [supports?, if_neg hnumbered]
          rfl
        simp [hunknown, Ne.symm hnumbered]
  | @elect restarted s hrun election ih =>
      by_cases hnumbered : pseudonode = 0
      · subst hnumbered
        have hfirst := (hrun.elect election).reachable.generates_itself
        simp [hfirst, supports?]
      · have hdecided : Decided pseudonode election
            (s.perform (.setElection pseudonode election)) :=
          setElection_decided hrun.reachable.orderly hnumbered election
        rw [hdecided.generator, isElected_iff, ← hdecided.supports]
        simp
  | @perform restarted s operation hrun hallowed hother ih =>
      have hreachable := hrun.reachable
      have hpersists := perform_persists hreachable.orderly hreachable.generates_itself hallowed
        hother
      rw [hpersists.generator, hpersists.supports, Bool.or_eq_true, ih, Bool.or_eq_true, or_assoc]

/-- A system advertises itself, and the pseudonodes for which it is known to be elected. -/
def Advertises (s : LevelState) (pseudonode : UInt8) : Prop :=
  pseudonode = 0 ∨
    ∃ election, s.elections.get? pseudonode = some election ∧ election.elected = true

theorem advertises_iff (s : LevelState) (pseudonode : UInt8) :
    s.Advertises pseudonode ↔ s.supports? pseudonode = some true := by
  by_cases hnumbered : pseudonode = 0
  · simp [Advertises, supports?, hnumbered]
  · simp [Advertises, supports?, hnumbered]

/-- In every state that a level reaches before it is stopped, a node has a generator just if
the system advertises it, or if its generation was restarted since the last outcome of its
election was known.  Nothing is scheduled for any other node. -/
theorem generators_follow_elections
    (h : Reachable (Running fun _ => True) level config now s) (pseudonode : UInt8) :
    (∃ restarted, ElectionRun pseudonode level config now restarted s) ∧
      ∀ {restarted}, ElectionRun pseudonode level config now restarted s →
        (s.generators.contains pseudonode = true ↔
          s.Advertises pseudonode ∨ restarted = true) ∧
        ∀ timer ∈ s.timers.pending, timer.event = .generate pseudonode →
          s.Advertises pseudonode ∨ restarted = true := by
  apply And.intro (h.electionRun pseudonode)
  intro restarted hrun
  have hgenerator : s.generators.contains pseudonode = true ↔
      s.Advertises pseudonode ∨ restarted = true := by
    rw [hrun.generator, advertises_iff]
  apply And.intro hgenerator
  intro timer htimer hevent
  have hkept := h.orderly.sound.consistent.timers.kept_of_mem htimer
  rw [hevent] at hkept
  exact hgenerator.1 (contains_of_kept? hkept)

/-- The first fragment of a pseudonode of the system, with the greatest sequence number. -/
def spent : Lsp :=
  Lsp.make 0 .one 1200 ⟨SystemId.zero, 5, 0⟩ 0xFFFFFFFF .none .empty

/-- The attended level is not elected for the pseudonode.  A neighbor sends the fragment all
the same, and the purge of it is deleted in the end. -/
def haunted : LevelState :=
  (((attended.perform (.setElection 5 (outcome? false))).perform
    (.receiveLsp (some 1) spent)).perform (.advance 60000)).perform (.fire 2)

theorem haunted_run :
    ∃ restarted, ElectionRun 5 .one Config.default 0 restarted haunted ∧ restarted = true := by
  have hattended : ElectionRun 5 .one Config.default 0 _ attended :=
    .perform .start ⟨trivial, trivial, nofun⟩ fun _ => nofun
  have hrun : ElectionRun 5 .one Config.default 0 _ haunted :=
    .perform (.perform (.perform (hattended.elect (outcome? false)) ⟨trivial, trivial, nofun⟩
      fun _ => nofun) ⟨trivial, trivial, nofun⟩ fun _ => nofun) ⟨trivial, trivial, nofun⟩
      fun _ => nofun
  exact ⟨_, hrun, by decide +kernel⟩

theorem haunted_reachable : Reachable (Running fun _ => True) .one Config.default 0 haunted := by
  obtain ⟨restarted, hrun, -⟩ := haunted_run
  exact hrun.reachable

/-- The restart gives the pseudonode a generator. -/
theorem generators_follow_elections_haunted :
    Reachable (Running fun _ => True) .one Config.default 0 haunted ∧
      ∃ restarted, ElectionRun 5 .one Config.default 0 restarted haunted ∧ restarted = true ∧
        haunted.generators.contains 5 = true := by
  obtain ⟨restarted, hrun, hrestarted⟩ := haunted_run
  obtain ⟨-, hfollows⟩ := generators_follow_elections haunted_reachable 5
  obtain ⟨hgenerator, -⟩ := hfollows hrun
  exact ⟨haunted_reachable, restarted, hrun, hrestarted, hgenerator.2 (.inr hrestarted)⟩

/-- A generation can be scheduled for a pseudonode for which the system is not elected. -/
theorem generator_without_election :
    Reachable (Running fun _ => True) .one Config.default 0 haunted ∧
      ¬ haunted.Advertises 5 ∧ haunted.generators.contains 5 = true ∧
        ∃ timer ∈ haunted.timers.pending, timer.event = .generate 5 := by
  apply And.intro haunted_reachable
  rw [advertises_iff]
  decide +kernel

end LinkState.LevelState
