import LinkState.Proofs.OwnPurge

/-!
# The interval between generations

A generator knows when it last ran, and no run of it is scheduled before the minimum
interval has passed since then, whatever asks for the run.  As long as a pseudonode keeps
its generator, two generations of its LSPs are therefore never closer than the interval.
What the generator knows is lost with it: when an election is lost and won again, the new
generator runs after the configured delay, even if the old one has just run.
-/

namespace LinkState.LevelState

variable {s t u : LevelState} {pseudonode other : UInt8} {id : LspId} {times : List Nat}

/-! ### Pending runs -/

def lastRun? (s : LevelState) (pseudonode : UInt8) : Option Nat :=
  (s.generators.get? pseudonode).bind (·.lastRun)

/-- By the given time, the minimum interval has passed since the generator last ran. -/
def Rested (pseudonode : UInt8) (s : LevelState) (time : Nat) : Prop :=
  ∀ last, s.lastRun? pseudonode = some last →
    last + seconds s.config.generationInterval.toNat ≤ time

/-- The generator of a pseudonode does not run before the minimum interval has passed. -/
def Paced (pseudonode : UInt8) (s : LevelState) : Prop :=
  ∀ handle, s.kept? (.generate pseudonode) = some handle → s.Rested pseudonode handle.due

/-- Between two states, the generator of a pseudonode neither ran nor was removed, and a run
of it that came to be scheduled is not due before the minimum interval has passed. -/
structure Unhurried (pseudonode : UInt8) (s t : LevelState) : Prop where
  config : t.config = s.config
  lastRun : t.lastRun? pseudonode = s.lastRun? pseudonode
  scheduled : ∀ handle, t.kept? (.generate pseudonode) = some handle →
    s.kept? (.generate pseudonode) = some handle ∨ s.Rested pseudonode handle.due

theorem Paced.of_idle (h : s.kept? (.generate pseudonode) = none) : s.Paced pseudonode := by
  intro handle hkept
  rw [h] at hkept
  cases hkept

namespace Unhurried

theorem rested (h : Unhurried pseudonode s t) {time : Nat} :
    t.Rested pseudonode time ↔ s.Rested pseudonode time := by
  rw [Rested, Rested, h.lastRun, h.config]

theorem paced (h : Unhurried pseudonode s t) (hs : s.Paced pseudonode) : t.Paced pseudonode :=
  fun handle hkept => h.rested.2 ((h.scheduled handle hkept).elim (hs handle) id)

theorem trans (h : Unhurried pseudonode s t) (h' : Unhurried pseudonode t u) :
    Unhurried pseudonode s u where
  config := h'.config.trans h.config
  lastRun := h'.lastRun.trans h.lastRun
  scheduled := fun handle hkept =>
    (h'.scheduled handle hkept).elim (h.scheduled handle) fun hrested => .inr (h.rested.1 hrested)

theorem of_generators (hconfig : t.config = s.config)
    (hgenerator : t.generators.get? pseudonode = s.generators.get? pseudonode) :
    Unhurried pseudonode s t where
  config := hconfig
  lastRun := by rw [lastRun?, lastRun?, hgenerator]
  scheduled := by
    intro handle hkept
    rw [kept?, hgenerator] at hkept
    exact .inl hkept

theorem refl (pseudonode : UInt8) (s : LevelState) : Unhurried pseudonode s s :=
  of_generators rfl rfl

end Unhurried

theorem Stilled.unhurried (h : Stilled s t) : Unhurried pseudonode s t :=
  .of_generators (congrArg Surroundings.config h.surroundings) (by rw [h.generators])

theorem unhurried_follows : Follows Orderly (Unhurried pseudonode) :=
  stilled_follows.mono .trans Stilled.unhurried

/-! ### Scheduling and cancelling -/

theorem createGenerator_lastRun (s : LevelState) (pseudonode : UInt8) :
    (s.createGenerator pseudonode).1.lastRun = s.lastRun? pseudonode := by
  cases hstored : s.generators.get? pseudonode <;> simp [createGenerator, lastRun?, hstored]

/-- However soon a run is asked for, the minimum interval passes before. -/
theorem rested_generationSpan (s : LevelState) (pseudonode : UInt8) (span : Nat) :
    s.Rested pseudonode
      (s.now + s.generationSpan (s.createGenerator pseudonode).1 span) := by
  intro last hlast
  rw [generationSpan, createGenerator_lastRun, hlast]
  dsimp only
  omega

/-- No run is scheduled before the minimum interval has passed since the last one. -/
theorem scheduleGeneration_unhurried (s : LevelState) (other : UInt8) (span : Nat) :
    Unhurried pseudonode s (s.scheduleGeneration other span) := by
  cases hkept : s.kept? (.generate other) with
  | some handle =>
      rw [scheduleGeneration_pending span hkept]
      exact .refl pseudonode s
  | none =>
      obtain ⟨trace, heq⟩ := scheduleGeneration_idle span hkept
      rw [heq]
      by_cases hother : pseudonode = other
      · subst hother
        constructor
        · rfl
        · rw [lastRun?, Table.get?_insert_self]
          exact s.createGenerator_lastRun pseudonode
        · intro handle hnew
          rw [kept?, Table.get?_insert_self] at hnew
          obtain rfl := Option.some.inj hnew
          exact .inr (s.rested_generationSpan pseudonode span)
      · exact .of_generators rfl (Table.get?_insert_of_ne _ _ hother)

theorem cancelGeneration_unhurried (s : LevelState) (other : UInt8) :
    Unhurried pseudonode s (s.cancelGeneration other) := by
  cases hstored : s.generators.get? other with
  | none =>
      simp only [cancelGeneration, hstored]
      exact .refl pseudonode s
  | some generator =>
      simp only [cancelGeneration, hstored, cancel_eq]
      by_cases hother : pseudonode = other
      · subst hother
        constructor
        · rfl
        · rw [lastRun?, lastRun?, Table.get?_insert_self, hstored]
          rfl
        · intro handle hkept
          rw [kept?, Table.get?_insert_self] at hkept
          cases hkept
      · exact .of_generators rfl (Table.get?_insert_of_ne _ _ hother)

theorem purgeOwn_unhurried (h : s.Orderly) : Unhurried pseudonode s s.purgeOwn :=
  unhurried_follows.purgeOwn Stilled.unhurried cancelGeneration_unhurried h

theorem delete_unhurried {entry : Entry} (hstored : s.database.get? id = some entry) :
    Unhurried pseudonode s (s.delete id) := by
  obtain ⟨trace, heq⟩ := remove_eq hstored
  have hremoved : Unhurried pseudonode s
      ((s.remove id).tell (.lspChanged .deleted s.level entry.lsp.mention)) := by
    rw [heq]
    exact .of_generators rfl rfl
  simp only [delete, hstored]
  split
  · exact hremoved.trans (scheduleGeneration_unhurried _ _ 0)
  · exact hremoved

/-! ### Elections -/

/-- With its generator, a pseudonode loses its LSPs. -/
theorem removeGenerator_stilled (h : s.Consistent) (pseudonode : UInt8) :
    Stilled
      { s with
        timers := s.timers.release (s.kept? (.generate pseudonode))
        generators := s.generators.erase pseudonode }
      (s.removeGenerator pseudonode) := by
  cases hstored : s.generators.get? pseudonode with
  | none =>
      simp only [removeGenerator, hstored]
      exact .of_database rfl (Table.erase_of_get?_eq_none hstored).symm rfl
  | some generator =>
      have hkept : s.kept? (.generate pseudonode) = generator.timer := by simp [kept?, hstored]
      have hdropped := (h.dropGenerator pseudonode).tell (.generatorRemoved s.level pseudonode)
      rw [hkept] at hdropped ⊢
      simp only [removeGenerator, hstored, cancel_eq]
      exact (Stilled.tell _ _).trans (purgeRange_stilled hdropped _ _ (.refl _))

/-- The generators of other pseudonodes stay. -/
theorem removeGenerator_unhurried (h : s.Consistent) (hother : pseudonode ≠ other) :
    Unhurried pseudonode s (s.removeGenerator other) :=
  have hstilled := removeGenerator_stilled h other
  .of_generators (congrArg Surroundings.config hstilled.surroundings)
    (by rw [hstilled.generators, Table.get?_erase_of_ne _ hother])

theorem removeGenerator_paced (h : s.Consistent) (pseudonode : UInt8) :
    (s.removeGenerator pseudonode).Paced pseudonode := by
  refine .of_idle ?_
  rw [kept?, (removeGenerator_stilled h pseudonode).generators, Table.get?_erase_self]
  rfl

def isElected (election : Option Election) : Bool :=
  election.any (·.elected)

theorem recordElection_won {election : Option Election} (helected : isElected election = true)
    (s : LevelState) (other : UInt8) :
    Unhurried pseudonode s (s.recordElection other election) := by
  cases election with
  | none => cases helected
  | some election =>
      have hrecorded : Unhurried pseudonode s
          { s with elections := s.elections.insert other election } := .of_generators rfl rfl
      have hstarted : s.recordElection other (some election) =
          { s with elections := s.elections.insert other election }.startGenerator other :=
        if_pos helected
      rw [hstarted]
      exact hrecorded.trans (scheduleGeneration_unhurried _ other _)

/-- When an election is lost the generator is removed, and before that nothing is hurried. -/
theorem recordElection_lost (h : s.Consistent) {election : Option Election}
    (hlost : isElected election = false) (other : UInt8) :
    ∃ t, t.Consistent ∧ (∀ pseudonode, Unhurried pseudonode s t) ∧
      s.recordElection other election = t.removeGenerator other := by
  have hunhurried : ∀ elections pseudonode,
      Unhurried pseudonode s { s with elections := elections } :=
    fun _ _ => .of_generators rfl rfl
  have hconsistent : ∀ elections, { s with elections := elections }.Consistent :=
    fun _ => h.congr rfl rfl rfl rfl
  cases election with
  | none => exact ⟨_, hconsistent _, hunhurried _, rfl⟩
  | some election =>
      have hnot : ¬ election.elected = true :=
        fun hwon => Bool.false_ne_true (hlost.symm.trans hwon)
      exact ⟨_, hconsistent _, hunhurried _, if_neg hnot⟩

/-- An operation by which a pseudonode loses its generator: the system is not elected any
more, or the level is stopped. -/
def Operation.Removes (pseudonode : UInt8) : Operation → Prop
  | .setElection other election =>
      other = pseudonode ∧ other ≠ 0 ∧ isElected election = false
  | .stop => True
  | _ => False

theorem setElection_unhurried (h : s.Orderly) {election : Option Election}
    (hkeeps : ¬ (Operation.setElection other election).Removes pseudonode) :
    Unhurried pseudonode s (s.setElection other election) := by
  refine (Stilled.tell s (.electionChanged other election)).unhurried.trans ?_
  have horderly : (s.tell (.electionChanged other election)).Orderly := h.steps (tell_steps s rfl)
  rw [setElection]
  generalize s.tell (.electionChanged other election) = s at horderly
  by_cases hnumbered : other = 0
  · rw [if_pos hnumbered]
    exact .refl pseudonode s
  · rw [if_neg hnumbered]
    have hrecorded := horderly.steps (recordElection_steps horderly.sound other election)
    -- What was deferred is received once more, by which no run is scheduled.
    refine Unhurried.trans ?_ (unhurried_follows.resumeAll hrecorded other)
    cases helected : isElected election with
    | true => exact recordElection_won helected s other
    | false =>
        obtain ⟨t, hconsistent, hunhurried, heq⟩ :=
          recordElection_lost horderly.sound.consistent helected other
        rw [heq]
        refine (hunhurried pseudonode).trans (removeGenerator_unhurried hconsistent ?_)
        rintro rfl
        exact hkeeps ⟨rfl, hnumbered, helected⟩

/-- With the generator, its pending run is gone. -/
theorem setElection_paced (h : s.Orderly) {election : Option Election}
    (hnumbered : pseudonode ≠ 0) (hlost : isElected election = false) :
    (s.setElection pseudonode election).Paced pseudonode := by
  have horderly : (s.tell (.electionChanged pseudonode election)).Orderly :=
    h.steps (tell_steps s rfl)
  rw [setElection]
  generalize s.tell (.electionChanged pseudonode election) = s at horderly
  rw [if_neg hnumbered]
  have hrecorded := horderly.steps (recordElection_steps horderly.sound pseudonode election)
  refine (unhurried_follows.resumeAll hrecorded pseudonode).paced ?_
  obtain ⟨t, hconsistent, -, heq⟩ :=
    recordElection_lost horderly.sound.consistent hlost pseudonode
  rw [heq]
  exact removeGenerator_paced hconsistent pseudonode

/-! ### Timers -/

/-- Whether the timer that is processed next makes the generator of a pseudonode run. -/
def generatesNext (s : LevelState) (pseudonode : UInt8) : Bool :=
  match s.timers.pop? s.now with
  | some (timer, _) =>
      timer.event = .generate pseudonode && isTimer (s.kept? (.generate pseudonode)) timer.number
  | none => false

theorem generate_unhurried (h : Sound heard s) (hother : pseudonode ≠ other) :
    Unhurried pseudonode s (s.generate other) := by
  obtain ⟨t, hspares, hgenerators, heq⟩ := generate_eq h other
  rw [heq]
  refine .of_generators hspares.config ?_
  rw [Table.get?_modify_eq_map, hgenerators]
  simp [hother]

/-- A timer that does not make the generator run does not hurry it either. -/
theorem fireNext_unhurried (h : s.Orderly) (hfire : s.fireNext? = some t)
    (hother : s.generatesNext pseudonode = false) : Unhurried pseudonode s t := by
  have hconsistent := h.sound.consistent
  obtain ⟨⟨timer, rest⟩, hpop, hfired⟩ := Option.map_eq_some_iff.1 hfire
  obtain ⟨hmem, hdue, rfl⟩ := TimerQueue.pop?_eq_some hconsistent.timers.nodup hpop
  have hkept := hconsistent.timers.kept_of_mem hmem
  obtain ⟨number, due, event⟩ := timer
  subst hfired
  dsimp only at hkept hdue ⊢
  cases event with
  | expire id =>
      obtain ⟨entry, hstored, -, hlive, -⟩ := entry_of_lifeTimer hconsistent hkept
      rw [fire_expire hconsistent hkept]
      exact (expire_stilled hconsistent hstored hlive).unhurried
  | delete id =>
      obtain ⟨entry, hstored, -⟩ := Option.bind_eq_some_iff.1 hkept
      rw [fire_delete hconsistent hkept]
      exact delete_unhurried hstored
  | refresh id =>
      obtain ⟨entry, hstored, -, hlive, -, heq⟩ := fire_refresh hconsistent hkept
      rw [heq]
      refine ((Stilled.tell s _).trans (originate_stilled fun _ => ?_)).unhurried
      rw [← hconsistent.keys hstored] at hstored
      exact published_ne_none hstored hlive
  | generate other =>
      have hne : pseudonode ≠ other := by
        rintro rfl
        simp [generatesNext, hpop, hkept, isTimer] at hother
      have hbegin : Step (fun _ => True) s (s.disarmed (.generate other)) :=
        .beginGeneration hkept hdue
      have hdisarmed : Unhurried pseudonode s (s.disarmed (.generate other)) := by
        refine .of_generators rfl ?_
        simp only [disarmed, Table.get?_modify, Key.rank_inj, hne, if_false]
      rw [fire_generate hkept]
      exact hdisarmed.trans (generate_unhurried (h.sound.step hbegin) hne)

theorem fireNext_generate (h : s.Consistent) (hfire : s.fireNext? = some t)
    (hnext : s.generatesNext pseudonode = true) :
    ∃ handle, s.kept? (.generate pseudonode) = some handle ∧ handle.due ≤ s.now ∧
      t = (s.disarmed (.generate pseudonode)).generate pseudonode := by
  obtain ⟨⟨timer, rest⟩, hpop, hfired⟩ := Option.map_eq_some_iff.1 hfire
  obtain ⟨hmem, hdue, rfl⟩ := TimerQueue.pop?_eq_some h.timers.nodup hpop
  have hkept := h.timers.kept_of_mem hmem
  obtain ⟨number, due, event⟩ := timer
  simp only [generatesNext, hpop, Bool.and_eq_true, decide_eq_true_eq] at hnext
  obtain ⟨rfl, -⟩ := hnext
  subst hfired
  exact ⟨⟨number, due⟩, hkept, hdue, fire_generate hkept⟩

/-- A generator that runs has rested, and now knows when it ran. -/
theorem fireNext_generates (h : s.Orderly) (hpaced : s.Paced pseudonode)
    (hfire : s.fireNext? = some t) (hnext : s.generatesNext pseudonode = true) :
    s.Rested pseudonode s.now ∧ t.config = s.config ∧ t.lastRun? pseudonode = some s.now ∧
      t.Paced pseudonode := by
  obtain ⟨handle, hkept, hdue, rfl⟩ := fireNext_generate h.sound.consistent hfire hnext
  have hbegin : Step (fun _ => True) s (s.disarmed (.generate pseudonode)) :=
    .beginGeneration hkept hdue
  obtain ⟨u, hspares, hgenerators, heq⟩ := generate_eq (h.sound.step hbegin) pseudonode
  obtain ⟨generator, hstored, -⟩ := generator_of_kept? hkept
  have hran : (u.generators.modify pseudonode fun generator =>
      { generator with lastRun := some u.now }).get? pseudonode = some ⟨none, some s.now⟩ := by
    rw [Table.get?_modify_eq_map, hgenerators, hspares.now]
    simp only [disarmed, Table.get?_modify_eq_map, hstored, if_true, Option.map_some]
  rw [heq]
  refine ⟨fun last hlast => ?_, hspares.config, ?_, .of_idle ?_⟩
  · exact Nat.le_trans (hpaced handle hkept last hlast) hdue
  · rw [lastRun?, hran]
    rfl
  · rw [kept?, hran]
    rfl

/-- The times at which the LSPs of a pseudonode are generated while timers that are due are
processed, at most as many as given. -/
def generationsUpTo (pseudonode : UInt8) : Nat → LevelState → List Nat
  | 0, _ => []
  | fuel + 1, s =>
      match s.fireNext? with
      | none => []
      | some t =>
          (if s.generatesNext pseudonode then [s.now] else []) ++
            generationsUpTo pseudonode fuel t

/-- The LSPs of a pseudonode were generated at the given times, the earliest first, and the
generator knows of the last one. -/
structure Spaced (pseudonode : UInt8) (times : List Nat) (s : LevelState) : Prop where
  paced : s.Paced pseudonode
  apart : times.Pairwise fun earlier later =>
    earlier + seconds s.config.generationInterval.toNat ≤ later
  known : ∀ time ∈ times, ∃ last, s.lastRun? pseudonode = some last ∧ time ≤ last

namespace Spaced

theorem unhurried (h : Spaced pseudonode times s) (hst : Unhurried pseudonode s t) :
    Spaced pseudonode times t where
  paced := hst.paced h.paced
  apart := hst.config ▸ h.apart
  known := hst.lastRun ▸ h.known

/-- The generator runs once more. -/
theorem fireNext (h : Spaced pseudonode times s) (horderly : s.Orderly)
    (hfire : s.fireNext? = some t) (hnext : s.generatesNext pseudonode = true) :
    Spaced pseudonode (times ++ [s.now]) t := by
  obtain ⟨hrested, hconfig, hran, hpaced⟩ := fireNext_generates horderly h.paced hfire hnext
  -- The generator knows of the last time only, but the others are no later.
  have hpast : ∀ time ∈ times, time + seconds s.config.generationInterval.toNat ≤ s.now := by
    intro time htime
    obtain ⟨last, hlast, hle⟩ := h.known time htime
    exact Nat.le_trans (Nat.add_le_add_right hle _) (hrested last hlast)
  refine ⟨hpaced, ?_, fun time htime => ⟨s.now, hran, ?_⟩⟩
  · rw [hconfig]
    refine List.pairwise_append.2 ⟨h.apart, List.pairwise_singleton _ _, ?_⟩
    intro time htime now hnow
    rw [List.mem_singleton.1 hnow]
    exact hpast time htime
  · rcases List.mem_append.1 htime with htime | htime
    · exact Nat.le_trans (Nat.le_add_right _ _) (hpast time htime)
    · exact Nat.le_of_eq (List.mem_singleton.1 htime)

/-- However many timers are processed, the generations stay apart. -/
theorem fireUpTo (h : Spaced pseudonode times s) (horderly : s.Orderly) (fuel : Nat) :
    Spaced pseudonode (times ++ generationsUpTo pseudonode fuel s)
      (LevelState.fireUpTo fuel s).2 := by
  induction fuel generalizing s times with
  | zero => simpa [generationsUpTo, LevelState.fireUpTo] using h
  | succ fuel ih =>
      rw [generationsUpTo, LevelState.fireUpTo]
      cases hfire : s.fireNext? with
      | none => simpa using h
      | some t =>
          have hnext := horderly.steps (fireNext_steps horderly.sound hfire)
          dsimp only
          cases hgenerates : s.generatesNext pseudonode with
          | false => exact ih (h.unhurried (fireNext_unhurried horderly hfire hgenerates)) hnext
          | true =>
              rw [if_pos rfl, ← List.append_assoc]
              exact ih (h.fireNext horderly hfire hgenerates) hnext

end Spaced

/-! ### Runs -/

theorem originate_unhurried (s : LevelState) (lsp : Lsp) :
    Unhurried pseudonode s (s.originate lsp) :=
  .of_generators (Spares.originate s lsp).config (by rw [s.originate_generators lsp])

/-- Only timers make a generator run. -/
theorem perform_unhurried (h : s.Orderly) {operation : Operation} (hproper : s.Proper operation)
    (hkeeps : ¬ operation.Removes pseudonode) (hfire : ∀ most, operation ≠ .fire most) :
    Unhurried pseudonode s (s.perform operation) := by
  cases operation with
  | receiveLsp circuit lsp =>
      exact unhurried_follows.receiveAnyLsp h s.originate_unhurried circuit lsp
  | receiveLspOctets circuit octets =>
      exact unhurried_follows.receiveAnyLspOctets h s.originate_unhurried circuit octets
  | receiveSnp circuit snp => exact unhurried_follows.receiveSnp h circuit snp
  | receiveSnpOctets circuit octets => exact unhurried_follows.receiveSnpOctets h circuit octets
  | addCircuit circuit =>
      refine Unhurried.trans ?_ (unhurried_follows.addCircuit s circuit)
      exact .of_generators rfl rfl
  | removeCircuit circuit => exact .of_generators rfl rfl
  | setElection other election => exact setElection_unhurried h hkeeps
  | setAdvertisement advertised =>
      show Unhurried pseudonode s (s.setAdvertisement advertised)
      rw [setAdvertisement]
      split
      · exact .refl pseudonode s
      · have hset : Unhurried pseudonode s { s with advertised := advertised } :=
          .of_generators rfl rfl
        exact hset.trans (scheduleGeneration_unhurried _ 0 0)
  | purgeOwn => exact purgeOwn_unhurried h
  | purgeLsp id => exact (purgeLsp_stilled h.sound.consistent hproper).unhurried
  | fire most => exact absurd rfl (hfire most)
  | page index =>
      obtain ⟨pages, trace, heq⟩ := s.page_state_eq index
      show Unhurried pseudonode s (s.page index).2
      rw [heq]
      exact .of_generators rfl rfl
  | advance span => exact .of_generators rfl rfl
  | stop => exact absurd trivial hkeeps

def generationsIn (pseudonode : UInt8) (s : LevelState) : Operation → List Nat
  | .fire most => generationsUpTo pseudonode most s
  | _ => []

theorem Spaced.perform (h : Spaced pseudonode times s) (horderly : s.Orderly)
    {operation : Operation} (hproper : s.Proper operation)
    (hkeeps : ¬ operation.Removes pseudonode) :
    Spaced pseudonode (times ++ s.generationsIn pseudonode operation) (s.perform operation) := by
  by_cases hfire : ∃ most, operation = .fire most
  · obtain ⟨most, rfl⟩ := hfire
    exact h.fireUpTo horderly most
  · have hnone : s.generationsIn pseudonode operation = [] := by
      cases operation with
      | fire most => exact absurd ⟨most, rfl⟩ hfire
      | _ => rfl
    rw [hnone, List.append_nil]
    exact h.unhurried (perform_unhurried horderly hproper hkeeps fun most heq => hfire ⟨most, heq⟩)

/-- A run from one state to another, with the times at which the LSPs of a pseudonode are
generated meanwhile, the earliest first. -/
inductive GenerationRun (allowed : LevelState → Operation → Prop) (pseudonode : UInt8)
    (s : LevelState) : List Nat → LevelState → Prop
  | refl : GenerationRun allowed pseudonode s [] s
  | perform {times : List Nat} {t : LevelState} {operation : Operation}
      (h : GenerationRun allowed pseudonode s times t) (hallowed : allowed t operation) :
      GenerationRun allowed pseudonode s (times ++ t.generationsIn pseudonode operation)
        (t.perform operation)

/-- What may be asked of a level by which a pseudonode keeps its generator. -/
structure Retains (pseudonode : UInt8) (s : LevelState) (operation : Operation) : Prop where
  proper : s.Proper operation
  keeps : ¬ operation.Removes pseudonode

theorem Retains.running {operation : Operation} (h : s.Retains pseudonode operation) :
    s.Running (fun _ => True) operation := by
  refine (Proper.running h.proper).resolve_right ?_
  rintro rfl
  exact h.keeps trivial

theorem GenerationRun.spaced (hrun : GenerationRun (Retains pseudonode) pseudonode s times t)
    (h : s.Orderly) (hpaced : s.Paced pseudonode) :
    t.Orderly ∧ t.config = s.config ∧ Spaced pseudonode times t := by
  induction hrun with
  | refl => exact ⟨h, rfl, hpaced, .nil, nofun⟩
  | @perform times t operation _ hallowed ih =>
      obtain ⟨horderly, hconfig, hspaced⟩ := ih
      have hsteps : Steps (fun _ => True) t (t.perform operation) :=
        perform_steps horderly.sound (fun _ _ => trivial) hallowed.running
      exact ⟨horderly.steps hsteps, hsteps.constant.2.1.trans hconfig,
        hspaced.perform horderly hallowed.proper hallowed.keeps⟩

variable {level : Level} {config : Config} {now : Nat}

/-- In every reachable state, the generators wait until the minimum interval has passed. -/
theorem Reachable.paced (h : Reachable Proper level config now s) (pseudonode : UInt8) :
    s.Paced pseudonode := by
  induction h with
  | start =>
      refine (scheduleGeneration_unhurried (blank level config now) 0 _).paced (.of_idle rfl)
  | @perform s operation hbefore hproper ih =>
      have horderly : s.Orderly := ⟨hbefore.sound, hbefore.guarded⟩
      by_cases hremoves : operation.Removes pseudonode
      · -- What the generator knew is gone, but so is its pending run.
        cases operation with
        | setElection other election =>
            obtain ⟨rfl, hnumbered, hlost⟩ := hremoves
            exact setElection_paced horderly hnumbered hlost
        | stop => exact .of_idle rfl
        | _ => cases hremoves
      · have hspaced : Spaced pseudonode [] s := ⟨ih, .nil, nofun⟩
        exact (hspaced.perform horderly hproper hremoves).paced

/-- From any reachable state on, as long as a pseudonode keeps its generator, two generations
of its LSPs are at least the minimum interval apart, whatever else happens. -/
theorem generations_spaced (h : Reachable Proper level config now s)
    (hrun : GenerationRun (Retains pseudonode) pseudonode s times t) :
    times.Pairwise fun earlier later =>
      earlier + seconds config.generationInterval.toNat ≤ later := by
  obtain ⟨-, hconfig, hspaced⟩ := hrun.spaced ⟨h.sound, h.guarded⟩ (h.paced pseudonode)
  have happart := hspaced.apart
  rwa [hconfig, h.constant.2.1] at happart

def outcome? (elected : Bool) : Option Election :=
  some ⟨1, elected, .empty⟩

/-- The attended level is elected for a pseudonode and generates its LSPs. -/
def elected : LevelState :=
  ((attended.perform (.setElection 5 (outcome? true))).perform (.advance 1000)).perform (.fire 1)

/-- It purges all own LSPs, is told once more that it is elected, and generates them again. -/
def republished : LevelState :=
  (((elected.perform .purgeOwn).perform (.setElection 5 (outcome? true))).perform
    (.advance 5000)).perform (.fire 2)

theorem republished_run :
    ∃ times, GenerationRun (Retains 5) 5 attended times republished ∧ times = [1000, 6000] := by
  have hretains : ∀ s, Retains 5 s (.setElection 5 (outcome? true)) :=
    fun _ => ⟨trivial, fun hremoves => absurd hremoves.2.2 (by decide)⟩
  refine ⟨_, .perform (.perform (.perform (.perform (.perform (.perform (.perform .refl
    (hretains _)) ⟨trivial, nofun⟩) ⟨trivial, nofun⟩) ⟨trivial, nofun⟩) (hretains _))
    ⟨trivial, nofun⟩) ⟨trivial, nofun⟩, ?_⟩
  decide +kernel

/-- The second generation was asked for after one second, and took place after five. -/
theorem generations_spaced_republished :
    ∃ times, GenerationRun (Retains 5) 5 attended times republished ∧ times = [1000, 6000] ∧
      times.Pairwise fun earlier later =>
        earlier + seconds Config.default.generationInterval.toNat ≤ later := by
  obtain ⟨times, hrun, htimes⟩ := republished_run
  exact ⟨times, hrun, htimes, generations_spaced attended_reachable hrun⟩

/-- The level loses the election and wins it again. -/
def reelected : LevelState :=
  (((elected.perform (.setElection 5 (outcome? false))).perform
    (.setElection 5 (outcome? true))).perform (.advance 1000)).perform (.fire 2)

theorem reelected_run :
    ∃ times, GenerationRun Proper 5 attended times reelected ∧ times = [1000, 2000] := by
  refine ⟨_, .perform (.perform (.perform (.perform (.perform (.perform (.perform .refl
    trivial) trivial) trivial) trivial) trivial) trivial) trivial, ?_⟩
  decide +kernel

/-- Once the generator was lost, two generations can be closer than the minimum interval. -/
theorem generations_close_when_reelected :
    Reachable Proper .one Config.default 0 attended ∧
      ∃ times, GenerationRun Proper 5 attended times reelected ∧ times = [1000, 2000] ∧
        ¬ times.Pairwise fun earlier later =>
          earlier + seconds Config.default.generationInterval.toNat ≤ later := by
  obtain ⟨times, hrun, rfl⟩ := reelected_run
  exact ⟨attended_reachable, _, hrun, rfl, by decide⟩

end LinkState.LevelState
