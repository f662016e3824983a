import LinkState.Proofs.Effects
import Mathlib.Logic.Relation

/-!
# What a level can do in one step

Whatever is asked of a level is done as a sequence of the steps listed here,
each with the conditions under which it is taken.  A property that every step
keeps is thereby one of all states that a level reaches.  What is heard from the
network can be any LSP of a given kind, about which the steps say nothing else.
-/

namespace LinkState

/-- Whether an event tells of a change of the database: an LSP was installed or deleted. -/
def Event.changesDatabase : Event → Bool
  | .lspChanged .installed _ _ | .lspChanged .deleted _ _ => true
  | _ => false

namespace LevelState

/-- The state once the timer for an event no longer runs and nobody waits for
it any more. -/
def disarmed (s : LevelState) (event : TimerEvent) : LevelState :=
  let s := { s with timers := s.timers.release (s.kept? event) }
  match event with
  | .expire id =>
      { s with database := s.database.modify id fun entry => { entry with lifeTimer := none } }
  | .delete id =>
      { s with database := s.database.modify id fun entry => { entry with zeroAgeTimer := none } }
  | .refresh id =>
      { s with database := s.database.modify id fun entry => { entry with refreshTimer := none } }
  | .generate pseudonode =>
      { s with
        generators := s.generators.modify pseudonode fun generator =>
          { generator with timer := none } }

/-- An LSP that was heard on a circuit and passed validation, and to which this
system gives no answer of its own. -/
structure Admitted (heard : Lsp → Prop) (s : LevelState) (circuit : CircuitId) (lsp : Lsp) :
    Prop where
  registered : s.circuits.contains circuit = true
  heard : heard lsp
  level : lsp.level = s.level
  intact : lsp.checksumValid = true
  purge : lsp.isExpired = true → lsp.tlvs.allowedInPurge = true
  unanswered : s.isOwn lsp.id = true → s.answerOwn? circuit lsp = none

def recency (s : LevelState) (lsp : Lsp) : Recency :=
  Recency.ofLsp ((s.database.get? lsp.id).map (·.lsp)) lsp

/-- One step of a level. -/
inductive Step (heard : Lsp → Prop) (s : LevelState) : LevelState → Prop
  | count (counters : Counters) : Step heard s { s with counters := counters }
  | tell (event : Event) (silent : event.changesDatabase = false) : Step heard s (s.tell event)
  | advance (span : Nat) : Step heard s (s.advance span)
  | accept {circuit : CircuitId} {lsp : Lsp} (admitted : s.Admitted heard circuit lsp)
      (newer : s.recency lsp = .newer)
      (known : lsp.isExpired = true → (s.known? lsp.id).isSome = true) :
      Step heard s (s.accept circuit lsp)
  | recordPurge {circuit : CircuitId} {lsp : Lsp} (admitted : s.Admitted heard circuit lsp)
      (expired : lsp.isExpired = true) (unknown : s.known? lsp.id = none) :
      Step heard s (s.recordPurge circuit lsp)
  | acknowledge {circuit : CircuitId} {lsp : Lsp} (fromNetwork : heard lsp)
      (same : s.recency lsp = .same) : Step heard s (s.acknowledge circuit lsp)
  | request {circuit : CircuitId} {summary : LspSummary}
      (unknown : s.database.get? summary.id = none) :
      Step heard s (s.requestUnknown circuit summary)
  | purge {id : LspId} {entry : Entry} (reason : PurgeReason)
      (stored : s.database.get? id = some entry) (live : entry.isPurged = false)
      (zeroAge : entry.zeroAgeTimer = none) : Step heard s (s.purge id reason)
  | forcePurge {lsp : Lsp} (reason : PurgeReason) (own : s.isOwn lsp.id = true) :
      Step heard s (s.forcePurge lsp reason)
  | originate {lsp : Lsp} {seqno : UInt32} (own : s.isOwn lsp.id = true)
      (next : nextSeqno? (max lsp.seqno (s.storedSeqno lsp.id)) = some seqno) :
      Step heard s (s.originate lsp)
  | remove {id : LspId} {entry : Entry} (stored : s.database.get? id = some entry)
      (ended : entry.isPlaceholder = true ∨ entry.isPurged = true) :
      Step heard s ((s.remove id).tell (.lspChanged .deleted s.level entry.lsp.mention))
  | mark (flag : Flag) {entry : Entry} (circuit : CircuitId)
      (stored : s.database.get? entry.lsp.id = some entry) :
      Step heard s (s.setFlag flag (s.summaryOf entry.lsp) circuit)
  | unmark (flag : Flag) (id : LspId) (circuit : CircuitId) :
      Step heard s (s.clearFlag flag id circuit)
  | unmarkAll (flag : Flag) (id : LspId) (except : Option CircuitId) :
      Step heard s (s.clearFlags flag id except)
  | scheduleGeneration (pseudonode : UInt8) (span : Nat) :
      Step heard s (s.scheduleGeneration pseudonode span)
  | beginGeneration {pseudonode : UInt8} {handle : Handle}
      (kept : s.kept? (.generate pseudonode) = some handle) (due : handle.due ≤ s.now) :
      Step heard s (s.disarmed (.generate pseudonode))
  | endGeneration (pseudonode : UInt8) :
      Step heard s
        { s with
          generators := s.generators.modify pseudonode fun generator =>
            { generator with lastRun := some s.now } }
  | cancelGeneration (pseudonode : UInt8) : Step heard s (s.cancelGeneration pseudonode)
  | dropGenerator (pseudonode : UInt8) :
      Step heard s
        { s with
          timers := s.timers.release (s.kept? (.generate pseudonode))
          generators := s.generators.erase pseudonode }
  | addCircuit (circuit : Circuit) :
      Step heard s
        { s with
          flooding := s.flooding.addCircuit circuit.id
          circuits := s.circuits.insert circuit.id circuit }
  | removeCircuit (circuit : CircuitId) : Step heard s (s.removeCircuit circuit)
  | defer {circuit : CircuitId} {lsp : Lsp} (registered : s.circuits.contains circuit = true)
      (fromNetwork : heard lsp) (own : s.isOwn lsp.id = true)
      (undecided : s.supports? lsp.id.pseudonode = none) : Step heard s (s.defer circuit lsp)
  | takeDeferred (pseudonode : UInt8) :
      Step heard s { s with deferred := s.deferred.erase pseudonode }
  | elect (elections : Table UInt8 Election) : Step heard s { s with elections := elections }
  | advertise (advertised : Advertisement) : Step heard s { s with advertised := advertised }
  | buildPage (incomplete : Page.complete s.pages = false) : Step heard s s.buildPage

/-! ### What a step changes -/

/-- Every LSP that `t` has deferred is an own one that was heard, or `s` has deferred
it too. -/
def DeferredFrom (heard : Lsp → Prop) (s t : LevelState) : Prop :=
  ∀ {pseudonode : UInt8} {waiting : Table LspId DeferredLsp} {id : LspId} {deferred : DeferredLsp},
    t.deferred.get? pseudonode = some waiting → waiting.get? id = some deferred →
      heard deferred.lsp ∧ s.isOwn deferred.lsp.id = true ∨
        ∃ waiting', s.deferred.get? pseudonode = some waiting' ∧ waiting'.get? id = some deferred

/-- What a step does to the database and to the pages that describe it: it
installs one LSP, removes one entry, builds a page, or leaves both alone. -/
inductive Effect (heard : Lsp → Prop) (s t : LevelState) : Prop
  | installs {lsp : Lsp} {received : Bool} {flooding : Flooding}
      (h : Installs s lsp received flooding t)
  | removes {id : LspId} {entry : Entry} (stored : s.database.get? id = some entry)
      (h : t = (s.remove id).tell (.lspChanged .deleted s.level entry.lsp.mention))
  | buildsPage (incomplete : Page.complete s.pages = false) (h : t = s.buildPage)
  | rearranges (level : t.level = s.level) (config : t.config = s.config)
      (database : t.database = s.database) (pages : t.pages = s.pages)
      (fault : t.fault = s.fault) (deferred : DeferredFrom heard s t)

theorem deferredFrom_of_eq {heard : Lsp → Prop} {s t : LevelState}
    (h : t.deferred = s.deferred) : DeferredFrom heard s t :=
  fun hwaiting hid => .inr ⟨_, h ▸ hwaiting, hid⟩

theorem deferredFrom_defer {heard : Lsp → Prop} {s : LevelState} {circuit : CircuitId} {lsp : Lsp}
    (h : heard lsp) (hown : s.isOwn lsp.id = true) :
    DeferredFrom heard s (s.defer circuit lsp) := by
  intro pseudonode waiting id deferred hwaiting hid
  unfold defer at hwaiting
  dsimp only at hwaiting
  split at hwaiting
  · by_cases hk : pseudonode = lsp.id.pseudonode
    · subst hk
      rw [Table.get?_insert_self] at hwaiting
      obtain rfl := Option.some.inj hwaiting
      by_cases hid' : id = lsp.id
      · subst hid'
        rw [Table.get?_insert_self] at hid
        obtain rfl := Option.some.inj hid
        exact .inl ⟨h, hown⟩
      · rw [Table.get?_insert_of_ne _ _ hid'] at hid
        right
        cases hs : s.deferred.get? lsp.id.pseudonode with
        | none => simp [tell, hs] at hid
        | some waiting' => exact ⟨waiting', rfl, by simpa [tell, hs] using hid⟩
    · rw [Table.get?_insert_of_ne _ _ hk] at hwaiting
      exact .inr ⟨waiting, hwaiting, hid⟩
  · exact .inr ⟨waiting, hwaiting, hid⟩

theorem deferredFrom_erase {heard : Lsp → Prop} {s : LevelState} (pseudonode : UInt8) :
    DeferredFrom heard s { s with deferred := s.deferred.erase pseudonode } := by
  intro k waiting id deferred hwaiting hid
  dsimp only at hwaiting
  rw [Table.get?_erase] at hwaiting
  split at hwaiting
  · cases hwaiting
  · exact .inr ⟨waiting, hwaiting, hid⟩

theorem deferredFrom_removeCircuit {heard : Lsp → Prop} {s : LevelState} (circuit : CircuitId) :
    DeferredFrom heard s (s.removeCircuit circuit) := by
  intro k waiting id deferred hwaiting hid
  have hmap : (s.deferred.get? k).map (fun waiting => waiting.filter fun _ lsp =>
      lsp.circuit ≠ circuit) = some waiting := by
    rw [← hwaiting]
    show _ = Table.get? (s.deferred.map fun _ waiting =>
      waiting.filter fun _ lsp => lsp.circuit ≠ circuit) k
    rw [Table.get?_map]
  obtain ⟨waiting', hstored, rfl⟩ := Option.map_eq_some_iff.1 hmap
  rw [Table.get?_filter] at hid
  exact .inr ⟨waiting', hstored, (Option.filter_eq_some_iff.1 hid).1⟩

/-- Each kind of step has one of four effects on the database and its pages. -/
theorem Step.effect {heard : Lsp → Prop} {s t : LevelState} (h : Step heard s t) :
    Effect heard s t := by
  have hsame : ∀ {t : LevelState}, t.level = s.level → t.config = s.config →
      t.database = s.database → t.pages = s.pages → t.fault = s.fault →
        t.deferred = s.deferred → Effect heard s t :=
    fun hlevel hconfig hdatabase hpages hfault hdeferred =>
      .rearranges hlevel hconfig hdatabase hpages hfault (deferredFrom_of_eq hdeferred)
  cases h with
  | accept => exact .installs (s.accept_installs _ _)
  | recordPurge => exact .installs (s.recordPurge_installs _ _)
  | acknowledge =>
      rw [acknowledge_eq]
      exact hsame rfl rfl rfl rfl rfl rfl
  | @request circuit summary =>
      by_cases hasked : summary.lifetime ≠ 0 ∧ summary.checksum ≠ 0 ∧ summary.seqno ≠ 0
      · exact .installs (s.requestUnknown_installs _ hasked)
      · rw [requestUnknown, if_neg hasked]
        exact hsame rfl rfl rfl rfl rfl rfl
  | purge reason stored live zeroAge => exact .installs (purge_installs reason stored live zeroAge)
  | forcePurge reason => exact .installs (s.forcePurge_installs _ reason)
  | originate _ next => exact .installs (originate_installs next)
  | remove stored => exact .removes stored rfl
  | scheduleGeneration pseudonode span =>
      obtain ⟨generators, timers, trace, heq⟩ := s.scheduleGeneration_eq pseudonode span
      rw [heq]
      exact hsame rfl rfl rfl rfl rfl rfl
  | cancelGeneration pseudonode =>
      obtain ⟨generators, timers, heq⟩ := s.cancelGeneration_eq pseudonode
      rw [heq]
      exact hsame rfl rfl rfl rfl rfl rfl
  | removeCircuit circuit =>
      exact .rearranges rfl rfl rfl rfl rfl (deferredFrom_removeCircuit circuit)
  | @defer circuit lsp _ fromNetwork own =>
      have hdeferred : DeferredFrom heard s (s.defer circuit lsp) :=
        deferredFrom_defer fromNetwork own
      obtain ⟨deferred, trace, heq⟩ := s.defer_eq circuit lsp
      rw [heq] at hdeferred ⊢
      exact .rearranges rfl rfl rfl rfl rfl hdeferred
  | takeDeferred pseudonode =>
      exact .rearranges rfl rfl rfl rfl rfl (deferredFrom_erase pseudonode)
  | buildPage incomplete => exact .buildsPage incomplete rfl
  | _ => exact hsame rfl rfl rfl rfl rfl rfl

/-- No step changes the level or its configuration, and no check fails in a
step. -/
theorem Step.constant {heard : Lsp → Prop} {s t : LevelState} (h : Step heard s t) :
    t.level = s.level ∧ t.config = s.config ∧ t.fault = s.fault := by
  cases h.effect with
  | installs h =>
      obtain ⟨counters, history, number, trace, rfl⟩ := h
      exact ⟨rfl, rfl, rfl⟩
  | removes stored h =>
      obtain ⟨trace, heq⟩ := remove_eq stored
      rw [h, heq]
      exact ⟨rfl, rfl, rfl⟩
  | buildsPage _ h =>
      rw [h]
      exact ⟨rfl, rfl, rfl⟩
  | rearranges hlevel hconfig _ _ hfault => exact ⟨hlevel, hconfig, hfault⟩

/-- Only own LSPs that were heard come to be deferred. -/
theorem Step.deferred {heard : Lsp → Prop} {s t : LevelState} (h : Step heard s t) :
    DeferredFrom heard s t := by
  cases h.effect with
  | installs h =>
      obtain ⟨counters, history, number, trace, rfl⟩ := h
      exact deferredFrom_of_eq rfl
  | removes stored h =>
      obtain ⟨trace, heq⟩ := remove_eq stored
      rw [h, heq]
      exact deferredFrom_of_eq rfl
  | buildsPage _ h =>
      rw [h]
      exact deferredFrom_of_eq rfl
  | rearranges _ _ _ _ _ hdeferred => exact hdeferred

/-! ### What a step stores -/

/-- How an LSP comes to be stored in a step, as received or not. -/
inductive Origin (heard : Lsp → Prop) (s : LevelState) : Lsp → Bool → Prop
  | accepted {circuit : CircuitId} {lsp : Lsp} (admitted : s.Admitted heard circuit lsp)
      (newer : s.recency lsp = .newer) : Origin heard s (s.completed lsp) true
  | placeholder (lifetime : UInt16) (id : LspId) : Origin heard s (s.placeholder lifetime id) true
  | purged {id : LspId} {entry : Entry} (stored : s.database.get? id = some entry) :
      Origin heard s (s.purgeOf entry.lsp) entry.received
  | forced (lsp : Lsp) : Origin heard s (s.forcedPurge lsp) false
  | originated {lsp : Lsp} {seqno : UInt32} (nonzero : seqno ≠ 0) :
      Origin heard s (s.freshInstance lsp seqno) false

/-- What is stored after a step was stored before, or the step has stored it. -/
theorem Step.entries {heard : Lsp → Prop} {s t : LevelState} {Q : LspId → Entry → Prop}
    (hstep : Step heard s t)
    (h : ∀ id entry, s.database.get? id = some entry → Q id entry)
    (hnew : ∀ {lsp received}, Origin heard s lsp received → Q lsp.id (s.armed lsp received).1) :
    ∀ id entry, t.database.get? id = some entry → Q id entry := by
  have hinstalls : ∀ {lsp received flooding}, Installs s lsp received flooding t →
      Origin heard s lsp received → ∀ id entry, t.database.get? id = some entry → Q id entry := by
    rintro lsp received flooding ⟨counters, history, number, trace, rfl⟩ horigin id entry hstored
    by_cases hid : id = lsp.id
    · rw [hid, Table.get?_insert_self] at hstored
      obtain rfl := Option.some.inj hstored
      exact hid ▸ hnew horigin
    · rw [Table.get?_insert_of_ne _ _ hid] at hstored
      exact h id entry hstored
  have hsame : t.database = s.database →
      ∀ id entry, t.database.get? id = some entry → Q id entry :=
    fun hdatabase id entry hstored => h id entry (hdatabase ▸ hstored)
  cases hstep with
  | accept admitted newer => exact hinstalls (s.accept_installs _ _) (.accepted admitted newer)
  | recordPurge => exact hinstalls (s.recordPurge_installs _ _) (.placeholder _ _)
  | acknowledge => exact hsame (by rw [acknowledge_eq])
  | @request circuit summary =>
      by_cases hasked : summary.lifetime ≠ 0 ∧ summary.checksum ≠ 0 ∧ summary.seqno ≠ 0
      · exact hinstalls (s.requestUnknown_installs _ hasked) (.placeholder _ _)
      · exact hsame (by rw [requestUnknown, if_neg hasked])
  | purge reason stored live zeroAge =>
      exact hinstalls (purge_installs reason stored live zeroAge) (.purged stored)
  | forcePurge reason => exact hinstalls (s.forcePurge_installs _ reason) (.forced _)
  | originate _ next =>
      refine hinstalls (originate_installs next) (.originated fun hzero => ?_)
      have hnat := toNat_nextSeqno next
      rw [hzero] at hnat
      cases hnat
  | @remove id entry stored =>
      obtain ⟨trace, heq⟩ := remove_eq stored
      rw [heq]
      intro other entry hstored
      change (s.database.erase id).get? other = some entry at hstored
      by_cases hid : other = id
      · rw [hid, Table.get?_erase_self] at hstored
        cases hstored
      · rw [Table.get?_erase_of_ne _ hid] at hstored
        exact h other entry hstored
  | scheduleGeneration pseudonode span =>
      obtain ⟨generators, timers, trace, heq⟩ := s.scheduleGeneration_eq pseudonode span
      exact hsame (by rw [heq])
  | cancelGeneration pseudonode =>
      obtain ⟨generators, timers, heq⟩ := s.cancelGeneration_eq pseudonode
      exact hsame (by rw [heq])
  | @defer circuit lsp =>
      obtain ⟨deferred, trace, heq⟩ := s.defer_eq circuit lsp
      exact hsame (by rw [heq])
  | _ => exact hsame rfl

/-! ### Any number of steps -/

abbrev Steps (heard : Lsp → Prop) : LevelState → LevelState → Prop :=
  Relation.ReflTransGen (Step heard)

theorem Step.steps {heard : Lsp → Prop} {s t : LevelState} (h : Step heard s t) :
    Steps heard s t :=
  .single h

/-- What every step keeps, any number of steps keep. -/
theorem Steps.invariant {heard : Lsp → Prop} {P : LevelState → Prop}
    (hstep : ∀ {s t}, P s → Step heard s t → P t) {s t : LevelState} (h : Steps heard s t)
    (hs : P s) : P t := by
  induction h with
  | refl => exact hs
  | tail _ hlast ih => exact hstep ih hlast

theorem Steps.constant {heard : Lsp → Prop} {s t : LevelState} (h : Steps heard s t) :
    t.level = s.level ∧ t.config = s.config ∧ t.fault = s.fault := by
  refine Steps.invariant (P := fun t => t.level = s.level ∧ t.config = s.config ∧
    t.fault = s.fault) (fun {t u} ht hstep => ?_) h ⟨rfl, rfl, rfl⟩
  obtain ⟨hlevel, hconfig, hfault⟩ := hstep.constant
  exact ⟨hlevel.trans ht.1, hconfig.trans ht.2.1, hfault.trans ht.2.2⟩

end LevelState

end LinkState
