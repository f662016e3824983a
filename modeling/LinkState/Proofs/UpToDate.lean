import LinkState.Proofs.Generation
import LinkState.Proofs.Reception
import LinkState.Proofs.RefreshOrder

/-!
# No change of what is advertised is lost

What a system advertises, and for which pseudonodes it is elected, can change at any
time.  Each change makes a generation pending.  While none is pending for a node, its
live LSPs are those that would be built now, unless sequence numbers are used up, and
this whatever is heard from the network and whichever timers fire meanwhile.
-/

namespace LinkState.LevelState

variable {level : Level} {config : Config} {now : Nat} {s t : LevelState} {id : LspId}
  {pseudonode : UInt8}

/-- A generation for a pseudonode is pending, or sequence numbers are used up, or what is
published is what would be built. -/
def UpToDate (s : LevelState) (pseudonode : UInt8) : Prop :=
  s.Pending pseudonode ∨
    (∃ id, id.node = ⟨s.config.system, pseudonode⟩ ∧ s.Exhausted id) ∨
    ∀ id, id.node = ⟨s.config.system, pseudonode⟩ → s.published? id = s.built? id

/-- All nodes of a system are up to date, and each that has something to advertise has a
generator. -/
structure Current (s : LevelState) : Prop where
  upToDate : ∀ pseudonode, s.UpToDate pseudonode
  generator : ∀ pseudonode, s.supports? pseudonode = some true →
    s.generators.contains pseudonode = true

namespace UpToDate

/-- What was up to date remains so as long as its LSPs are upheld. -/
theorem upheld (h : s.UpToDate pseudonode) {touched : LspId → Prop} (hspares : Spares touched s t)
    (hupheld : ∀ id, id.node = ⟨s.config.system, pseudonode⟩ → Upheld s t id) :
    t.UpToDate pseudonode := by
  rw [UpToDate, hspares.config]
  rcases h with hpending | ⟨id, hnode, hexhausted⟩ | hsame
  · exact .inl (hspares.pending _ hpending)
  · rcases (hupheld id hnode).exhausted hexhausted with hstill | hpending
    · exact .inr (.inl ⟨id, hnode, hstill⟩)
    · rw [show id.pseudonode = pseudonode from congrArg NodeId.pseudonode hnode] at hpending
      exact .inl hpending
  · by_cases hpending : t.Pending pseudonode
    · exact .inl hpending
    · by_cases hexhausted : ∃ id : LspId, id.node = ⟨s.config.system, pseudonode⟩ ∧ t.Exhausted id
      · exact .inr (.inl hexhausted)
      · refine .inr (.inr fun id hnode => ?_)
        rw [hspares.built?]
        rcases (hupheld id hnode).published with hcontra | hcontra | hkept | hbuilt
        · exact absurd ⟨id, hnode, hcontra⟩ hexhausted
        · rw [show id.pseudonode = pseudonode from congrArg NodeId.pseudonode hnode] at hcontra
          exact absurd hcontra hpending
        · exact hkept.trans (hsame id hnode)
        · exact hbuilt

/-- Only what is built, what is stored, and what is pending matter. -/
theorem congr (h : s.UpToDate pseudonode) (hconfig : t.config = s.config)
    (hbodies : t.bodies pseudonode = s.bodies pseudonode) (hdatabase : t.database = s.database)
    (hgenerator : t.generators.get? pseudonode = s.generators.get? pseudonode) :
    t.UpToDate pseudonode := by
  rw [UpToDate, hconfig]
  refine h.imp (fun hpending => ?_) (Or.imp ?_ fun hsame id hnode => ?_)
  · rw [Pending, kept?, hgenerator]
    exact hpending
  · rintro ⟨id, hnode, hexhausted⟩
    exact ⟨id, hnode, by rwa [Exhausted, storedSeqno, hdatabase]⟩
  · have hbuilt : t.built? id = s.built? id := by
      rw [built?, built?, show id.pseudonode = pseudonode from congrArg NodeId.pseudonode hnode,
        hbodies]
    rw [hbuilt, ← hsame id hnode, published?, published?, hdatabase]

end UpToDate

namespace Current

/-- Circuits, flags, pages, the clock and the records are no concern of what is
advertised. -/
theorem congr (h : s.Current) (hlevel : t.level = s.level) (hconfig : t.config = s.config)
    (hadvertised : t.advertised = s.advertised) (helections : t.elections = s.elections)
    (hdatabase : t.database = s.database) (hgenerators : t.generators = s.generators) :
    t.Current where
  upToDate := fun pseudonode => (h.upToDate pseudonode).congr hconfig
    (bodies_congr hlevel hconfig (fun _ => hadvertised) fun _ => by rw [helections]) hdatabase
    (by rw [hgenerators])
  generator := fun pseudonode hsupports => by
    rw [hgenerators]
    rw [supports?, helections] at hsupports
    exact h.generator pseudonode hsupports

end Current

/-! ### What is heard from the network -/

/-- All nodes of a system but one are up to date. -/
structure CurrentBut (pseudonode : UInt8) (s : LevelState) : Prop where
  upToDate : ∀ other, other ≠ pseudonode → s.UpToDate other
  generator : ∀ other, other ≠ pseudonode → s.supports? other = some true →
    s.generators.contains other = true

/-- The outcome of an election concerns one pseudonode only. -/
theorem CurrentBut.of_election (h : s.Current) {elections : Table UInt8 Election}
    (hothers : ∀ other, other ≠ pseudonode → elections.get? other = s.elections.get? other) :
    CurrentBut pseudonode { s with elections := elections } where
  upToDate := fun other hother => (h.upToDate other).congr rfl
    (bodies_congr rfl rfl (fun _ => rfl) fun _ => hothers other hother) rfl rfl
  generator := fun other hother hsupports => by
    apply h.generator other
    rw [supports?] at hsupports ⊢
    rwa [← hothers other hother]

/-- A pseudonode without a generator has nothing to publish, elected or not. -/
theorem Current.idle (h : s.Current) (hidle : s.generators.contains pseudonode = false)
    {elections : Table UInt8 Election}
    (hunelected : { s with elections := elections }.supports? pseudonode ≠ some true) :
    { s with elections := elections }.UpToDate pseudonode := by
  have hsupports : s.supports? pseudonode ≠ some true := by
    intro hcontra
    rw [h.generator pseudonode hcontra] at hidle
    cases hidle
  rcases h.upToDate pseudonode with hpending | hexhausted | hsame
  · obtain ⟨handle, hkept⟩ := Option.isSome_iff_exists.1 hpending
    obtain ⟨generator, hstored, -⟩ := generator_of_kept? hkept
    simp [Table.contains, hstored] at hidle
  · exact .inr (.inl hexhausted)
  · refine .inr (.inr fun id hnode => ?_)
    have hpseudonode : id.pseudonode = pseudonode := congrArg NodeId.pseudonode hnode
    rw [built?_unsupported (hpseudonode.symm ▸ hunelected)]
    exact (hsame id hnode).trans (built?_unsupported (hpseudonode.symm ▸ hsupports))

/-- What may be asked of a level that is to look after its own LSPs: it hears LSPs from
circuits only, none of its own is purged by name, and it is not stopped. -/
def Undisturbed (s : LevelState) : Operation → Prop
  | .receiveLsp circuit _ | .receiveLspOctets circuit _ => circuit.isSome = true
  | .purgeLsp id => s.isOwn id = false ∧ s.Proper (.purgeLsp id)
  | .purgeOwn | .stop => False
  | _ => True

theorem Undisturbed.running {operation : Operation} (h : s.Undisturbed operation) :
    s.Running (fun _ => True) operation := by
  have hproper : s.Proper operation := by
    cases operation with
    | purgeLsp id => exact h.2
    | _ => trivial
  refine hproper.running.resolve_right ?_
  rintro rfl
  exact h

end LinkState.LevelState
