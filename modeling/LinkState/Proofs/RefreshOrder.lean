import LinkState.Proofs.OwnLsps

/-!
# Own LSPs are refreshed before they expire

The refresh timer of an own LSP is due before its life timer, and timers fire in the
order in which they are due.  So no own LSP that is live ever comes to the end of its
life.
-/

namespace LinkState.LevelState

variable {heard : Lsp → Prop} {s t : LevelState} {id : LspId} {lsp : Lsp}

/-- Where both timers run, the refresh comes first. -/
structure RefreshedFirst (s : LevelState) : Prop where
  due : ∀ {id entry life refresh}, s.database.get? id = some entry →
    entry.lifeTimer = some life → entry.refreshTimer = some refresh → refresh.due < life.due

/-- The lifetime of an LSP that is refreshed exceeds the time until then. -/
theorem armed_due {received : Bool} {life refresh : Handle}
    (hlifetime : isRefreshed s.config.system lsp received = true → lsp.lifetime = s.config.lifetime)
    (hlife : (s.armed lsp received).1.lifeTimer = some life)
    (hrefresh : (s.armed lsp received).1.refreshTimer = some refresh) : refresh.due < life.due := by
  have hsettled := (s.armed_settled lsp received).refresh
  rw [hrefresh, s.armed_lsp lsp received, s.armed_received lsp received] at hsettled
  have hsame := hlifetime hsettled.symm
  simp only [Option.isSome_some, isRefreshed, Bool.true_eq, Bool.and_eq_true, Bool.not_eq_true',
    Lsp.isExpired, decide_eq_false_iff_not, decide_eq_true_eq] at hsettled
  obtain ⟨-, hlive, hseqno⟩ := hsettled
  have hpositive : s.config.lifetime.toNat ≠ 0 :=
    fun hzero => hlive (hsame.trans (UInt16.toNat_inj.1 hzero))
  rw [armed_life hlife, armed_refresh hrefresh, lifeSeconds, if_neg hseqno, hsame,
    Config.refreshSeconds, seconds, seconds]
  omega

namespace RefreshedFirst

theorem of_empty (h : s.database = Table.empty) : s.RefreshedFirst :=
  ⟨by simp [h]⟩

/-- Every step keeps the refresh timers first. -/
theorem step (h : s.RefreshedFirst) (hstep : Step heard s t) : t.RefreshedFirst := by
  have hentries : ∀ id entry, t.database.get? id = some entry → ∀ life refresh,
      entry.lifeTimer = some life → entry.refreshTimer = some refresh →
        refresh.due < life.due := by
    refine hstep.entries (fun _ _ hstored _ _ => h.due hstored) ?_
    intro lsp received horigin life refresh
    refine armed_due fun hrefreshed => ?_
    cases horigin with
    | accepted => cases hrefreshed
    | placeholder => cases hrefreshed
    | purged => simp [isRefreshed, purgeOf, Lsp.encode, Lsp.isExpired] at hrefreshed
    | forced => simp [isRefreshed, forcedPurge, Lsp.make, Lsp.encode, Lsp.isExpired] at hrefreshed
    | originated => rfl
  exact ⟨fun hstored => hentries _ _ hstored _ _⟩

end RefreshedFirst

/-! ### What a level needs to keep its own LSPs up -/

/-- The invariants by which a level keeps its own LSPs up. -/
structure Tended (s : LevelState) : Prop where
  sound : Sound (fun _ => True) s
  guarded : s.Guarded
  refreshedFirst : s.RefreshedFirst
  lifetime : s.config.lifetime ≠ 0

theorem Tended.steps (h : s.Tended) (hsteps : Steps (fun _ => True) s t) : t.Tended := by
  refine hsteps.invariant (P := Tended) (fun {s t} hs hstep => ?_) h
  exact ⟨hs.sound.step hstep, hs.guarded.step hstep, hs.refreshedFirst.step hstep,
    hstep.constant.2.1 ▸ hs.lifetime⟩

/-- Both timers of a live own LSP run, and the refresh comes first. -/
theorem Tended.refresh_first (h : s.Tended) (hown : s.isOwn id = true) {entry : Entry}
    (hstored : s.database.get? id = some entry) (hlive : entry.isLive = true) :
    ∃ life refresh, entry.lifeTimer = some life ∧ entry.refreshTimer = some refresh ∧
      refresh.due < life.due := by
  have hsettled := h.sound.consistent.settled hstored
  obtain ⟨hreceived, -⟩ := h.guarded.made_of_live hstored hown hlive
  have hrefreshed : entry.refreshTimer.isSome = true := by
    rw [hsettled.refresh, isRefreshed, hreceived, h.sound.consistent.keys hstored]
    simp only [isOwn, decide_eq_true_eq] at hown
    simpa [hown, Entry.isLive, Entry.isPurged, Entry.isPlaceholder] using hlive
  have hrunning : entry.lifeTimer.isSome = true := by
    rw [hsettled.life, show entry.lsp.isExpired = false from (Entry.isLive_iff.1 hlive).1]
    rfl
  obtain ⟨refresh, hrefresh⟩ := Option.isSome_iff_exists.1 hrefreshed
  obtain ⟨life, hlife⟩ := Option.isSome_iff_exists.1 hrunning
  exact ⟨life, refresh, hlife, hrefresh, h.refreshedFirst.due hstored hlife hrefresh⟩

/-- The life timer of a live own LSP is not the first that comes due. -/
theorem Tended.not_live_of_first (h : s.Tended) (hown : s.isOwn id = true) {entry : Entry}
    {life : Handle} (hstored : s.database.get? id = some entry)
    (hlife : entry.lifeTimer = some life)
    (hfirst : ∀ timer ∈ s.timers.pending, life.due ≤ timer.due) : entry.isLive = false := by
  by_contra hlive
  obtain ⟨life', refresh, hlife', hrefresh, hless⟩ :=
    h.refresh_first hown hstored (by simpa using hlive)
  obtain rfl := Option.some.inj (hlife.symm.trans hlife')
  have hkept : s.kept? (.refresh id) = some refresh := by
    rw [kept?, hstored, Option.bind_some, hrefresh]
  have hle := hfirst _ ((h.sound.consistent.timers.mem_iff _ _).1 hkept)
  exact absurd hless (Nat.not_lt.2 hle)

variable {level : Level} {config : Config} {now : Nat}

theorem Reachable.tended (h : Reachable Proper level config now s)
    (hlifetime : config.lifetime ≠ 0) :
    s.Tended where
  sound := h.sound
  guarded := h.guarded
  refreshedFirst := (h.invariant (P := RefreshedFirst) (fun _ => trivial) Proper.running
    (.of_empty rfl) (fun _ hs hstep => hs.step hstep) fun _ _ => .of_empty rfl).2
  lifetime := h.constant.2.1 ▸ hlifetime

end LinkState.LevelState
