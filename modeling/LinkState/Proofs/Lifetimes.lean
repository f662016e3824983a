import LinkState.Proofs.Clock

/-!
# What is left of a lifetime

What is left of the lifetime of an LSP goes down from the time at which the LSP was read
or made.  Unless it is handed in later than that, its life timer is due before nothing is
left.  So while no timer is overdue, only purges have no lifetime left.
-/

namespace LinkState

/-- An LSP carries the system ID of a system, or was not made before a time. -/
def Lsp.Recent (system : SystemId) (time : Nat) (lsp : Lsp) : Prop :=
  lsp.id.system = system ∨ ∀ base, lsp.baseTime = some base → time ≤ base

namespace LevelState

variable {heard : Lsp → Prop} {s t : LevelState} {id : LspId} {lsp : Lsp} {system : SystemId}
  {bound : Nat}

/-! ### Life timers -/

/-- The life of an entry ends no later than its LSP says. -/
structure Fresh (s : LevelState) : Prop where
  due : ∀ {id entry base life}, s.database.get? id = some entry →
    entry.lsp.baseTime = some base → entry.lifeTimer = some life →
      life.due ≤ base + seconds entry.lsp.lifetime.toNat

namespace Fresh

theorem of_empty (h : s.database = Table.empty) : s.Fresh :=
  ⟨by simp [h]⟩

/-- No step makes an entry live longer than its LSP. -/
theorem step (h : s.Fresh) (hsystem : s.config.system = system) (hnow : s.now ≤ bound)
    (hstep : Step (Lsp.Recent system bound) s t) : t.Fresh := by
  have hentries : ∀ id entry, t.database.get? id = some entry → ∀ base life,
      entry.lsp.baseTime = some base → entry.lifeTimer = some life →
        life.due ≤ base + seconds entry.lsp.lifetime.toNat := by
    refine hstep.entries (fun _ _ hstored _ _ => h.due hstored) ?_
    intro lsp received horigin base life hbase hlife
    have hseconds : s.lifeSeconds lsp ≤ lsp.lifetime.toNat := by
      rw [lifeSeconds]
      split
      · exact Nat.min_le_left _ _
      · exact Nat.le_refl _
    have hsettled := (s.armed_settled lsp received).life
    rw [hlife, s.armed_lsp lsp received] at hsettled
    rw [s.armed_lsp lsp received] at hbase ⊢
    have hbase' : s.now ≤ base := by
      cases horigin with
      | @accepted circuit lsp admitted newer =>
          rw [completed_isExpired] at hsettled
          have hlive : lsp.isExpired = false := by simpa using hsettled
          rw [completed_of_live hlive] at hbase
          rcases admitted.heard with hown | hrecent
          · have hforeign := foreign_of_accepted admitted newer hlive
            simp [isOwn, hown, hsystem] at hforeign
          · exact Nat.le_trans hnow (hrecent base hbase)
      | _ => exact Nat.le_of_eq (Option.some.inj hbase)
    rw [armed_life hlife, seconds, seconds]
    omega
  exact ⟨fun hstored => hentries _ _ hstored _ _⟩

/-- The clock may not pass the time from which on LSPs are handed in. -/
theorem steps (h : s.Fresh) (hsystem : s.config.system = system)
    (hsteps : Steps (Lsp.Recent system bound) s t) (hnow : t.now ≤ bound) : t.Fresh := by
  have hinvariant := hsteps.invariant
    (P := fun s => s.config.system = system ∧ (s.now ≤ bound → s.Fresh))
    (fun {s t} hs hstep => ?_) ⟨hsystem, fun _ => h⟩
  · exact hinvariant.2 hnow
  · have hconfig : t.config = s.config := hstep.constant.2.1
    refine ⟨hconfig ▸ hs.1, fun hle => ?_⟩
    have hbefore : s.now ≤ bound := Nat.le_trans hstep.now_le hle
    exact (hs.2 hbefore).step hs.1 hbefore hstep

end Fresh

/-! ### Runs -/

/-- LSPs are handed in from circuits no later than they were made. -/
def Timely (s : LevelState) : Operation → Prop
  | .receiveLsp (some _) lsp => ∀ base, lsp.baseTime = some base → s.now ≤ base
  | operation => s.Proper operation

theorem Timely.proper {operation : Operation} (h : s.Timely operation) : s.Proper operation := by
  cases operation with
  | receiveLsp => trivial
  | _ => exact h

variable {level : Level} {config : Config} {now : Nat}

/-- If LSPs are handed in no later than they were made, no entry outlives its LSP. -/
theorem Reachable.fresh (h : Reachable Timely level config now s) : s.Fresh := by
  induction h with
  | start =>
      have hblank : (blank level config now).Fresh := .of_empty rfl
      exact hblank.steps rfl (start_steps level config now) (Nat.le_refl _)
  | @perform s operation hbefore hallowed ih =>
      have hproper : Reachable Proper level config now s := hbefore.mono Timely.proper
      have hsystem : s.config.system = config.system := by rw [hproper.constant.2.1]
      by_cases hstop : operation = .stop
      · rw [hstop]
        exact .of_empty rfl
      · have hsound : Sound (Lsp.Recent config.system (s.perform operation).now) s := by
          refine ⟨hproper.consistent, fun hwaiting hid => ?_⟩
          obtain ⟨-, hown⟩ := hproper.sound.deferred hwaiting hid
          exact ⟨.inl (hsystem ▸ of_decide_eq_true hown), hown⟩
        refine ih.steps hsystem (perform_steps hsound ?_ ⟨hallowed.proper, ?_, hstop⟩)
          (Nat.le_refl _)
        · rintro circuit octets lsp rfl hdecode
          refine .inr fun base hbase => Nat.le_of_eq ?_
          rw [(Pdu.decode_lsp hdecode).2.1] at hbase
          obtain rfl := Option.some.inj hbase
          exact receiveLspOctets_now hproper.consistent (some circuit) octets
        · cases operation with
          | receiveLsp circuit lsp =>
              cases circuit with
              | none => trivial
              | some circuit =>
                  refine .inr fun base hbase => ?_
                  have hnow := receiveLsp_now hproper.consistent (some circuit) lsp
                  exact Nat.le_trans (Nat.le_of_eq hnow) (hallowed base hbase)
          | _ => trivial

/-! ### Remaining lifetimes -/

/-- While no timer is overdue, only purges have no lifetime left, and had none left at any
time before. -/
theorem Fresh.remaining_eq_zero (h : s.Fresh) (hconsistent : s.Consistent)
    (hdue : ∀ timer ∈ s.timers.pending, s.now < timer.due) {entry : Entry}
    (hstored : s.database.get? id = some entry) {time : Nat} (htime : time ≤ s.now) :
    entry.lsp.remaining time = 0 ↔ entry.isPurged = true := by
  rw [Entry.isPurged, Lsp.isExpired, decide_eq_true_eq, Lsp.remaining]
  cases hbase : entry.lsp.baseTime with
  | none => exact Iff.rfl
  | some base =>
      dsimp only
      constructor
      · intro hzero
        by_contra hlive
        have hsettled := (hconsistent.settled hstored).life
        obtain ⟨life, hlife⟩ : ∃ life, entry.lifeTimer = some life :=
          Option.isSome_iff_exists.1 (by simp [hsettled, Lsp.isExpired, hlive])
        have hkept : s.kept? (.expire id) = some life := by
          rw [kept?, hstored, Option.bind_some, hlife]
        have hpending : s.now < life.due := hdue _ ((hconsistent.timers.mem_iff _ _).1 hkept)
        have hfresh := h.due hstored hbase hlife
        rw [seconds] at hfresh
        have hpositive : entry.lsp.lifetime.toNat ≠ 0 :=
          fun hcontra => hlive (UInt16.toNat_inj.1 hcontra)
        have hleft := congrArg UInt16.toNat hzero
        rw [UInt16.toNat_ofNat', Nat.mod_eq_of_lt (by have := entry.lsp.lifetime.toNat_lt; omega)]
          at hleft
        have hnone : (0 : UInt16).toNat = 0 := rfl
        omega
      · intro hzero
        rw [hzero]
        simp

end LevelState

end LinkState
