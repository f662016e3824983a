import LinkState.Proofs.Deferral
import LinkState.Proofs.Draining
import LinkState.Proofs.Mirroring

/-!
# Timers of mirrored states

All due timers of two states that mirror each other fire in the same order, but for those
of the one LSP in which the states differ.  If that LSP waits for nothing in one of the
states, the states still mirror each other when no timer is due any more, and what is held
of the LSP has not changed in that state.
-/

namespace LinkState

namespace LevelState

variable {heard : Lsp → Prop} {s s' t t' u : LevelState} {x id : LspId} {lsp : Lsp}
  {event : TimerEvent} {handle : Handle} {entry : Entry}

/-! ### What timers set off -/

def act (s : LevelState) : TimerEvent → LevelState
  | .expire id => s.expire id
  | .delete id => s.delete id
  | .refresh id =>
      match s.database.get? id with
      | some entry =>
          (s.tell (.lspChanged .refreshed s.level entry.lsp.mention)).originate entry.lsp
      | none => s
  | .generate pseudonode => (s.disarmed (.generate pseudonode)).generate pseudonode

theorem fire_act (h : s.Consistent) (hkept : s.kept? event = some handle) :
    { s with timers := s.timers.remove handle.number }.fire ⟨handle.number, handle.due, event⟩ =
      s.act event := by
  cases event with
  | expire id => exact fire_expire h hkept
  | delete id => exact fire_delete h hkept
  | refresh id =>
      obtain ⟨entry, hstored, -, -, -, heq⟩ := fire_refresh h hkept
      simp only [heq, act, hstored]
  | generate pseudonode => exact fire_generate hkept

/-- The timer that comes first fires if it is due. -/
theorem fireNext_of_due (h : s.Consistent) {first : Timer TimerEvent}
    {rest : List (Timer TimerEvent)} (hpending : s.timers.pending = first :: rest)
    (hdue : first.due ≤ s.now) : s.fireNext? = some (s.act first.event) := by
  obtain ⟨others, hpop⟩ := TimerQueue.pop?_of_due hpending hdue
  obtain ⟨hmem, -, rfl⟩ := TimerQueue.pop?_eq_some h.timers.nodup hpop
  rw [fireNext?, hpop, Option.map_some, ← fire_act h (h.timers.kept_of_mem hmem)]

theorem fireNext_first (h : s.Consistent) (hfire : s.fireNext? = some t) :
    ∃ first rest, s.timers.pending = first :: rest ∧ first.due ≤ s.now ∧
      t = s.act first.event := by
  obtain ⟨⟨first, others⟩, hpop, -⟩ := Option.map_eq_some_iff.1 hfire
  obtain ⟨hpending, hdue⟩ := TimerQueue.pending_of_pop? hpop
  rw [fireNext_of_due h hpending hdue] at hfire
  exact ⟨first, others.pending, hpending, hdue, (Option.some.inj hfire).symm⟩

theorem fireNext_none (h : s.Consistent)
    (hlater : ∀ timer ∈ s.timers.pending, s.now < timer.due) : s.fireNext? = none := by
  cases hfire : s.fireNext? with
  | none => rfl
  | some t =>
      obtain ⟨first, rest, hpending, hdue, -⟩ := fireNext_first h hfire
      exact absurd (hlater first (hpending ▸ List.mem_cons_self)) (Nat.not_lt.2 hdue)

/-! ### What is set off for one LSP -/

namespace Mirrors

/-- What is set off for all other LSPs is mirrored. -/
theorem act (h : Mirrors x s s') (hconcerns : event.concerns x = false)
    (hkept : s.kept? event = some handle) : Mirrors x (s.act event) (s'.act event) := by
  cases event with
  | expire id => exact h.expire (of_decide_eq_false hconcerns)
  | delete id => exact h.delete (of_decide_eq_false hconcerns)
  | refresh id =>
      obtain ⟨entry, hstored, -, -, hown⟩ := entry_of_refreshTimer h.consistent hkept
      obtain rfl := h.consistent.keys hstored
      obtain ⟨entry', hstored', hshape⟩ := (h.others _ (h.ne_of_own hown)).stored hstored
      have htold := h.tell (.lspChanged .refreshed s.level entry.lsp.mention)
        (.lspChanged .refreshed s'.level entry'.lsp.mention)
      simp only [LevelState.act, hstored, hstored']
      rw [Entry.lsp_congr hshape] at htold ⊢
      exact htold.originate hown
  | generate pseudonode => exact (h.beginGeneration pseudonode).generate pseudonode

end Mirrors

theorem mirrors_purge (h : s.Consistent) (hforeign : s.isOwn x = false)
    (hstored : s.database.get? x = some entry) (hlive : entry.isPurged = false)
    (reason : PurgeReason) : Mirrors x s (s.purge x reason) := by
  have hstep : Step (fun _ => True) s (s.purge x reason) := purge_step h reason hstored hlive
  obtain ⟨-, f, -, hleaves, -⟩ := Twins.purge h h (.refl x s) reason hstored hlive
  exact .of_leaves h (h.step hstep) hforeign hleaves
    ((purge_installs reason hstored hlive (zeroAgeTimer_of_live h hstored hlive)).agenda_apart
      apartFrom_apart h.timers (h.keys hstored))

/-- No generation starts over for an LSP of another system. -/
theorem mirrors_delete (h : s.Consistent) (hforeign : s.isOwn x = false)
    (hstored : s.database.get? x = some entry) : Mirrors x s (s.delete x) := by
  have hremoved : Mirrors x s (s.remove x) := by
    obtain ⟨-, f, -, hleaves, -⟩ := Twins.remove (.refl x s) hstored hstored
    refine .of_leaves h (h.remove hstored) hforeign hleaves ?_
    obtain ⟨trace, heq⟩ := remove_eq hstored
    rw [heq]
    exact agenda_timersWithout_apart apartFrom_apart h.timers
  have htold := hremoved.note s.counters (s.remove x).counters s.pages (s.remove x).pages s.trace
    (.lspChanged .deleted s.level entry.lsp.mention :: (s.remove x).trace) s.fault
    (s.remove x).fault
  have hown : (s.remove x).isOwn x = false := (hremoved.isOwn x).trans hforeign
  have heq : s.delete x = (s.remove x).tell (.lspChanged .deleted s.level entry.lsp.mention) := by
    simp only [delete, hstored]
    exact if_neg (by simp [isOwn, tell] at hown ⊢; simp [hown])
  rw [heq]
  exact htold

/-- An LSP of another system is never refreshed. -/
theorem event_of_concerns (h : s.Consistent) (hforeign : s.isOwn x = false)
    (hconcerns : event.concerns x = true) (hkept : s.kept? event = some handle) :
    event = .expire x ∨ event = .delete x := by
  cases event with
  | expire id => exact .inl (congrArg TimerEvent.expire (of_decide_eq_true hconcerns))
  | delete id => exact .inr (congrArg TimerEvent.delete (of_decide_eq_true hconcerns))
  | refresh id =>
      obtain rfl := of_decide_eq_true hconcerns
      obtain ⟨-, -, -, -, hown⟩ := entry_of_refreshTimer h hkept
      rw [hforeign] at hown
      cases hown
  | generate pseudonode => cases hconcerns

/-- What is set off for one LSP of another system is not seen in the mirror of the others. -/
theorem mirrors_act (h : s.Consistent) (hforeign : s.isOwn x = false)
    (hconcerns : event.concerns x = true) (hkept : s.kept? event = some handle) :
    Mirrors x s (s.act event) := by
  rcases event_of_concerns h hforeign hconcerns hkept with rfl | rfl
  · obtain ⟨entry, hstored, -, hlive, -⟩ := entry_of_lifeTimer h hkept
    simp only [act, expire, hstored]
    split
    · exact mirrors_delete h hforeign hstored
    · exact mirrors_purge h hforeign hstored hlive .expired
  · obtain ⟨entry, hstored, -⟩ := Option.bind_eq_some_iff.1 hkept
    exact mirrors_delete h hforeign hstored

/-- What is done about others leaves an LSP alone. -/
theorem alike_of_spares {touched : LspId → Prop} (h : Spares touched s t) (hid : ¬ touched id)
    (hdeferral : t.deferral = s.deferral) : Alike id s t where
  surroundings := h.surroundings
  entry := by rw [h.get? hid]
  marks := congrFun (congrArg View.marks (h.view id hid))
  deferred := by
    have hsame : t.deferred = s.deferred := congrArg Deferral.deferred hdeferral
    rw [deferred?, deferred?, hsame]

/-- A timer for anything else leaves all as it is for the LSP. -/
theorem act_alike (h : Sound heard s) (hforeign : s.isOwn x = false)
    (hconcerns : event.concerns x = false) (hkept : s.kept? event = some handle)
    (hdue : handle.due ≤ s.now) : Alike x s (s.act event) := by
  cases event with
  | expire id =>
      obtain ⟨entry, hstored, -, hlive, -⟩ := entry_of_lifeTimer h.consistent hkept
      exact alike_of_spares (Spares.expire h.consistent hstored hlive)
        (Ne.symm (of_decide_eq_false hconcerns)) (s.deferral_expire id)
  | delete id =>
      obtain ⟨entry, hstored, -⟩ := Option.bind_eq_some_iff.1 hkept
      exact alike_of_spares (Spares.delete hstored) (Ne.symm (of_decide_eq_false hconcerns))
        (s.deferral_delete id)
  | refresh id =>
      obtain ⟨entry, hstored, -⟩ := Option.bind_eq_some_iff.1 hkept
      obtain rfl := h.consistent.keys hstored
      simp only [act, hstored]
      exact alike_of_spares ((Spares.tell _ s _).trans (Spares.originate _ entry.lsp))
        (Ne.symm (of_decide_eq_false hconcerns)) (deferral_originate _ _)
  | generate pseudonode =>
      have hbegun : Alike x s (s.disarmed (.generate pseudonode)) := ⟨rfl, rfl, fun _ => rfl, rfl⟩
      have hspares := (generate_spares (h.step (.beginGeneration hkept hdue)) pseudonode).1
      refine hbegun.trans (alike_of_spares hspares (fun hnode => ?_) (deferral_generate _ _))
      have hown : s.isOwn x = true := decide_eq_true (congrArg NodeId.system hnode)
      rw [hforeign] at hown
      cases hown

/-! ### Processing all timers that are due -/

/-- The second state is what the first one comes to once no timer is due any more. -/
inductive Drains : LevelState → LevelState → Prop
  | done {s : LevelState} (idle : s.fireNext? = none) : Drains s s
  | fire {s t u : LevelState} (next : s.fireNext? = some u) (rest : Drains u t) : Drains s t

theorem Drains.sound (hdrains : Drains s t) (h : Sound heard s) : Sound heard t := by
  induction hdrains with
  | done => exact h
  | fire next _ ih => exact ih (h.steps (fireNext_steps h next))

theorem Drains.of_fireUpTo {fuel : Nat} (h : (fireUpTo fuel s).2.fireNext? = none) :
    Drains s (fireUpTo fuel s).2 := by
  induction fuel generalizing s with
  | zero => exact .done h
  | succ fuel ih =>
      rw [fireUpTo] at h ⊢
      cases hfire : s.fireNext? with
      | none => exact .done hfire
      | some u =>
          rw [hfire] at h
          exact .fire hfire (ih h)

theorem fireDue_drains (h : Sound heard s) (hlifetime : s.config.lifetime ≠ 1) :
    Drains s s.fireDue.2 :=
  .of_fireUpTo (fireUpTo_drains h hlifetime (potential_le_fireBound h.consistent))

def Quiet (x : LspId) (s : LevelState) : Prop :=
  ∀ entry, s.database.get? x = some entry → ∀ item ∈ deadlinesOf x entry.shape, s.now < item.1

theorem Alike.quiet (h : Alike x s s') (hs : s.Quiet x) : s'.Quiet x := by
  intro entry' hstored'
  obtain ⟨entry, hstored, hshape⟩ := h.symm.stored hstored'
  rw [h.now, ← hshape]
  exact hs entry hstored

theorem Quiet.not_due (h : s.Quiet x) (hconcerns : event.concerns x = true)
    (hkept : s.kept? event = some handle) : s.now < handle.due := by
  have hstored : ∃ entry, s.database.get? x = some entry ∧
      (⟨handle.number, handle.due, event⟩ : Timer TimerEvent) ∈ entryTimers x entry := by
    simp only [mem_entryTimers]
    cases event with
    | generate pseudonode => cases hconcerns
    | _ =>
        obtain rfl := of_decide_eq_true hconcerns
        obtain ⟨entry, hstored, htimer⟩ := Option.bind_eq_some_iff.1 hkept
        exact ⟨entry, hstored, by simp [htimer]⟩
  obtain ⟨entry, hstored, htimer⟩ := hstored
  have hitem := List.mem_map_of_mem (f := deadline) htimer
  rw [deadlines_eq] at hitem
  exact h entry hstored _ hitem

/-- What is installed for another system is not due at once. -/
theorem Installs.quiet {received : Bool} {flooding : Flooding}
    (h : Installs s lsp received flooding t) (hzeroAge : s.config.zeroAge ≠ 0)
    (hforeign : s.isOwn lsp.id = false) (hnumbered : lsp.seqno ≠ 0) : t.Quiet lsp.id := by
  obtain ⟨counters, history, number, trace, rfl⟩ := h
  intro entry hstored item hitem
  simp only [Table.get?_insert_self, Option.some.injEq] at hstored
  subst hstored
  have hrefreshed : isRefreshed s.config.system lsp received = false := by
    have hsystem : lsp.id.system ≠ s.config.system := of_decide_eq_false hforeign
    simp [isRefreshed, hsystem]
  have hage : 0 < s.config.zeroAge.toNat := Nat.pos_of_ne_zero fun hzero =>
    hzeroAge (UInt16.toNat_inj.1 hzero)
  rw [armed_shape, newShape] at hitem
  split at hitem
  · simp only [deadlinesOf, Option.map_none, Option.map_some, List.reduceOption_cons_of_none,
      List.reduceOption_cons_of_some, List.reduceOption_nil, List.mem_singleton] at hitem
    subst hitem
    simp only [seconds]
    omega
  · rename_i hlifetime
    have hlife : 0 < lsp.lifetime.toNat := Nat.pos_of_ne_zero fun hzero =>
      hlifetime (UInt16.toNat_inj.1 hzero)
    simp only [hrefreshed, Bool.false_eq_true, if_false, deadlinesOf, Option.map_none,
      Option.map_some, List.reduceOption_cons_of_none, List.reduceOption_cons_of_some,
      List.reduceOption_nil, List.mem_singleton] at hitem
    subst hitem
    simp only [seconds, lifeSeconds, hnumbered, if_false]
    omega

theorem purge_quiet (h : s.Consistent) (hforeign : s.isOwn x = false)
    (hzeroAge : s.config.zeroAge ≠ 0) (hstored : s.database.get? x = some entry)
    (hlive : entry.isPurged = false) (hknown : entry.isPlaceholder = false)
    (reason : PurgeReason) : (s.purge x reason).Quiet x := by
  obtain rfl := h.keys hstored
  have hinstalls := purge_installs reason hstored hlive (zeroAgeTimer_of_live h hstored hlive)
  exact hinstalls.quiet hzeroAge hforeign (of_decide_eq_false hknown)

/-- While nothing is due for an LSP of another system, processing timers leaves it alone. -/
theorem Drains.alike (hdrains : Drains s t) (h : Sound heard s) (hforeign : s.isOwn x = false)
    (hquiet : s.Quiet x) : Alike x s t := by
  induction hdrains with
  | done => exact .refl x _
  | @fire s t u next rest ih =>
      have hsound := h.steps (fireNext_steps h next)
      obtain ⟨first, others, hpending, hdue, rfl⟩ := fireNext_first h.consistent next
      have hkept := h.consistent.timers.kept_of_mem (hpending ▸ List.mem_cons_self)
      have hconcerns : first.event.concerns x = false := by
        cases hconcerns : first.event.concerns x with
        | false => rfl
        | true => exact absurd (hquiet.not_due hconcerns hkept) (Nat.not_lt.2 hdue)
      have halike := act_alike h hforeign hconcerns hkept hdue
      exact halike.trans (ih hsound ((halike.isOwn x).trans hforeign) (halike.quiet hquiet))

/-- A live copy whose life is over is purged in the end. -/
theorem Drains.overdue (hdrains : Drains s t) (h : Sound heard s) (hforeign : s.isOwn x = false)
    (hzeroAge : s.config.zeroAge ≠ 0) (hstored : s.database.get? x = some entry)
    (hknown : entry.isPlaceholder = false) (hkept : s.kept? (.expire x) = some handle)
    (hdue : handle.due ≤ s.now) : Alike x (s.purge x .expired) t := by
  induction hdrains generalizing entry handle with
  | done idle =>
      have hlater := not_due_of_fireNext idle _ ((h.consistent.timers.mem_iff _ _).1 hkept)
      exact absurd hlater (Nat.not_lt.2 hdue)
  | @fire s t u next rest ih =>
      have hsound := h.steps (fireNext_steps h next)
      obtain ⟨first, others, hpending, hfirst, rfl⟩ := fireNext_first h.consistent next
      have hkept' := h.consistent.timers.kept_of_mem (hpending ▸ List.mem_cons_self)
      obtain ⟨entry', hstored', hlife, hlive, hzero⟩ := entry_of_lifeTimer h.consistent hkept
      obtain rfl := Option.some.inj (hstored.symm.trans hstored')
      cases hconcerns : first.event.concerns x with
      | false =>
          have halike := act_alike h hforeign hconcerns hkept' hfirst
          obtain ⟨entry', hstored', hshape⟩ := halike.stored hstored
          have hrunning := Entry.life_congr hshape
          rw [hlife, Option.map_some] at hrunning
          obtain ⟨handle', hlife', hsame⟩ := Option.map_eq_some_iff.1 hrunning
          have hkept'' : (s.act first.event).kept? (.expire x) = some handle' := by
            rw [kept?, hstored', Option.bind_some, hlife']
          have hdue' : handle'.due ≤ (s.act first.event).now := by
            rw [hsame, halike.now]
            exact hdue
          have hpurged := Twins.purge h.consistent hsound.consistent halike .expired hstored hlive
          exact hpurged.alike.trans (ih hsound ((halike.isOwn x).trans hforeign)
            (halike.config ▸ hzeroAge) hstored' ((Entry.isPlaceholder_congr hshape).trans hknown)
            hkept'' hdue')
      | true =>
          -- The copy is live, so that it is not the time of its purge that is over.
          have hexpires : first.event = .expire x := by
            refine (event_of_concerns h.consistent hforeign hconcerns hkept').resolve_right ?_
            intro hdeletes
            rw [hdeletes, kept?, hstored, Option.bind_some, hzero] at hkept'
            cases hkept'
          rw [hexpires, act, expire_known hstored hknown] at rest hsound ih
          have hpurged := mirrors_purge h.consistent hforeign hstored hlive .expired
          exact Drains.alike rest hsound ((hpurged.isOwn x).trans hforeign)
            (purge_quiet h.consistent hforeign hzeroAge hstored hlive hknown .expired)

namespace Mirrors

/-- With the timers of the LSP quiet, the mirrored state comes to rest together with the other
one. -/
theorem idle (h : Mirrors x s s') (hquiet : s'.Quiet x) (hidle : s.fireNext? = none) :
    s'.fireNext? = none := by
  refine fireNext_none h.consistent' fun timer hmem => ?_
  cases hconcerns : timer.event.concerns x with
  | true => exact hquiet.not_due hconcerns (h.consistent'.timers.kept_of_mem hmem)
  | false =>
      have hitem : deadline timer ∈ LevelState.agenda (apartFrom x) s'.timers :=
        mem_agenda.2 ⟨timer, hmem, by simp [apartFrom, hconcerns], rfl⟩
      rw [h.agenda] at hitem
      obtain ⟨other, hother, -, hsame⟩ := mem_agenda.1 hitem
      have hdue : other.due = timer.due := congrArg Prod.fst hsame
      rw [h.now, ← hdue]
      exact not_due_of_fireNext hidle other hother

/-- What fires first, and is for another LSP, fires first in the mirror as well. -/
theorem first (h : Mirrors x s s') (hquiet : s'.Quiet x) {first : Timer TimerEvent}
    {rest : List (Timer TimerEvent)} (hpending : s.timers.pending = first :: rest)
    (hconcerns : first.event.concerns x = false) (hdue : first.due ≤ s.now) :
    ∃ first' rest', s'.timers.pending = first' :: rest' ∧ first'.due ≤ s'.now ∧
      first'.event = first.event := by
  have hkept : apartFrom x first.event = true := by simp [apartFrom, hconcerns]
  obtain ⟨items, hagenda⟩ := agenda_cons hpending hkept
  rw [← h.agenda] at hagenda
  obtain ⟨other, hother, -, hsame⟩ := mem_agenda.1 (hagenda ▸ List.mem_cons_self)
  have hsooner : other.due = first.due := congrArg Prod.fst hsame
  cases hpending' : s'.timers.pending with
  | nil =>
      rw [hpending'] at hother
      cases hother
  | cons first' rest' =>
      have hfirst : first'.due ≤ s'.now := by
        have hle := TimerQueue.due_le_of_first hpending' hother
        rw [h.now]
        omega
      have hapart : apartFrom x first'.event = true := by
        cases hconcerns' : first'.event.concerns x with
        | false => simp [apartFrom, hconcerns']
        | true =>
            have hkept' := h.consistent'.timers.kept_of_mem (hpending' ▸ List.mem_cons_self)
            exact absurd (hquiet.not_due hconcerns' hkept') (Nat.not_lt.2 hfirst)
      obtain ⟨items', hagenda'⟩ := agenda_cons hpending' hapart
      have hheads := (List.cons.inj (hagenda'.symm.trans hagenda)).1
      exact ⟨first', rest', rfl, hfirst, congrArg Prod.snd hheads⟩

end Mirrors

/-- The timers that are due fire in the same order in two states that mirror each other, but
for those of the LSP in which the states differ. -/
theorem Drains.mirrors (hdrains : Drains s t) (h : Mirrors x s s') (hsound : Sound heard s)
    (hsound' : Sound heard s') (hquiet : s'.Quiet x) (hdrains' : Drains s' t') :
    Mirrors x t t' := by
  induction hdrains generalizing s' with
  | @done s idle =>
      cases hdrains' with
      | done => exact h
      | fire next _ =>
          rw [h.idle hquiet idle] at next
          cases next
  | @fire s t u next rest ih =>
      have hsteps := fireNext_steps hsound next
      obtain ⟨first, others, hpending, hfirst, rfl⟩ := fireNext_first h.consistent next
      have hkept := h.consistent.timers.kept_of_mem (hpending ▸ List.mem_cons_self)
      cases hconcerns : first.event.concerns x with
      | true =>
          -- The mirror shows nothing of this, and waits.
          have hown := mirrors_act h.consistent h.foreign hconcerns hkept
          exact ih (hown.symm.trans h) (hsound.steps hsteps) hsound' hquiet hdrains'
      | false =>
          obtain ⟨first', others', hpending', hfirst', hsame⟩ :=
            h.first hquiet hpending hconcerns hfirst
          have hkept' := h.consistent'.timers.kept_of_mem (hpending' ▸ List.mem_cons_self)
          have hnext := fireNext_of_due h.consistent' hpending' hfirst'
          rw [hsame] at hkept' hnext
          cases hdrains' with
          | done idle =>
              rw [hnext] at idle
              cases idle
          | fire next' rest' =>
              obtain rfl := Option.some.inj (next'.symm.trans hnext)
              have halike :=
                act_alike hsound' ((h.isOwn x).trans h.foreign) hconcerns hkept' hfirst'
              exact ih (h.act hconcerns hkept) (hsound.steps hsteps)
                (hsound'.steps (fireNext_steps hsound' hnext)) (halike.quiet hquiet) rest'

end LevelState

end LinkState
