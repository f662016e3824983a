import LinkState.Flooding
import LinkState.Proofs.Table
import Mathlib.Logic.Function.Basic

/-!
# Flags that fit what is stored

The flags of a circuit fit the stored sequence numbers if every LSP that is
marked for sending is stored with a number other than zero, and every LSP that is
marked for acknowledgement is stored, with the number that is to be acknowledged
or as a placeholder.  Flags that fit still do when they are set and cleared as a
new sequence number is stored.
-/

namespace LinkState

/-! ### The flags of one circuit -/

namespace CircuitFlags

/-- The flags fit the sequence numbers that are stored. -/
structure Fit (flags : CircuitFlags) (seqno? : LspId → Option UInt32) : Prop where
  srm : ∀ {id}, flags.srm.contains id = true → ∃ seqno, seqno? id = some seqno ∧ seqno ≠ 0
  ssn : ∀ {id summary}, flags.ssn.get? id = some summary →
    summary.id = id ∧ ∃ seqno, seqno? id = some seqno ∧ (seqno = 0 ∨ summary.seqno = seqno)

namespace Fit

variable {flags : CircuitFlags} {seqno? : LspId → Option UInt32}

theorem empty : CircuitFlags.empty.Fit seqno? where
  srm := fun h => by cases h
  ssn := fun h => by cases h

theorem clear (h : flags.Fit seqno?) (flag : Flag) (id : LspId) :
    (flags.clear flag id).Fit seqno? := by
  cases flag with
  | srm =>
      refine ⟨fun {other} hset => ?_, h.ssn⟩
      rw [CircuitFlags.clear, Table.contains_erase, Bool.and_eq_true] at hset
      exact h.srm hset.2
  | ssn =>
      refine ⟨h.srm, fun {other summary} hset => ?_⟩
      by_cases hid : other = id
      · rw [CircuitFlags.clear, hid, Table.get?_erase_self] at hset
        cases hset
      · rw [CircuitFlags.clear, Table.get?_erase_of_ne _ hid] at hset
        exact h.ssn hset

/-- An LSP may be marked for sending with its stored sequence number. -/
theorem set_srm (h : flags.Fit seqno?) {summary : LspSummary}
    (hstored : seqno? summary.id = some summary.seqno) : (flags.set .srm summary).Fit seqno? := by
  rw [CircuitFlags.set]
  split
  · exact h
  · rename_i hseqno
    refine ⟨fun {other} hset => ?_, h.ssn⟩
    rw [Table.contains_insert, Bool.or_eq_true, decide_eq_true_iff] at hset
    rcases hset with rfl | hset
    · exact ⟨summary.seqno, hstored, hseqno⟩
    · exact h.srm hset

/-- An LSP may be marked for acknowledgement with its stored sequence number, and
with any sequence number if a placeholder is stored. -/
theorem set_ssn (h : flags.Fit seqno?) {summary : LspSummary} {seqno : UInt32}
    (hstored : seqno? summary.id = some seqno) (hsame : seqno = 0 ∨ summary.seqno = seqno) :
    (flags.set .ssn summary).Fit seqno? := by
  refine ⟨h.srm, fun {other noted} hset => ?_⟩
  by_cases hid : other = summary.id
  · rw [CircuitFlags.set, hid, Table.get?_insert_self] at hset
    obtain rfl := Option.some.inj hset
    exact ⟨hid.symm, seqno, hid ▸ hstored, hsame⟩
  · rw [CircuitFlags.set, Table.get?_insert_of_ne _ _ hid] at hset
    exact h.ssn hset

/-- Another sequence number is stored for an LSP that is not marked for
acknowledgement, and that is not marked for sending if the number is zero. -/
theorem update (h : flags.Fit seqno?) {id : LspId} {stored : Option UInt32}
    (hssn : flags.ssn.get? id = none)
    (hsrm : flags.srm.contains id = true → ∃ seqno, stored = some seqno ∧ seqno ≠ 0) :
    flags.Fit (Function.update seqno? id stored) := by
  constructor
  · intro other hset
    by_cases hid : other = id
    · subst hid
      rw [Function.update_self]
      exact hsrm hset
    · rw [Function.update_of_ne hid]
      exact h.srm hset
  · intro other summary hset
    by_cases hid : other = id
    · rw [hid, hssn] at hset
      cases hset
    · rw [Function.update_of_ne hid]
      exact h.ssn hset

/-- Once both flags of an LSP are cleared, whatever is stored for it fits. -/
theorem cleared (h : flags.Fit seqno?) (id : LspId) (stored : Option UInt32) :
    ((flags.clear .srm id).clear .ssn id).Fit (Function.update seqno? id stored) := by
  apply ((h.clear .srm id).clear .ssn id).update (Table.get?_erase_self _ _)
  intro hset
  have herased : (flags.srm.erase id).contains id = true := hset
  simp [Table.contains_erase] at herased

/-- A newer instance that is to be sent takes the place of what is stored. -/
theorem superseded (h : flags.Fit seqno?) {summary : LspSummary}
    (hnewer : ∀ seqno, seqno? summary.id = some seqno → seqno ≠ 0 → summary.seqno ≠ 0) :
    ((flags.set .srm summary).clear .ssn summary.id).Fit
      (Function.update seqno? summary.id (some summary.seqno)) := by
  have hcomm : (flags.set .srm summary).clear .ssn summary.id =
      (flags.clear .ssn summary.id).set .srm summary := by
    simp only [CircuitFlags.set, CircuitFlags.clear]
    split <;> rfl
  rw [hcomm]
  refine ((h.clear .ssn summary.id).update (Table.get?_erase_self _ _) fun hset => ?_).set_srm
    (Function.update_self _ _ _)
  obtain ⟨seqno, hstored, hseqno⟩ := h.srm hset
  exact ⟨summary.seqno, rfl, hnewer seqno hstored hseqno⟩

/-- A newer instance that is to be acknowledged takes the place of what is
stored. -/
theorem received (h : flags.Fit seqno?) (summary : LspSummary) :
    ((flags.clear .srm summary.id).set .ssn summary).Fit
      (Function.update seqno? summary.id (some summary.seqno)) := by
  have hclear : (flags.clear .srm summary.id).set .ssn summary =
      ((flags.clear .srm summary.id).clear .ssn summary.id).set .ssn summary := by
    simp only [CircuitFlags.set, CircuitFlags.clear, Table.insert_erase]
  rw [hclear]
  exact (h.cleared summary.id _).set_ssn (Function.update_self _ _ _) (.inr rfl)

/-- A placeholder takes the place of nothing or of a placeholder. -/
theorem placeholder (h : flags.Fit seqno?) {id : LspId}
    (hunknown : ∀ seqno, seqno? id = some seqno → seqno = 0) :
    flags.Fit (Function.update seqno? id (some 0)) := by
  constructor
  · intro other hset
    obtain ⟨seqno, hstored, hseqno⟩ := h.srm hset
    by_cases hid : other = id
    · exact absurd (hunknown seqno (hid ▸ hstored)) hseqno
    · exact ⟨seqno, by rw [Function.update_of_ne hid, hstored], hseqno⟩
  · intro other summary hset
    obtain ⟨hsummary, seqno, hstored, hsame⟩ := h.ssn hset
    refine ⟨hsummary, ?_⟩
    by_cases hid : other = id
    · exact ⟨0, by rw [hid, Function.update_self], .inl rfl⟩
    · exact ⟨seqno, by rw [Function.update_of_ne hid, hstored], hsame⟩

end Fit

end CircuitFlags

/-! ### The flags of all circuits -/

namespace Flooding

theorem get?_set (flooding : Flooding) (flag : Flag) (summary : LspSummary)
    (circuit c : CircuitId) :
    (flooding.set flag summary circuit).get? c =
      (flooding.get? c).map fun flags => if c = circuit then flags.set flag summary else flags :=
  Table.get?_modify_eq_map ..

theorem get?_clear (flooding : Flooding) (flag : Flag) (id : LspId) (circuit c : CircuitId) :
    (flooding.clear flag id circuit).get? c =
      (flooding.get? c).map fun flags => if c = circuit then flags.clear flag id else flags :=
  Table.get?_modify_eq_map ..

theorem get?_setAll (flooding : Flooding) (flag : Flag) (summary : LspSummary)
    (except : Option CircuitId) (c : CircuitId) :
    (flooding.setAll flag summary except).get? c =
      (flooding.get? c).map fun flags =>
        if some c = except then flags else flags.set flag summary :=
  Table.get?_map ..

theorem get?_clearAll (flooding : Flooding) (flag : Flag) (id : LspId)
    (except : Option CircuitId) (c : CircuitId) :
    (flooding.clearAll flag id except).get? c =
      (flooding.get? c).map fun flags =>
        if some c = except then flags else flags.clear flag id :=
  Table.get?_map ..

theorem get?_removeLsp (flooding : Flooding) (id : LspId) (c : CircuitId) :
    (flooding.removeLsp id).get? c =
      (flooding.get? c).map fun flags => (flags.clear .srm id).clear .ssn id := by
  rw [removeLsp, get?_clearAll, get?_clearAll]
  cases flooding.get? c <;> rfl

end Flooding

end LinkState
