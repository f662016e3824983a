import LinkState.Identifier

/-!
# The order of LSP IDs

LSP IDs are ordered as the numbers that their octets write.  The successor of an
LSP ID is the next number, and every LSP ID but the greatest has one.
-/

namespace LinkState

namespace SystemId

theorem lt_iff {x y : SystemId} : x < y ↔ x.toNat < y.toNat := by
  show Before x y ↔ _
  simp only [Before, toNat, UInt8.lt_iff_toNat_lt, ← UInt8.toNat_inj]
  have := x.o0.toNat_lt; have := x.o1.toNat_lt; have := x.o2.toNat_lt
  have := x.o3.toNat_lt; have := x.o4.toNat_lt; have := x.o5.toNat_lt
  have := y.o0.toNat_lt; have := y.o1.toNat_lt; have := y.o2.toNat_lt
  have := y.o3.toNat_lt; have := y.o4.toNat_lt; have := y.o5.toNat_lt
  omega

theorem toNat_lt (x : SystemId) : x.toNat < 0x1000000000000 := by
  rw [toNat]
  have := x.o0.toNat_lt; have := x.o1.toNat_lt; have := x.o2.toNat_lt
  have := x.o3.toNat_lt; have := x.o4.toNat_lt; have := x.o5.toNat_lt
  omega

theorem toNat_ofNat {n : Nat} (h : n < 0x1000000000000) : (ofNat n).toNat = n := by
  simp only [ofNat, toNat, UInt8.toNat_ofNat']
  omega

end SystemId

namespace LspId

theorem lt_iff {x y : LspId} : x < y ↔ x.toNat < y.toNat := by
  show Before x y ↔ _
  have hsystem : x.system = y.system ↔ x.system.toNat = y.system.toNat :=
    ⟨congrArg _, SystemId.toNat_injective⟩
  simp only [Before, toNat, SystemId.lt_iff, hsystem, UInt8.lt_iff_toNat_lt, ← UInt8.toNat_inj]
  have := x.pseudonode.toNat_lt; have := x.fragment.toNat_lt
  have := y.pseudonode.toNat_lt; have := y.fragment.toNat_lt
  omega

theorem not_lt_iff {x y : LspId} : ¬ x < y ↔ y.toNat ≤ x.toNat := by
  rw [lt_iff]
  exact Nat.not_lt

theorem toNat_lt_count (x : LspId) : x.toNat < count := by
  have := x.system.toNat_lt; have := x.pseudonode.toNat_lt; have := x.fragment.toNat_lt
  unfold toNat count
  omega

theorem toNat_ofNat {n : Nat} (h : n < count) : (ofNat n).toNat = n := by
  have hsystem : n / 0x10000 < 0x1000000000000 := by
    rw [count] at h
    omega
  simp only [ofNat, toNat, SystemId.toNat_ofNat hsystem, UInt8.toNat_ofNat']
  omega

theorem toNat_first : first.toNat = 0 := rfl

theorem toNat_last : last.toNat + 1 = count := rfl

theorem not_lt_first (x : LspId) : ¬ x < first := by
  rw [not_lt_iff, toNat_first]
  exact Nat.zero_le _

theorem not_last_lt (x : LspId) : ¬ last < x := by
  rw [not_lt_iff]
  have hbound := x.toNat_lt_count
  rw [← toNat_last] at hbound
  exact Nat.lt_succ_iff.1 hbound

theorem toNat_successor {x y : LspId} (h : x.successor? = some y) : y.toNat = x.toNat + 1 := by
  rw [successor?] at h
  split at h
  · rename_i hbound
    obtain rfl := Option.some.inj h
    exact toNat_ofNat hbound
  · cases h

/-- Every LSP ID but the greatest has a successor. -/
theorem successor?_isSome {x : LspId} (h : x ≠ last) : ∃ y, x.successor? = some y := by
  rw [successor?]
  refine ⟨_, if_pos ?_⟩
  have hne : x.toNat ≠ last.toNat := fun heq => h (toNat_injective heq)
  have hbound := x.toNat_lt_count
  rw [← toNat_last] at hbound ⊢
  omega

/-- The fragments of a node are the LSP IDs from its first to its last. -/
theorem within_node_iff {node : NodeId} {id : LspId} :
    (¬ id < ofNode node 0 ∧ ¬ ofNode node 255 < id) ↔ id.node = node := by
  rcases id with ⟨system, pseudonode, fragment⟩
  rcases node with ⟨system', pseudonode'⟩
  have hsystem : system = system' ↔ system.toNat = system'.toNat :=
    ⟨congrArg _, SystemId.toNat_injective⟩
  simp only [not_lt_iff, toNat, ofNode, node, NodeId.mk.injEq, hsystem, ← UInt8.toNat_inj]
  have := pseudonode.toNat_lt; have := pseudonode'.toNat_lt; have := fragment.toNat_lt
  have h0 : (0 : UInt8).toNat = 0 := rfl
  have h255 : (255 : UInt8).toNat = 255 := rfl
  omega

/-- The LSPs of a system are the LSP IDs from its first to its last. -/
theorem within_system_iff {system : SystemId} {id : LspId} :
    (¬ id < ⟨system, 0, 0⟩ ∧ ¬ ⟨system, 255, 255⟩ < id) ↔ id.system = system := by
  rcases id with ⟨system', pseudonode, fragment⟩
  have hsystem : system' = system ↔ system'.toNat = system.toNat :=
    ⟨congrArg _, SystemId.toNat_injective⟩
  simp only [not_lt_iff, toNat, hsystem]
  have := pseudonode.toNat_lt; have := fragment.toNat_lt
  have h0 : (0 : UInt8).toNat = 0 := rfl
  have h255 : (255 : UInt8).toNat = 255 := rfl
  omega

end LspId

end LinkState
