import LinkState.Pdu.Lsp
import Mathlib.Data.ZMod.Basic
import Mathlib.Tactic.LinearCombination
import Mathlib.Tactic.Ring

/-!
# The checksum balances

The two running sums of an octet string are, modulo 255, the sum of its octets and their
sum weighted by the number of octets from each one to the end.  Both are linear in the
two octets of the checksum, which are chosen to make them zero.  Neither of the two is
ever zero itself, so a checksum is never mistaken for the absence of one.
-/

namespace LinkState

namespace Checksum

/-! ### The sums without reduction -/

def plain : Octets → Nat
  | [] => 0
  | octet :: rest => octet.toNat + plain rest

/-- The sum of the octets, each weighted by the number of octets from it to the end. -/
def weighted : Octets → Nat
  | [] => 0
  | octet :: rest => octet.toNat * (rest.length + 1) + weighted rest

theorem plain_append (a b : Octets) : plain (a ++ b) = plain a + plain b := by
  induction a with
  | nil => simp [plain]
  | cons octet rest ih => simp [plain, ih, Nat.add_assoc]

theorem weighted_append (a b : Octets) :
    weighted (a ++ b) = weighted a + plain a * b.length + weighted b := by
  induction a with
  | nil => simp [plain, weighted]
  | cons octet rest ih =>
      simp only [List.cons_append, weighted, plain, ih, List.length_append]
      ring

/-- Both running sums in closed form.  In the second one an octet counts once for itself and
once for every octet after it. -/
theorem foldl_add (octets : Octets) {start : Sums} (hfirst : start.first < 255)
    (hsecond : start.second < 255) :
    octets.foldl Sums.add start =
      ⟨(start.first + plain octets) % 255,
        (start.second + start.first * octets.length + weighted octets) % 255⟩ := by
  induction octets generalizing start with
  | nil => simp [plain, weighted, Nat.mod_eq_of_lt hfirst, Nat.mod_eq_of_lt hsecond]
  | cons octet rest ih =>
      rw [List.foldl_cons, ih (Nat.mod_lt _ (by decide)) (Nat.mod_lt _ (by decide))]
      simp only [Sums.add, plain, weighted, List.length_cons, Sums.mk.injEq]
      constructor
      · omega
      · have hmod : ∀ a b c n : Nat,
            ((a + b % 255) % 255 + b % 255 * n + c) % 255 = (a + b + b * n + c) % 255 := by
          intro a b c n
          simp [Nat.add_mod, Nat.mul_mod]
        rw [hmod]
        congr 1
        ring

theorem sums_eq (octets : Octets) : sums octets = ⟨plain octets % 255, weighted octets % 255⟩ := by
  have h := @foldl_add octets ⟨0, 0⟩ (by decide) (by decide)
  simp only [Nat.zero_add, Nat.zero_mul] at h
  exact h

/-! ### The check octets -/

/-- The first check octet is the residue of what it is made from, with 255 for zero. -/
theorem first_octet (a : Int) :
    ∃ x : Nat, 1 ≤ x ∧ x ≤ 255 ∧ (x : ZMod 255) = a ∧
      (if Int.tmod a 255 ≤ 0 then Int.tmod a 255 + 255 else Int.tmod a 255) = x := by
  have hlow : -255 < Int.tmod a 255 := Int.lt_tmod_of_pos a (by decide)
  have hhigh : Int.tmod a 255 < 255 := Int.tmod_lt_of_pos a (by decide)
  have hresidue : ((Int.tmod a 255 : Int) : ZMod 255) = a := by
    have hdiv : Int.tmod a 255 + 255 * Int.tdiv a 255 = a := Int.tmod_add_mul_tdiv a 255
    have hcast := congrArg (Int.cast : Int → ZMod 255) hdiv
    have hzero : (255 : ZMod 255) = 0 := by decide
    push_cast at hcast
    rwa [hzero, zero_mul, add_zero] at hcast
  have hzero : ((255 : Int) : ZMod 255) = 0 := by decide
  split_ifs with hsign
  · refine ⟨(Int.tmod a 255 + 255).toNat, by omega, by omega, ?_, by omega⟩
    rw [← Int.cast_natCast, Int.toNat_of_nonneg (by omega), Int.cast_add, hzero, hresidue, add_zero]
  · refine ⟨(Int.tmod a 255).toNat, by omega, by omega, ?_, by omega⟩
    rw [← Int.cast_natCast, Int.toNat_of_nonneg (by omega), hresidue]

/-- The second check octet makes up for the first one and the sum of the octets. -/
theorem second_octet {c x : Nat} (hc : c < 255) (hx : 1 ≤ x ∧ x ≤ 255) :
    ∃ y : Nat, 1 ≤ y ∧ y ≤ 255 ∧ (c + x + y : ZMod 255) = 0 ∧
      (if 255 < (510 - c - x : Int) then (510 - c - x : Int) - 255 else 510 - c - x) = y := by
  split_ifs with hgreat
  · refine ⟨255 - c - x, by omega, by omega, ?_, by omega⟩
    have hsum : ((c + x + (255 - c - x) : Nat) : ZMod 255) = 0 := by
      rw [show c + x + (255 - c - x) = 255 by omega]
      decide
    exact_mod_cast hsum
  · refine ⟨510 - c - x, by omega, by omega, ?_, by omega⟩
    have hsum : ((c + x + (510 - c - x) : Nat) : ZMod 255) = 0 := by
      rw [show c + x + (510 - c - x) = 510 by omega]
      decide
    exact_mod_cast hsum

theorem balanced_of_cast {octets : Octets} (hplain : (plain octets : ZMod 255) = 0)
    (hweighted : (weighted octets : ZMod 255) = 0) : balanced octets = true := by
  rw [balanced, sums_eq]
  simp [Nat.mod_eq_zero_of_dvd ((ZMod.natCast_eq_zero_iff _ _).1 hplain),
    Nat.mod_eq_zero_of_dvd ((ZMod.natCast_eq_zero_iff _ _).1 hweighted)]

/-- With the check octets in place of the two zeros the octets balance, and neither check
octet is zero. -/
theorem octets_spec {head tail : Octets} (hhead : head.length = 12) {x y : UInt8}
    (h : octets (head ++ 0 :: 0 :: tail) = (x, y)) :
    balanced (head ++ x :: y :: tail) = true ∧ x ≠ 0 ∧ y ≠ 0 := by
  have hplain : plain (head ++ 0 :: 0 :: tail) = plain head + plain tail := by
    rw [plain_append, plain, plain]
    simp
  have hweighted : weighted (head ++ 0 :: 0 :: tail) =
      weighted head + plain head * (tail.length + 2) + weighted tail := by
    rw [weighted_append, weighted, weighted]
    simp
  simp only [octets, sums_eq, hplain, hweighted, List.length_append, List.length_cons, hhead] at h
  generalize hc : (plain head + plain tail) % 255 = c at h
  generalize hd : (weighted head + plain head * (tail.length + 2) + weighted tail) % 255 = d at h
  have hcz : (c : ZMod 255) = plain head + plain tail := by
    rw [← hc, ZMod.natCast_mod, Nat.cast_add]
  have hdz : (d : ZMod 255) =
      weighted head + plain head * (tail.length + 2) + weighted tail := by
    rw [← hd, ZMod.natCast_mod]
    push_cast
    rfl
  obtain ⟨m, hlow, hhigh, hm, hfirst⟩ :=
    first_octet ((((12 + (tail.length + 1 + 1) : Nat) : Int) - 13) * c - d)
  have hclt : c < 255 := hc ▸ Nat.mod_lt _ (by decide)
  obtain ⟨n, hnlow, hnhigh, hn, hsecond⟩ := second_octet hclt ⟨hlow, hhigh⟩
  rw [hfirst, hsecond] at h
  cases h
  have hmz : (m : ZMod 255) = (tail.length + 1) * c - d := by
    rw [hm]
    push_cast
    ring
  have hx : (UInt8.ofNat (m : Int).toNat).toNat = m := by
    rw [UInt8.toNat_ofNat', Int.toNat_natCast]
    exact Nat.mod_eq_of_lt (Nat.lt_succ_of_le hhigh)
  have hy : (UInt8.ofNat (n : Int).toNat).toNat = n := by
    rw [UInt8.toNat_ofNat', Int.toNat_natCast]
    exact Nat.mod_eq_of_lt (Nat.lt_succ_of_le hnhigh)
  refine ⟨balanced_of_cast ?_ ?_, fun hzero => ?_, fun hzero => ?_⟩
  · rw [plain_append, plain, plain, hx, hy]
    push_cast
    linear_combination hn - hcz
  · rw [weighted_append, weighted, weighted, hx, hy, List.length_cons, List.length_cons]
    push_cast
    linear_combination hmz + (tail.length + 1 : ZMod 255) * hn - hdz
  · rw [hzero, UInt8.toNat_zero] at hx
    omega
  · rw [hzero, UInt8.toNat_zero] at hy
    omega

end Checksum

theorem Octets.ofU16_word16 (a b : UInt8) : ofU16 (word16 a b) = [a, b] := by
  have ha := a.toNat_lt
  have hb := b.toNat_lt
  have hword : (word16 a b).toNat = a.toNat * 256 + b.toNat := by
    rw [word16, UInt16.toNat_ofNat']
    omega
  rw [ofU16, hword]
  simp only [List.cons.injEq, and_true, ← UInt8.toNat_inj, UInt8.toNat_ofNat']
  omega

/-- A word is not zero if its first octet is not. -/
theorem Octets.word16_ne_zero {a b : UInt8} (h : a ≠ 0) : word16 a b ≠ 0 := by
  intro hzero
  have hoctets := ofU16_word16 a b
  rw [hzero] at hoctets
  cases hoctets
  exact h rfl

namespace Lsp

/-- A live LSP is encoded with two check octets, neither of which is zero, that make its
covered octets balance. -/
theorem exists_octets_encode {lsp : Lsp} (now : Nat) (hlive : lsp.lifetime ≠ 0) :
    ∃ x y : UInt8, x ≠ 0 ∧ y ≠ 0 ∧ (lsp.encode now).checksum = Octets.word16 x y ∧
      Checksum.balanced ((lsp.encode now).raw.drop coveredOffset) = true := by
  rcases hcheck : Checksum.octets (lsp.covered 0) with ⟨x, y⟩
  have hcovered : ∀ checksum, lsp.covered checksum = (lsp.id.toOctets ++ Octets.ofU32 lsp.seqno) ++
      (Octets.ofU16 checksum ++ lsp.flags.bits :: lsp.tlvs.toOctets) := by
    intro checksum
    simp [covered]
  obtain ⟨hbalanced, hx, hy⟩ :=
    @Checksum.octets_spec (lsp.id.toOctets ++ Octets.ofU32 lsp.seqno) _ rfl x y
      (hcovered 0 ▸ hcheck)
  have hchecksum : (lsp.encode now).checksum = Octets.word16 x y := by
    show lsp.computeChecksum = _
    rw [computeChecksum, if_neg hlive, hcheck]
  have hdrop : (lsp.encode now).raw.drop coveredOffset = lsp.covered (Octets.word16 x y) := by
    rw [← hchecksum]
    rfl
  refine ⟨x, y, hx, hy, hchecksum, ?_⟩
  rw [hdrop, hcovered, Octets.ofU16_word16]
  exact hbalanced

/-- The checksum that an LSP is encoded with fits its octets. -/
theorem checksumValid_encode (lsp : Lsp) (now : Nat) : (lsp.encode now).checksumValid = true := by
  by_cases hpurge : lsp.lifetime = 0
  · have hchecksum : (lsp.encode now).checksum = 0 := if_pos hpurge
    rw [checksumValid, if_pos hchecksum]
    exact decide_eq_true hpurge
  obtain ⟨x, y, hx, -, hchecksum, hbalanced⟩ := exists_octets_encode now hpurge
  have hlong : ¬ (lsp.encode now).raw.length < coveredOffset := by
    show ¬ (lsp.assemble _).length < 12
    simp [assemble, Header.toOctets, Octets.ofU16]
  rw [checksumValid, hchecksum, if_neg (Octets.word16_ne_zero hx), if_neg hlong]
  exact hbalanced

end Lsp

end LinkState
