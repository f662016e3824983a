import LinkState.Proofs.Checksum
import LinkState.Proofs.Refusals

/-!
# What the checksum detects

Both sums over an octet string are linear in its octets, so two strings of one length whose
sums come to zero differ by something whose sums come to zero as well.  The weights of two
neighbouring octets differ by one, and a difference within two neighbours therefore vanishes
modulo 255 in each of them.  All that goes unnoticed there is an octet of zeros in place of
one of ones.
-/

namespace LinkState

namespace Checksum

variable {octets octets' head middle middle' tail : Octets} {x x' y y' : UInt8} {offset : Nat}

theorem balanced_iff : balanced octets = true ↔
    (plain octets : ZMod 255) = 0 ∧ (weighted octets : ZMod 255) = 0 := by
  constructor
  · intro h
    rw [balanced, sums_eq] at h
    obtain ⟨hplain, hweighted⟩ := Sums.mk.inj (of_decide_eq_true h)
    exact ⟨(ZMod.natCast_eq_zero_iff _ _).2 (Nat.dvd_of_mod_eq_zero hplain),
      (ZMod.natCast_eq_zero_iff _ _).2 (Nat.dvd_of_mod_eq_zero hweighted)⟩
  · rintro ⟨hplain, hweighted⟩
    exact balanced_of_cast hplain hweighted

/-- Two octets that the sums cannot tell apart. -/
def Alike (x y : UInt8) : Prop :=
  x = y ∨ x = 0x00 ∧ y = 0xff ∨ x = 0xff ∧ y = 0x00

instance (x y : UInt8) : Decidable (Alike x y) :=
  inferInstanceAs (Decidable (_ ∨ _))

theorem alike_iff : Alike x y ↔ (x.toNat : ZMod 255) = y.toNat := by
  have hx := x.toNat_lt
  have hy := y.toNat_lt
  rw [ZMod.natCast_eq_natCast_iff', Alike]
  simp only [← UInt8.toNat_inj, UInt8.reduceToNat]
  omega

/-- In a balanced string a part can only be replaced by one with the same sums. -/
theorem sums_congr_of_balanced (hlength : middle.length = middle'.length)
    (h : balanced (head ++ (middle ++ tail)) = true)
    (h' : balanced (head ++ (middle' ++ tail)) = true) :
    (plain middle : ZMod 255) = plain middle' ∧
      (weighted middle : ZMod 255) = weighted middle' := by
  obtain ⟨hplain, hweighted⟩ := balanced_iff.1 h
  obtain ⟨hplain', hweighted'⟩ := balanced_iff.1 h'
  simp only [plain_append, weighted_append, List.length_append, hlength] at hplain hweighted
  simp only [plain_append, weighted_append, List.length_append] at hplain' hweighted'
  push_cast at hplain hplain' hweighted hweighted'
  have hsame : (plain middle : ZMod 255) = plain middle' := by
    linear_combination hplain - hplain'
  constructor
  · exact hsame
  · linear_combination hweighted - hweighted' - (tail.length : ZMod 255) * hsame

/-- At most two octets are determined by their sums. -/
theorem alike_of_sums (hlength : middle.length = middle'.length) (hshort : middle.length ≤ 2)
    (hplain : (plain middle : ZMod 255) = plain middle')
    (hweighted : (weighted middle : ZMod 255) = weighted middle') :
    List.Forall₂ Alike middle middle' := by
  match middle, middle', hlength, hshort with
  | [], [], _, _ => exact .nil
  | [x], [y], _, _ =>
      simp only [plain, Nat.add_zero] at hplain
      exact .cons (alike_iff.2 hplain) .nil
  | [x₁, x₂], [y₁, y₂], _, _ =>
      -- The first octet counts twice in the weighted sum and once in the plain one.
      simp only [plain, weighted, List.length_cons, List.length_nil] at hplain hweighted
      push_cast at hplain hweighted
      have hfirst : (x₁.toNat : ZMod 255) = y₁.toNat := by
        linear_combination hweighted - hplain
      have hsecond : (x₂.toNat : ZMod 255) = y₂.toNat := by
        linear_combination 2 * hplain - hweighted
      exact .cons (alike_iff.2 hfirst) (.cons (alike_iff.2 hsecond) .nil)

/-! ### Changes within two neighbouring octets -/

/-- A string is another one with a change at an offset or right behind it, and nowhere else, in
which an octet is replaced by one that is not alike. -/
structure Changed (offset : Nat) (octets octets' : Octets) : Prop where
  length : octets.length = octets'.length
  elsewhere : ∀ i, i ≠ offset → i ≠ offset + 1 → octets[i]? = octets'[i]?
  there : ∃ i x y, (i = offset ∨ i = offset + 1) ∧ octets[i]? = some x ∧ octets'[i]? = some y ∧
    ¬ Alike x y

/-- Two neighbouring octets of a string are changed if one of them is replaced by one that is
not alike. -/
theorem changed_append (h : ¬ Alike x x' ∨ ¬ Alike y y') :
    Changed head.length (head ++ x :: y :: tail) (head ++ x' :: y' :: tail) where
  length := by simp
  elsewhere := by
    intro i hfirst hsecond
    rcases Nat.lt_or_ge i head.length with hbefore | hbehind
    · rw [List.getElem?_append_left hbefore, List.getElem?_append_left hbefore]
    · obtain ⟨j, rfl⟩ : ∃ j, i = head.length + (j + 2) := ⟨i - head.length - 2, by omega⟩
      rw [List.getElem?_append_right (Nat.le_add_right _ _),
        List.getElem?_append_right (Nat.le_add_right _ _), Nat.add_sub_cancel_left]
      rfl
  there := by
    rcases h with hfirst | hsecond
    · exact ⟨head.length, x, x', .inl rfl, by simp, by simp, hfirst⟩
    · exact ⟨head.length + 1, y, y', .inr rfl, by simp, by simp, hsecond⟩

/-- What stands before the change is not needed to see it. -/
theorem Changed.drop {n : Nat} (h : Changed (n + offset) octets octets') :
    Changed offset (octets.drop n) (octets'.drop n) where
  length := by rw [List.length_drop, List.length_drop, h.length]
  elsewhere := by
    intro i hfirst hsecond
    rw [List.getElem?_drop, List.getElem?_drop]
    exact h.elsewhere (n + i) (by omega) (by omega)
  there := by
    obtain ⟨i, x, y, hi, hx, hy, hdifferent⟩ := h.there
    refine ⟨i - n, x, y, by omega, ?_, ?_, hdifferent⟩
    · rw [List.getElem?_drop, Nat.add_sub_cancel' (by omega), hx]
    · rw [List.getElem?_drop, Nat.add_sub_cancel' (by omega), hy]

theorem Changed.take (h : Changed offset octets octets') {n : Nat} (hn : n ≤ offset) :
    octets.take n = octets'.take n := by
  apply List.ext_getElem?
  intro i
  by_cases hi : i < n
  · rw [List.getElem?_take_of_lt hi, List.getElem?_take_of_lt hi]
    exact h.elsewhere i (by omega) (by omega)
  · rw [List.getElem?_take_eq_none (by omega), List.getElem?_take_eq_none (by omega)]

theorem Changed.behind (h : Changed offset octets octets') :
    octets.drop (offset + 2) = octets'.drop (offset + 2) := by
  apply List.ext_getElem?
  intro i
  rw [List.getElem?_drop, List.getElem?_drop]
  exact h.elsewhere (offset + 2 + i) (by omega) (by omega)

theorem eq_take_append_middle (octets : Octets) (offset : Nat) :
    octets = octets.take offset ++ ((octets.drop offset).take 2 ++ octets.drop (offset + 2)) := by
  rw [← List.drop_drop, List.take_append_drop, List.take_append_drop]

/-- A change within two neighbouring octets upsets the balance. -/
theorem Changed.unbalanced (h : Changed offset octets octets') (hbalanced : balanced octets = true) :
    balanced octets' = false := by
  rw [← Bool.not_eq_true]
  intro hbalanced'
  rw [eq_take_append_middle octets offset] at hbalanced
  rw [eq_take_append_middle octets' offset, ← h.take (Nat.le_refl offset), ← h.behind] at hbalanced'
  have hlength : ((octets.drop offset).take 2).length = ((octets'.drop offset).take 2).length := by
    rw [List.length_take, List.length_take, List.length_drop, List.length_drop, h.length]
  obtain ⟨hplain, hweighted⟩ := sums_congr_of_balanced hlength hbalanced hbalanced'
  have halike := alike_of_sums hlength (List.length_take_le 2 _) hplain hweighted
  obtain ⟨i, x, y, hi, hx, hy, hdifferent⟩ := h.there
  have hmiddle : ∀ {list : Octets} {octet}, list[i]? = some octet →
      ((list.drop offset).take 2)[i - offset]? = some octet := by
    intro list octet hoctet
    rw [List.getElem?_take_of_lt (by omega), List.getElem?_drop,
      Nat.add_sub_cancel' (by omega), hoctet]
  obtain ⟨hi, hx⟩ := List.getElem?_eq_some_iff.1 (hmiddle hx)
  obtain ⟨hi', hy⟩ := List.getElem?_eq_some_iff.1 (hmiddle hy)
  apply hdifferent
  rw [← hx, ← hy]
  exact halike.get hi hi'

end Checksum

namespace Lsp

variable {octets octets' : Octets} {lsp other : Lsp} {now now' offset : Nat}

/-- The lifetime is not covered by the checksum, nor changed by what changes behind it. -/
theorem lifetime_eq_of_changed (hstands : lsp.StandsIn octets) (hstands' : other.StandsIn octets')
    (hoffset : coveredOffset ≤ offset) (hchanged : Checksum.Changed offset octets octets') :
    other.lifetime = lsp.lifetime := by
  have hfront : octets.take 12 = octets'.take 12 := hchanged.take hoffset
  apply Octets.ofU16_injective
  rw [← hstands.lifetime, ← hstands'.lifetime, List.extract_eq_take_drop,
    List.extract_eq_take_drop, ← List.drop_take, ← List.drop_take, hfront]

theorem balanced_of_checksumValid (hlive : lsp.lifetime ≠ 0) (hvalid : lsp.checksumValid = true) :
    Checksum.balanced (lsp.raw.drop coveredOffset) = true := by
  unfold checksumValid at hvalid
  split_ifs at hvalid with hnone
  · exact absurd (of_decide_eq_true hvalid) hlive
  · exact hvalid

/-- A checksum of zero does not save a live LSP whose octets do not balance. -/
theorem checksumValid_eq_false (hlive : lsp.lifetime ≠ 0)
    (hunbalanced : Checksum.balanced (lsp.raw.drop coveredOffset) = false) :
    lsp.checksumValid = false := by
  rw [← Bool.not_eq_true]
  intro hvalid
  rw [balanced_of_checksumValid hlive hvalid] at hunbalanced
  cases hunbalanced

/-- A change within two neighbouring octets that the checksum covers, the checksum itself
included, is detected in every live LSP, unless it only exchanges octets of zeros and octets of
ones.  The changed LSP is counted as a corrupt one wherever it comes in, and changes nothing
else. -/
theorem corruption_detected (hdecode : Pdu.decode now octets = .ok (.lsp lsp))
    (hlive : lsp.lifetime ≠ 0) (hvalid : lsp.checksumValid = true)
    (hoffset : coveredOffset ≤ offset) (hchanged : Checksum.Changed offset octets octets')
    (hdecode' : Pdu.decode now' octets' = .ok (.lsp other)) :
    other.checksumValid = false ∧
      ∀ (s : LevelState) operation, s.Brings other operation →
        s.refusal? operation = none ∧ s.OnlyCounted other (s.perform operation) ∧
          (s.perform operation).counters.corruptedLsps = s.counters.corruptedLsps + 1 := by
  have hstands := Pdu.standsIn_of_decode hdecode
  have hstands' := Pdu.standsIn_of_decode hdecode'
  have hlive' : other.lifetime ≠ 0 := by
    rwa [lifetime_eq_of_changed hstands hstands' hoffset hchanged]
  have hbalanced := balanced_of_checksumValid hlive hvalid
  rw [hstands.raw] at hbalanced
  obtain ⟨rest, rfl⟩ := Nat.exists_eq_add_of_le hoffset
  have hunbalanced := hchanged.drop.unbalanced hbalanced
  rw [← hstands'.raw] at hunbalanced
  have hinvalid := checksumValid_eq_false hlive' hunbalanced
  refine ⟨hinvalid, fun s operation hbrings => ?_⟩
  have hcorrupt : ¬ other.Valid := by
    intro hvalid'
    rw [hvalid'.intact] at hinvalid
    cases hinvalid
  obtain ⟨hserved, hcounted⟩ := hbrings.onlyCounted hcorrupt
  have hcount := hcounted.corrupted
  rw [hinvalid] at hcount
  exact ⟨hserved, hcounted, hcount⟩

/-- The octets of a live LSP without fields, up to its checksum. -/
def upToChecksum : Octets :=
  [0x83, 27, 1, 0, 18, 1, 0, 0, 0, 27, 4, 176, 0, 0, 0, 0, 0, 0, 0, 0, 0, 0, 0, 5]

/-- Zeros in place of the checksum are detected, and counted by a level that has heard nothing
before. -/
theorem corruption_detected_erased :
    ∃ lsp other, Pdu.decode 0 (upToChecksum ++ [245, 5, 0]) = .ok (.lsp lsp) ∧
      lsp.lifetime ≠ 0 ∧ lsp.checksumValid = true ∧
      Pdu.decode 0 (upToChecksum ++ [0, 0, 0]) = .ok (.lsp other) ∧
      other.checksum = 0 ∧ other.checksumValid = false ∧
      (LevelState.unheard.perform
        (.receiveLspOctets (some 1) (upToChecksum ++ [0, 0, 0]))).counters.corruptedLsps = 1 := by
  have hread : (match Pdu.decode 0 (upToChecksum ++ [245, 5, 0]) with
      | .ok (.lsp lsp) => decide (lsp.lifetime ≠ 0 ∧ lsp.checksumValid = true)
      | _ => false) = true := by
    decide +kernel
  have hread' : (match Pdu.decode 0 (upToChecksum ++ [0, 0, 0]) with
      | .ok (.lsp other) => decide (other.level = .one ∧ other.checksum = 0)
      | _ => false) = true := by
    decide +kernel
  split at hread
  case h_2 => cases hread
  rename_i lsp hdecode
  split at hread'
  case h_2 => cases hread'
  rename_i other hdecode'
  obtain ⟨hlive, hvalid⟩ := of_decide_eq_true hread
  obtain ⟨hlevel, hnone⟩ := of_decide_eq_true hread'
  have hchanged : Checksum.Changed upToChecksum.length (upToChecksum ++ [245, 5, 0])
      (upToChecksum ++ [0, 0, 0]) := Checksum.changed_append (.inl (by decide))
  have hbrings : LevelState.unheard.Brings other
      (.receiveLspOctets (some 1) (upToChecksum ++ [0, 0, 0])) :=
    .octets (by decide +kernel) hlevel hdecode'
  obtain ⟨hinvalid, hdiscarded⟩ :=
    corruption_detected hdecode hlive hvalid (by decide) hchanged hdecode'
  exact ⟨lsp, other, hdecode, hlive, hvalid, hdecode', hnone, hinvalid,
    (hdiscarded _ _ hbrings).2.2⟩

end Lsp

end LinkState
