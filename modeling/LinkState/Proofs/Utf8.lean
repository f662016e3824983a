import LinkState.Text.Utf8
import Mathlib.Data.List.Basic

/-!
# Reading back text

Text that was written in UTF-8 reads back as it was.  A character is written as a leading
octet, which says how many octets are to come, and these carry six bits each.
-/

namespace LinkState.Text.Utf8

/-- A leading octet opens a character. -/
theorem decodeFrom_begin {octet : UInt8} {opened : Partial} (rest : Octets)
    (hlead : 0x80 ≤ octet.toNat) (h : begin? octet = some opened) :
    decodeFrom none (octet :: rest) = decodeFrom (some opened) rest := by
  simp [decodeFrom, step, start, Nat.not_lt.2 hlead, h]

theorem toNat_lead {n bound : Nat} (lead : Nat) (h : n < bound) (hbound : lead + bound ≤ 256) :
    (UInt8.ofNat (n + lead)).toNat = n + lead := by
  rw [UInt8.toNat_ofNat']
  exact Nat.mod_eq_of_lt (by omega)

section Tail

variable {opened : Partial} {n : Nat} (hlow : opened.low.toNat ≤ n % 64 + 0x80)
  (hhigh : n % 64 + 0x80 ≤ opened.high.toNat)

include hlow hhigh

theorem step_tail :
    step (some opened) (UInt8.ofNat (n % 64 + 0x80)) =
      if opened.missing ≤ 1 then ([Char.ofNat (opened.value * 64 + n % 64)], none)
      else ([], some ⟨opened.missing - 1, 0x80, 0xBF, opened.value * 64 + n % 64⟩) := by
  have hoctet := toNat_lead 0x80 (Nat.mod_lt n (show 0 < 64 by decide)) (by decide)
  rw [step]
  dsimp only
  rw [if_pos, hoctet, Nat.add_sub_cancel]
  rw [UInt8.le_iff_toNat_le, UInt8.le_iff_toNat_le, hoctet]
  exact ⟨hlow, hhigh⟩

/-- An octet before the last one adds its six bits to the character. -/
theorem decodeFrom_next (rest : Octets) (hmissing : 1 < opened.missing) :
    decodeFrom (some opened) (UInt8.ofNat (n % 64 + 0x80) :: rest) =
      decodeFrom (some ⟨opened.missing - 1, 0x80, 0xBF, opened.value * 64 + n % 64⟩) rest := by
  rw [decodeFrom, step_tail hlow hhigh, if_neg (Nat.not_le.2 hmissing)]
  rfl

end Tail

/-- The last octet completes the character. -/
theorem decodeFrom_last (value n : Nat) (rest : Octets) :
    decodeFrom (some ⟨1, 0x80, 0xBF, value⟩) (UInt8.ofNat (n % 64 + 0x80) :: rest) =
      Char.ofNat (value * 64 + n % 64) :: decodeFrom none rest := by
  rw [decodeFrom, step_tail (Nat.le_add_left _ _) (show n % 64 + 128 ≤ 191 by omega)]
  rfl

/-- The octet that opens a character of three octets, and the range of the next one. -/
theorem begin_three {octet : UInt8} {v : Nat} (hoctet : octet.toNat = v / 4096 + 0xE0)
    (hlow : 0x800 ≤ v) (hhigh : v < 0x10000) (hvalid : v < 0xD800 ∨ 0xDFFF < v) :
    ∃ opened, begin? octet = some opened ∧ opened.missing = 2 ∧ opened.value = v / 4096 ∧
      opened.low.toNat ≤ v / 64 % 64 + 0x80 ∧ v / 64 % 64 + 0x80 ≤ opened.high.toNat := by
  simp only [begin?, hoctet]
  rw [if_neg (by omega), if_neg (by omega)]
  by_cases hfirst : v / 4096 = 0
  · refine ⟨_, if_pos (by omega), rfl, hfirst.symm, ?_, ?_⟩
    · show 160 ≤ _
      omega
    · show _ ≤ 191
      omega
  rw [if_neg (by omega)]
  by_cases hsurrogates : v / 4096 = 13
  · refine ⟨_, if_pos (by omega), rfl, Nat.add_sub_cancel .., ?_, ?_⟩
    · show 128 ≤ _
      omega
    · show _ ≤ 159
      omega
  rw [if_neg (by omega)]
  refine ⟨_, if_pos (by omega), rfl, Nat.add_sub_cancel .., ?_, ?_⟩
  · show 128 ≤ _
    omega
  · show _ ≤ 191
    omega

/-- The octet that opens a character of four octets, and the range of the next one. -/
theorem begin_four {octet : UInt8} {v : Nat} (hoctet : octet.toNat = v / 262144 + 0xF0)
    (hlow : 0x10000 ≤ v) (hhigh : v < 0x110000) :
    ∃ opened, begin? octet = some opened ∧ opened.missing = 3 ∧ opened.value = v / 262144 ∧
      opened.low.toNat ≤ v / 4096 % 64 + 0x80 ∧ v / 4096 % 64 + 0x80 ≤ opened.high.toNat := by
  simp only [begin?, hoctet]
  rw [if_neg (by omega), if_neg (by omega), if_neg (by omega), if_neg (by omega),
    if_neg (by omega)]
  by_cases hfirst : v / 262144 = 0
  · refine ⟨_, if_pos (by omega), rfl, hfirst.symm, ?_, ?_⟩
    · show 144 ≤ _
      omega
    · show _ ≤ 191
      omega
  rw [if_neg (by omega)]
  by_cases hlast : v / 262144 = 4
  · rw [if_neg (by omega)]
    refine ⟨_, if_pos (by omega), rfl, Nat.add_sub_cancel .., ?_, ?_⟩
    · show 128 ≤ _
      omega
    · show _ ≤ 143
      omega
  refine ⟨_, if_pos (by omega), rfl, Nat.add_sub_cancel .., ?_, ?_⟩
  · show 128 ≤ _
    omega
  · show _ ≤ 191
    omega

/-- A character reads back from its octets. -/
theorem decodeFrom_utf8EncodeChar (c : Char) (rest : Octets) :
    decodeFrom none (String.utf8EncodeChar c ++ rest) = c :: decodeFrom none rest := by
  have hvalid : c.toNat < 0xD800 ∨ 0xDFFF < c.toNat ∧ c.toNat < 0x110000 := c.valid
  have hchar : ∀ n, n = c.toNat → Char.ofNat n = c := by
    rintro n rfl
    exact c.ofNat_toNat
  rw [String.utf8EncodeChar, Char.toNat_val]
  generalize c.toNat = v at hvalid hchar
  split_ifs with hone htwo hthree
  · have hoctet : (UInt8.ofNat v).toNat = v := toNat_lead 0 (Nat.lt_succ_of_le hone) (by decide)
    have hshort : v < 128 := Nat.lt_succ_of_le hone
    simp [decodeFrom, step, start, hoctet, hshort, hchar]
  · have hlead : (UInt8.ofNat (v / 64 % 32 + 0xC0)).toNat = v / 64 + 0xC0 := by
      rw [toNat_lead 0xC0 (Nat.mod_lt _ (by decide)) (by decide)]
      omega
    have hbegin : begin? (UInt8.ofNat (v / 64 % 32 + 0xC0)) = some ⟨1, 0x80, 0xBF, v / 64⟩ := by
      simp only [begin?, hlead]
      rw [if_neg (by omega), if_pos (by omega), Nat.add_sub_cancel]
    rw [List.cons_append, List.cons_append, List.nil_append,
      decodeFrom_begin _ (by omega) hbegin, decodeFrom_last, hchar]
    omega
  · have hlead : (UInt8.ofNat (v / 4096 % 16 + 0xE0)).toNat = v / 4096 + 0xE0 := by
      rw [toNat_lead 0xE0 (Nat.mod_lt _ (by decide)) (by decide)]
      omega
    obtain ⟨opened, hbegin, hmissing, hvalue, hlow, hhigh⟩ :=
      begin_three hlead (by omega) (by omega) (by omega)
    rw [List.cons_append, List.cons_append, List.cons_append, List.nil_append,
      decodeFrom_begin _ (by omega) hbegin, decodeFrom_next hlow hhigh _ (by omega), hmissing,
      decodeFrom_last, hvalue, hchar]
    omega
  · have hlead : (UInt8.ofNat (v / 262144 % 8 + 0xF0)).toNat = v / 262144 + 0xF0 := by
      rw [toNat_lead 0xF0 (Nat.mod_lt _ (by decide)) (by decide)]
      omega
    obtain ⟨opened, hbegin, hmissing, hvalue, hlow, hhigh⟩ :=
      begin_four hlead (by omega) (by omega)
    have hlow' : (0x80 : UInt8).toNat ≤ v / 64 % 64 + 0x80 := Nat.le_add_left _ _
    have hhigh' : v / 64 % 64 + 0x80 ≤ (0xBF : UInt8).toNat := by
      show _ ≤ 191
      omega
    rw [List.cons_append, List.cons_append, List.cons_append, List.cons_append, List.nil_append,
      decodeFrom_begin _ (by omega) hbegin, decodeFrom_next hlow hhigh _ (by omega), hmissing,
      @decodeFrom_next ⟨2, 0x80, 0xBF, _⟩ _ hlow' hhigh' _ (show 1 < 2 by decide)]
    dsimp only
    rw [decodeFrom_last, hvalue, hchar]
    omega

theorem decode_encode (chars : List Char) : decode (encode chars) = chars := by
  induction chars with
  | nil => rfl
  | cons c rest ih =>
      rw [encode, List.flatMap_cons, decode, decodeFrom_utf8EncodeChar]
      exact congrArg (c :: ·) ih

end LinkState.Text.Utf8
