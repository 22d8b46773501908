import ContractDraft.Proofs.Number.Rounding
import ContractDraft.Settings.Estimate

/-!
# Estimates of whole numbers

The digits of a number below `2 ^ 64` are all taken into its estimate, with no power of ten. A finite
number times one is the number itself (`mul_one`), so the estimate is the rounded number, which is
finite: no count is refused for its size (`isTooLarge_whole`).
-/

namespace ContractDraft

namespace Binary64

theorem ofDecimal_one : ofDecimal false 1 0 = .real false ⟨1023 * binadeSize, by decide⟩ := by
  decide +kernel

theorem ratio_one : ratio (1023 * binadeSize) = (binadeSize, binadeSize) := by
  decide +kernel

theorem mul_one {x : Binary64} (hx : x.isFinite = true) : x.mul (ofDecimal false 1 0) = x := by
  cases x with
  | nan => cases hx
  | real negative rank =>
    have hrank : rank.val < infinityRank := by simpa [isFinite] using hx
    obtain ⟨hden, hratio⟩ := ratio_spec rank
    rw [ofDecimal_one, mul]
    dsimp only
    rw [if_pos ⟨hrank, by decide⟩, ratio_one, ofRatio_mul_right _ _ _ (by decide),
      ofRatio_significandOf _ hden hrank hratio, Bool.bne_false]

end Binary64

namespace Numeral

/-- Digits are taken to the end if the number they make fits 64 bits. -/
theorem appendDigits_of_lt {n : ℕ} {s : List Char} (h : Nat.ofDigitChars 10 s n < UInt64.size) :
    appendDigits n s = (Nat.ofDigitChars 10 s n, 0) := by
  induction s generalizing n with
  | nil => rfl
  | cons c s ih =>
    rw [Nat.ofDigitChars_cons] at h ⊢
    -- More digits only make a number larger, so every number on the way fits too.
    have hle : 10 * n + (c.toNat - '0'.toNat) ≤
        Nat.ofDigitChars 10 s (10 * n + (c.toNat - '0'.toNat)) := by
      rw [Nat.ofDigitChars_eq_ofDigitChars_zero]
      exact Nat.le_add_right_of_le (Nat.le_mul_of_pos_left _ (Nat.pow_pos (by decide)))
    rw [appendDigits]
    exact (if_pos (Nat.lt_of_le_of_lt hle h)).trans (ih h)

theorem isTooLarge_whole (negative : Bool) {whole : List Char}
    (h : digitsValue whole < UInt64.size) :
    isTooLarge ⟨negative, whole, none, none⟩ = false := by
  have hleading : leading ⟨negative, whole, none, none⟩ = ⟨digitsValue whole, 0⟩ := by
    unfold leading
    rw [appendDigits_of_lt h]
    rfl
  have hfinite : (Binary64.ofRatio false (digitsValue whole) 1).isFinite = true := by
    have hsmall : 2 ^ 64 ≤ 2 ^ 1023 * 1 := by
      rw [Nat.mul_one]
      exact Nat.pow_le_pow_right two_pos (by omega)
    exact Binary64.isFinite_ofRatio false Nat.one_pos (Nat.lt_of_lt_of_le h hsmall)
  unfold isTooLarge estimate
  rw [hleading, Binary64.mul_one hfinite, hfinite]
  exact Bool.and_false _

end Numeral
end ContractDraft
