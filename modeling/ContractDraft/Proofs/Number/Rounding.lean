import ContractDraft.Number.Shortest
import Mathlib.Tactic.NormNum
import Mathlib.Tactic.Ring

/-!
# Rounding depends on the number alone

A decimal is rounded as the quotient of whole numbers that it is: the shortcuts for very large and
very small decimals change nothing (`ofDecimal_eq_ofRatio`), and neither does a common factor of
numerator and denominator. So a decimal with zeros at its end and the decimal without them round to
the same number (`ofDecimal_mul_pow`), and a binary64 number written out exactly is rounded to
itself (`ofDecimal_exactDecimal`).
-/

namespace ContractDraft.Binary64

/-! ## Quotients -/

theorem roundHalfEven_mul_right (n d : ℕ) {c : ℕ} (hc : 0 < c) :
    roundHalfEven (n * c) (d * c) = roundHalfEven n d := by
  have hlt : 2 * (n % d * c) < d * c ↔ 2 * (n % d) < d := by
    rw [← Nat.mul_assoc]
    exact Nat.mul_lt_mul_right hc
  have heq : 2 * (n % d * c) = d * c ↔ 2 * (n % d) = d := by
    rw [← Nat.mul_assoc]
    exact Nat.mul_left_inj (Nat.ne_of_gt hc)
  unfold roundHalfEven
  rw [Nat.mul_div_mul_right _ _ hc, Nat.mul_mod_mul_right]
  simp only [hlt, heq]

/-- A whole number needs no rounding. -/
theorem roundHalfEven_mul_self (n : ℕ) {d : ℕ} (hd : 0 < d) : roundHalfEven (n * d) d = n := by
  unfold roundHalfEven
  rw [Nat.mul_div_cancel _ hd, Nat.mul_mod_left]
  simp [hd]

theorem div_le_roundHalfEven (n d : ℕ) : n / d ≤ roundHalfEven n d := by
  unfold roundHalfEven
  dsimp only
  split <;> omega

theorem roundHalfEven_le (n d : ℕ) : roundHalfEven n d ≤ n / d + 1 := by
  unfold roundHalfEven
  dsimp only
  split <;> omega

/-- Rounding a quotient, in units of the least positive number. -/
theorem ofRatio_eq (negative : Bool) (num den : ℕ) :
    ofRatio negative num den =
      ofParts negative (roundHalfEven (num * 2 ^ 1074)
          (den * 2 ^ (Nat.log2 (num * 2 ^ 1074 / den) - 52)))
        (Nat.log2 (num * 2 ^ 1074 / den) - 52) := rfl

/-- A common factor changes nothing. -/
theorem ofRatio_mul_right (negative : Bool) (num den : ℕ) {c : ℕ} (hc : 0 < c) :
    ofRatio negative (num * c) (den * c) = ofRatio negative num den := by
  rw [ofRatio_eq, ofRatio_eq, mul_right_comm num c]
  generalize num * 2 ^ 1074 = scaled
  rw [Nat.mul_div_mul_right _ _ hc, mul_right_comm den c, roundHalfEven_mul_right _ _ hc]

/-- Below half of the least positive number there is only zero. -/
theorem ofRatio_of_lt (negative : Bool) {num den : ℕ} (h : num * 2 ^ (1074 + 1) < den) :
    ofRatio negative num den = zero negative := by
  rw [pow_succ, ← Nat.mul_assoc] at h
  rw [ofRatio_eq, zero]
  generalize num * 2 ^ 1074 = scaled at h ⊢
  have hdiv : scaled / den = 0 := Nat.div_eq_of_lt (by omega)
  have hmod : scaled % den = scaled := Nat.mod_eq_of_lt (by omega)
  have hround : roundHalfEven scaled den = 0 := by
    unfold roundHalfEven
    rw [hdiv, hmod, if_pos (.inl (by omega))]
  have hshift : Nat.log2 0 - 52 = 0 := by decide
  rw [hdiv, hshift, pow_zero, Nat.mul_one, hround]

/-- From `2 ^ 1024` on there is only infinity. -/
theorem ofRatio_of_le (negative : Bool) {num den : ℕ} (hden : 0 < den)
    (h : 2 ^ 1024 * den ≤ num) : ofRatio negative num den = infinity negative := by
  have hquotient : 2 ^ (1024 + 1074) ≤ num * 2 ^ 1074 / den := by
    rw [Nat.le_div_iff_mul_le hden, pow_add, Nat.mul_right_comm]
    exact Nat.mul_le_mul_right _ h
  rw [ofRatio_eq]
  generalize num * 2 ^ 1074 = scaled at hquotient ⊢
  generalize hq : scaled / den = q at hquotient ⊢
  have hunits : 0 < 2 ^ (1024 + 1074) := pow_pos two_pos _
  have hpos : q ≠ 0 := Nat.ne_of_gt (Nat.lt_of_lt_of_le hunits hquotient)
  have hlog : 1024 + 1074 ≤ q.log2 := (Nat.le_log2 hpos).mpr hquotient
  -- The significand has its leading bit, so the rank is at least that of infinity.
  have hsignificand : 2 ^ 52 ≤ roundHalfEven scaled (den * 2 ^ (q.log2 - 52)) := by
    refine Nat.le_trans ?_ (div_le_roundHalfEven _ _)
    rw [← Nat.div_div_eq_div_mul, hq, Nat.le_div_iff_mul_le (pow_pos two_pos _), ← pow_add,
      show 52 + (q.log2 - 52) = q.log2 by omega]
    exact Nat.log2_self_le hpos
  generalize roundHalfEven scaled (den * 2 ^ (q.log2 - 52)) = significand at hsignificand ⊢
  have hrank : min ((q.log2 - 52) * binadeSize + significand) infinityRank = infinityRank := by
    refine Nat.min_eq_right ?_
    have : 2046 * binadeSize ≤ (q.log2 - 52) * binadeSize := Nat.mul_le_mul_right _ (by omega)
    clear hquotient
    simp only [binadeSize, infinityRank] at *
    omega
  unfold ofParts infinity
  simp only [hrank]

/-- Below `2 ^ 1023` nothing is rounded to infinity. -/
theorem isFinite_ofRatio (negative : Bool) {num den : ℕ} (hden : 0 < den)
    (h : num < 2 ^ 1023 * den) : (ofRatio negative num den).isFinite = true := by
  have hquotient : num * 2 ^ 1074 / den < 2 ^ (1023 + 1074) := by
    rw [Nat.div_lt_iff_lt_mul hden, pow_add, Nat.mul_right_comm]
    exact Nat.mul_lt_mul_of_pos_right h (pow_pos two_pos _)
  rw [ofRatio_eq]
  generalize num * 2 ^ 1074 = scaled at hquotient ⊢
  generalize hq : scaled / den = q at hquotient ⊢
  have hlog : q.log2 < 1023 + 1074 := by
    rcases Nat.eq_zero_or_pos q with hzero | hpos
    · rw [hzero, Nat.log2_zero]
      exact Nat.succ_pos _
    · exact (Nat.log2_lt (Nat.ne_of_gt hpos)).mpr hquotient
  have hsignificand : roundHalfEven scaled (den * 2 ^ (q.log2 - 52)) ≤ 2 ^ 53 := by
    refine Nat.le_trans (roundHalfEven_le _ _) ?_
    rw [← Nat.div_div_eq_div_mul, hq, Nat.succ_le_iff, Nat.div_lt_iff_lt_mul (pow_pos two_pos _),
      ← pow_add]
    exact Nat.lt_of_lt_of_le Nat.lt_log2_self (Nat.pow_le_pow_right two_pos (by omega))
  generalize roundHalfEven scaled (den * 2 ^ (q.log2 - 52)) = significand at hsignificand ⊢
  have hshift : (q.log2 - 52) * binadeSize ≤ 2044 * binadeSize :=
    Nat.mul_le_mul_right _ (by omega)
  have hrank : (q.log2 - 52) * binadeSize + significand < infinityRank := by
    clear hquotient
    simp only [binadeSize, infinityRank] at *
    omega
  unfold ofParts isFinite
  simp only [decide_eq_true_eq]
  exact Nat.lt_of_le_of_lt (Nat.min_le_left _ _) hrank

/-! ## Decimals -/

/-- Zero has the least rank. -/
theorem zero_eq (negative : Bool) : zero negative = .real negative ⟨0, Nat.succ_pos _⟩ := by
  unfold zero ofParts
  simp only [Nat.zero_mul, Nat.zero_add, Nat.zero_min]

theorem ofDecimal_zero (negative : Bool) (exponent : ℤ) :
    ofDecimal negative 0 exponent = .real negative ⟨0, Nat.succ_pos _⟩ := by
  rw [ofDecimal, if_pos rfl, zero_eq]

/-- Rounding a decimal is rounding a quotient, also where a shortcut is taken. -/
theorem ofDecimal_eq_ofRatio (negative : Bool) (digits : ℕ) (exponent : ℤ) :
    ofDecimal negative digits exponent =
      ofRatio negative (digits * 10 ^ exponent.toNat) (10 ^ (-exponent).toNat) := by
  unfold ofDecimal
  by_cases hdigits : digits = 0
  · rw [if_pos hdigits]
    refine (ofRatio_of_lt negative ?_).symm
    rw [hdigits, Nat.zero_mul, Nat.zero_mul]
    exact Nat.pow_pos (by decide)
  rw [if_neg hdigits]
  by_cases hlarge : 400 < exponent
  · rw [if_pos hlarge]
    have hone : (-exponent).toNat = 0 := by omega
    refine (ofRatio_of_le negative (Nat.pow_pos (by decide)) ?_).symm
    rw [hone, Nat.pow_zero, Nat.mul_one]
    calc 2 ^ 1024 ≤ 2 ^ (3 * exponent.toNat) := pow_le_pow_right₀ (by decide) (by omega)
      _ = 8 ^ exponent.toNat := pow_mul ..
      _ ≤ 10 ^ exponent.toNat := Nat.pow_le_pow_left (by decide) _
      _ ≤ digits * 10 ^ exponent.toNat := Nat.le_mul_of_pos_left _ (Nat.pos_of_ne_zero hdigits)
  rw [if_neg hlarge]
  by_cases hsmall : exponent + Nat.log2 digits + 1100 < 0
  · rw [if_pos hsmall]
    have hone : exponent.toNat = 0 := by omega
    refine (ofRatio_of_lt negative ?_).symm
    rw [hone, Nat.pow_zero, Nat.mul_one]
    calc digits * 2 ^ (1074 + 1) < 2 ^ (digits.log2 + 1) * 2 ^ (1074 + 1) :=
          Nat.mul_lt_mul_of_pos_right Nat.lt_log2_self (pow_pos two_pos _)
      _ = 2 ^ (digits.log2 + 1 + (1074 + 1)) := (pow_add ..).symm
      _ ≤ 2 ^ (-exponent).toNat := Nat.pow_le_pow_right (by decide) (by omega)
      _ ≤ 10 ^ (-exponent).toNat := Nat.pow_le_pow_left (by decide) _
  rw [if_neg hsmall]
  by_cases hnonneg : 0 ≤ exponent
  · have hone : (-exponent).toNat = 0 := by omega
    rw [if_pos hnonneg, hone]
    rfl
  · have hone : exponent.toNat = 0 := by omega
    rw [if_neg hnonneg, hone, Nat.pow_zero, Nat.mul_one]
    rfl

/-- Zeros at the end of the digits can be moved into the exponent. -/
theorem ofDecimal_mul_pow (negative : Bool) (digits count : ℕ) (exponent : ℤ) :
    ofDecimal negative (digits * 10 ^ count) exponent =
      ofDecimal negative digits (exponent + count) := by
  rw [ofDecimal_eq_ofRatio, ofDecimal_eq_ofRatio]
  -- Both quotients are the same after the powers of ten that they share.
  have hnum : digits * 10 ^ count * 10 ^ exponent.toNat =
      digits * 10 ^ (exponent + count).toNat * 10 ^ min count (-exponent).toNat := by
    rw [Nat.mul_assoc, Nat.mul_assoc, ← pow_add, ← pow_add]
    congr 2
    omega
  have hden : 10 ^ (-exponent).toNat =
      10 ^ (-(exponent + count)).toNat * 10 ^ min count (-exponent).toNat := by
    rw [← pow_add]
    congr 1
    omega
  rw [hnum, hden, ofRatio_mul_right negative _ _ (Nat.pow_pos (by decide))]

/-- The sign plays no part in rounding. -/
theorem exists_rank_ofDecimal (digits : ℕ) (exponent : ℤ) :
    ∃ rank, ∀ negative, ofDecimal negative digits exponent = .real negative rank := by
  simp only [ofDecimal_eq_ofRatio]
  exact ⟨_, fun negative => rfl⟩

/-! ## Exact decimals -/

/-- The parts of a finite magnitude: the significand has its leading bit unless the exponent is the
least one. -/
theorem significandOf_spec (rank : ℕ) :
    shiftOf rank * binadeSize + significandOf rank = rank ∧ significandOf rank < 2 ^ 53 ∧
      (shiftOf rank = 0 ∨ 2 ^ 52 ≤ significandOf rank) := by
  have hsplit := Nat.div_add_mod rank binadeSize
  have hmod : rank % binadeSize < binadeSize := Nat.mod_lt _ (by decide)
  unfold significandOf shiftOf
  rcases Nat.eq_zero_or_pos (rank / binadeSize) with hzero | hpos
  · rw [hzero, Nat.mul_zero] at hsplit
    rw [hzero, Nat.zero_sub, Nat.zero_mul, Nat.sub_zero, Nat.zero_add]
    simp only [binadeSize] at hsplit hmod
    exact ⟨rfl, by omega, .inl rfl⟩
  · obtain ⟨shift, hshift⟩ := Nat.exists_eq_add_one_of_ne_zero (Nat.ne_of_gt hpos)
    rw [hshift] at hsplit ⊢
    rw [Nat.mul_add] at hsplit
    simp only [binadeSize, Nat.add_sub_cancel] at *
    omega

theorem ofRatio_significandOf (negative : Bool) {rank den : ℕ} (hden : 0 < den)
    (hrank : rank < infinityRank) {num : ℕ}
    (hnum : num * 2 ^ 1074 = significandOf rank * 2 ^ shiftOf rank * den) :
    ofRatio negative num den = .real negative ⟨rank, Nat.lt_succ_of_lt hrank⟩ := by
  obtain ⟨hparts, hlt, hleading⟩ := significandOf_spec rank
  have hshift : (significandOf rank * 2 ^ shiftOf rank).log2 - 52 = shiftOf rank := by
    rcases hleading with hzero | hleading
    · rw [hzero, Nat.pow_zero, Nat.mul_one]
      rcases Nat.eq_zero_or_pos (significandOf rank) with hnone | hpos
      · rw [hnone]
        decide
      · have := (Nat.log2_lt (Nat.ne_of_gt hpos)).mpr hlt
        omega
    · have hpos : 0 < 2 ^ shiftOf rank := pow_pos two_pos _
      have hlow : 2 ^ (52 + shiftOf rank) ≤ significandOf rank * 2 ^ shiftOf rank := by
        rw [pow_add]
        exact Nat.mul_le_mul_right _ hleading
      have hhigh : significandOf rank * 2 ^ shiftOf rank < 2 ^ (52 + shiftOf rank + 1) := by
        rw [show 52 + shiftOf rank + 1 = 53 + shiftOf rank by omega, pow_add]
        exact Nat.mul_lt_mul_of_pos_right hlt hpos
      have hne : significandOf rank * 2 ^ shiftOf rank ≠ 0 := by
        have : 0 < 2 ^ (52 + shiftOf rank) := pow_pos two_pos _
        omega
      have hlog : (significandOf rank * 2 ^ shiftOf rank).log2 = 52 + shiftOf rank :=
        (Nat.log2_eq_iff hne).mpr ⟨hlow, hhigh⟩
      omega
  rw [ofRatio_eq, hnum, Nat.mul_div_cancel _ hden, hshift, Nat.mul_assoc, Nat.mul_comm _ den,
    roundHalfEven_mul_self _ (Nat.mul_pos hden (pow_pos two_pos _))]
  unfold ofParts
  simp only [hparts, Nat.min_eq_left (Nat.le_of_lt hrank)]

/-- A magnitude is a quotient of whole numbers, here in units of the least positive number. -/
theorem ratio_spec (rank : ℕ) :
    0 < (ratio rank).2 ∧
      (ratio rank).1 * 2 ^ 1074 = significandOf rank * 2 ^ shiftOf rank * (ratio rank).2 := by
  unfold ratio
  dsimp only
  split
  · rename_i hlarge
    rw [Nat.pow_eq, Nat.mul_assoc, ← pow_add, Nat.sub_add_cancel hlarge, Nat.mul_one]
    exact ⟨Nat.one_pos, rfl⟩
  · rename_i hsmall
    rw [Nat.pow_eq, Nat.mul_assoc, ← pow_add, Nat.add_sub_cancel' (by omega)]
    exact ⟨pow_pos two_pos _, rfl⟩

/-- A number written out exactly is rounded to itself. -/
theorem ofDecimal_exactDecimal (negative : Bool) {rank : ℕ} (hrank : rank < infinityRank) :
    ofDecimal negative (exactDecimal rank).digits (exactDecimal rank).exponent =
      .real negative ⟨rank, Nat.lt_succ_of_lt hrank⟩ := by
  rw [ofDecimal_eq_ofRatio]
  refine ofRatio_significandOf negative (Nat.pow_pos (by decide)) hrank ?_
  unfold exactDecimal
  dsimp only
  split
  · rename_i hlarge
    simp only [Nat.pow_eq, Int.toNat_zero, Nat.pow_zero, Nat.mul_one, Int.neg_zero]
    rw [Nat.mul_assoc, ← pow_add, Nat.sub_add_cancel hlarge]
  · rename_i hsmall
    have htop : ((shiftOf rank : ℤ) - 1074).toNat = 0 := by omega
    have hbottom : (-((shiftOf rank : ℤ) - 1074)).toNat = 1074 - shiftOf rank := by omega
    have hpow : 2 ^ 1074 = 2 ^ shiftOf rank * 2 ^ (1074 - shiftOf rank) := by
      rw [← pow_add]
      congr 1
      omega
    rw [htop, hbottom, Nat.pow_zero, Nat.mul_one, Nat.pow_eq, hpow,
      show 10 = 5 * 2 by rfl, Nat.mul_pow]
    ring

end ContractDraft.Binary64
