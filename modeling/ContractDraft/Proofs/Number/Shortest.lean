import ContractDraft.Proofs.Number.Rounding

/-!
# Shortest digits read back

Whichever decimal is chosen for a finite binary64 number, it rounds to that number
(`ofDecimal_shortest`): a neighbour on a decimal grid is chosen only if it reads back, the exact
expansion reads back in any case, and zeros are cut off the digits without a change of value.
-/

namespace ContractDraft

namespace Decimal

theorem ofDecimal_trim (negative : Bool) (fuel : ℕ) (d : Decimal) :
    Binary64.ofDecimal negative (trim fuel d).digits (trim fuel d).exponent =
      Binary64.ofDecimal negative d.digits d.exponent := by
  induction fuel generalizing d with
  | zero => rfl
  | succ fuel ih =>
    unfold trim
    split
    · rename_i hzero
      have hdigits : d.digits = d.digits / 10 * 10 ^ 1 := by omega
      rw [ih]
      conv_rhs => rw [hdigits, Binary64.ofDecimal_mul_pow]
      rfl
    · rfl

theorem ofDecimal_normalize (negative : Bool) (d : Decimal) :
    Binary64.ofDecimal negative d.normalize.digits d.normalize.exponent =
      Binary64.ofDecimal negative d.digits d.exponent :=
  ofDecimal_trim negative _ d

end Decimal

namespace Binary64

variable {rank : ℕ}

theorem ofDecimal_of_readsBack {d : Decimal} (h : readsBack rank d = true) (negative : Bool)
    (hrank : rank < infinityRank) :
    ofDecimal negative d.digits d.exponent = .real negative ⟨rank, Nat.lt_succ_of_lt hrank⟩ := by
  obtain ⟨r, hr⟩ := exists_rank_ofDecimal d.digits d.exponent
  have hsame : r.val = rank := by simpa [readsBack, hr] using h
  rw [hr negative]
  congr 1
  exact Fin.ext hsame

/-- Of two neighbours one is chosen that reads back. -/
theorem readsBack_of_choice {below above d : Decimal} {preferBelow : Bool}
    (h : (match readsBack rank below, readsBack rank above with
      | true, true => some (if preferBelow then below else above)
      | true, false => some below
      | false, true => some above
      | false, false => none) = some d) : readsBack rank d = true := by
  split at h
  · rename_i hbelow habove
    rw [← Option.some.inj h]
    cases preferBelow
    · exact habove
    · exact hbelow
  · rename_i hbelow _
    rwa [← Option.some.inj h]
  · rename_i _ habove
    rwa [← Option.some.inj h]
  · cases h

theorem readsBack_of_onGrid {tie : TieRule} {exponent : ℤ} {d : Decimal}
    (h : onGrid tie rank exponent = some d) : readsBack rank d = true :=
  readsBack_of_choice h

/-- The shortest digits of a finite number round to that number. -/
theorem ofDecimal_shortest (tie : TieRule) (negative : Bool) (hrank : rank < infinityRank) :
    ofDecimal negative (shortest tie rank).digits (shortest tie rank).exponent =
      .real negative ⟨rank, Nat.lt_succ_of_lt hrank⟩ := by
  unfold shortest
  dsimp only
  rw [Decimal.ofDecimal_normalize]
  generalize hfound : List.findSome? _ (List.range 17) = found
  cases found with
  | none => exact ofDecimal_exactDecimal negative hrank
  | some d =>
    obtain ⟨more, -, hgrid⟩ := List.exists_of_findSome?_eq_some hfound
    exact ofDecimal_of_readsBack (readsBack_of_onGrid hgrid) negative hrank

/-- Only zero has no digits but zeros. -/
theorem shortest_digits_ne_zero (tie : TieRule) (hrank : rank < infinityRank) (hzero : rank ≠ 0) :
    (shortest tie rank).digits ≠ 0 := by
  intro hdigits
  have hread := ofDecimal_shortest tie false hrank
  rw [hdigits, ofDecimal_zero] at hread
  simp only [Binary64.real.injEq, Fin.mk.injEq, true_and] at hread
  exact hzero hread.symm

end Binary64
end ContractDraft
