import ContractDraft.Number.DecimalStyle
import ContractDraft.Proofs.Json.Numeral
import ContractDraft.Proofs.Number.Shortest

/-!
# Decimal texts are number literals

The text of a finite number is a number literal with a fraction or an exponent, in every style, and
the literal rounds to the number (`DecimalStyle.magnitude_spec`). Where the point stands and how
many zeros fill the gap is a matter of layout: the digits and the exponent make the same decimal.
-/

namespace ContractDraft

/-! ## Digits of whole numbers -/

theorem digits_toDigits (n : ℕ) : Digits (Nat.toDigits 10 n) :=
  ⟨Nat.toDigits_ne_nil, fun _ hc => Nat.isDigit_of_mem_toDigits (by decide) (by decide) hc⟩

theorem digitsValue_toDigits (n : ℕ) : Numeral.digitsValue (Nat.toDigits 10 n) = n :=
  Nat.ofDigitChars_ten_toDigits

theorem digitsValue_append_zeros (digits : List Char) (count : ℕ) :
    Numeral.digitsValue (digits ++ DecimalStyle.zeros count) =
      Numeral.digitsValue digits * 10 ^ count := by
  unfold Numeral.digitsValue DecimalStyle.zeros
  rw [Nat.ofDigitChars_append, Nat.ofDigitChars_replicate_zero, Nat.mul_comm]

theorem digitsValue_zeros_append (count : ℕ) (digits : List Char) :
    Numeral.digitsValue (DecimalStyle.zeros count ++ digits) = Numeral.digitsValue digits := by
  unfold Numeral.digitsValue DecimalStyle.zeros
  rw [Nat.ofDigitChars_append, Nat.ofDigitChars_replicate_zero, Nat.mul_zero]

theorem Digits.append {s t : List Char} (hs : Digits s) (ht : ∀ c ∈ t, c.isDigit = true) :
    Digits (s ++ t) :=
  ⟨by simp [hs.1], List.forall_mem_append.mpr ⟨hs.2, ht⟩⟩

theorem isDigit_of_mem_zeros {count : ℕ} : ∀ c ∈ DecimalStyle.zeros count, c.isDigit = true := by
  intro c hc
  rw [List.eq_of_mem_replicate hc]
  rfl

/-- The digits of a whole number begin with a zero only if they are one. -/
theorem wholeText_toDigits (n : ℕ) : WholeText (Nat.toDigits 10 n) := by
  refine ⟨digits_toDigits n, ?_⟩
  induction n using Nat.strongRecOn with
  | ind n ih =>
    intro hhead
    rcases Nat.lt_or_ge n 10 with hsmall | hlarge
    · rw [Nat.toDigits_of_lt_base hsmall] at hhead ⊢
      rw [Option.some.inj hhead]
    · have hsplit := Nat.toDigits_of_base_le (by decide : 1 < 10) hlarge
      rw [hsplit, List.head?_append_of_ne_nil _ Nat.toDigits_ne_nil] at hhead
      have hzero : n / 10 = 0 := by
        rw [← digitsValue_toDigits (n / 10), ih (n / 10) (by omega) hhead]
        rfl
      omega

theorem head?_toDigits_ne {n : ℕ} (hn : n ≠ 0) : (Nat.toDigits 10 n).head? ≠ some '0' := by
  intro hhead
  apply hn
  rw [← digitsValue_toDigits n, (wholeText_toDigits n).2 hhead]
  rfl

theorem Numeral.toBinary64_fraction (negative : Bool) (whole fraction : List Char) :
    toBinary64 ⟨negative, whole, some fraction, none⟩ =
      Binary64.ofDecimal negative (digitsValue (whole ++ fraction)) (-(fraction.length : ℤ)) := by
  simp only [toBinary64, Option.getD_some, Option.getD_none, Int.zero_sub]

theorem Numeral.toBinary64_exponent (negative : Bool) (whole : List Char)
    (fraction : Option (List Char)) (exponent : ℤ) :
    toBinary64 ⟨negative, whole, fraction, some exponent⟩ =
      Binary64.ofDecimal negative (digitsValue (whole ++ fraction.getD []))
        (exponent - ((fraction.getD []).length : ℤ)) := by
  simp only [toBinary64, Option.getD_some]

namespace DecimalStyle

/-! ## Layout -/

section layout

variable {digits : List Char}

/-- The positional text has a whole part and a fraction, and they make the same decimal. -/
theorem positional_spec (hdigits : Digits digits) (hhead : digits.head? ≠ some '0') (point : ℤ) :
    ∃ whole fraction, positional digits point = whole ++ '.' :: fraction ∧ WholeText whole ∧
      Digits fraction ∧ ∀ negative,
        Binary64.ofDecimal negative (Numeral.digitsValue (whole ++ fraction))
            (-(fraction.length : ℤ)) =
          Binary64.ofDecimal negative (Numeral.digitsValue digits) (point - digits.length) := by
  unfold positional
  by_cases hpoint : point ≤ 0
  · -- Zeros stand in front of the digits and add nothing to their value.
    rw [if_pos hpoint]
    refine ⟨['0'], zeros (-point).toNat ++ digits, rfl, ⟨⟨by simp, by simp⟩, fun _ => rfl⟩, ?_, ?_⟩
    · exact ⟨by simp [hdigits.1], List.forall_mem_append.mpr ⟨isDigit_of_mem_zeros, hdigits.2⟩⟩
    · intro negative
      have hvalue : Numeral.digitsValue (['0'] ++ (zeros (-point).toNat ++ digits)) =
          Numeral.digitsValue digits := digitsValue_zeros_append ((-point).toNat + 1) digits
      have hexponent : -((zeros (-point).toNat ++ digits).length : ℤ) = point - digits.length := by
        rw [List.length_append, zeros, List.length_replicate]
        omega
      rw [hvalue, hexponent]
  rw [if_neg hpoint]
  by_cases hlength : digits.length ≤ point.toNat
  · -- Zeros stand behind the digits, one of them behind the point.
    rw [if_pos hlength]
    refine ⟨digits ++ zeros (point.toNat - digits.length), ['0'], by simp, ?_,
      ⟨by simp, by simp⟩, ?_⟩
    · refine ⟨hdigits.append isDigit_of_mem_zeros, fun hzero => ?_⟩
      rw [List.head?_append_of_ne_nil _ hdigits.1] at hzero
      exact absurd hzero hhead
    · intro negative
      have hvalue : Numeral.digitsValue (digits ++ zeros (point.toNat - digits.length) ++ ['0']) =
          Numeral.digitsValue digits * 10 ^ (point.toNat - digits.length + 1) := by
        rw [← digitsValue_append_zeros, List.append_assoc]
        congr 2
        exact List.replicate_succ'.symm
      have hexponent : -((['0'] : List Char).length : ℤ) +
          ((point.toNat - digits.length + 1 : ℕ) : ℤ) = point - digits.length := by
        rw [List.length_singleton]
        omega
      rw [hvalue, Binary64.ofDecimal_mul_pow, hexponent]
  · -- The point stands among the digits.
    rw [if_neg hlength]
    refine ⟨digits.take point.toNat, digits.drop point.toNat, rfl, ⟨⟨?_, ?_⟩, ?_⟩, ⟨?_, ?_⟩, ?_⟩
    · rw [Ne, List.take_eq_nil_iff, not_or]
      exact ⟨by omega, hdigits.1⟩
    · exact fun c hc => hdigits.2 c (List.mem_of_mem_take hc)
    · intro hzero
      rw [List.head?_take, if_neg (by omega)] at hzero
      exact absurd hzero hhead
    · rw [Ne, List.drop_eq_nil_iff]
      omega
    · exact fun c hc => hdigits.2 c (List.mem_of_mem_drop hc)
    · intro negative
      have hexponent : -((digits.drop point.toNat).length : ℤ) = point - digits.length := by
        rw [List.length_drop]
        omega
      rw [List.take_append_drop, hexponent]

theorem exponentText_scientific (signed : Bool) (exponent : ℤ) :
    ExponentText ('e' :: (if exponent < 0 then ['-'] else if signed then ['+'] else []) ++
      Nat.toDigits 10 exponent.natAbs) (some exponent) := by
  have hdigits := digits_toDigits exponent.natAbs
  have hvalue := digitsValue_toDigits exponent.natAbs
  have hletter : 'e' ∈ ['e', 'E'] := List.mem_cons_self ..
  by_cases hneg : exponent < 0
  · have hsame : exponent = -(Numeral.digitsValue (Nat.toDigits 10 exponent.natAbs)) := by
      rw [hvalue]
      omega
    rw [if_pos hneg]
    conv => arg 2; rw [hsame]
    exact .minus hletter hdigits
  · have hsame : exponent = Numeral.digitsValue (Nat.toDigits 10 exponent.natAbs) := by
      rw [hvalue]
      omega
    rw [if_neg hneg]
    conv => arg 2; rw [hsame]
    cases signed
    · exact .unsigned hletter hdigits
    · exact .plus hletter hdigits

/-- The text with an exponent has one digit in front of the point, and all others behind it. -/
theorem scientific_spec (style : DecimalStyle) (hdigits : Digits digits)
    (hhead : digits.head? ≠ some '0') (exponent : ℤ) :
    ∃ whole fraction fractionDigits power,
      style.scientific digits exponent = whole ++ fraction ++ power ∧ WholeText whole ∧
        FractionText fraction fractionDigits ∧ ExponentText power (some exponent) ∧
        whole ++ fractionDigits.getD [] = digits ∧
        (fractionDigits.getD []).length + 1 = digits.length := by
  have hpower := exponentText_scientific style.signedExponent exponent
  obtain ⟨d, ds, rfl, hd⟩ := hdigits.exists_cons
  have hwhole : WholeText [d] := ⟨⟨by simp, by simpa using hd⟩, by simp⟩
  cases ds with
  | nil => exact ⟨[d], [], none, _, rfl, hwhole, .absent, hpower, rfl, rfl⟩
  | cons c ds =>
    have hrest : Digits (c :: ds) := ⟨by simp, (List.forall_mem_cons.mp hdigits.2).2⟩
    exact ⟨[d], '.' :: c :: ds, some (c :: ds), _, by simp [scientific], hwhole, .present hrest,
      hpower, rfl, rfl⟩

end layout

/-! ## Numbers -/

/-- The text of a finite number is a literal with a fraction or an exponent, and the literal rounds
to the number. -/
theorem magnitude_spec (style : DecimalStyle) (negative : Bool) {rank : ℕ}
    (hrank : rank < infinityRank) :
    ∃ n, NumberText (signText negative ++ style.magnitude rank) n ∧
      (n.fraction ≠ none ∨ n.exponent ≠ none) ∧
      n.toBinary64 = .real negative ⟨rank, Nat.lt_succ_of_lt hrank⟩ := by
  unfold magnitude
  by_cases hzero : rank = 0
  · rw [if_pos hzero]
    have hone : Digits ['0'] := ⟨by simp, by simp⟩
    have hliteral : NumberText (signText negative ++ ['0'] ++ ['.', '0'] ++ [])
        ⟨negative, ['0'], some ['0'], none⟩ := .parts ⟨hone, fun _ => rfl⟩ (.present hone) .absent
    refine ⟨_, by simpa using hliteral, .inl (by simp), ?_⟩
    subst hzero
    rw [Numeral.toBinary64_fraction]
    exact Binary64.ofDecimal_zero negative _
  rw [if_neg hzero]
  have hread := Binary64.ofDecimal_shortest style.tie negative hrank
  have hne := Binary64.shortest_digits_ne_zero style.tie hrank hzero
  generalize Binary64.shortest style.tie rank = d at hread hne ⊢
  have hdigits := digits_toDigits d.digits
  have hhead := head?_toDigits_ne hne
  have hvalue := digitsValue_toDigits d.digits
  dsimp only
  generalize Nat.toDigits 10 d.digits = digits at hdigits hhead hvalue ⊢
  split
  · obtain ⟨whole, fraction, htext, hwhole, hfraction, hsame⟩ :=
      positional_spec hdigits hhead (d.exponent + digits.length)
    have hliteral : NumberText (signText negative ++ whole ++ '.' :: fraction ++ [])
        ⟨negative, whole, some fraction, none⟩ := .parts hwhole (.present hfraction) .absent
    refine ⟨_, by simpa [htext] using hliteral, .inl (by simp), ?_⟩
    have hexponent : d.exponent + digits.length - (digits.length : ℤ) = d.exponent := by omega
    rw [Numeral.toBinary64_fraction, hsame, hexponent, hvalue, hread]
  · obtain ⟨whole, fraction, fractionDigits, power, htext, hwhole, hfraction, hpower, hall,
      hlength⟩ := scientific_spec style hdigits hhead (d.exponent + digits.length - 1)
    have hliteral : NumberText (signText negative ++ whole ++ fraction ++ power)
        ⟨negative, whole, fractionDigits, some (d.exponent + digits.length - 1)⟩ :=
      .parts hwhole hfraction hpower
    refine ⟨_, by simpa [htext] using hliteral, .inr (by simp), ?_⟩
    have hexponent : d.exponent + digits.length - 1 - ((fractionDigits.getD []).length : ℤ) =
        d.exponent := by omega
    rw [Numeral.toBinary64_exponent, hexponent, hall, hvalue, hread]

end DecimalStyle
end ContractDraft
