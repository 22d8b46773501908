import ContractDraft.Json.Reader
import ContractDraft.Proofs.Json.Grammar
import Mathlib.Data.List.TakeWhile

/-!
# Number literals are read by their grammar

The reader takes the longest run of number characters and asks whether the run is one literal. It
finds exactly the literals of the grammar, with what they mean (`readNumber_append`,
`numberText_of_readNumber`): a literal consists of number characters alone, so the run ends where
the literal does unless another number character follows.
-/

namespace ContractDraft

/-! ## Runs of characters -/

/-- The text does not go on with a character of the class, so a run of them ends before it. -/
def Ends (p : Char → Bool) (rest : List Char) : Prop := ∀ c ∈ rest.head?, p c = false

theorem ends_nil (p : Char → Bool) : Ends p [] := by simp [Ends]

theorem ends_cons {p : Char → Bool} {c : Char} (h : p c = false) (rest : List Char) :
    Ends p (c :: rest) := by simpa [Ends] using h

theorem ends_dropWhile (p : Char → Bool) (s : List Char) : Ends p (s.dropWhile p) := by
  intro c hc
  have hnot := List.head?_dropWhile_not p s
  rw [Option.mem_def.mp hc] at hnot
  exact hnot

/-- A run of characters is cut off where something else follows. -/
theorem span_append {p : Char → Bool} {s rest : List Char} (hs : ∀ c ∈ s, p c = true)
    (hrest : Ends p rest) :
    (s ++ rest).takeWhile p = s ∧ (s ++ rest).dropWhile p = rest := by
  rw [List.takeWhile_append_of_pos hs, List.dropWhile_append_of_pos hs]
  cases rest with
  | nil => simp
  | cons c rest =>
    have hc : p c = false := hrest c rfl
    simp [hc]

/-! ## The parts of a literal -/

/-- Digits begin with a digit. -/
theorem Digits.exists_cons {digits : List Char} (h : Digits digits) :
    ∃ d ds, digits = d :: ds ∧ d.isDigit = true := by
  obtain ⟨hne, hall⟩ := h
  obtain ⟨d, ds, rfl⟩ := List.exists_cons_of_ne_nil hne
  exact ⟨d, ds, rfl, hall d (List.mem_cons_self ..)⟩

namespace Numeral

/-- A run of digits is taken whole, and there is at least one. -/
theorem someDigits?_eq_some_iff {s digits rest : List Char} :
    someDigits? s = some (digits, rest) ↔
      s = digits ++ rest ∧ Digits digits ∧ Ends Char.isDigit rest := by
  unfold someDigits?
  constructor
  · intro h
    have hsplit := List.takeWhile_append_dropWhile (p := Char.isDigit) (l := s)
    split at h
    · cases h
    · rename_i hne
      simp only [Option.some.injEq, Prod.mk.injEq] at h
      obtain ⟨rfl, rfl⟩ := h
      have hdigits : ∀ c ∈ s.takeWhile Char.isDigit, c.isDigit = true :=
        fun c hc => List.mem_takeWhile_imp hc
      exact ⟨hsplit.symm, ⟨hne, hdigits⟩, ends_dropWhile _ _⟩
  · rintro ⟨rfl, ⟨hne, hdigits⟩, hrest⟩
    obtain ⟨htake, hdrop⟩ := span_append hdigits hrest
    rw [htake, hdrop]
    split
    · contradiction
    · rfl

/-! ### From the grammar -/

/-- The whole part is taken in front of anything but a digit. -/
theorem whole?_append {whole rest : List Char} (h : WholeText whole)
    (hrest : Ends Char.isDigit rest) : whole? (whole ++ rest) = some (whole, rest) := by
  obtain ⟨hdigits, hzero⟩ := h
  obtain ⟨d, ds, rfl, _⟩ := hdigits.exists_cons
  by_cases hd : d = '0'
  · subst hd
    have hone : ds = [] := by simpa using hzero rfl
    rw [hone]
    rfl
  · have hsome : someDigits? (d :: ds ++ rest) = some (d :: ds, rest) :=
      someDigits?_eq_some_iff.mpr ⟨rfl, hdigits, hrest⟩
    simpa [whole?, hd] using hsome

/-- The fraction is taken in front of anything but a digit or a point. -/
theorem fraction?_append {fraction rest : List Char} {digits : Option (List Char)}
    (h : FractionText fraction digits) (hdigit : Ends Char.isDigit rest)
    (hpoint : Ends (· = '.') rest) : fraction? (fraction ++ rest) = some (digits, rest) := by
  cases h with
  | absent =>
    cases rest with
    | nil => rfl
    | cons c rest =>
      have hc : c ≠ '.' := by simpa using hpoint c rfl
      simp [fraction?, hc]
  | present hdigits =>
    have hsome := someDigits?_eq_some_iff.mpr ⟨rfl, hdigits, hdigit⟩
    simp [fraction?, hsome]

theorem signedDigits?_unsigned {digits : List Char} (h : Digits digits) :
    signedDigits? digits = some ((digitsValue digits : Int), []) := by
  have hsome : someDigits? digits = some (digits, []) :=
    someDigits?_eq_some_iff.mpr ⟨by simp, h, ends_nil _⟩
  obtain ⟨d, ds, rfl, hd⟩ := h.exists_cons
  have hplus : d ≠ '+' := by rintro rfl; simp at hd
  have hminus : d ≠ '-' := by rintro rfl; simp at hd
  simp [signedDigits?, hplus, hminus, hsome]

/-- An exponent gives its power, with nothing behind it. -/
theorem exponent?_of_text {exponent : List Char} {power : Option Int}
    (h : ExponentText exponent power) : exponent? exponent = some (power, []) := by
  have hsome {digits : List Char} (hdigits : Digits digits) :
      someDigits? digits = some (digits, []) :=
    someDigits?_eq_some_iff.mpr ⟨by simp, hdigits, ends_nil _⟩
  cases h with
  | absent => rfl
  | unsigned he hdigits =>
    have hletter := List.mem_pair.mp he
    simp [exponent?, hletter, signedDigits?_unsigned hdigits]
  | plus he hdigits =>
    have hletter := List.mem_pair.mp he
    simp [exponent?, hletter, signedDigits?, hsome hdigits]
  | minus he hdigits =>
    have hletter := List.mem_pair.mp he
    simp [exponent?, hletter, signedDigits?, hsome hdigits]

/-- The sign is taken off a literal. -/
theorem sign_append (negative : Bool) {whole : List Char} (h : WholeText whole)
    (rest : List Char) :
    sign (signText negative ++ (whole ++ rest)) = (negative, whole ++ rest) := by
  cases negative with
  | true => rfl
  | false =>
    obtain ⟨d, ds, rfl, hd⟩ := h.1.exists_cons
    have hminus : d ≠ '-' := by rintro rfl; simp at hd
    simp [sign, signText, hminus]

/-- An exponent begins with a letter, so neither digits nor a point go on into it. -/
theorem ends_exponent {p : Char → Bool} (hlower : p 'e' = false) (hupper : p 'E' = false)
    {exponent : List Char} {power : Option Int} (h : ExponentText exponent power) :
    Ends p exponent := by
  have hletter {e : Char} (he : e ∈ ['e', 'E']) : p e = false := by
    rcases List.mem_pair.mp he with rfl | rfl <;> assumption
  cases h with
  | absent => exact ends_nil p
  | unsigned he _ => exact ends_cons (hletter he) _
  | plus he _ => exact ends_cons (hletter he) _
  | minus he _ => exact ends_cons (hletter he) _

/-- A literal that is written by the grammar gives its numeral. -/
theorem ofLiteral?_of_text {s : List Char} {n : Numeral} (h : NumberText s n) :
    ofLiteral? s = some n := by
  obtain @⟨negative, whole, fraction, exponent, digits, power, hwhole, hfraction, hexponent⟩ := h
  have hdigit : Ends Char.isDigit exponent := ends_exponent (by decide) (by decide) hexponent
  have hpoint : Ends (· = '.') exponent := ends_exponent (by decide) (by decide) hexponent
  have hbehind : Ends Char.isDigit (fraction ++ exponent) := by
    cases hfraction with
    | absent => exact hdigit
    | present _ => exact ends_cons (by decide) _
  have h1 := sign_append negative hwhole (fraction ++ exponent)
  have h2 := whole?_append hwhole hbehind
  have h3 := fraction?_append hfraction hdigit hpoint
  have h4 := exponent?_of_text hexponent
  rw [List.append_assoc _ fraction, List.append_assoc _ whole]
  simp [ofLiteral?, h1, h2, h3, h4]

/-! ### To the grammar -/

/-- What is taken as a whole part is one. -/
theorem whole?_spec {s whole rest : List Char} (h : whole? s = some (whole, rest)) :
    s = whole ++ rest ∧ WholeText whole := by
  unfold whole? at h
  split at h
  · cases h
    exact ⟨rfl, ⟨by simp, by simp⟩, fun _ => rfl⟩
  · rename_i hzero
    obtain ⟨hs, hdigits, _⟩ := someDigits?_eq_some_iff.mp h
    refine ⟨hs, hdigits, fun hhead => ?_⟩
    obtain ⟨d, ds, rfl, _⟩ := hdigits.exists_cons
    obtain rfl : d = '0' := by simpa using hhead
    exact absurd hs (hzero _)

/-- What is taken as a fraction is one. -/
theorem fraction?_spec {s rest : List Char} {digits : Option (List Char)}
    (h : fraction? s = some (digits, rest)) :
    ∃ fraction, s = fraction ++ rest ∧ FractionText fraction digits := by
  unfold fraction? at h
  split at h
  · obtain ⟨⟨ds, t⟩, hsome, heq⟩ := Option.map_eq_some_iff.mp h
    cases heq
    obtain ⟨rfl, hdigits, _⟩ := someDigits?_eq_some_iff.mp hsome
    exact ⟨_, rfl, .present hdigits⟩
  · cases h
    exact ⟨[], rfl, .absent⟩

/-- What is taken as an exponent is one. -/
theorem exponent?_spec {s : List Char} {power : Option Int} (h : exponent? s = some (power, [])) :
    ExponentText s power := by
  unfold exponent? at h
  split at h
  · cases h
    exact .absent
  · split at h
    · rename_i c t hletter
      have he : c ∈ ['e', 'E'] := by simpa using hletter
      obtain ⟨⟨n, t⟩, hsigned, heq⟩ := Option.map_eq_some_iff.mp h
      cases heq
      unfold signedDigits? at hsigned
      -- One case for each sign that the digits may have.
      split at hsigned <;>
      · obtain ⟨⟨ds, u⟩, hsome, heq⟩ := Option.map_eq_some_iff.mp hsigned
        cases heq
        obtain ⟨rfl, hdigits, _⟩ := someDigits?_eq_some_iff.mp hsome
        rw [List.append_nil]
        first
          | exact .plus he hdigits
          | exact .minus he hdigits
          | exact .unsigned he hdigits
    · cases h

theorem sign_spec (s : List Char) : s = signText (sign s).1 ++ (sign s).2 := by
  unfold sign
  split <;> rfl

/-- A literal that gives a numeral is written by the grammar. -/
theorem text_of_ofLiteral? {s : List Char} {n : Numeral} (h : ofLiteral? s = some n) :
    NumberText s n := by
  unfold ofLiteral? at h
  simp only [Option.bind_eq_bind, Option.bind_eq_some_iff, Prod.exists] at h
  obtain ⟨whole, t, hwhole, digits, u, hfraction, power, v, hexponent, hend⟩ := h
  obtain ⟨rfl, rfl⟩ : v = [] ∧ n = ⟨(sign s).1, whole, digits, power⟩ := by
    split at hend
    · rename_i hempty
      exact ⟨List.isEmpty_iff.mp hempty, (Option.some.inj hend).symm⟩
    · cases hend
  obtain ⟨hs, hwhole⟩ := whole?_spec hwhole
  obtain ⟨fraction, ht, hfraction⟩ := fraction?_spec hfraction
  have hparts : NumberText (signText (sign s).1 ++ whole ++ fraction ++ u)
      ⟨(sign s).1, whole, digits, power⟩ := .parts hwhole hfraction (exponent?_spec hexponent)
  rw [List.append_assoc, List.append_assoc, ← ht, ← hs, ← sign_spec] at hparts
  exact hparts

/-- The literals are the texts of the grammar. -/
theorem ofLiteral?_eq_some_iff {s : List Char} {n : Numeral} :
    ofLiteral? s = some n ↔ NumberText s n :=
  ⟨text_of_ofLiteral?, ofLiteral?_of_text⟩

/-! ## What a literal means -/

/-- A numeral is an integer if it has neither fraction nor exponent. -/
theorem toInt?_eq_some_iff {n : Numeral} {k : Int} :
    n.toInt? = some k ↔ n.fraction = none ∧ n.exponent = none ∧
      k = if n.negative then -(digitsValue n.whole : Int) else digitsValue n.whole := by
  obtain ⟨negative, whole, fraction, exponent⟩ := n
  cases fraction <;> cases exponent <;> simp [toInt?, eq_comm]

theorem isInteger_iff {n : Numeral} {i : Int64} : n.IsInteger i ↔ n.toInt? = some i.toInt := by
  rw [toInt?_eq_some_iff]
  rfl

/-- The meaning of a numeral is the value that is computed from it. -/
theorem numberMeaning_iff {n : Numeral} {v : Value} : NumberMeaning n v ↔ n.value = v := by
  have hnot (hno : ∀ i, ¬ n.IsInteger i) : n.value = .decimal n.toBinary64 := by
    unfold value
    split
    · rename_i k hk
      refine if_neg fun hrange => ?_
      rw [Int64.toInt_minValue, Int64.toInt_maxValue] at hrange
      have hfits : (Int64.ofInt k).toInt = k := Int64.toInt_ofInt_of_le hrange.1 (by omega)
      exact hno (Int64.ofInt k) (isInteger_iff.mpr (by rw [hk, hfits]))
    · rfl
  have hinteger {i : Int64} (hi : n.IsInteger i) : n.value = .integer i := by
    unfold value
    rw [isInteger_iff.mp hi]
    dsimp only
    rw [if_pos ⟨i.minValue_le_toInt, i.toInt_le⟩, Int64.ofInt_toInt]
  constructor
  · rintro (hi | hno)
    · exact hinteger hi
    · exact hnot hno
  · rintro rfl
    by_cases hsome : ∃ i, n.IsInteger i
    · obtain ⟨i, hi⟩ := hsome
      rw [hinteger hi]
      exact .integer hi
    · have hno := not_exists.mp hsome
      rw [hnot hno]
      exact .decimal hno

end Numeral

/-! ## Numbers in front of other text -/

theorem Digits.numberChars {digits : List Char} (h : Digits digits) :
    ∀ c ∈ digits, isNumberChar c = true := by
  intro c hc
  simp [isNumberChar, h.2 c hc]

/-- A number literal holds number characters only. -/
theorem isNumberChar_of_mem_numberText {s : List Char} {n : Numeral} (h : NumberText s n) :
    ∀ c ∈ s, isNumberChar c = true := by
  obtain @⟨negative, whole, fraction, exponent, digits, power, hwhole, hfraction, hexponent⟩ := h
  have hsign : ∀ c ∈ signText negative, isNumberChar c = true := by
    cases negative with
    | false => simp [signText]
    | true => simp [signText, isNumberChar]
  have hfraction : ∀ c ∈ fraction, isNumberChar c = true := by
    cases hfraction with
    | absent => simp
    | present hdigits => exact List.forall_mem_cons.mpr ⟨by decide, hdigits.numberChars⟩
  have hletter {e : Char} (he : e ∈ ['e', 'E']) : isNumberChar e = true := by
    rcases List.mem_pair.mp he with rfl | rfl <;> decide
  have hexponent : ∀ c ∈ exponent, isNumberChar c = true := by
    cases hexponent with
    | absent => simp
    | unsigned he hdigits => exact List.forall_mem_cons.mpr ⟨hletter he, hdigits.numberChars⟩
    | plus he hdigits =>
      exact List.forall_mem_cons.mpr
        ⟨hletter he, List.forall_mem_cons.mpr ⟨by decide, hdigits.numberChars⟩⟩
    | minus he hdigits =>
      exact List.forall_mem_cons.mpr
        ⟨hletter he, List.forall_mem_cons.mpr ⟨by decide, hdigits.numberChars⟩⟩
  simp only [List.forall_mem_append]
  exact ⟨⟨⟨hsign, hwhole.1.numberChars⟩, hfraction⟩, hexponent⟩

/-- A number begins with a minus sign or a digit. -/
theorem exists_cons_of_numberText {s : List Char} {n : Numeral} (h : NumberText s n) :
    ∃ c t, s = c :: t ∧ (c = '-' ∨ c.isDigit = true) := by
  obtain @⟨negative, whole, fraction, exponent, digits, power, hwhole, hfraction, hexponent⟩ := h
  obtain ⟨d, ds, rfl, hd⟩ := hwhole.1.exists_cons
  cases negative with
  | true => exact ⟨'-', _, rfl, .inl rfl⟩
  | false => exact ⟨d, _, rfl, .inr hd⟩

/-- A number does not begin like anything else. -/
theorem ne_of_number {c d : Char} (hc : c = '-' ∨ c.isDigit = true) (hd : d ≠ '-')
    (hdigit : d.isDigit = false) : c ≠ d := by
  rintro rfl
  rcases hc with rfl | hc
  · exact hd rfl
  · rw [hdigit] at hc
    cases hc

/-- A number is read in front of anything that cannot continue it. -/
theorem readNumber_append {s rest : List Char} {n : Numeral} {v : Value} (h : NumberText s n)
    (hmeaning : NumberMeaning n v) (hrest : Ends isNumberChar rest) :
    readNumber (s ++ rest) = .ok (v, rest) := by
  obtain ⟨htake, hdrop⟩ := span_append (isNumberChar_of_mem_numberText h) hrest
  unfold readNumber
  rw [htake, hdrop]
  dsimp only
  rw [Numeral.ofLiteral?_eq_some_iff.mpr h]
  dsimp only
  rw [Numeral.numberMeaning_iff.mp hmeaning]

/-- What is read as a number is a literal with that meaning. -/
theorem numberText_of_readNumber {s rest : List Char} {v : Value}
    (h : readNumber s = .ok (v, rest)) :
    ∃ t n, s = t ++ rest ∧ NumberText t n ∧ NumberMeaning n v := by
  unfold readNumber at h
  dsimp only at h
  split at h
  · rename_i n hliteral
    cases h
    have htext := Numeral.ofLiteral?_eq_some_iff.mp hliteral
    exact ⟨_, n, List.takeWhile_append_dropWhile.symm, htext, Numeral.numberMeaning_iff.mpr rfl⟩
  · cases h

end ContractDraft
