import ContractDraft.Proofs.Json.Printer

/-!
# Plain text

Text is plain if nothing in it is quoted, bracketed or broken into lines. Numbers are written in
plain text, and whatever is put together from plain text and string literals has every property that
these have and hand on (`Piecewise`).
-/

namespace ContractDraft.Text

/-- The characters that quote, bracket or break text. -/
def specialChars : List Char := ['"', '(', ')', '{', '}', '\n', '\r']

/-- Text without any of these characters. -/
def Plain (s : List Char) : Prop := ∀ c ∈ s, c ∉ specialChars

/-- What is said of every character of a text is decided on that text, not on all characters. -/
instance decidableForallMem (p : Char → Prop) [DecidablePred p] (s : List Char) :
    Decidable (∀ c ∈ s, p c) :=
  List.decidableBAll p s

instance : DecidablePred Plain := decidableForallMem (· ∉ specialChars)

@[simp] theorem plain_nil : Plain [] := by simp [Plain]

@[simp] theorem plain_cons {c : Char} {s : List Char} :
    Plain (c :: s) ↔ c ∉ specialChars ∧ Plain s :=
  List.forall_mem_cons

@[simp] theorem plain_append {s t : List Char} : Plain (s ++ t) ↔ Plain s ∧ Plain t :=
  List.forall_mem_append

theorem Plain.subset {s t : List Char} (h : Plain t) (hsub : s ⊆ t) : Plain s :=
  fun c hc => h c (hsub hc)

/-! ## Numbers -/

/-- Digits are plain. -/
theorem plain_of_isDigit {s : List Char} (h : ∀ c ∈ s, c.isDigit = true) : Plain s := by
  have hspecial : ∀ c ∈ specialChars, c.isDigit = false := by decide
  intro c hc hmem
  have hdigit := h c hc
  rw [hspecial c hmem] at hdigit
  cases hdigit

theorem plain_toDigits (n : ℕ) : Plain (Nat.toDigits 10 n) :=
  plain_of_isDigit (digits_toDigits n).2

theorem plain_toString (n : ℕ) : Plain (toString n).toList := by
  rw [Nat.toString_eq_ofList_toDigits, String.toList_ofList]
  exact plain_toDigits n

theorem plain_signText (negative : Bool) : Plain (signText negative) := by
  cases negative <;> decide

/-- Written integers are plain. -/
theorem plain_toString_int (n : ℤ) : Plain (toString n).toList := by
  rw [toList_toString_int, plain_append]
  exact ⟨plain_signText _, plain_toDigits _⟩

end ContractDraft.Text

namespace ContractDraft.DecimalStyle

open Text

theorem plain_zeros (count : ℕ) : Plain (zeros count) :=
  plain_of_isDigit isDigit_of_mem_zeros

/-- Digits with a point are plain. -/
theorem plain_positional {digits : List Char} (h : Plain digits) (point : ℤ) :
    Plain (positional digits point) := by
  have htake := h.subset (List.take_subset point.toNat digits)
  have hdrop := h.subset (List.drop_subset point.toNat digits)
  unfold positional
  split
  · simp [specialChars, plain_zeros, h]
  · split
    · simp [specialChars, plain_zeros, h]
    · simp [specialChars, htake, hdrop]

/-- Digits with an exponent are plain. -/
theorem plain_scientific (style : DecimalStyle) {digits : List Char} (h : Plain digits)
    (exponent : ℤ) : Plain (style.scientific digits exponent) := by
  have hsign : Plain (if exponent < 0 then ['-']
      else if style.signedExponent then ['+'] else []) := by
    split
    · decide
    · split <;> decide
  have hpower {mantissa : List Char} (hmantissa : Plain mantissa) :
      Plain (mantissa ++ 'e' :: (if exponent < 0 then ['-']
        else if style.signedExponent then ['+'] else []) ++ Nat.toDigits 10 exponent.natAbs) :=
    plain_append.mpr ⟨plain_append.mpr ⟨hmantissa, plain_cons.mpr ⟨by decide, hsign⟩⟩,
      plain_toDigits _⟩
  match digits with
  | [] => exact hpower h
  | [d] => exact hpower h
  | d :: e :: ds =>
    obtain ⟨hd, hds⟩ := plain_cons.mp h
    exact hpower (plain_cons.mpr ⟨hd, plain_cons.mpr ⟨by decide, hds⟩⟩)

/-- In every style the written magnitude of a decimal is plain. -/
theorem plain_magnitude (style : DecimalStyle) (rank : ℕ) : Plain (style.magnitude rank) := by
  unfold magnitude
  split
  · decide
  · simp only
    split
    · exact plain_positional (plain_toDigits _) _
    · exact style.plain_scientific (plain_toDigits _) _

/-- Decimals are written in plain text, in every style. -/
theorem plain_format (style : DecimalStyle) (x : Binary64) : Plain (style.format x).toList := by
  cases x with
  | nan => exact (by decide : Plain "NaN".toList)
  | real negative rank =>
    have hsign : Plain (if negative then "-" else "").toList := by cases negative <;> decide
    have hinf : Plain "inf".toList := by decide
    simp only [format]
    split
    · rw [String.toList_append, plain_append]
      exact ⟨hsign, hinf⟩
    · rw [String.toList_append, String.toList_ofList, plain_append]
      exact ⟨hsign, style.plain_magnitude _⟩

end ContractDraft.DecimalStyle

namespace ContractDraft.Text

/-! ## Properties of texts that are put together -/

/-- A property of plain text and of string literals that texts hand on when they are joined. -/
structure Piecewise (P : List Char → Prop) : Prop where
  plain : ∀ s, Plain s → P s
  quote : ∀ s : String, P (Text.quote s).toList
  append : ∀ s t, P s → P t → P (s ++ t)

namespace Piecewise

variable {P : List Char → Prop}

theorem nil (h : Piecewise P) : P [] := h.plain [] plain_nil

/-- Lists of texts with a plain separator have the property if the texts have it. -/
theorem intercalate (h : Piecewise P) {separator : String} (hseparator : Plain separator.toList)
    {texts : List String} (htexts : ∀ s ∈ texts, P s.toList) :
    P (String.intercalate separator texts).toList := by
  rw [String.toList_intercalate]
  induction texts with
  | nil => exact h.nil
  | cons first rest ih =>
    obtain ⟨hfirst, hrest⟩ := List.forall_mem_cons.mp htexts
    cases rest with
    | nil => simpa using hfirst
    | cons second rest =>
      simp only [List.map_cons, List.intercalate_cons_cons, List.append_assoc]
      exact h.append _ _ hfirst (h.append _ _ (h.plain _ hseparator) (ih hrest))

end Piecewise
end ContractDraft.Text
