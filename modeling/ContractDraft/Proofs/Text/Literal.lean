import ContractDraft.Proofs.Text.Plain

/-!
# String literals of code

Whatever text a string literal is written for, the literal goes up to its last quote and no further
(`literalBody_escape`), and it stays on one line (`unbroken_quote`).
-/

namespace ContractDraft.Text

/-! ## The inside of a literal -/

/-- The characters that end a line. -/
def lineBreaks : List Char := ['\n', '\r']

/-- The inside of a string literal. A backslash takes the next character with it, and a literal ends
on the line on which it begins. -/
inductive LiteralBody : List Char → Prop where
  | nil : LiteralBody []
  | char {c : Char} {s : List Char} : c ≠ '"' → c ≠ '\\' → c ∉ lineBreaks → LiteralBody s →
      LiteralBody (c :: s)
  | escape {c : Char} {s : List Char} : c ∉ lineBreaks → LiteralBody s →
      LiteralBody ('\\' :: c :: s)

theorem LiteralBody.append {s t : List Char} (hs : LiteralBody s) (ht : LiteralBody t) :
    LiteralBody (s ++ t) := by
  induction hs with
  | nil => exact ht
  | char hquote hback hbreak _ ih => exact .char hquote hback hbreak ih
  | escape hbreak _ ih => exact .escape hbreak ih

theorem literalBody_of_forall {s : List Char}
    (h : ∀ c ∈ s, c ≠ '"' ∧ c ≠ '\\' ∧ c ∉ lineBreaks) : LiteralBody s := by
  induction s with
  | nil => exact .nil
  | cons c s ih =>
    obtain ⟨⟨hquote, hback, hbreak⟩, hs⟩ := List.forall_mem_cons.mp h
    exact .char hquote hback hbreak (ih hs)

theorem literalBody_hexDigits4 (n : ℕ) : LiteralBody (hexDigits4 n) := by
  have hall : ∀ d < 16, Nat.digitChar d ≠ '"' ∧ Nat.digitChar d ≠ '\\' ∧
      Nat.digitChar d ∉ lineBreaks := by decide
  refine literalBody_of_forall fun c hc => ?_
  obtain ⟨d, -, rfl⟩ := List.mem_map.mp hc
  exact hall _ (Nat.mod_lt d (by decide))

/-- Every character is written as a piece of a literal. -/
theorem literalBody_escapeChar (c : Char) : LiteralBody (escapeChar c) := by
  rcases escapeChar_cases c with ⟨letter, -, hmem, h⟩ | ⟨-, -, h⟩ | ⟨hquote, hback, hle, h⟩
  · have hletters : ∀ e ∈ shortEscapes, e.1 ∉ lineBreaks := by decide
    rw [h]
    exact .escape (hletters _ hmem) .nil
  · rw [h]
    exact .escape (by decide) (literalBody_hexDigits4 c.toNat)
  · -- The characters that end a line are below all that are written as themselves.
    have hbreak : ∀ d ∈ lineBreaks, d.toNat < 0x20 := by decide
    rw [h]
    exact .char hquote hback (fun hc => absurd (hbreak c hc) (Nat.not_lt.mpr hle)) .nil

theorem literalBody_escape (s : List Char) : LiteralBody (escape s) := by
  induction s with
  | nil => exact .nil
  | cons c s ih => exact (literalBody_escapeChar c).append ih

/-! ## Lines -/

/-- Text on one line. -/
def Unbroken (s : List Char) : Prop := ∀ c ∈ s, c ∉ lineBreaks

@[simp] theorem unbroken_nil : Unbroken [] := by simp [Unbroken]

@[simp] theorem unbroken_cons {c : Char} {s : List Char} :
    Unbroken (c :: s) ↔ c ∉ lineBreaks ∧ Unbroken s :=
  List.forall_mem_cons

@[simp] theorem unbroken_append {s t : List Char} :
    Unbroken (s ++ t) ↔ Unbroken s ∧ Unbroken t :=
  List.forall_mem_append

theorem LiteralBody.unbroken {s : List Char} (h : LiteralBody s) : Unbroken s := by
  induction h with
  | nil => exact unbroken_nil
  | char _ _ hbreak _ ih => exact unbroken_cons.mpr ⟨hbreak, ih⟩
  | escape hbreak _ ih => exact unbroken_cons.mpr ⟨by decide, unbroken_cons.mpr ⟨hbreak, ih⟩⟩

theorem unbroken_quote (s : String) : Unbroken (quote s).toList := by
  have hquote : '"' ∉ lineBreaks := by decide
  rw [quote, String.toList_ofList]
  simpa using ⟨hquote, (literalBody_escape s.toList).unbroken, hquote⟩

theorem Plain.unbroken {s : List Char} (h : Plain s) : Unbroken s := by
  have hsubset : ∀ c ∈ lineBreaks, c ∈ specialChars := by decide
  exact fun c hc hbreak => h c hc (hsubset c hbreak)

/-- Whatever is put together from plain text and string literals stays on one line. -/
theorem piecewise_unbroken : Piecewise Unbroken where
  plain _ := Plain.unbroken
  quote := unbroken_quote
  append _ _ hs ht := unbroken_append.mpr ⟨hs, ht⟩

end ContractDraft.Text
