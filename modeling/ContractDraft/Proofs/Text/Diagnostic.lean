import ContractDraft.Text.Diagnostic
import Mathlib.Data.List.Basic

/-!
# Reading diagnostic strings back

A diagnostic string shows where it ends and what it was made from, whatever stands behind it
(`diagnosticString_append_inj`). The proof reads characters back one at a time: an escape is never
the beginning of another one, and hexadecimal digits go on until the closing brace.
-/

namespace ContractDraft.Text

/-! ## Hexadecimal digits -/

/-- The number that hexadecimal digits stand for. -/
def hexNumber (digits : List Char) : ℕ :=
  digits.foldl (fun n c => 16 * n + (hexValue? c).getD 0) 0

theorem hexValue?_digitChar {d : ℕ} (h : d < 16) : hexValue? (Nat.digitChar d) = some d := by
  have hall : ∀ d < 16, hexValue? (Nat.digitChar d) = some d := by decide
  exact hall d h

/-- Hexadecimal digits stand for the number that they are the digits of. -/
theorem hexNumber_hexDigits (n : ℕ) : hexNumber (hexDigits n) = n := by
  induction n using Nat.strongRecOn with
  | ind n ih =>
    rw [hexDigits, Nat.toDigits_eq_if (by decide)]
    split
    · rename_i hsmall
      simp [hexNumber, hexValue?_digitChar hsmall]
    · rename_i hlarge
      have hrest := ih (n / 16) (by omega)
      rw [hexDigits, hexNumber] at hrest
      rw [hexNumber, List.foldl_append, hrest, List.foldl_cons, List.foldl_nil,
        hexValue?_digitChar (Nat.mod_lt n (by decide)), Option.getD_some]
      omega

/-- No hexadecimal digit closes a brace. -/
theorem ne_brace_of_mem_hexDigits {n : ℕ} {c : Char} (h : c ∈ hexDigits n) : c ≠ '}' := by
  induction n using Nat.strongRecOn with
  | ind n ih =>
    rw [hexDigits, Nat.toDigits_eq_if (by decide)] at h
    split at h
    · rw [List.mem_singleton.mp h]
      exact Nat.digitChar_ne _ (by decide)
    · rcases List.mem_append.mp h with hinit | hlast
      · exact ih (n / 16) (by omega) hinit
      · rw [List.mem_singleton.mp hlast]
        exact Nat.digitChar_ne _ (by decide)

/-! ## One character -/

/-- Reads one character from its diagnostic form, and returns it with what stands behind. -/
def readDiagnosticChar : List Char → Option (Char × List Char)
  | '\\' :: '0' :: rest => some ('\x00', rest)
  | '\\' :: 't' :: rest => some ('\t', rest)
  | '\\' :: 'r' :: rest => some ('\r', rest)
  | '\\' :: 'n' :: rest => some ('\n', rest)
  | '\\' :: 'u' :: '{' :: rest =>
    some (Char.ofNat (hexNumber (rest.takeWhile (· ≠ '}'))),
      (rest.dropWhile (· ≠ '}')).tail)
  | '\\' :: c :: rest => some (c, rest)
  | c :: rest => some (c, rest)
  | [] => none

/-- Reading undoes quoting and stops where the quoted character stops. -/
theorem readDiagnosticChar_diagnosticChar (c : Char) (rest : List Char) :
    readDiagnosticChar (diagnosticChar '"' c ++ rest) = some (c, rest) := by
  rw [diagnosticChar]
  -- Six characters have an escape of their own.
  iterate 6
    split
    · rename_i hescaped
      rw [hescaped]
      rfl
  split
  · have hdigits : ∀ d ∈ hexDigits c.toNat, decide (d ≠ '}') = true := fun d hd =>
      decide_eq_true (ne_brace_of_mem_hexDigits hd)
    simp only [List.cons_append, List.nil_append, List.append_assoc, readDiagnosticChar]
    rw [List.takeWhile_append_of_pos hdigits, List.dropWhile_append_of_pos hdigits]
    simp [hexNumber_hexDigits]
  · rename_i hbackslash _ _
    rw [List.singleton_append, readDiagnosticChar]
    all_goals simp [hbackslash]

/-- A quoted character is followed by the same text only if it is the same character. -/
theorem diagnosticChar_append_inj {a b : Char} {r s : List Char}
    (h : diagnosticChar '"' a ++ r = diagnosticChar '"' b ++ s) : a = b ∧ r = s := by
  have hread := congrArg readDiagnosticChar h
  rw [readDiagnosticChar_diagnosticChar, readDiagnosticChar_diagnosticChar] at hread
  simpa using hread

/-- The form of a character does not begin with a quotation mark, so it does not end the string. -/
theorem diagnosticChar_append_ne (c : Char) (r s : List Char) :
    diagnosticChar '"' c ++ r ≠ '"' :: s := by
  intro h
  have hread := congrArg readDiagnosticChar h
  rw [readDiagnosticChar_diagnosticChar, readDiagnosticChar] at hread
  · obtain rfl : c = '"' := by simp at hread; exact hread.1
    exact absurd h (by simp [diagnosticChar])
  all_goals simp

/-! ## Whole strings -/

theorem diagnosticString_toList (s : String) : (diagnosticString s).toList =
    '"' :: (s.toList.flatMap (diagnosticChar '"') ++ ['"']) := by
  rw [diagnosticString, String.toList_ofList]
  rfl

theorem flatMap_diagnosticChar_inj {a b r s : List Char}
    (h : a.flatMap (diagnosticChar '"') ++ '"' :: r = b.flatMap (diagnosticChar '"') ++ '"' :: s) :
    a = b ∧ r = s := by
  induction a generalizing b with
  | nil =>
    cases b with
    | nil => simpa using h
    | cons c b =>
      rw [List.flatMap_cons, List.append_assoc] at h
      exact absurd h.symm (diagnosticChar_append_ne c _ _)
  | cons c a ih =>
    rw [List.flatMap_cons, List.append_assoc] at h
    cases b with
    | nil => exact absurd h (diagnosticChar_append_ne c _ _)
    | cons c' b =>
      rw [List.flatMap_cons, List.append_assoc] at h
      obtain ⟨rfl, htail⟩ := diagnosticChar_append_inj h
      obtain ⟨rfl, hrest⟩ := ih htail
      exact ⟨rfl, hrest⟩

/-- A diagnostic string in front of a text can be read off in one way only. -/
theorem diagnosticString_append_inj {a b : String} {r s : List Char}
    (h : (diagnosticString a).toList ++ r = (diagnosticString b).toList ++ s) : a = b ∧ r = s := by
  rw [diagnosticString_toList, diagnosticString_toList, List.cons_append, List.cons_append,
    List.append_assoc, List.append_assoc] at h
  obtain ⟨hchars, hrest⟩ := flatMap_diagnosticChar_inj (List.cons.inj h).2
  exact ⟨String.toList_inj.mp hchars, hrest⟩

end ContractDraft.Text
