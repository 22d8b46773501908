import ContractDraft.Proofs.Json.Failure
import Mathlib.Data.List.DropRight
import Mathlib.Data.Nat.SuccPred
import Mathlib.Data.Prod.Lex
import Mathlib.Order.Interval.Set.Monotone

/-!
# Places in a text

The line and the column of a position are counted while the text in front of it is passed. In plain
terms they say how many line feeds that text has and how much of it stands behind the last one
(`lineColumn_eq`). Every character moves the place on, to a later column or to a later line
(`key_lt_advance`), so no two positions inside a text have the same place
(`strictMonoOn_lineColumn`). Errors have positions inside the text, and thus it is enough to report
their places (`lineColumn_identifies`).
-/

namespace ContractDraft

/-- The part of a text that stands behind its last line feed, or all of it if there is none. -/
def lastLine (s : List Char) : List Char := s.rtakeWhile (· ≠ '\n')

theorem lastLine_append_newLine (s : List Char) : lastLine (s ++ ['\n']) = [] :=
  List.rtakeWhile_concat_neg _ _ _ (by decide)

theorem lastLine_append_of_ne (s : List Char) {c : Char} (h : c ≠ '\n') :
    lastLine (s ++ [c]) = lastLine s ++ [c] :=
  List.rtakeWhile_concat_pos _ _ _ (by simpa using h)

namespace LineColumn

/-- Places are compared by their lines, and by their columns inside of a line. -/
def key (place : LineColumn) : ℕ ×ₗ ℕ := toLex (place.line, place.column)

theorem key_lt_advance (place : LineColumn) (c : Char) : place.key < (place.advance c).key := by
  rw [key, key, Prod.Lex.toLex_lt_toLex]
  by_cases hc : c = '\n'
  · rw [advance, if_pos hc]
    exact .inl (Nat.lt_succ_self _)
  · rw [advance, if_neg hc]
    exact .inr ⟨rfl, Nat.lt_succ_self _⟩

end LineColumn

/-- The place behind a text. -/
theorem foldl_advance (s : List Char) :
    s.foldl LineColumn.advance ⟨1, 1⟩ = ⟨1 + s.count '\n', 1 + (lastLine s).length⟩ := by
  -- The place moves on at the end of the text, so the induction takes the text from there.
  induction s using List.reverseRecOn with
  | nil => rfl
  | append_singleton s c ih =>
    rw [List.foldl_append, ih, List.foldl_cons, List.foldl_nil, List.count_append]
    by_cases hc : c = '\n'
    · subst hc
      rw [LineColumn.advance, if_pos rfl, lastLine_append_newLine]
      rfl
    · have hcount : [c].count '\n' = 0 := List.count_eq_zero.mpr (by simpa using Ne.symm hc)
      rw [LineColumn.advance, if_neg hc, lastLine_append_of_ne s hc, hcount, List.length_append]
      rfl

section text

variable (text : List Char)

theorem lineColumn_eq (p : ℕ) :
    lineColumn text p =
      ⟨1 + (text.take p).count '\n', 1 + (lastLine (text.take p)).length⟩ :=
  foldl_advance (text.take p)

variable {text}

theorem lineColumn_succ {p : ℕ} (h : p < text.length) :
    lineColumn text (p + 1) = (lineColumn text p).advance text[p] := by
  rw [lineColumn, List.take_succ_eq_append_getElem h, List.foldl_append]
  rfl

variable (text)

theorem strictMonoOn_lineColumn :
    StrictMonoOn (fun p => (lineColumn text p).key) (Set.Iic text.length) := by
  refine strictMonoOn_Iic_of_lt_succ fun p hp => ?_
  show (lineColumn text p).key < (lineColumn text (p + 1)).key
  rw [lineColumn_succ hp]
  exact LineColumn.key_lt_advance _ _

theorem injOn_lineColumn : Set.InjOn (lineColumn text) (Set.Iic text.length) :=
  fun _ hp _ hq heq =>
    (strictMonoOn_lineColumn text).injOn hp hq (congrArg LineColumn.key heq)

end text

theorem position_le_of_readDocument {options : ReadOptions} {text : String} {e : ReadError}
    (h : readDocument options text = .error e) : e.position ≤ text.toList.length := by
  obtain ⟨before, rest, htext, hposition, _⟩ := readDocument_eq_error_iff.mp h
  rw [htext, ← hposition, List.length_append]
  exact Nat.le_add_right _ _

/-- The place of a position tells the line feeds in front of it and the characters behind the last
of them. Places follow each other as their positions do, so no other position of a text has the
place of an error in it. -/
theorem lineColumn_identifies (text : String) :
    (∀ p ≤ text.toList.length,
      (lineColumn text.toList p).line = 1 + (text.toList.take p).count '\n' ∧
        (lineColumn text.toList p).column = 1 + (lastLine (text.toList.take p)).length) ∧
      Set.InjOn (lineColumn text.toList) (Set.Iic text.toList.length) ∧
      StrictMonoOn (fun p => (lineColumn text.toList p).key) (Set.Iic text.toList.length) ∧
      ∀ options e, readDocument options text = .error e →
        e.position ≤ text.toList.length ∧
          ∀ p ≤ text.toList.length,
            lineColumn text.toList p = lineColumn text.toList e.position → p = e.position := by
  refine ⟨fun p _ => ?_, injOn_lineColumn _, strictMonoOn_lineColumn _, fun options e he => ?_⟩
  · rw [lineColumn_eq]
    exact ⟨rfl, rfl⟩
  · have hposition := position_le_of_readDocument he
    exact ⟨hposition, fun p hp heq => injOn_lineColumn _ hp hposition heq⟩

/-- A carriage return is a character of its line, and a letter of two bytes is one character. -/
theorem lineColumn_identifies_second_line :
    (lineColumn "\x7b\r\n \"é\": \x7d".toList 9).line = 2 ∧
      (lineColumn "\x7b\r\n \"é\": \x7d".toList 9).column = 7 ∧
      readDocument {} "\x7b\r\n \"é\": \x7d" = .error ⟨9, .unexpected .value '}'⟩ ∧
      ∀ p ≤ 10, lineColumn "\x7b\r\n \"é\": \x7d".toList p =
        lineColumn "\x7b\r\n \"é\": \x7d".toList 9 → p = 9 := by
  have hread : readDocument {} "\x7b\r\n \"é\": \x7d" =
      .error ⟨9, .unexpected .value '}'⟩ :=
    (bind_ok_eq_error_iff (f := fun _ => ())).mp (by decide +kernel)
  obtain ⟨hplace, -, -, herror⟩ := lineColumn_identifies "\x7b\r\n \"é\": \x7d"
  obtain ⟨hline, hcolumn⟩ := hplace 9 (by decide)
  obtain ⟨-, hposition⟩ := herror _ _ hread
  exact ⟨hline, hcolumn, hread, hposition⟩

end ContractDraft
