import ContractDraft.Text.Pattern
import Mathlib.Tactic.Common

/-!
# What patterns match

The texts of a pattern, given by its structure (`Pattern.Matches`), are the texts that the pass over
characters accepts (`Pattern.accepts_iff`). The other lemmas say what the composed patterns match,
so that proofs about single patterns go by their parts.
-/

namespace ContractDraft.Text

/-- Whether a character belongs to a class. -/
def InClass (items : List ClassItem) (c : Char) : Prop := items.any (·.holds c) = true

@[simp] theorem inClass_nil (c : Char) : InClass [] c ↔ False := by
  simp [InClass]

@[simp] theorem inClass_cons_range (first last : Char) (items : List ClassItem) (c : Char) :
    InClass (.range first last :: items) c ↔
      (first.toNat ≤ c.toNat ∧ c.toNat ≤ last.toNat) ∨ InClass items c := by
  simp only [InClass, ClassItem.holds, List.any_cons, Bool.or_eq_true, Bool.and_eq_true,
    decide_eq_true_eq]
  rfl

@[simp] theorem inClass_cons_decimalDigit (items : List ClassItem) (c : Char) :
    InClass (.decimalDigit :: items) c ↔ isDecimalDigit c = true ∨ InClass items c := by
  simp [InClass, ClassItem.holds]

namespace Pattern

/-- The texts of a pattern. -/
inductive Matches : Pattern → List Char → Prop where
  | empty : Matches .empty []
  | char {items : List ClassItem} {c : Char} : InClass items c → Matches (.char items) [c]
  | seq {p q : Pattern} {s t : List Char} : Matches p s → Matches q t → Matches (.seq p q) (s ++ t)
  | left {p q : Pattern} {s : List Char} : Matches p s → Matches (.either p q) s
  | right {p q : Pattern} {s : List Char} : Matches q s → Matches (.either p q) s
  | none {p : Pattern} : Matches (.many p) []
  | more {p : Pattern} {s t : List Char} : Matches p s → Matches (.many p) t →
      Matches (.many p) (s ++ t)

section

variable {p q : Pattern} {s : List Char} {c : Char}

/-! ## By structure -/

@[simp] theorem matches_never_iff : never.Matches s ↔ False := by
  constructor
  · intro h
    cases h
  · exact False.elim

@[simp] theorem matches_empty_iff : empty.Matches s ↔ s = [] := by
  constructor
  · rintro ⟨⟩
    rfl
  · rintro rfl
    exact .empty

/-- A class matches one character of it. -/
theorem matches_char_iff {items : List ClassItem} :
    (char items).Matches s ↔ ∃ c, s = [c] ∧ InClass items c := by
  constructor
  · rintro ⟨⟩
    exact ⟨_, rfl, ‹_›⟩
  · rintro ⟨c, rfl, h⟩
    exact .char h

/-- A sequence matches a text that can be cut into two matches. -/
theorem matches_seq_iff :
    (seq p q).Matches s ↔ ∃ t u, s = t ++ u ∧ p.Matches t ∧ q.Matches u := by
  constructor
  · rintro ⟨⟩
    exact ⟨_, _, rfl, ‹_›, ‹_›⟩
  · rintro ⟨t, u, rfl, ht, hu⟩
    exact .seq ht hu

theorem matches_either_iff : (either p q).Matches s ↔ p.Matches s ∨ q.Matches s := by
  constructor
  · intro h
    cases h with
    | left h => exact .inl h
    | right h => exact .inr h
  · rintro (h | h)
    · exact .left h
    · exact .right h

/-! ## The pass over characters -/

/-- Whether a pattern matches the empty text is computed from its parts. -/
theorem acceptsEmpty_iff : p.acceptsEmpty = true ↔ p.Matches [] := by
  induction p with
  | never => simp [acceptsEmpty]
  | empty => simp [acceptsEmpty]
  | char items => simp [acceptsEmpty, matches_char_iff]
  | seq p q ihp ihq =>
    rw [acceptsEmpty, Bool.and_eq_true, ihp, ihq, matches_seq_iff]
    constructor
    · rintro ⟨hp, hq⟩
      exact ⟨[], [], rfl, hp, hq⟩
    · rintro ⟨t, u, h, hp, hq⟩
      obtain ⟨rfl, rfl⟩ := List.append_eq_nil_iff.mp h.symm
      exact ⟨hp, hq⟩
  | either p q ihp ihq => rw [acceptsEmpty, Bool.or_eq_true, ihp, ihq, matches_either_iff]
  | many p _ => exact iff_of_true rfl .none

/-- The shortened sequence matches what the sequence matches. -/
theorem matches_join_iff : (join p q).Matches s ↔ (seq p q).Matches s := by
  unfold join
  split
  · simp [matches_seq_iff]
  · simp [matches_seq_iff]
  · rfl

/-- The shortened choice matches what one of its sides matches. -/
theorem matches_choose_iff : (choose p q).Matches s ↔ p.Matches s ∨ q.Matches s := by
  unfold choose
  split
  · simp
  · simp
  · exact matches_either_iff

/-- Of several texts in a row one holds the first character. -/
theorem matches_many_cons_iff :
    (many p).Matches (c :: s) ↔ ∃ t u, s = t ++ u ∧ p.Matches (c :: t) ∧ (many p).Matches u := by
  constructor
  · generalize hwhole : c :: s = whole
    generalize hmany : many p = r
    intro h
    -- Empty texts may stand in front of the one that holds the character.
    induction h with
    | none => cases hwhole
    | @more _ first rest hfirst hrest _ ih =>
      cases hmany
      rcases List.append_eq_cons_iff.mp hwhole.symm with ⟨rfl, hrest'⟩ | ⟨t, rfl, hs⟩
      · exact ih hrest'.symm rfl
      · exact ⟨t, rest, hs, hfirst, hrest⟩
    | _ => cases hmany
  · rintro ⟨t, u, rfl, ht, hu⟩
    exact .more ht hu

/-- The pattern behind a character matches what may follow it. -/
theorem matches_after_iff : ∀ {s}, (p.after c).Matches s ↔ p.Matches (c :: s) := by
  induction p with
  | never => simp [after]
  | empty => simp [after]
  | char items =>
    intro s
    have hsingle : (char items).Matches (c :: s) ↔ s = [] ∧ InClass items c := by
      rw [matches_char_iff]
      constructor
      · rintro ⟨d, hd, h⟩
        obtain ⟨rfl, rfl⟩ := List.cons_eq_cons.mp hd
        exact ⟨rfl, h⟩
      · rintro ⟨rfl, h⟩
        exact ⟨c, rfl, h⟩
    rw [after, hsingle, InClass]
    by_cases h : items.any (·.holds c) = true
    · rw [if_pos h, matches_empty_iff, and_iff_left h]
    · rw [if_neg h, matches_never_iff, false_iff, not_and]
      exact fun _ => h
  | seq p q ihp ihq =>
    intro s
    -- The first text holds the character, or it is empty and the second one does.
    have hsplit : (seq p q).Matches (c :: s) ↔
        (seq (p.after c) q).Matches s ∨ p.Matches [] ∧ q.Matches (c :: s) := by
      simp only [matches_seq_iff, ihp]
      constructor
      · rintro ⟨t, u, h, ht, hu⟩
        rcases List.append_eq_cons_iff.mp h.symm with ⟨rfl, rfl⟩ | ⟨t', rfl, rfl⟩
        · exact .inr ⟨ht, hu⟩
        · exact .inl ⟨t', u, rfl, ht, hu⟩
      · rintro (⟨t, u, rfl, ht, hu⟩ | ⟨hp, hq⟩)
        · exact ⟨c :: t, u, rfl, ht, hu⟩
        · exact ⟨[], c :: s, rfl, hp, hq⟩
    rw [after, hsplit]
    by_cases h : p.acceptsEmpty = true
    · rw [if_pos h, matches_choose_iff, matches_join_iff, ihq,
        and_iff_right (acceptsEmpty_iff.mp h)]
    · rw [if_neg h, matches_join_iff, ← acceptsEmpty_iff, or_iff_left (fun hp => h hp.1)]
  | either p q ihp ihq =>
    intro s
    rw [after, matches_choose_iff, ihp, ihq, matches_either_iff]
  | many p ih =>
    intro s
    rw [after, matches_join_iff, matches_seq_iff, matches_many_cons_iff]
    simp only [ih]

/-- A text is accepted exactly if the pattern matches it. -/
theorem accepts_iff : p.accepts s = true ↔ p.Matches s := by
  unfold accepts
  induction s generalizing p with
  | nil => exact acceptsEmpty_iff
  | cons c s ih => rw [List.foldl_cons, ih, matches_after_iff]

/-! ## Composed patterns -/

/-- The pattern of a character matches this character. -/
theorem matches_just_iff : (just c).Matches s ↔ s = [c] := by
  have hclass (d : Char) : InClass [.range c c] d ↔ d = c := by
    rw [inClass_cons_range, inClass_nil, or_false, ← Char.toNat_inj]
    omega
  simp only [just, matches_char_iff, hclass]
  constructor
  · rintro ⟨d, rfl, rfl⟩
    rfl
  · rintro rfl
    exact ⟨c, rfl, rfl⟩

/-- An optional part may be missing. -/
theorem matches_optional_iff : p.optional.Matches s ↔ s = [] ∨ p.Matches s := by
  rw [optional, matches_either_iff, matches_empty_iff, or_comm]

/-- A row matches its first part and then the others. -/
theorem matches_row_cons_iff {ps : List Pattern} :
    (row (p :: ps)).Matches s ↔ ∃ t u, s = t ++ u ∧ p.Matches t ∧ (row ps).Matches u := by
  cases ps with
  | nil => simp [row]
  | cons q ps => exact matches_seq_iff

theorem matches_row_singleton_iff : (row [p]).Matches s ↔ p.Matches s := Iff.rfl

/-- Of two patterns or more, the first one is in front of a row that is not empty. -/
theorem matches_row_cons_cons_iff {ps : List Pattern} : (row (p :: q :: ps)).Matches s ↔
    ∃ t u, s = t ++ u ∧ p.Matches t ∧ (row (q :: ps)).Matches u :=
  matches_seq_iff

/-- Two rows match one behind the other. -/
theorem matches_row_append_iff (ps : List Pattern) {qs : List Pattern} :
    (row (ps ++ qs)).Matches s ↔ ∃ t u, s = t ++ u ∧ (row ps).Matches t ∧ (row qs).Matches u := by
  induction ps generalizing s with
  | nil => simp [row]
  | cons p ps ih =>
    simp only [List.cons_append, matches_row_cons_iff, ih]
    constructor
    · rintro ⟨t, _, rfl, ht, u, v, rfl, hu, hv⟩
      exact ⟨t ++ u, v, by simp, ⟨t, u, rfl, ht, hu⟩, hv⟩
    · rintro ⟨_, v, rfl, ⟨t, u, rfl, ht, hu⟩, hv⟩
      exact ⟨t, u ++ v, by simp, ht, u, v, rfl, hu, hv⟩

end

section

variable {items : List ClassItem} {s : List Char}

/-- A class so many times matches as many characters of it. -/
theorem matches_times_char_iff {n : ℕ} :
    (times n (.char items)).Matches s ↔ s.length = n ∧ ∀ c ∈ s, InClass items c := by
  induction n generalizing s with
  | zero =>
    rw [times, matches_empty_iff, List.length_eq_zero_iff]
    constructor
    · rintro rfl
      exact ⟨rfl, by simp⟩
    · exact And.left
  | succ n ih =>
    simp only [times, matches_seq_iff, matches_char_iff, ih]
    constructor
    · rintro ⟨_, u, rfl, ⟨c, rfl, hc⟩, rfl, hu⟩
      exact ⟨rfl, List.forall_mem_cons.mpr ⟨hc, hu⟩⟩
    · rintro ⟨hlength, hall⟩
      cases s with
      | nil => cases hlength
      | cons c s =>
        obtain ⟨hc, hs⟩ := List.forall_mem_cons.mp hall
        exact ⟨[c], s, rfl, ⟨c, rfl, hc⟩, Nat.succ.inj hlength, hs⟩

/-- A repeated class matches any number of its characters. -/
theorem matches_many_char_iff :
    (many (.char items)).Matches s ↔ ∀ c ∈ s, InClass items c := by
  induction s with
  | nil => exact iff_of_true .none (by simp)
  | cons c s ih =>
    rw [matches_many_cons_iff, List.forall_mem_cons, ← ih]
    simp only [matches_char_iff]
    constructor
    · rintro ⟨t, u, rfl, ⟨d, hd, hclass⟩, hu⟩
      obtain ⟨rfl, rfl⟩ := List.cons_eq_cons.mp hd
      exact ⟨hclass, hu⟩
    · rintro ⟨hc, hs⟩
      exact ⟨[], s, rfl, ⟨c, rfl, hc⟩, hs⟩

/-- A class at least once matches its characters unless there are none. -/
theorem matches_several_char_iff :
    (several (.char items)).Matches s ↔ s ≠ [] ∧ ∀ c ∈ s, InClass items c := by
  rw [several, matches_seq_iff]
  simp only [matches_char_iff, matches_many_char_iff]
  constructor
  · rintro ⟨_, u, rfl, ⟨c, rfl, hc⟩, hu⟩
    exact ⟨List.cons_ne_nil c u, List.forall_mem_cons.mpr ⟨hc, hu⟩⟩
  · rintro ⟨hne, hall⟩
    cases s with
    | nil => exact absurd rfl hne
    | cons c s =>
      obtain ⟨hc, hs⟩ := List.forall_mem_cons.mp hall
      exact ⟨[c], s, rfl, ⟨c, rfl, hc⟩, hs⟩

end

end Pattern
end ContractDraft.Text
