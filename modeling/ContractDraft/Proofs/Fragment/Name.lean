import ContractDraft.Fragment.Name
import ContractDraft.Fragment.Path
import Mathlib.Data.List.Nodup

/-!
# Fresh names

The name of a fragment as a function of what it is for: `hint` reads the wish off the path of the
object, and `fresh` is the first of the choices `base`, `base2`, `base3` and so on that is not
taken. The choices are pairwise different, so among one more choices than there are taken names one
is free.
-/

namespace ContractDraft.Name

/-- The name that a node would like to have: after its key, or after the document if no key leads to
it, and in the singular once for every array on the way down from there. -/
def hint (rootName : String) : Path → String
  | [] => lowerCamelCase rootName
  | .key key :: _ => lowerCamelCase key
  | .item :: path => ofItem (hint rootName path)

/-- The `n`-th choice for a name: the base itself, then `base2`, `base3` and so on. -/
def candidate (base : String) : Nat → String
  | 0 => base
  | n + 1 => base ++ toString (n + 2)

/-- The first choice that is not taken. Among one more choices than there are taken names, one is
free. -/
def fresh (taken : List String) (base : String) : String :=
  let choices := (List.range (taken.length + 1)).map (candidate base)
  (choices.find? fun name => name ∉ taken).getD base

theorem toString_injective : Function.Injective (toString : ℕ → String) := by
  intro m n h
  have hdigits : Nat.toDigits 10 m = Nat.toDigits 10 n := by
    simpa using congrArg String.toList h
  rw [← Nat.ofDigitChars_ten_toDigits (n := m), hdigits, Nat.ofDigitChars_ten_toDigits]

/-- No two choices for a name are alike. -/
theorem candidate_injective (base : String) : Function.Injective (candidate base) := by
  intro m n h
  cases m with
  | zero =>
    cases n with
    | zero => rfl
    | succ n => exact absurd h.symm (by simp [candidate])
  | succ m =>
    cases n with
    | zero => simp [candidate] at h
    | succ n =>
      have hcount : toString (m + 2) = toString (n + 2) := by
        simpa only [candidate, String.append_right_inj] using h
      have := toString_injective hcount
      omega

/-- The choices that `fresh` looks at. -/
def choices (taken : List String) (base : String) : List String :=
  (List.range (taken.length + 1)).map (candidate base)

theorem choices_nodup (taken : List String) (base : String) : (choices taken base).Nodup :=
  List.nodup_range.map (candidate_injective base)

/-- Not every choice is taken. -/
theorem exists_choice_not_mem (taken : List String) (base : String) :
    ∃ name ∈ choices taken base, name ∉ taken := by
  by_contra hall
  push Not at hall
  -- Pairwise different choices would all have to be among fewer taken names.
  have hle := List.Nodup.length_le_of_subset (choices_nodup taken base) hall
  rw [choices, List.length_map, List.length_range] at hle
  omega

/-- The name is the first choice behind the base that is not taken. -/
def FirstFree (taken : List String) (base name : String) : Prop :=
  ∃ n, name = candidate base n ∧ name ∉ taken ∧ ∀ m < n, candidate base m ∈ taken

theorem FirstFree.not_mem {taken : List String} {base name : String}
    (h : FirstFree taken base name) : name ∉ taken := by
  obtain ⟨_, _, hnot, _⟩ := h
  exact hnot

/-- There is at most one first free choice. -/
theorem FirstFree.eq {taken : List String} {base name other : String}
    (h : FirstFree taken base name) (h' : FirstFree taken base other) : name = other := by
  obtain ⟨n, rfl, hnot, hbefore⟩ := h
  obtain ⟨m, rfl, hnot', hbefore'⟩ := h'
  -- The earlier of two free choices would be taken by the minimality of the later one.
  rcases Nat.lt_trichotomy n m with hlt | rfl | hgt
  · exact absurd (hbefore' n hlt) hnot
  · rfl
  · exact absurd (hbefore m hgt) hnot'

/-- Only which names are taken matters, not how often or in what order. -/
theorem FirstFree.congr {taken others : List String} {base name : String}
    (h : FirstFree taken base name) (hsame : ∀ name, name ∈ others ↔ name ∈ taken) :
    FirstFree others base name := by
  obtain ⟨n, heq, hnot, hbefore⟩ := h
  exact ⟨n, heq, fun hmem => hnot ((hsame name).mp hmem), fun m hm => (hsame _).mpr (hbefore m hm)⟩

/-- A fresh name is the first free choice. -/
theorem firstFree_fresh (taken : List String) (base : String) :
    FirstFree taken base (fresh taken base) := by
  obtain ⟨free, hfree, hnot⟩ := exists_choice_not_mem taken base
  have hsome : ((choices taken base).find? fun name => name ∉ taken).isSome :=
    List.find?_isSome.mpr ⟨free, hfree, by simpa using hnot⟩
  obtain ⟨found, hfound⟩ := Option.isSome_iff_exists.mp hsome
  have hfresh : fresh taken base = found := by
    show ((choices taken base).find? fun name => name ∉ taken).getD base = found
    rw [hfound, Option.getD_some]
  rw [hfresh]
  -- Everything that the search passed over is taken.
  obtain ⟨hnew, before, after, hsplit, hpassed⟩ := List.find?_eq_some_iff_append.mp hfound
  have hlength : before.length < (List.range (taken.length + 1)).length := by
    have h := congrArg List.length hsplit
    simp only [choices, List.length_map, List.length_append, List.length_cons] at h
    omega
  have hchoice (m : ℕ) (hm : m < taken.length + 1) :
      (before ++ found :: after)[m]? = some (candidate base m) := by
    rw [← hsplit, choices, List.getElem?_map, List.getElem?_range hm, Option.map_some]
  rw [List.length_range] at hlength
  refine ⟨before.length, ?_, by simpa using hnew, fun m hm => ?_⟩
  · have h := hchoice before.length hlength
    simpa using h
  · have h := hchoice m (by omega)
    rw [List.getElem?_append_left hm] at h
    simpa using hpassed _ (List.mem_of_getElem? h)

/-- A fresh name is not taken. -/
theorem fresh_not_mem (taken : List String) (base : String) : fresh taken base ∉ taken :=
  (firstFree_fresh taken base).not_mem

end ContractDraft.Name
