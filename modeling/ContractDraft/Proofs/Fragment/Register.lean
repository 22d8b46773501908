import ContractDraft.Fragment.Register
import ContractDraft.Proofs.Fragment.Name
import Mathlib.Logic.Function.Iterate

/-!
# What a register gives out

A register counts on from where it stopped, and its counters are never set back. Still it gives out
the first choice that is not taken (`Counted.firstFree_allocate`), because every number up to a
counter is taken. The search for a name ends in every register, whatever its counters are
(`exists_attempt_free`).
-/

namespace ContractDraft.Register

/-! ## Attempts -/

/-- The `n`-th attempt of the search for a name behind a base. -/
def attempt (register : Register) (base : String) (n : ℕ) : Attempt :=
  (Attempt.next base)^[n] (register.opening base)

variable (register : Register) (base : String)

theorem attempt_zero_name : (register.attempt base 0).name = base := rfl

theorem attempt_count (n : ℕ) : (register.attempt base n).count = register.counter base + n := by
  induction n with
  | zero => rfl
  | succ n ih =>
    unfold attempt at ih ⊢
    rw [Function.iterate_succ_apply']
    show ((Attempt.next base)^[n] (register.opening base)).count + 1 =
      register.counter base + (n + 1)
    omega

theorem attempt_succ_name (n : ℕ) : (register.attempt base (n + 1)).name =
    base ++ toString (register.counter base + n + 1) := by
  have hcount := register.attempt_count base n
  unfold attempt at hcount ⊢
  rw [Function.iterate_succ_apply']
  show base ++ toString (((Attempt.next base)^[n] (register.opening base)).count + 1) = _
  rw [hcount]

/-- No name is tried twice. -/
theorem attempt_name_injective : Function.Injective fun n => (register.attempt base n).name := by
  have hlonger (n : ℕ) : base ++ toString n ≠ base := by simp
  intro m n h
  cases m with
  | zero =>
    cases n with
    | zero => rfl
    | succ n =>
      simp only [attempt_zero_name, attempt_succ_name] at h
      exact absurd h.symm (hlonger _)
  | succ m =>
    cases n with
    | zero =>
      simp only [attempt_zero_name, attempt_succ_name] at h
      exact absurd h (hlonger _)
    | succ n =>
      simp only [attempt_succ_name, String.append_right_inj] at h
      have hnumber := Name.toString_injective h
      omega

/-! ## The search -/

/-- Among one more attempts than there are taken names, one is free. -/
theorem exists_attempt_free :
    ∃ n ≤ register.taken.length, (register.attempt base n).name ∉ register.taken := by
  by_contra hall
  push Not at hall
  let names := (List.range (register.taken.length + 1)).map fun n => (register.attempt base n).name
  have hnodup : names.Nodup := List.nodup_range.map (register.attempt_name_injective base)
  have hsubset : names ⊆ register.taken := by
    intro name hname
    obtain ⟨n, hn, rfl⟩ := List.mem_map.mp hname
    have hlt := List.mem_range.mp hn
    exact hall n (by omega)
  have hle := List.Nodup.length_le_of_subset hnodup hsubset
  simp only [names, List.length_map, List.length_range] at hle
  omega

/-- A search passes over taken names only, and stops at a free one or when its fuel is spent. -/
theorem search_spec (fuel : ℕ) (a : Attempt) :
    ∃ n ≤ fuel, register.search base fuel a = (Attempt.next base)^[n] a ∧
      (∀ m < n, ((Attempt.next base)^[m] a).name ∈ register.taken) ∧
      (n < fuel → ((Attempt.next base)^[n] a).name ∉ register.taken) := by
  induction fuel generalizing a with
  | zero => exact ⟨0, Nat.le_refl 0, rfl, by omega, by omega⟩
  | succ fuel ih =>
    unfold search
    by_cases htaken : a.name ∈ register.taken
    · rw [if_pos htaken]
      obtain ⟨n, hn, hresult, hpassed, hfree⟩ := ih (a.next base)
      refine ⟨n + 1, by omega, hresult, fun m hm => ?_, fun hlt => hfree (by omega)⟩
      cases m with
      | zero => exact htaken
      | succ m => exact hpassed m (by omega)
    · rw [if_neg htaken]
      exact ⟨0, Nat.zero_le _, rfl, by omega, fun _ => htaken⟩

/-- The search of a register finds its first attempt that is not taken. -/
theorem exists_search_eq_attempt : ∃ n,
    register.search base register.taken.length (register.opening base) = register.attempt base n ∧
      (register.attempt base n).name ∉ register.taken ∧
      ∀ m < n, (register.attempt base m).name ∈ register.taken := by
  obtain ⟨n, hn, hresult, hpassed, hfree⟩ :=
    register.search_spec base register.taken.length (register.opening base)
  refine ⟨n, hresult, ?_, hpassed⟩
  obtain ⟨k, hk, hkfree⟩ := register.exists_attempt_free base
  -- Were the fuel spent on taken names only, the free attempt could not lie within it.
  by_cases hspent : n < register.taken.length
  · exact hfree hspent
  · have hle : n ≤ k := by
      by_contra hlt
      exact hkfree (hpassed k (by omega))
    obtain rfl : n = k := by omega
    exact hkfree

/-! ## Counters -/

/-- Every number up to a counter is taken, and so is a base that has been counted. -/
structure Counted (register : Register) : Prop where
  one_le : ∀ base, 1 ≤ register.counter base
  base_taken : ∀ base, 1 < register.counter base → base ∈ register.taken
  numbers_taken : ∀ base n, 2 ≤ n → n ≤ register.counter base → base ++ toString n ∈ register.taken

theorem Counted.start (rootName : String) : (Register.start rootName).Counted where
  one_le _ := Nat.le_refl 1
  base_taken _ h := absurd h (Nat.lt_irrefl 1)
  numbers_taken base n htwo hle := by
    have hone : (Register.start rootName).counter base = 1 := rfl
    omega

variable {register base}

/-- If all attempts before the `n`-th are taken, so are all numbers that they count to. -/
theorem Counted.number_taken (h : register.Counted) {n : ℕ}
    (hpassed : ∀ m < n, (register.attempt base m).name ∈ register.taken) {number : ℕ}
    (htwo : 2 ≤ number) (hlt : number < register.counter base + n) :
    base ++ toString number ∈ register.taken := by
  by_cases hold : number ≤ register.counter base
  · exact h.numbers_taken base number htwo hold
  · have hname := hpassed (number - register.counter base - 1 + 1) (by omega)
    have hnumber : register.counter base + (number - register.counter base - 1) + 1 = number := by
      omega
    rwa [attempt_succ_name, hnumber] at hname

/-- A free attempt with nothing but taken attempts before it is the first free choice. -/
theorem Counted.firstFree_attempt (h : register.Counted) {n : ℕ}
    (hfree : (register.attempt base n).name ∉ register.taken)
    (hpassed : ∀ m < n, (register.attempt base m).name ∈ register.taken) :
    Name.FirstFree register.taken base (register.attempt base n).name := by
  have hone := h.one_le base
  cases n with
  | zero => exact ⟨0, rfl, hfree, by omega⟩
  | succ k =>
    have hindex : register.counter base + k - 1 + 2 = register.counter base + k + 1 := by omega
    refine ⟨register.counter base + k - 1 + 1, ?_, hfree, fun m hm => ?_⟩
    · rw [attempt_succ_name, Name.candidate, hindex]
    · cases m with
      | zero => exact hpassed 0 (by omega)
      | succ m => exact h.number_taken hpassed (by omega) (by omega)

/-- A register in which every number up to a counter is taken gives out the first free choice. -/
theorem Counted.firstFree_allocate (h : register.Counted) (hint : String) :
    Name.FirstFree register.taken (Name.identifier hint) (register.allocate hint).1 := by
  obtain ⟨n, hsearch, hfree, hpassed⟩ :=
    register.exists_search_eq_attempt (Name.identifier hint)
  have hname : (register.allocate hint).1 = (register.attempt (Name.identifier hint) n).name :=
    congrArg Attempt.name hsearch
  rw [hname]
  exact h.firstFree_attempt hfree hpassed

/-- The name that is given out is the only one that becomes taken. -/
theorem taken_allocate (register : Register) (hint : String) :
    (register.allocate hint).2.taken = (register.allocate hint).1 :: register.taken := rfl

/-- Giving out a name keeps every number up to a counter taken. -/
theorem Counted.allocate (h : register.Counted) (hint : String) :
    (register.allocate hint).2.Counted := by
  obtain ⟨n, hsearch, hfree, hpassed⟩ :=
    register.exists_search_eq_attempt (Name.identifier hint)
  have hname : (register.allocate hint).1 = (register.attempt (Name.identifier hint) n).name :=
    congrArg Attempt.name hsearch
  have hcounter (other : String) : (register.allocate hint).2.counter other =
      if other = Name.identifier hint then register.counter (Name.identifier hint) + n
      else register.counter other := by
    show (if other = _ then (register.search _ _ _).count else _) = _
    rw [hsearch, attempt_count]
  refine ⟨fun other => ?_, fun other hlt => ?_, fun other number htwo hle => ?_⟩
  · rw [hcounter]
    have hone := h.one_le (Name.identifier hint)
    have hone' := h.one_le other
    split <;> omega
  · rw [hcounter] at hlt
    rw [taken_allocate]
    split at hlt
    · rename_i hsame
      -- The base was tried first: it is the name that was given out, or it was passed over.
      rw [hsame, hname]
      cases n with
      | zero => exact List.mem_cons_self ..
      | succ n => exact List.mem_cons_of_mem _ (hpassed 0 (by omega))
    · exact List.mem_cons_of_mem _ (h.base_taken other hlt)
  · rw [hcounter] at hle
    rw [taken_allocate]
    split at hle
    · rename_i hsame
      rw [hsame, hname]
      by_cases hlast : number < register.counter (Name.identifier hint) + n
      · exact List.mem_cons_of_mem _ (h.number_taken hpassed htwo hlast)
      · obtain rfl : number = register.counter (Name.identifier hint) + n := by omega
        cases n with
        | zero => exact List.mem_cons_of_mem _ (h.numbers_taken _ _ htwo (by omega))
        | succ n =>
          rw [attempt_succ_name]
          exact List.mem_cons_self ..
    · exact List.mem_cons_of_mem _ (h.numbers_taken other number htwo hle)

end ContractDraft.Register
