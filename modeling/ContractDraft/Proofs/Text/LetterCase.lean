import ContractDraft.Proofs.Json.StringLiteral
import ContractDraft.Text.LetterCase

/-!
# Letter case

Which characters a case mapping leads to. A character that is the image of no other is only its own
image (`eq_of_mapByRuns`). So the small forms of a text are digits, hyphens and letters from `a` to
`f` only if the text itself consists of these and of letters from `A` to `F` (`SmallForm.eq_map`,
`toNat_small_of_le`).
-/

namespace ContractDraft.Text

/-! ## Runs -/

/-- Whether a code point is no image of a run. -/
def CaseRun.Avoids (run : CaseRun) (n : ℕ) : Prop :=
  n < run.image ∨ run.image + (run.last - run.first) < n

instance (run : CaseRun) (n : ℕ) : Decidable (run.Avoids n) :=
  inferInstanceAs (Decidable (_ ∨ _))

/-- A code point that no run has as an image is only its own image. -/
theorem eq_of_mapByRuns {runs : List CaseRun} {n m : ℕ} (h : ∀ run ∈ runs, run.Avoids m)
    (heq : mapByRuns runs n = m) : n = m := by
  induction runs with
  | nil => exact heq
  | cons run rest ih =>
    obtain ⟨hrun, hrest⟩ := List.forall_mem_cons.mp h
    rw [mapByRuns] at heq
    split at heq
    · rename_i hin
      have := Nat.sub_le_sub_right hin.2.1 run.first
      rcases hrun with hbefore | hbehind <;> omega
    · exact ih hrest heq

/-- A code point in front of all runs is its own image. -/
theorem mapByRuns_of_lt {runs : List CaseRun} {n : ℕ} (h : ∀ run ∈ runs, n < run.first) :
    mapByRuns runs n = n := by
  induction runs with
  | nil => rfl
  | cons run rest ih =>
    obtain ⟨hrun, hrest⟩ := List.forall_mem_cons.mp h
    rw [mapByRuns, if_neg (by omega), ih hrest]

/-! ## Small letters -/

/-- The first run of small forms is that of the letters from `A` to `Z`; the others lie beyond ASCII
and have their images behind the letter `f`. -/
theorem lowerRuns_tail : ∀ run ∈ lowerRuns.tail, 128 ≤ run.first ∧ 'f'.toNat < run.image := by
  decide +kernel

theorem mapByRuns_lowerRuns (n : ℕ) : mapByRuns lowerRuns n =
    if 'A'.toNat ≤ n ∧ n ≤ 'Z'.toNat then n + 32 else mapByRuns lowerRuns.tail n := by
  show mapByRuns (⟨0x41, 0x5A, 1, 0x61⟩ :: lowerRuns.tail) n = _
  have hfirst : 'A'.toNat = 0x41 := rfl
  have hlast : 'Z'.toNat = 0x5A := rfl
  rw [mapByRuns]
  simp only [hfirst, hlast, Nat.mod_one, and_true]
  split <;> omega

/-- The small form of a character that has one other character, or itself, for its small form. -/
def small (c : Char) : Char := Char.ofNat (mapByRuns lowerRuns c.toNat)

/-- Only one character has a small form of two characters. -/
theorem toLower_of_ne {c : Char} (h : c.toNat ≠ 0x130) : toLower c = [small c] := by
  have hne : (c.toNat == 0x130) = false := beq_eq_false_iff_ne.mpr h
  have hlookup : lowerExpansions.lookup c.toNat = none := by
    rw [lowerExpansions, List.lookup_cons, hne]
    rfl
  rw [toLower, mapCase, hlookup]
  rfl

theorem toNat_small_of_capital {c : Char} (hle : 'A'.toNat ≤ c.toNat) (hge : c.toNat ≤ 'Z'.toNat) :
    (small c).toNat = c.toNat + 32 := by
  have hlast : 'Z'.toNat = 0x5A := rfl
  have hvalid : (c.toNat + 32).isValidChar := .inl (by omega)
  rw [small, mapByRuns_lowerRuns, if_pos ⟨hle, hge⟩, toNat_ofNat hvalid]

theorem small_of_ascii {c : Char} (hascii : c.toNat < 128)
    (h : c.toNat < 'A'.toNat ∨ 'Z'.toNat < c.toNat) : small c = c := by
  have hbefore : ∀ run ∈ lowerRuns.tail, c.toNat < run.first :=
    fun run hrun => Nat.lt_of_lt_of_le hascii (lowerRuns_tail run hrun).1
  rw [small, mapByRuns_lowerRuns, if_neg (by omega), mapByRuns_of_lt hbefore, Char.ofNat_toNat]

/-- A small form up to the letter `f` is that of an ASCII capital letter or of itself. -/
theorem toNat_small_of_le {c : Char} (hpos : 0 < (small c).toNat)
    (hle : (small c).toNat ≤ 'f'.toNat) :
    ('A'.toNat ≤ c.toNat ∧ c.toNat ≤ 'Z'.toNat ∧ (small c).toNat = c.toNat + 32) ∨ small c = c := by
  by_cases hcapital : 'A'.toNat ≤ c.toNat ∧ c.toNat ≤ 'Z'.toNat
  · exact .inl ⟨hcapital.1, hcapital.2, toNat_small_of_capital hcapital.1 hcapital.2⟩
  · right
    have hvalid : (mapByRuns lowerRuns c.toNat).isValidChar := by
      by_contra hinvalid
      rw [small, Char.ofNat, dif_neg hinvalid] at hpos
      exact absurd hpos (by decide)
    have himage : (small c).toNat = mapByRuns lowerRuns c.toNat := toNat_ofNat hvalid
    have htail : mapByRuns lowerRuns.tail c.toNat = (small c).toNat := by
      rw [himage, mapByRuns_lowerRuns, if_neg hcapital]
    have havoids : ∀ run ∈ lowerRuns.tail, run.Avoids (small c).toNat :=
      fun run hrun => .inl (Nat.lt_of_le_of_lt hle (lowerRuns_tail run hrun).2)
    exact (Char.toNat_inj.mp (eq_of_mapByRuns havoids htail)).symm

/-! ## ASCII letters -/

/-- The run of the ASCII capital letters. -/
def asciiCapitals : CaseRun := ⟨0x41, 0x5A, 1, 0x61⟩

/-- The run of the ASCII small letters. -/
def asciiSmalls : CaseRun := ⟨0x61, 0x7A, 1, 0x41⟩

/-- If the first of all runs is the only one within ASCII, it alone moves the ASCII characters. -/
theorem mapCase_of_ascii {expansions : List (ℕ × List ℕ)} {run : CaseRun} {rest : List CaseRun}
    (hexpansions : ∀ expansion ∈ expansions, 128 ≤ expansion.1)
    (hrest : ∀ other ∈ rest, 128 ≤ other.first) {c : Char} (hc : c.toNat < 128) :
    mapCase expansions (run :: rest) c = [Char.ofNat (mapByRuns [run] c.toNat)] := by
  have hlookup : expansions.lookup c.toNat = none := by
    refine List.lookup_eq_none_iff.mpr fun expansion hmem => ?_
    have hbehind := hexpansions expansion hmem
    exact bne_iff_ne.mpr (by omega)
  have hbefore : ∀ other ∈ rest, c.toNat < other.first := fun other hmem =>
    Nat.lt_of_lt_of_le hc (hrest other hmem)
  rw [mapCase, hlookup]
  simp only [mapByRuns, mapByRuns_of_lt hbefore]

theorem toLower_of_ascii {c : Char} (hc : c.toNat < 128) :
    toLower c = [Char.ofNat (mapByRuns [asciiCapitals] c.toNat)] :=
  mapCase_of_ascii (by decide) (fun run hrun => (lowerRuns_tail run hrun).1) hc

theorem toUpper_of_ascii {c : Char} (hc : c.toNat < 128) :
    toUpper c = [Char.ofNat (mapByRuns [asciiSmalls] c.toNat)] := by
  have htables : (∀ expansion ∈ upperExpansions, 128 ≤ expansion.1) ∧
      ∀ run ∈ upperRuns.tail, 128 ≤ run.first := by decide +kernel
  exact mapCase_of_ascii htables.1 htables.2 hc

/-! ## Small forms of texts -/

/-- The small forms of a text: those of its characters one after the other, where a capital sigma
may also become the sigma that stands at the end of words. -/
inductive SmallForm : List Char → List Char → Prop where
  | nil : SmallForm [] []
  | cons {c : Char} {image s t : List Char} :
      image = toLower c ∨ c = 'Σ' ∧ image = ['ς'] → SmallForm s t → SmallForm (c :: s) (image ++ t)

theorem smallForm_lower (s : List Char) : SmallForm s (lower s) := by
  induction s with
  | nil => exact .nil
  | cons c s ih => exact .cons (.inl rfl) ih

/-- A small form without letters behind `f` has one character for every character of the text. -/
theorem SmallForm.eq_map {s t : List Char} (h : SmallForm s t)
    (hle : ∀ d ∈ t, d.toNat ≤ 'f'.toNat) : t = s.map small := by
  induction h with
  | nil => rfl
  | @cons c image s t himage _ ih =>
    obtain ⟨hfirst, hrest⟩ := List.forall_mem_append.mp hle
    rw [ih hrest, List.map_cons]
    rcases himage with rfl | ⟨-, rfl⟩
    · by_cases hc : c.toNat = 0x130
      · -- The two characters of this small form are an `i` and a mark.
        obtain rfl : c = 'İ' := Char.toNat_inj.mp hc
        exact absurd (hfirst 'i' (by decide)) (by decide)
      · rw [toLower_of_ne hc]
        rfl
    · exact absurd (hfirst 'ς' (List.mem_singleton_self _)) (by decide)

/-- ASCII text has only one small form. -/
theorem SmallForm.eq_map_of_ascii {s t : List Char} (h : SmallForm s t)
    (hascii : ∀ c ∈ s, c.toNat < 128) : t = s.map small := by
  induction h with
  | nil => rfl
  | @cons c image s t himage _ ih =>
    obtain ⟨hc, hs⟩ := List.forall_mem_cons.mp hascii
    rw [ih hs, List.map_cons]
    rcases himage with rfl | ⟨rfl, -⟩
    · rw [toLower_of_ne (by omega)]
      rfl
    · exact absurd hc (by decide)

end ContractDraft.Text
