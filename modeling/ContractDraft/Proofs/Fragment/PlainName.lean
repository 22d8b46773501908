import ContractDraft.Proofs.Fragment.NameCharacters
import ContractDraft.Proofs.Text.LetterCase
import ContractDraft.Proofs.Text.Plain

/-!
# Names are plain text

Whatever a key holds, a name that is made from it is plain text (`Planner.plain_name`): only letters
and numbers of the key are kept, their other case is never a special character, and what is put
around them is plain.
-/

namespace ContractDraft

namespace Text

/-! ## Letter case -/

/-- A case mapping that makes no special characters out of others. -/
def Harmless (expansions : List (ℕ × List ℕ)) (runs : List CaseRun) : Prop :=
  (∀ run ∈ runs, ∀ c ∈ specialChars, run.Avoids c.toNat) ∧
    ∀ expansion ∈ expansions, Plain (expansion.2.map Char.ofNat)

theorem Harmless.plain_mapCase {expansions : List (ℕ × List ℕ)} {runs : List CaseRun}
    (h : Harmless expansions runs) {c : Char} (hc : c ∉ specialChars) :
    Plain (mapCase expansions runs c) := by
  unfold mapCase
  split
  · rename_i image hlookup
    obtain ⟨before, after, rfl, -⟩ := List.lookup_eq_some_iff.mp hlookup
    exact h.2 (c.toNat, image) (by simp)
  · intro d hd hspecial
    obtain rfl := List.mem_singleton.mp hd
    by_cases hvalid : (mapByRuns runs c.toNat).isValidChar
    · -- Only a special character has its number as an image.
      have hsame := eq_of_mapByRuns
        (fun run hrun => h.1 run hrun _ hspecial) (toNat_ofNat hvalid).symm
      rw [toNat_ofNat hvalid] at hsame
      rw [← hsame, Char.ofNat_toNat] at hspecial
      exact hc hspecial
    · rw [Char.ofNat, dif_neg hvalid] at hspecial
      exact absurd hspecial (by decide)

theorem harmless_tables :
    Harmless lowerExpansions lowerRuns ∧ Harmless upperExpansions upperRuns := by
  unfold Harmless
  decide +kernel

end Text

namespace Name

open Text

/-- Letters and numbers are not special, in either case. -/
theorem hereditary_plain : Hereditary (· ∉ specialChars) where
  ascii c hc hmem := by
    have hspecial : ∀ c ∈ specialChars, c.isAlphanum = false := by decide
    rw [hspecial c hmem] at hc
    cases hc
  lower _ hc := harmless_tables.1.plain_mapCase hc
  upper _ hc := harmless_tables.2.plain_mapCase hc

/-- No letter or number of a key is special, whatever the key holds. -/
theorem keeps_plain (key : String) : Keeps (· ∉ specialChars) key := by
  have hspecial : ∀ c ∈ specialChars, isAlphanumeric c = false := by decide
  intro c _ halphanumeric hmem
  rw [hspecial c hmem] at halphanumeric
  cases halphanumeric

end Name

/-- Every name that a plan gives is plain. -/
theorem Planner.plain_name (planner : Planner) (document : Value) {e : Decision}
    (h : e ∈ (planner.plan document).decisions) : Text.Plain e.name.toList := by
  obtain ⟨f, -, n, -, hname⟩ := planner.exists_candidate document h
  have hpath (key : String) (_ : .key key ∈ f.path) := Name.keeps_plain key
  have hhint := Name.hereditary_plain.of_mem_hint (Name.keeps_plain planner.rootName) hpath
  rw [hname]
  exact Name.hereditary_plain.of_mem_candidate (Name.hereditary_plain.of_mem_identifier hhint) n

end ContractDraft
