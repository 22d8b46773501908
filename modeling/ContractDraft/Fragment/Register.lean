import ContractDraft.Fragment.Name

/-!
# Registers of names

No two fragments have one name. A register remembers the names that are taken and how far it has
counted behind each base, so that a base that is asked for again is not counted from the start.
-/

namespace ContractDraft

/-- The names given so far. -/
structure Register where
  taken : List String
  /-- The last number tried behind a base; one if none was. -/
  counter : String → Nat

namespace Register

/-- The register in which only the name of the document is taken. -/
def start (rootName : String) : Register := ⟨[rootName], fun _ => 1⟩

/-- A name that is tried, and the last number that was counted for it. -/
structure Attempt where
  name : String
  count : Nat

/-- The attempt after a name that is taken. -/
def Attempt.next (base : String) (attempt : Attempt) : Attempt :=
  ⟨base ++ toString (attempt.count + 1), attempt.count + 1⟩

/-- The attempt that the search for a name behind a base begins with: the base itself. -/
def opening (register : Register) (base : String) : Attempt :=
  ⟨base, register.counter base⟩

/-- Counts on until a name is not taken. Every round tries another name, so `fuel` need only reach
the number of taken names. -/
def search (register : Register) (base : String) : Nat → Attempt → Attempt
  | 0, attempt => attempt
  | fuel + 1, attempt =>
    if attempt.name ∈ register.taken then search register base fuel (attempt.next base) else attempt

/-- Gives out a name for a hint. -/
def allocate (register : Register) (hint : String) : String × Register :=
  let base := Name.identifier hint
  let attempt := register.search base register.taken.length (register.opening base)
  (attempt.name,
    { taken := attempt.name :: register.taken
      counter := fun other => if other = base then attempt.count else register.counter other })

end Register
end ContractDraft
