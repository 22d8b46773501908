import ContractDraft.Proofs.Fragment.NameCharacters
import ContractDraft.Proofs.Json.Keys
import ContractDraft.Proofs.Text.LetterCase

/-!
# Names as identifiers

Where all letters and numbers of keys are ASCII, every name of a plan is an ASCII letter with ASCII
letters and digits behind it, and no reserved word (`Planner.ascii_identifiers`). What a name
consists of is hereditary; the first character and the reserved words are settled where a base is
made an identifier, behind all steps that could undo it, and a number behind the base keeps both.
-/

namespace ContractDraft

namespace Name

/-! ## ASCII letters and digits -/

theorem lt_of_isAlphanum {c : Char} (h : c.isAlphanum = true) : c.toNat < 128 := by
  have hranges : ((decide (c.val ≥ 'A'.val ∧ c.val ≤ 'Z'.val) ||
      (c.val ≥ 'a'.val && c.val ≤ 'z'.val)) || (c.val ≥ '0'.val && c.val ≤ '9'.val)) = true := h
  simp only [Bool.or_eq_true, Bool.and_eq_true, decide_eq_true_eq, UInt32.le_iff_toNat_le,
    ge_iff_le] at hranges
  have hlast : 'z'.val.toNat = 122 := rfl
  have hupper : 'Z'.val.toNat = 90 := rfl
  have hdigit : '9'.val.toNat = 57 := rfl
  show c.val.toNat < 128
  omega

/-- A property of ASCII characters may be checked by their numbers. -/
theorem forall_ascii {P : Char → Prop} (h : ∀ n < 128, P (Char.ofNat n)) {c : Char}
    (hc : c.toNat < 128) : P c := by
  have hchar := h c.toNat hc
  rwa [Char.ofNat_toNat] at hchar

set_option maxRecDepth 4000 in
/-- The ASCII letters and numbers, and where the case mappings move them. -/
theorem ascii_cases {c : Char} (hc : c.toNat < 128) :
    isAlphanumeric c = c.isAlphanum ∧ (c.isAlphanum = true →
      (Char.ofNat (Text.mapByRuns [Text.asciiCapitals] c.toNat)).isAlphanum = true ∧
        (Char.ofNat (Text.mapByRuns [Text.asciiSmalls] c.toNat)).isAlphanum = true) :=
  forall_ascii (P := fun c => isAlphanumeric c = c.isAlphanum ∧ (c.isAlphanum = true →
    (Char.ofNat (Text.mapByRuns [Text.asciiCapitals] c.toNat)).isAlphanum = true ∧
      (Char.ofNat (Text.mapByRuns [Text.asciiSmalls] c.toNat)).isAlphanum = true))
    (by decide) hc

/-- The other case of an ASCII letter is an ASCII letter. -/
theorem hereditary_isAlphanum : Hereditary fun c => c.isAlphanum = true where
  ascii _ h := h
  lower c h := by
    have hc := lt_of_isAlphanum h
    rw [Text.toLower_of_ascii hc]
    exact List.forall_mem_singleton.mpr ((ascii_cases hc).2 h).1
  upper c h := by
    have hc := lt_of_isAlphanum h
    rw [Text.toUpper_of_ascii hc]
    exact List.forall_mem_singleton.mpr ((ascii_cases hc).2 h).2

/-- Among the ASCII characters there are no other letters and numbers. -/
theorem keeps_isAlphanum {key : String} (h : Keeps (fun c => c.toNat < 128) key) :
    Keeps (fun c => c.isAlphanum = true) key := by
  intro c hc halphanumeric
  rw [← (ascii_cases (h c hc halphanumeric)).1, halphanumeric]

/-! ## Identifiers -/

/-- An ASCII letter with ASCII letters and digits behind it. -/
def IsIdentifier (name : List Char) : Prop :=
  ∃ first rest, name = first :: rest ∧ first.isAlpha = true ∧ ∀ c ∈ rest, c.isAlphanum = true

theorem IsIdentifier.append {s t : List Char} (h : IsIdentifier s)
    (ht : ∀ c ∈ t, c.isAlphanum = true) : IsIdentifier (s ++ t) := by
  obtain ⟨first, rest, rfl, hfirst, hrest⟩ := h
  exact ⟨first, rest ++ t, rfl, hfirst, List.forall_mem_append.mpr ⟨hrest, ht⟩⟩

theorem isIdentifier_identifier {name : String} (h : ∀ c ∈ name.toList, c.isAlphanum = true) :
    IsIdentifier (identifier name).toList := by
  unfold identifier
  split
  · exact ⟨'f', "ragment".toList, rfl, rfl, by decide⟩
  · rename_i c s heq
    rw [heq] at h
    obtain ⟨hc, hs⟩ := List.forall_mem_cons.mp h
    split
    · rw [String.toList_append, heq]
      exact ⟨'f', c :: s, rfl, rfl, h⟩
    · rename_i hdigit
      have hname : IsIdentifier name.toList := by
        refine ⟨c, s, heq, ?_, hs⟩
        simpa [Char.isAlphanum, hdigit] using hc
      split
      · rw [String.toList_append]
        exact hname.append (by decide)
      · exact hname

theorem isIdentifier_candidate {base : String} (h : IsIdentifier base.toList) (n : ℕ) :
    IsIdentifier (candidate base n).toList := by
  cases n with
  | zero => exact h
  | succ n =>
    rw [candidate, String.toList_append]
    exact h.append fun c hc => by rw [Char.isAlphanum, isDigit_of_mem_toString hc, Bool.or_true]

/-! ## Reserved words -/

/-- Reserved words consist of small letters. -/
theorem not_mem_reservedWords {name : String} {c : Char} (hc : c ∈ name.toList)
    (h : c.isLower = false) : name ∉ reservedWords := by
  have hsmall : ∀ word ∈ reservedWords, ∀ c ∈ word.toList, c.isLower = true := by decide +kernel
  intro hmem
  rw [hsmall name hmem c hc] at h
  cases h

theorem isLower_of_isDigit {c : Char} (h : c.isDigit = true) : c.isLower = false := by
  rw [Char.isDigit_iff_toNat] at h
  have hfirst : 'a'.val.toNat = 97 := rfl
  have hlast : '9'.toNat = 57 := rfl
  show (c.val ≥ 'a'.val && c.val ≤ 'z'.val) = false
  rw [Bool.and_eq_false_iff, decide_eq_false_iff_not, ge_iff_le, UInt32.le_iff_toNat_le]
  left
  show ¬ 'a'.val.toNat ≤ c.toNat
  omega

theorem identifier_not_mem_reservedWords (name : String) : identifier name ∉ reservedWords := by
  unfold identifier
  split
  · decide
  · rename_i c s heq
    split
    · rename_i hdigit
      exact not_mem_reservedWords (c := c) (by simp [heq]) (isLower_of_isDigit hdigit)
    · split
      · exact not_mem_reservedWords (c := 'P') (by simp) rfl
      · assumption

/-- A number behind a base does not make it a reserved word. -/
theorem candidate_not_mem_reservedWords {base : String} (h : base ∉ reservedWords) (n : ℕ) :
    candidate base n ∉ reservedWords := by
  cases n with
  | zero => exact h
  | succ n =>
    obtain ⟨digit, hdigit⟩ : ∃ digit, digit ∈ (toString (n + 2)).toList := by
      rw [Nat.toString_eq_ofList_toDigits, String.toList_ofList]
      exact List.exists_mem_of_ne_nil _ Nat.toDigits_ne_nil
    refine not_mem_reservedWords (c := digit) ?_ (isLower_of_isDigit (isDigit_of_mem_toString hdigit))
    rw [candidate, String.toList_append]
    exact List.mem_append_right _ hdigit

end Name

/-! ## Names of a plan -/

namespace Planner

/-- If all letters and numbers of the keys of a document and of its name are ASCII, every name of a
plan is an ASCII letter with ASCII letters and digits behind it, and it is no reserved word. -/
theorem ascii_identifiers (planner : Planner) {document : Value}
    (hdistinct : document.DistinctKeys)
    (hroot : Name.Keeps (fun c => c.toNat < 128) planner.rootName)
    (hkeys : ∀ key ∈ document.keys, Name.Keeps (fun c => c.toNat < 128) key) :
    ∀ d ∈ (planner.plan document).decisions,
      Name.IsIdentifier d.name.toList ∧ d.name ∉ Name.reservedWords := by
  intro d hd
  obtain ⟨f, hf, n, -, hname⟩ := planner.exists_candidate document hd
  have hat := (planner.plan_sound hdistinct).located f (Plan.mem_fragments.mp hf).1
  have hpath (key : String) (hkey : .key key ∈ f.path) :=
    Name.keeps_isAlphanum (hkeys key ((Value.keys_at? hat).1 key hkey))
  have hhint := Name.hereditary_isAlphanum.of_mem_hint (Name.keeps_isAlphanum hroot) hpath
  rw [hname]
  exact ⟨Name.isIdentifier_candidate (Name.isIdentifier_identifier hhint) n,
    Name.candidate_not_mem_reservedWords (Name.identifier_not_mem_reservedWords _) n⟩

/-- A lesson plan: the singular of `classes` is reserved, `2fa` begins with a digit, and two keys
lead to one name. -/
def lessons : Value :=
  let lesson : Value := .object [("day", .null), ("hour", .null), ("room", .null)]
  .object [("classes", .array [lesson]), ("2fa", lesson), ("class part", lesson), ("€", lesson)]

theorem ascii_identifiers_lessons :
    let planner : Planner := ⟨{}, .standard, "body"⟩
    lessons.DistinctKeys ∧ Name.Keeps (fun c => c.toNat < 128) planner.rootName ∧
      (∀ key ∈ lessons.keys, Name.Keeps (fun c => c.toNat < 128) key) ∧
      (planner.plan lessons).decisions.map (·.name) =
        ["classPart", "f2fa", "classPart2", "fragment"] ∧
      ∀ d ∈ (planner.plan lessons).decisions,
        Name.IsIdentifier d.name.toList ∧ d.name ∉ Name.reservedWords := by
  intro planner
  have hnull : Value.null.DistinctKeys := .scalar rfl
  have hlesson : (Value.object [("day", .null), ("hour", .null), ("room", .null)]).DistinctKeys :=
    .object (by decide) (by simpa using hnull)
  have hdistinct : lessons.DistinctKeys :=
    .object (by decide) (by simpa using ⟨.array (by simpa using hlesson), hlesson⟩)
  have hcomputed : (∀ c ∈ planner.rootName.toList, Name.isAlphanumeric c = true → c.toNat < 128) ∧
      (∀ key ∈ lessons.keys, ∀ c ∈ key.toList, Name.isAlphanumeric c = true → c.toNat < 128) ∧
      (planner.plan lessons).decisions.map (·.name) =
        ["classPart", "f2fa", "classPart2", "fragment"] := by decide +kernel
  obtain ⟨hroot, hkeys, hnames⟩ := hcomputed
  exact ⟨hdistinct, hroot, hkeys, hnames, planner.ascii_identifiers hdistinct hroot hkeys⟩

end Planner
end ContractDraft
