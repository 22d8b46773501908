import ContractDraft.Proofs.Fragment.Identifier
import ContractDraft.Proofs.Fragment.Selection
import ContractDraft.Proofs.Text.Uppercase

/-!
# How names begin

The name of a fragment begins as its key does: with the small form of the first letter or number in
it (`Name.head?_hint`), because a singular keeps the beginning of a name and a number or a word is
only ever put behind it. Two things put another character in front: an `f` where the name would be
empty or begin with an ASCII digit, and the `I` of `Item` where an array is named after a key without
letters and numbers. So a name begins with a capital letter or a number exactly in the cases of
`Name.OpensBadly` (`Planner.fragment_name_begins_iff`).
-/

namespace ContractDraft

namespace Name

/-! ## Words -/

/-- A letter or number in front opens the first word. -/
theorem words_cons_of_alphanumeric {c : Char} (h : isAlphanumeric c = true) (s : List Char) :
    ∃ part parts, words (c :: s) = (c :: part) :: parts := by
  rw [words, splitParts, if_pos h]
  split
  · exact ⟨[], [], rfl⟩
  · rename_i part parts _
    exact ⟨part, _, rfl⟩

/-- Anything else in front is left out. -/
theorem words_cons_of_not_alphanumeric {c : Char} (h : isAlphanumeric c = false) (s : List Char) :
    words (c :: s) = words s := by
  rw [words, splitParts, if_neg (by simp [h])]
  rfl

/-- The first word of a text begins with its first letter or number. -/
theorem head?_words (s : List Char) :
    (words s).head?.bind List.head? = s.find? isAlphanumeric := by
  induction s with
  | nil => rfl
  | cons c s ih =>
    cases h : isAlphanumeric c with
    | true =>
      obtain ⟨part, parts, hwords⟩ := words_cons_of_alphanumeric h s
      rw [hwords, List.find?_cons_of_pos h]
      rfl
    | false =>
      rw [words_cons_of_not_alphanumeric h, List.find?_cons_of_neg (by simp [h]), ih]

theorem ne_nil_of_mem_words {s word : List Char} (h : word ∈ words s) : word ≠ [] := by
  simpa using (List.mem_filter.mp h).2

/-- A name made of a key begins with the small form of the first letter or number of the key. -/
theorem head?_lowerCamelCase (key : String) : (lowerCamelCase key).toList.head? =
    (key.toList.find? isAlphanumeric).map Text.firstSmall := by
  rw [← head?_words, lowerCamelCase]
  split
  · rename_i hnone
    rw [hnone]
    rfl
  · rename_i word rest hwords
    have hne : word ≠ [] := ne_nil_of_mem_words (hwords ▸ List.mem_cons_self ..)
    obtain ⟨c, s, rfl⟩ := List.exists_cons_of_ne_nil hne
    rw [hwords, String.toList_ofList, openingWord, List.append_assoc, List.head?_append,
      Text.head?_toLower]
    rfl

/-! ## Items of arrays -/

theorem head?_take_of_pos {s : List Char} {n : ℕ} (h : 0 < n) : (s.take n).head? = s.head? := by
  rw [List.head?_take, if_neg (by omega)]

/-- A stem is the name without its suffix, and something is left of it. -/
theorem stem?_spec {suffix name stem : List Char} (h : stem? suffix name = some stem) :
    suffix.length < name.length ∧ stem = name.take (name.length - suffix.length) := by
  unfold stem? at h
  split at h
  · rename_i hsuffix
    exact ⟨hsuffix.2, (Option.some.inj h).symm⟩
  · cases h

/-- What stands before an ending is not empty and begins as the name does. -/
theorem head?_stem? {suffix name stem : List Char} (h : stem? suffix name = some stem) :
    stem.head? = name.head? := by
  obtain ⟨hlength, rfl⟩ := stem?_spec h
  exact head?_take_of_pos (by omega)

/-- The singular begins like its plural. -/
theorem head?_singular? {name singular : List Char} (h : singular? name = some singular) :
    name ≠ [] ∧ singular.head? = name.head? := by
  have hne {suffix stem : List Char} (hstem : stem? suffix name = some stem) : name ≠ [] := by
    rintro rfl
    exact Nat.not_lt_zero _ (stem?_spec hstem).1
  -- Every singular is what stands before some ending, perhaps with a letter behind it.
  unfold singular? at h
  split at h
  · rename_i stem hstem
    obtain rfl := Option.some.inj h
    have hhead := head?_stem? hstem
    obtain ⟨first, rest, rfl⟩ := List.exists_cons_of_ne_nil (hne hstem)
    rw [List.head?_append, hhead]
    exact ⟨hne hstem, rfl⟩
  · split at h
    · rename_i hplural
      obtain rfl := Option.some.inj h
      obtain ⟨ending, hending, hstem⟩ := List.any_eq_true.mp hplural
      obtain ⟨stem, hstem⟩ := Option.isSome_iff_exists.mp hstem
      have hlong : ∀ ending ∈ longPlurals, 2 < ending.length := by decide
      have hlength := (stem?_spec hstem).1
      have hending := hlong ending hending
      exact ⟨hne hstem, head?_take_of_pos (by omega)⟩
    · split at h
      · cases h
      · exact ⟨hne h, head?_stem? h⟩

/-- The name of an item begins as the name of its array does, and with `Item` if that is empty. -/
theorem head?_ofItem (name : String) :
    (ofItem name).toList.head? = some (name.toList.head?.getD 'I') := by
  unfold ofItem
  split
  · rename_i singular hsingular
    obtain ⟨hne, hhead⟩ := head?_singular? hsingular
    obtain ⟨first, rest, hname⟩ := List.exists_cons_of_ne_nil hne
    rw [String.toList_ofList, hhead, hname]
    rfl
  · rw [String.toList_append, List.head?_append]
    cases name.toList.head? <;> rfl

/-- How the name made of a key below a number of arrays begins, before it is made an identifier. -/
def hintOpening? (key : String) (arrays : ℕ) : Option Char :=
  match key.toList.find? isAlphanumeric with
  | some c => some (Text.firstSmall c)
  | none => if arrays = 0 then none else some 'I'

/-- The hint of a path begins as the last key on the path and the arrays below it tell. -/
theorem head?_hint (rootName : String) (path : Path) : (hint rootName path).toList.head? =
    hintOpening? (path.lastKey?.getD rootName) path.trailingItems := by
  have hkey (key : String) : (lowerCamelCase key).toList.head? = hintOpening? key 0 := by
    rw [head?_lowerCamelCase, hintOpening?]
    cases key.toList.find? isAlphanumeric <;> rfl
  induction path with
  | nil => exact hkey rootName
  | cons step path ih =>
    cases step with
    | key key => exact hkey key
    | item =>
      have hlast : Path.lastKey? (.item :: path) = Path.lastKey? path := rfl
      have htrailing : Path.trailingItems (.item :: path) = Path.trailingItems path + 1 := by
        simp [Path.trailingItems]
      rw [hint, head?_ofItem, ih, hlast, htrailing, hintOpening?, hintOpening?,
        if_neg (Nat.succ_ne_zero _)]
      cases ((Path.lastKey? path).getD rootName).toList.find? isAlphanumeric with
      | some c => rfl
      | none => by_cases harrays : Path.trailingItems path = 0 <;> simp [harrays]

/-! ## Identifiers -/

/-- How an identifier begins that is made of a name with this beginning. -/
def opening : Option Char → Char
  | none => 'f'
  | some c => if c.isDigit then 'f' else c

/-- An identifier begins with the opening of its name. -/
theorem head?_identifier (name : String) :
    (identifier name).toList.head? = some (opening name.toList.head?) := by
  unfold identifier
  split
  · rename_i hempty
    rw [hempty]
    rfl
  · rename_i c s heq
    rw [heq, List.head?_cons, opening]
    split
    · rw [String.toList_append]
      rfl
    · split
      · rw [String.toList_append, heq]
        rfl
      · rw [heq]
        rfl

/-- A number behind a name does not change how it begins. -/
theorem head?_candidate {base : String} {first : Char} (h : base.toList.head? = some first) (n : ℕ) :
    (candidate base n).toList.head? = some first := by
  cases n with
  | zero => exact h
  | succ n => rw [candidate, String.toList_append, List.head?_append, h, Option.some_or]

/-! ## Capital letters and numbers in front -/

/-- How a name that is made of a key, below a number of arrays, comes to begin with a capital letter
or with a number. -/
inductive OpensBadly (key : String) (arrays : ℕ) : Prop where
  /-- Nothing of the key gets into the name, which is all `Item`. -/
  | item : key.toList.find? isAlphanumeric = none → 0 < arrays → OpensBadly key arrays
  /-- The key begins with a number that is no ASCII digit. -/
  | number {c : Char} : key.toList.find? isAlphanumeric = some c → Text.isNumeric c = true →
      c.isDigit = false → OpensBadly key arrays
  /-- The key begins with a capital letter that has no small form. -/
  | capital {c : Char} : key.toList.find? isAlphanumeric = some c → Text.isUppercase c = true →
      Text.toLower c = [c] → OpensBadly key arrays

/-- A key without letters and numbers begins badly if it leads to items of arrays. -/
theorem opensBadly_of_none {key : String} {arrays : ℕ}
    (h : key.toList.find? isAlphanumeric = none) : OpensBadly key arrays ↔ 0 < arrays := by
  refine ⟨fun hbad => ?_, .item h⟩
  cases hbad with
  | item _ harrays => exact harrays
  | number hsome _ _ => simp [h] at hsome
  | capital hsome _ _ => simp [h] at hsome

/-- Any other key begins badly if its first letter is a capital without a small form, or a number
but no ASCII digit. -/
theorem opensBadly_of_some {key : String} {arrays : ℕ} {c : Char}
    (h : key.toList.find? isAlphanumeric = some c) : OpensBadly key arrays ↔
      (Text.isUppercase c = true ∧ Text.toLower c = [c]) ∨
        (Text.isNumeric c = true ∧ c.isDigit = false) := by
  refine ⟨fun hbad => ?_, ?_⟩
  · cases hbad with
    | item hnone _ => simp [h] at hnone
    | number hsome hnumeric hdigit =>
      obtain rfl := Option.some.inj (h.symm.trans hsome)
      exact .inr ⟨hnumeric, hdigit⟩
    | capital hsome hcapital hsmall =>
      obtain rfl := Option.some.inj (h.symm.trans hsome)
      exact .inl ⟨hcapital, hsmall⟩
  · rintro (⟨hcapital, hsmall⟩ | ⟨hnumeric, hdigit⟩)
    · exact .capital h hcapital hsmall
    · exact .number h hnumeric hdigit

/-- Only an ASCII digit gets a letter in front. -/
theorem opening_firstSmall (c : Char) :
    opening (some (Text.firstSmall c)) = if c.isDigit then 'f' else Text.firstSmall c := by
  rw [opening, Text.isDigit_firstSmall]

/-- An ASCII digit is neither a capital letter nor a number that would be left in front. -/
theorem not_opensBadly_of_isDigit {key : String} {arrays : ℕ} {c : Char}
    (h : key.toList.find? isAlphanumeric = some c) (hdigit : c.isDigit = true) :
    ¬ OpensBadly key arrays := by
  have hascii : c.toNat < 128 := lt_of_isAlphanum (by rw [Char.isAlphanum, hdigit, Bool.or_true])
  rw [opensBadly_of_some h]
  rintro (⟨hcapital, hsmall⟩ | ⟨-, hother⟩)
  · rw [Text.isUppercase_of_ascii hascii hsmall] at hcapital
    cases hcapital
  · rw [hdigit] at hother
    cases hother

/-- An identifier begins with a capital letter or a number exactly if its key opens badly. -/
theorem opening_iff (key : String) (arrays : ℕ) :
    (Text.isUppercase (opening (hintOpening? key arrays)) = true ∨
      Text.isNumeric (opening (hintOpening? key arrays)) = true) ↔ OpensBadly key arrays := by
  have hplain : Text.isUppercase 'f' = false ∧ Text.isNumeric 'f' = false := by decide
  have hitem : Text.isUppercase 'I' = true := by decide
  rw [hintOpening?]
  cases hkey : key.toList.find? isAlphanumeric with
  | none =>
    rw [opensBadly_of_none hkey]
    by_cases harrays : arrays = 0
    · simp [opening, harrays, hplain]
    · have hopening : opening (some 'I') = 'I' := rfl
      simp [hopening, harrays, hitem, Nat.pos_of_ne_zero harrays]
  | some c =>
    cases hdigit : c.isDigit with
    | true =>
      simp [opening_firstSmall, hdigit, hplain, not_opensBadly_of_isDigit hkey hdigit]
    | false =>
      simp [opening_firstSmall, hdigit, opensBadly_of_some hkey, Text.isUppercase_firstSmall_iff,
        Text.isNumeric_firstSmall]

end Name

/-! ## Names of fragments -/

namespace Planner

/-- The name of a fragment begins with a capital letter or a number exactly if nothing of its key
gets into it and it is an item of an array, or if the first letter or number of the key is a number
other than an ASCII digit or a capital letter without a small form. -/
theorem fragment_name_begins_iff (planner : Planner) (document : Value) {f : Decision}
    (hf : f ∈ (planner.plan document).fragments) :
    ∃ first, f.name.toList.head? = some first ∧
      ((Text.isUppercase first = true ∨ Text.isNumeric first = true) ↔
        Name.OpensBadly (f.path.lastKey?.getD planner.rootName) f.path.trailingItems) := by
  obtain ⟨i, hi⟩ := List.mem_iff_getElem?.mp hf
  obtain ⟨n, hname, -⟩ := planner.plan_firstChoices document i f hi
  have hbase := Name.head?_identifier (Name.hint planner.rootName f.path)
  rw [Name.head?_hint] at hbase
  rw [hname]
  exact ⟨_, Name.head?_candidate hbase n, Name.opening_iff _ _⟩

/-- Objects under keys in several scripts, one of them in an array: the names begin with a small
letter, an Arabic digit and the `I` of `Item`. -/
def scripts : Value :=
  let entry : Value := .object [("a", .null), ("b", .null), ("c", .null)]
  .object [("État", entry), ("٣fa", entry), ("€", .array [entry])]

theorem fragment_name_begins_iff_scripts :
    let planner : Planner := ⟨{}, .standard, "body"⟩
    (planner.plan scripts).fragments.map (·.name) = ["état", "٣fa", "Item"] ∧
      ∃ f ∈ (planner.plan scripts).fragments, f.name = "état" ∧
        ∃ first, f.name.toList.head? = some first ∧
          ((Text.isUppercase first = true ∨ Text.isNumeric first = true) ↔
            Name.OpensBadly (f.path.lastKey?.getD planner.rootName) f.path.trailingItems) := by
  intro planner
  have hnames : (planner.plan scripts).fragments.map (·.name) = ["état", "٣fa", "Item"] := by
    decide +kernel
  have hname : "état" ∈ (planner.plan scripts).fragments.map (·.name) := by
    rw [hnames]
    decide
  obtain ⟨f, hf, hname⟩ := List.mem_map.mp hname
  exact ⟨hnames, f, hf, hname, planner.fragment_name_begins_iff scripts hf⟩

/-- Not every name begins with a character that is neither a capital letter nor a number: an Arabic
digit in front of a key stays in front of the name. -/
theorem digit_stays_in_front :
    let planner : Planner := ⟨{}, .standard, "body"⟩
    let document : Value := .object
      [("٣fa", .object [("a", .integer 1), ("b", .integer 2), ("c", .integer 3)])]
    ¬ ∀ f ∈ (planner.plan document).fragments, ∀ first, f.name.toList.head? = some first →
      Text.isUppercase first = false ∧ Text.isNumeric first = false := by
  intro planner document hall
  have hname : "٣fa" ∈ (planner.plan document).fragments.map (·.name) := by decide +kernel
  obtain ⟨f, hf, hname⟩ := List.mem_map.mp hname
  have hnumeric : Text.isNumeric '٣' = true := by decide
  simpa [hnumeric] using hall f hf '٣' (by rw [hname]; rfl)

end Planner
end ContractDraft
