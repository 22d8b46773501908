import ContractDraft.Proofs.Fragment.Naming

/-!
# The characters of names

Of a key only letters and numbers get into a name, in either letter case; what a planner adds are
ASCII letters and digits. So whatever ASCII letters and digits have, and the case mappings keep, is
so of all characters of a name if it is so of the letters and numbers of the key
(`Hereditary.of_mem_hint`, `Hereditary.of_mem_candidate`).
-/

namespace ContractDraft

namespace Name

/-! ## Words -/

/-- The words of a text consist of its letters and numbers. -/
theorem of_mem_splitParts {s part : List Char} (h : part ∈ splitParts s) :
    ∀ c ∈ part, c ∈ s ∧ isAlphanumeric c = true := by
  induction s generalizing part with
  | nil =>
    obtain rfl := List.mem_singleton.mp h
    simp
  | cons c s ih =>
    -- What holds of the parts of the rest is also said of the whole text.
    have hrest {part : List Char} (hpart : part ∈ splitParts s) :
        ∀ d ∈ part, d ∈ c :: s ∧ isAlphanumeric d = true :=
      fun d hd => ⟨List.mem_cons_of_mem c (ih hpart d hd).1, (ih hpart d hd).2⟩
    rw [splitParts] at h
    split at h
    · rename_i halphanumeric
      have hfirst : c ∈ c :: s ∧ isAlphanumeric c = true := ⟨List.mem_cons_self .., halphanumeric⟩
      split at h
      · obtain rfl := List.mem_singleton.mp h
        exact List.forall_mem_singleton.mpr hfirst
      · rename_i first parts hparts
        rcases List.mem_cons.mp h with rfl | hlater
        · exact List.forall_mem_cons.mpr ⟨hfirst, hrest (by simp [hparts])⟩
        · exact hrest (by simp [hparts, hlater])
    · rcases List.mem_cons.mp h with rfl | hlater
      · simp
      · exact hrest hlater

theorem of_mem_words {s word : List Char} (h : word ∈ words s) :
    ∀ c ∈ word, c ∈ s ∧ isAlphanumeric c = true :=
  of_mem_splitParts (List.mem_of_mem_filter h)

theorem isDigit_of_mem_toString {n : ℕ} {c : Char} (h : c ∈ (toString n).toList) :
    c.isDigit = true := by
  rw [Nat.toString_eq_ofList_toDigits, String.toList_ofList] at h
  exact Nat.isDigit_of_mem_toDigits (by decide) (by decide) h

/-! ## Hereditary properties -/

/-- A property of characters that all letters and numbers of a key have. -/
def Keeps (P : Char → Prop) (key : String) : Prop :=
  ∀ c ∈ key.toList, isAlphanumeric c = true → P c

/-- A property of characters that ASCII letters and digits have and that the case mappings keep. -/
structure Hereditary (P : Char → Prop) : Prop where
  ascii : ∀ c : Char, c.isAlphanum = true → P c
  lower : ∀ c, P c → ∀ d ∈ Text.toLower c, P d
  upper : ∀ c, P c → ∀ d ∈ Text.toUpper c, P d

namespace Hereditary

variable {P : Char → Prop}

theorem of_mem_wordRest (h : Hereditary P) {word : List Char} (hword : ∀ c ∈ word, P c) :
    ∀ c ∈ wordRest word, P c := by
  have htail : ∀ c ∈ word.tail, P c := fun c hc => hword c (List.mem_of_mem_tail hc)
  unfold wordRest
  split
  · intro d hd
    obtain ⟨c, hc, hmem⟩ := List.mem_flatMap.mp hd
    exact h.lower c (htail c hc) d hmem
  · exact htail

theorem of_mem_openingWord (h : Hereditary P) {word : List Char} (hword : ∀ c ∈ word, P c) :
    ∀ c ∈ openingWord word, P c := by
  cases word with
  | nil => exact hword
  | cons c s =>
    exact List.forall_mem_append.mpr
      ⟨h.lower c (hword c (List.mem_cons_self ..)), h.of_mem_wordRest hword⟩

theorem of_mem_innerWord (h : Hereditary P) {word : List Char} (hword : ∀ c ∈ word, P c) :
    ∀ c ∈ innerWord word, P c := by
  cases word with
  | nil => exact hword
  | cons c s =>
    exact List.forall_mem_append.mpr
      ⟨h.upper c (hword c (List.mem_cons_self ..)), h.of_mem_wordRest hword⟩

theorem of_mem_lowerCamelCase (h : Hereditary P) {key : String} (hkey : Keeps P key) :
    ∀ c ∈ (lowerCamelCase key).toList, P c := by
  have hwords : ∀ word ∈ words key.toList, ∀ c ∈ word, P c := fun word hword c hc =>
    have ⟨hmem, halphanumeric⟩ := of_mem_words hword c hc
    hkey c hmem halphanumeric
  unfold lowerCamelCase
  split
  · simp
  · rename_i word rest heq
    rw [heq] at hwords
    obtain ⟨hword, hrest⟩ := List.forall_mem_cons.mp hwords
    rw [String.toList_ofList]
    refine List.forall_mem_append.mpr ⟨h.of_mem_openingWord hword, fun d hd => ?_⟩
    obtain ⟨inner, hinner, hmem⟩ := List.mem_flatMap.mp hd
    exact h.of_mem_innerWord (hrest inner hinner) d hmem

/-! ## From words to names -/

/-- A singular consists of characters of the name and, in one case, of the letter `y`. -/
theorem of_mem_singular? (h : Hereditary P) {name singular : List Char} (hname : ∀ c ∈ name, P c)
    (hsingular : singular? name = some singular) : ∀ c ∈ singular, P c := by
  have hstem {suffix stem : List Char} (hstem : stem? suffix name = some stem) :
      ∀ c ∈ stem, P c := by
    unfold stem? at hstem
    split at hstem
    · obtain rfl := Option.some.inj hstem
      exact fun c hc => hname c (List.mem_of_mem_take hc)
    · cases hstem
  unfold singular? at hsingular
  split at hsingular
  · rename_i stem hies
    obtain rfl := Option.some.inj hsingular
    have hy : P 'y' := h.ascii 'y' rfl
    exact List.forall_mem_append.mpr ⟨hstem hies, List.forall_mem_singleton.mpr hy⟩
  · split at hsingular
    · obtain rfl := Option.some.inj hsingular
      exact fun c hc => hname c (List.mem_of_mem_take hc)
    · split at hsingular
      · cases hsingular
      · exact hstem hsingular

/-- Added words are ASCII letters. -/
theorem of_mem_ascii (h : Hereditary P) {word : List Char}
    (hascii : ∀ c ∈ word, c.isAlphanum = true) : ∀ c ∈ word, P c :=
  fun c hc => h.ascii c (hascii c hc)

theorem of_mem_ofItem (h : Hereditary P) {name : String} (hname : ∀ c ∈ name.toList, P c) :
    ∀ c ∈ (ofItem name).toList, P c := by
  unfold ofItem
  split
  · rename_i singular hsingular
    rw [String.toList_ofList]
    exact h.of_mem_singular? hname hsingular
  · rw [String.toList_append]
    exact List.forall_mem_append.mpr ⟨hname, h.of_mem_ascii (by decide)⟩

/-- What the letters and numbers of all keys have, the characters of all hints have. -/
theorem of_mem_hint (h : Hereditary P) {rootName : String} {path : Path} (hroot : Keeps P rootName)
    (hpath : ∀ key, .key key ∈ path → Keeps P key) : ∀ c ∈ (hint rootName path).toList, P c := by
  induction path with
  | nil => exact h.of_mem_lowerCamelCase hroot
  | cons step path ih =>
    cases step with
    | key key => exact h.of_mem_lowerCamelCase (hpath key (List.mem_cons_self ..))
    | item => exact h.of_mem_ofItem (ih fun key hkey => hpath key (List.mem_cons_of_mem _ hkey))

theorem of_mem_identifier (h : Hereditary P) {name : String} (hname : ∀ c ∈ name.toList, P c) :
    ∀ c ∈ (identifier name).toList, P c := by
  unfold identifier
  split
  · have hword : ∀ c ∈ "fragment".toList, c.isAlphanum = true := by decide
    exact h.of_mem_ascii hword
  · split
    · rw [String.toList_append]
      exact List.forall_mem_append.mpr ⟨h.of_mem_ascii (by decide), hname⟩
    · split
      · rw [String.toList_append]
        exact List.forall_mem_append.mpr ⟨hname, h.of_mem_ascii (by decide)⟩
      · exact hname

theorem of_mem_candidate (h : Hereditary P) {base : String} (hbase : ∀ c ∈ base.toList, P c)
    (n : ℕ) : ∀ c ∈ (candidate base n).toList, P c := by
  cases n with
  | zero => exact hbase
  | succ n =>
    have hnumber : ∀ c ∈ (toString (n + 2)).toList, c.isAlphanum = true := fun c hc => by
      rw [Char.isAlphanum, isDigit_of_mem_toString hc, Bool.or_true]
    rw [candidate, String.toList_append]
    exact List.forall_mem_append.mpr ⟨hbase, h.of_mem_ascii hnumber⟩

end Hereditary
end Name

/-! ## Names of a plan -/

/-- Every name of a plan is one of the choices for some fragment: a base made of the path of the
fragment, or the base with a number behind it. -/
theorem Planner.exists_candidate (planner : Planner) (document : Value) {e : Decision}
    (h : e ∈ (planner.plan document).decisions) :
    ∃ f ∈ (planner.plan document).fragments, ∃ n, f.name = e.name ∧
      e.name = Name.candidate (Name.identifier (Name.hint planner.rootName f.path)) n := by
  have hnamed : planner.Named (planner.plan document).decisions := by
    by_cases henabled : planner.options.enabled = true
    · exact (Named.start planner).run (run_plan henabled document)
    · rw [plan, if_neg henabled]
      exact .start planner
  obtain ⟨f, hf, horigin, hname, -⟩ := hnamed.source e h
  -- The name is that of a fragment, and fragments have first choices.
  have hfragment : f ∈ (planner.plan document).fragments := Plan.mem_fragments.mpr ⟨hf, horigin⟩
  obtain ⟨i, hi⟩ := List.mem_iff_getElem?.mp hfragment
  obtain ⟨n, hchoice, -⟩ := planner.plan_firstChoices document i f hi
  exact ⟨f, hfragment, n, hname, hname ▸ hchoice⟩

end ContractDraft
