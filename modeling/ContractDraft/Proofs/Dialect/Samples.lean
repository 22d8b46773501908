import ContractDraft.Proofs.Contract.Matchers
import ContractDraft.Proofs.Contract.Signature
import ContractDraft.Proofs.Shape.StringShape
import ContractDraft.Proofs.Text.PatternText

/-!
# Examples next to patterns

Two of the calls that both builders have show an example next to a regular expression: those for
tokens of an enumeration and for addresses. The expression for tokens is what the classification
asks for. That for addresses asks for more than an at sign, so an example of an address matches
exactly if it is an address in the narrower sense (`Config.samples_match`).
-/

namespace ContractDraft

open Text Pattern StringForm

/-! ## What the expressions match -/

/-- The characters in front of the at sign of an address. -/
def MailboxChar (c : Char) : Prop := c.isAlphanum = true ∨ c ∈ ['.', '_', '%', '+', '-']

/-- The characters behind it. -/
def HostChar (c : Char) : Prop := c.isAlphanum = true ∨ c ∈ ['.', '-']

/-- A mailbox, a host and a domain of at least two letters. -/
inductive MailAddress : List Char → Prop where
  | parts {mailbox host domain : List Char} : mailbox ≠ [] → (∀ c ∈ mailbox, MailboxChar c) →
      host ≠ [] → (∀ c ∈ host, HostChar c) →
      2 ≤ domain.length → (∀ c ∈ domain, c.isAlpha = true) →
      MailAddress (mailbox ++ '@' :: (host ++ '.' :: domain))

/-- The parts of a class that stand for letters. -/
def letterItems : List ClassItem := [.range 'a' 'z', .range 'A' 'Z']

/-- The parts of a class that stand for letters and digits. -/
def alphanumItems : List ClassItem := letterItems ++ [.range '0' '9']

/-- The parts of a class that stand for some characters. -/
def charItems (s : List Char) : List ClassItem := s.map fun c => .range c c

theorem inClass_append {items others : List ClassItem} {c : Char} :
    InClass (items ++ others) c ↔ InClass items c ∨ InClass others c := by
  rw [InClass, List.any_append, Bool.or_eq_true, InClass, InClass]

theorem inClass_letterItems {c : Char} : InClass letterItems c ↔ c.isAlpha = true := by
  have halpha : c.isAlpha = (decide ('A'.toNat ≤ c.toNat ∧ c.toNat ≤ 'Z'.toNat) ||
      (decide ('a'.toNat ≤ c.toNat) && decide (c.toNat ≤ 'z'.toNat))) := rfl
  rw [letterItems, inClass_cons_range, inClass_cons_range, inClass_nil, or_false, or_comm, halpha,
    Bool.or_eq_true, Bool.and_eq_true, decide_eq_true_eq, decide_eq_true_eq, decide_eq_true_eq]

theorem inClass_alphanumItems {c : Char} : InClass alphanumItems c ↔ c.isAlphanum = true := by
  rw [alphanumItems, inClass_append, inClass_letterItems, inClass_cons_range, inClass_nil, or_false,
    Char.isAlphanum, Bool.or_eq_true, Char.isDigit_iff_toNat]

theorem inClass_charItems {s : List Char} {c : Char} : InClass (charItems s) c ↔ c ∈ s := by
  induction s with
  | nil => simp [charItems]
  | cons d s ih =>
    rw [charItems, List.map_cons, inClass_cons_range, ← charItems, ih, List.mem_cons,
      ← Char.toNat_inj]
    exact or_congr (by omega) Iff.rfl

theorem ofText?_enumPattern : ofText? enumPattern = some enumTokenPattern := by decide +kernel

theorem ofText?_emailPattern : ofText? emailPattern = some (.row [
    several (.char (alphanumItems ++ charItems ['.', '_', '%', '+', '-'])), .just '@',
    several (.char (alphanumItems ++ charItems ['.', '-'])), .just '.',
    atLeast 2 (.char letterItems)]) := by
  decide +kernel

theorem fullyMatches_enumPattern_iff {s : List Char} :
    FullyMatches enumPattern s ↔ EnumToken s := by
  rw [fullyMatches_iff ofText?_enumPattern, ← accepts_iff]
  exact isEnumToken_iff

theorem fullyMatches_emailPattern_iff {s : List Char} :
    FullyMatches emailPattern s ↔ MailAddress s := by
  rw [fullyMatches_iff ofText?_emailPattern]
  simp only [matches_row_cons_cons_iff, matches_row_singleton_iff, matches_just_iff,
    matches_several_char_iff, matches_atLeast_char_iff, inClass_append, inClass_alphanumItems,
    inClass_charItems, inClass_letterItems]
  constructor
  · rintro ⟨mailbox, _, rfl, ⟨hmailbox, hchars⟩, _, _, rfl, rfl, host, _, rfl, ⟨hhost, hchars'⟩, _,
      domain, rfl, rfl, hdomain, hletters⟩
    exact .parts hmailbox hchars hhost hchars' hdomain hletters
  · rintro ⟨hmailbox, hchars, hhost, hchars', hdomain, hletters⟩
    exact ⟨_, _, rfl, ⟨hmailbox, hchars⟩, ['@'], _, rfl, rfl, _, _, rfl, ⟨hhost, hchars'⟩, ['.'], _,
      rfl, rfl, hdomain, hletters⟩

/-! ## Calls with an example next to an expression -/

/-- The call for the matcher `m` shows the example `s` next to the regular expression
`expression`. -/
structure Dialect.ShowsNextTo (dialect : Dialect) (m : Matcher) (s expression : String) : Prop where
  call_pattern : (dialect.matchers.call m.shape).pattern = some expression
  call_withExample : (dialect.matchers.call m.shape).withExample = true
  sample : m.sample = some (.text s)

/-- Every example that a draft shows next to an expression matches it. -/
def Dialect.SamplesMatch (dialect : Dialect) (draft : Draft) : Prop :=
  ∀ block ∈ draft.blocks, ∀ statement ∈ block.statements, ∀ m ∈ statement.matcher?,
    ∀ s expression : String, dialect.ShowsNextTo m s expression → FullyMatches expression s.toList

/-- Of the calls that both builders have, those for dates and points in time have a format but no
example. -/
theorem MatcherTable.standard_call {shape : Shape} {expression : String}
    (hpattern : (standard.call shape).pattern = some expression)
    (hexample : (standard.call shape).withExample = true) :
    (shape = .enumString ∧ expression = enumPattern) ∨
      (shape = .emailString ∧ expression = emailPattern) := by
  cases shape with
  | enumString => exact .inl ⟨rfl, (Option.some.inj hpattern).symm⟩
  | emailString => exact .inr ⟨rfl, (Option.some.inj hpattern).symm⟩
  | date => cases hexample
  | dateTime => cases hexample
  | _ => cases hpattern

/-- Only a string is shown as text. -/
theorem Literal.eq_string_of_ofValue? {v : Value} {s : String}
    (h : ofValue? v = some (.text s)) : v = .string s := by
  cases v with
  | string t =>
    rw [ofValue?] at h
    split at h
    · cases h
    · cases h
      rfl
  | decimal x =>
    rw [ofValue?] at h
    split at h <;> cases h
  | _ => cases h

/-- An example next to the expression for tokens is a token, and one next to the expression for
addresses is none and has an at sign. -/
theorem Drafter.shown_of_standard {d : Drafter} {dialect : Dialect} (hpolicy : d.policy = .standard)
    (hcalls : dialect.matchers = .standard) {key : Option String} {v : Value}
    (hv : v.isScalar = true) {s expression : String}
    (h : dialect.ShowsNextTo (d.matcher key v) s expression) :
    (expression = enumPattern ∧ EnumToken s.toList) ∨
      (expression = emailPattern ∧ ¬ EnumToken s.toList ∧ '@' ∈ s.toList) := by
  obtain ⟨hpattern, hexample, hsample⟩ := h
  rw [matcher_standard hpolicy hv] at hpattern hexample hsample
  rw [hcalls] at hpattern hexample
  obtain rfl := Literal.eq_string_of_ofValue? hsample
  rcases MatcherTable.standard_call hpattern hexample with ⟨hshape, hsame⟩ | ⟨hshape, hsame⟩
  · exact .inl ⟨hsame, Shape.ofString_eq_enumString_iff.mp hshape⟩
  · exact .inr ⟨hsame, Shape.ofString_eq_emailString_iff.mp hshape⟩

/-- In every draft under the standard policy, with the calls of the built-in dialects, an example
next to a regular expression matches it, or it is an example of an address that is none in the sense
of the expression for addresses. -/
theorem Config.samples_match (config : Config) (hpolicy : config.policy = .standard)
    (hcalls : config.dialect.matchers = .standard) (document : Value) :
    ∀ block ∈ (config.draft document).blocks, ∀ statement ∈ block.statements,
      ∀ m ∈ statement.matcher?, ∀ s expression : String,
        config.dialect.ShowsNextTo m s expression →
          (expression = enumPattern ∧ FullyMatches expression s.toList) ∨
            (expression = emailPattern ∧ '@' ∈ s.toList ∧
              (FullyMatches expression s.toList ↔ MailAddress s.toList)) := by
  intro block hblock statement hstatement m hm s expression hshown
  obtain ⟨key, v, hv, rfl⟩ := Drafter.drawn_draft _ document block hblock statement hstatement m hm
  rcases Drafter.shown_of_standard hpolicy hcalls hv hshown with ⟨rfl, htoken⟩ | ⟨rfl, _, hat⟩
  · exact .inl ⟨rfl, fullyMatches_enumPattern_iff.mpr htoken⟩
  · exact .inr ⟨rfl, hat, fullyMatches_emailPattern_iff⟩

/-- In a document with a token and an address both are shown, and both match. -/
theorem Config.samples_match_contact :
    let config : Config := {}
    let document : Value := .object [("state", .string "OPEN"), ("mail", .string "a@b.org")]
    let state : Matcher := ⟨.enumString, some (.text "OPEN")⟩
    let mail : Matcher := ⟨.emailString, some (.text "a@b.org")⟩
    config.policy = .standard ∧ config.dialect.matchers = .standard ∧
      .scalar (some "state") state ∈ (config.draft document).root.statements ∧
      config.dialect.ShowsNextTo state "OPEN" enumPattern ∧
      FullyMatches enumPattern "OPEN".toList ∧
      .scalar (some "mail") mail ∈ (config.draft document).root.statements ∧
      config.dialect.ShowsNextTo mail "a@b.org" emailPattern ∧
      FullyMatches emailPattern "a@b.org".toList := by
  intro config document state mail
  have hroot : (config.draft document).root ∈ (config.draft document).blocks :=
    List.mem_append_right _ (List.mem_singleton_self _)
  have hstate : .scalar (some "state") state ∈ (config.draft document).root.statements := by
    decide +kernel
  have hmail : .scalar (some "mail") mail ∈ (config.draft document).root.statements := by
    decide +kernel
  have htoken := samples_match config rfl rfl document _ hroot _ hstate state rfl "OPEN" enumPattern
    ⟨rfl, rfl, rfl⟩
  have haddress := samples_match config rfl rfl document _ hroot _ hmail mail rfl "a@b.org"
    emailPattern ⟨rfl, rfl, rfl⟩
  have hne : enumPattern ≠ emailPattern := by decide
  have hparts : MailAddress "a@b.org".toList :=
    @MailAddress.parts ['a'] ['b'] ['o', 'r', 'g'] (by decide) (by simp [MailboxChar]) (by decide)
      (by simp [HostChar]) (by decide) (by decide)
  refine ⟨rfl, rfl, hstate, ⟨rfl, rfl, rfl⟩, ?_, hmail, ⟨rfl, rfl, rfl⟩, ?_⟩
  · rcases htoken with ⟨-, hmatch⟩ | ⟨hsame, -⟩
    · exact hmatch
    · exact absurd hsame hne
  · rcases haddress with ⟨hsame, -⟩ | ⟨-, -, hmatch⟩
    · exact absurd hsame.symm hne
    · exact hmatch.mpr hparts

/-- An at sign alone is an example of an address, but no address in the sense of the expression. -/
theorem Config.at_sign_alone :
    let config : Config := {}
    let document : Value := .object [("a", .string "@")]
    ¬ config.dialect.SamplesMatch (config.draft document) := by
  intro config document h
  have hroot : (config.draft document).root ∈ (config.draft document).blocks :=
    List.mem_append_right _ (List.mem_singleton_self _)
  have hmatch := h _ hroot (.scalar (some "a") ⟨.emailString, some (.text "@")⟩) (by decide +kernel)
    _ rfl "@" emailPattern ⟨rfl, rfl, rfl⟩
  rw [fullyMatches_iff ofText?_emailPattern, ← accepts_iff] at hmatch
  exact absurd hmatch (by decide +kernel)

end ContractDraft
