import ContractDraft.Dialect.Builtin
import ContractDraft.Proofs.Contract.Names
import ContractDraft.Proofs.Dialect.Scopes
import ContractDraft.Proofs.Dialect.Segmentation
import ContractDraft.Proofs.Text.Plain

/-!
# Templates in pieces

A template in its pieces is text of the dialect and places for values. Which pieces a statement has
depends on its form alone (`Dialect.pieces_bare`), so a dialect is known by the pieces of finitely
many forms (`Statement.bare_mem_forms`). What is put in the places has every property of plain text
and of string literals that texts hand on when they are joined (`Dialect.placeholders_piecewise`).
-/

namespace ContractDraft

/-- Plain text is plain as often as it is repeated. -/
theorem plain_repeatText {s : String} (h : Text.Plain s.toList) (count : ℕ) :
    Text.Plain (repeatText s count).toList := by
  unfold repeatText
  split
  · exact Text.plain_nil
  · intro c hc
    rw [String.toList_join] at hc
    obtain ⟨copy, hcopy, hmem⟩ := List.mem_flatMap.mp hc
    rw [List.eq_of_mem_replicate hcopy] at hmem
    exact h c hmem

/-! ## The form of a statement -/

namespace Statement

/-- The names of the placeholders that the template of a statement knows. -/
def placeholderNames : Statement → List String
  | .rootOpen _ | .rootEmptyArray _ | .fragmentOpen _ | .reference _ => ["name", "var"]
  | .rootClose | .fragmentClose => ["var"]
  | .rootArrayOpen .. => ["name", "var", "child", "min", "examples"]
  | .rootArrayClose _ => ["child"]
  | .rootArrayMatcher .. => ["name", "var", "method", "args", "min", "examples"]
  | .objectOpen _ | .referenceOpen _ | .repeatOpen .. | .arrayOpen =>
    ["key", "var", "child", "min", "examples"]
  | .objectClose | .referenceClose | .repeatClose _ | .arrayClose => ["var", "child"]
  | .repeatFragment .. => ["key", "name", "var", "child", "min", "examples"]
  | .repeatMatcher .. => ["key", "var", "method", "args", "min", "examples"]
  | .emptyArray none => ["var", "child"]
  | .emptyArray (some _) => ["key", "var", "child"]
  | .scalar .. => ["var", "method", "args"]

/-- A statement without what it says about the document. -/
def bare : Statement → Statement
  | .rootOpen _ => .rootOpen ""
  | .rootArrayOpen _ nesting _ => .rootArrayOpen "" nesting {}
  | .rootArrayMatcher .. => .rootArrayMatcher "" ⟨.null, none⟩ {}
  | .rootEmptyArray _ => .rootEmptyArray ""
  | .fragmentOpen _ => .fragmentOpen ""
  | .objectOpen key => .objectOpen (key.map fun _ => "")
  | .referenceOpen key => .referenceOpen (key.map fun _ => "")
  | .reference _ => .reference ""
  | .repeatOpen _ nesting _ => .repeatOpen "" nesting {}
  | .repeatFragment .. => .repeatFragment "" "" {}
  | .repeatMatcher .. => .repeatMatcher "" ⟨.null, none⟩ {}
  | .emptyArray key => .emptyArray (key.map fun _ => "")
  | .scalar .. => .scalar none ⟨.null, none⟩
  | .rootClose => .rootClose
  | .rootArrayClose nesting => .rootArrayClose nesting
  | .fragmentClose => .fragmentClose
  | .objectClose => .objectClose
  | .referenceClose => .referenceClose
  | .repeatClose nesting => .repeatClose nesting
  | .arrayOpen => .arrayOpen
  | .arrayClose => .arrayClose

/-- All statements that say nothing about a document. -/
def forms : List Statement := [
  .rootOpen "", .rootClose, .rootArrayOpen "" .object {}, .rootArrayOpen "" .array {},
  .rootArrayClose .object, .rootArrayClose .array, .rootArrayMatcher "" ⟨.null, none⟩ {},
  .rootEmptyArray "", .fragmentOpen "", .fragmentClose, .objectOpen none, .objectOpen (some ""),
  .objectClose, .referenceOpen none, .referenceOpen (some ""), .reference "", .referenceClose,
  .repeatOpen "" .object {}, .repeatOpen "" .array {}, .repeatClose .object, .repeatClose .array,
  .repeatFragment "" "" {}, .repeatMatcher "" ⟨.null, none⟩ {}, .arrayOpen, .arrayClose,
  .emptyArray none, .emptyArray (some ""), .scalar none ⟨.null, none⟩]

/-- There are finitely many statements when their texts are left out. -/
theorem bare_mem_forms (x : Statement) : x.bare ∈ forms := by
  cases x with
  | rootArrayOpen _ nesting _ | rootArrayClose nesting | repeatOpen _ nesting _
  | repeatClose nesting => cases nesting <;> simp [bare, forms]
  | objectOpen key | referenceOpen key | emptyArray key => cases key <;> simp [bare, forms]
  | _ => simp [bare, forms]

/-- What a statement has to be closed by does not depend on its texts. -/
theorem closer?_bare (x : Statement) : x.bare.closer? = x.closer? := by
  cases x <;> rfl

theorem isClosing_bare (x : Statement) : x.bare.isClosing = x.isClosing := by
  cases x <;> rfl

end Statement

namespace Dialect

variable {d : Dialect} {scopes : Scopes}

/-! ## Pieces -/

/-- The placeholders of a statement have fixed names. -/
theorem map_fst_placeholders (x : Statement) :
    (d.placeholders scopes x).map Prod.fst = x.placeholderNames := by
  cases x with
  | repeatOpen _ _ _ | objectOpen _ | referenceOpen _ | arrayOpen => rfl
  | emptyArray key => cases key <;> rfl
  | _ => rfl

/-- The pieces of the template of a statement. -/
def pieces (d : Dialect) (x : Statement) : List Segment :=
  Template.segments x.placeholderNames (d.template x).toList

/-- The pieces of a template do not depend on the texts of the statement. -/
theorem pieces_bare (d : Dialect) (x : Statement) : d.pieces x.bare = d.pieces x := by
  cases x with
  | rootArrayOpen _ nesting _ | rootArrayClose nesting | repeatOpen _ nesting _
  | repeatClose nesting => cases nesting <;> rfl
  | objectOpen key | referenceOpen key | emptyArray key => cases key <;> rfl
  | _ => rfl

/-- The pieces of a template that is one literal, read off its characters. The characters of a
string are decoded from its bytes, which takes long where pieces are evaluated. -/
theorem pieces_of_ofList {x : Statement} {chars : List Char}
    (h : d.template x = String.ofList chars) :
    d.pieces x = Template.segments x.placeholderNames chars := by
  rw [pieces, h, String.toList_ofList]

/-- The text of a statement is that of its pieces, one after the other. -/
theorem fill_template (x : Statement) :
    Template.fill (d.placeholders scopes x) (d.template x).toList =
      (d.pieces x).flatMap (Template.fillSegment (d.placeholders scopes x)) := by
  rw [Template.fill_eq_flatMap, map_fst_placeholders, pieces]

end Dialect

/-- There is always a first line. -/
theorem Template.exists_splitLines (s : List Char) :
    ∃ line rest, Template.splitLines s = line :: rest := by
  cases s with
  | nil => exact ⟨[], [], rfl⟩
  | cons c s =>
    rw [Template.splitLines]
    split
    · exact ⟨_, _, rfl⟩
    · split
      · exact ⟨_, _, rfl⟩
      · exact ⟨_, _, rfl⟩

namespace Dialect

variable {d : Dialect} {scopes : Scopes}

/-! ## Values -/

/-- All values of placeholders have a property. -/
def ValuesHave (P : List Char → Prop) (values : List (String × String)) : Prop :=
  ∀ p ∈ values, P p.2.toList

/-- So has what is put in the place of a placeholder, or nothing is put there. -/
theorem ValuesHave.fillSegment {P : List Char → Prop} {values : List (String × String)}
    (h : ValuesHave P values) (hnil : P []) (name : String) :
    P (Template.fillSegment values (.placeholder name)) := by
  rw [Template.fillSegment]
  cases hlookup : values.lookup name with
  | none => exact hnil
  | some value =>
    obtain ⟨before, after, rfl, -⟩ := List.lookup_eq_some_iff.mp hlookup
    exact h (name, value) (by simp)

@[simp] theorem valuesHave_nil {P : List Char → Prop} : ValuesHave P [] := by simp [ValuesHave]

@[simp] theorem valuesHave_cons {P : List Char → Prop} {name value : String}
    {values : List (String × String)} :
    ValuesHave P ((name, value) :: values) ↔ P value.toList ∧ ValuesHave P values :=
  List.forall_mem_cons

@[simp] theorem valuesHave_append {P : List Char → Prop} {values others : List (String × String)} :
    ValuesHave P (values ++ others) ↔ ValuesHave P values ∧ ValuesHave P others :=
  List.forall_mem_append

/-- A dialect whose own words, which stand around its templates and in calls, are plain text. -/
structure PlainWords (d : Dialect) : Prop where
  indent : Text.Plain d.indent.toList
  varPrefix : Text.Plain d.varPrefix.toList
  integerSuffix : Text.Plain d.integerSuffix.toList
  method : ∀ shape, Text.Plain (d.matchers.call shape).method.toList

/-- The built-in dialects hold no special characters outside their templates. -/
theorem plainWords_of_builtin (h : d = .classic ∨ d = .lambda) : d.PlainWords := by
  rcases h with rfl | rfl
  · exact ⟨by decide, by decide, by decide, fun shape => by cases shape <;> decide⟩
  · exact ⟨by decide, by decide, by decide, fun shape => by cases shape <;> decide⟩

theorem PlainWords.plain_builderVar (h : d.PlainWords) (n : ℕ) :
    Text.Plain (d.builderVar n).toList := by
  unfold builderVar
  split
  · exact h.varPrefix
  · rw [String.toList_append]
    exact Text.plain_append.mpr ⟨h.varPrefix, Text.plain_toString n⟩

section

variable {P : List Char → Prop} (hP : Text.Piecewise P) (hwords : d.PlainWords)
include hP hwords

/-- The text of an example is composed of plain and quoted text. -/
theorem literal_piecewise (sample : Literal) : P (d.literal sample).toList := by
  cases sample with
  | text s => exact hP.quote s
  | integer n =>
    rw [literal, String.toList_append]
    exact hP.plain _ (Text.plain_append.mpr ⟨Text.plain_toString_int _, hwords.integerSuffix⟩)
  | decimal x => exact hP.plain _ (literalDecimals.plain_format x)
  | boolean b =>
    have hboolean : Text.Plain (if b then "true" else "false").toList := by cases b <;> decide
    exact hP.plain _ hboolean

/-- The arguments of a matcher call are composed of plain and quoted text. -/
theorem arguments_piecewise (key : Option String) (m : Matcher) :
    P (d.arguments key m).toList := by
  refine hP.intercalate (by decide) fun s hs => ?_
  simp only [List.mem_append, Option.mem_toList, Option.map_eq_some_iff] at hs
  rcases hs with (⟨k, -, rfl⟩ | ⟨pattern, -, rfl⟩) | hsample
  · exact hP.quote k
  · exact hP.quote pattern
  · split at hsample
    · obtain ⟨sample, -, rfl⟩ := Option.map_eq_some_iff.mp hsample
      exact literal_piecewise hP hwords sample
    · cases hsample

/-- What is filled into a matcher call is composed of plain and quoted text. -/
theorem callValues_piecewise (key : Option String) (m : Matcher) :
    ValuesHave P (d.callValues key m) := by
  simpa [callValues] using
    ⟨hP.plain _ (hwords.method m.shape), arguments_piecewise hP hwords key m⟩

omit hwords in
theorem boundValues_piecewise (bounds : ArrayBounds) : ValuesHave P (boundValues bounds) := by
  simpa [boundValues] using ⟨hP.plain _ (Text.plain_toString bounds.minLen.toNat),
    hP.plain _ (Text.plain_toString bounds.examples.toNat)⟩

variable (hscopes : d.Numbered scopes)
include hscopes

theorem current_piecewise : P scopes.current.toList := by
  unfold Scopes.current
  cases hbound : scopes.bound with
  | nil => exact hP.nil
  | cons var rest =>
    obtain ⟨n, -, rfl⟩ := hscopes var (by simp [hbound])
    exact hP.plain _ (hwords.plain_builderVar n)

theorem enclosing_piecewise : P scopes.enclosing.toList := by
  unfold Scopes.enclosing
  cases hbound : scopes.bound.tail with
  | nil => exact hP.nil
  | cons var rest =>
    obtain ⟨n, -, rfl⟩ := hscopes var (List.mem_of_mem_tail (by simp [hbound]))
    exact hP.plain _ (hwords.plain_builderVar n)

/-- What is filled into the opening of a scope is composed of plain and quoted text. -/
theorem openingPlaceholders_piecewise (key : Option String) (bounds : Option ArrayBounds) :
    ValuesHave P (d.openingPlaceholders scopes key bounds) := by
  have hkey : P ((key.map Text.quote).getD "").toList := by
    cases key with
    | none => exact hP.nil
    | some k => exact hP.quote k
  have hbounds : ValuesHave P ((bounds.map boundValues).getD [("min", ""), ("examples", "")]) := by
    cases bounds with
    | none => simpa using hP.nil
    | some bounds => exact boundValues_piecewise hP bounds
  have hvar := hP.plain _ (hwords.plain_builderVar scopes.allocated)
  simpa [openingPlaceholders] using
    ⟨hkey, current_piecewise hP hwords hscopes, hvar, hbounds⟩

/-- What is put in the places of a template has the property, if the name that the statement writes
has it. -/
theorem placeholders_piecewise {x : Statement}
    (hname : ∀ name, x.name? = some name → P name.toList) :
    ValuesHave P (d.placeholders scopes x) := by
  have hcurrent := current_piecewise hP hwords hscopes
  have henclosing := enclosing_piecewise hP hwords hscopes
  have hvar (n : ℕ) := hP.plain _ (hwords.plain_builderVar n)
  have hbounds := boundValues_piecewise hP
  have hcall := callValues_piecewise hP hwords
  have hopening := openingPlaceholders_piecewise hP hwords hscopes
  cases x with
  | objectOpen key => exact hopening key none
  | referenceOpen key => exact hopening key none
  | repeatOpen key nesting bounds => exact hopening (some key) (some bounds)
  | arrayOpen => exact hopening none none
  | rootClose | fragmentClose | rootArrayClose _ => simpa [placeholders] using hcurrent
  | objectClose | referenceClose | repeatClose _ | arrayClose =>
    simpa [placeholders] using ⟨henclosing, hcurrent⟩
  | rootOpen name | rootEmptyArray name | fragmentOpen name =>
    simpa [placeholders] using ⟨hname name rfl, hvar _⟩
  | rootArrayOpen name nesting bounds =>
    simpa [placeholders] using ⟨hname name rfl, hvar _, hvar _, hbounds bounds⟩
  | rootArrayMatcher name m bounds =>
    simpa [placeholders] using ⟨hname name rfl, hvar _, hcall none m, hbounds bounds⟩
  | reference name => simpa [placeholders] using ⟨hname name rfl, hcurrent⟩
  | repeatFragment key name bounds =>
    simpa [placeholders] using
      ⟨hP.quote key, hname name rfl, hcurrent, hvar _, hbounds bounds⟩
  | repeatMatcher key m bounds =>
    simpa [placeholders] using ⟨hP.quote key, hcurrent, hcall none m, hbounds bounds⟩
  | emptyArray key =>
    cases key with
    | none => simpa [placeholders] using ⟨hcurrent, hvar _⟩
    | some key => simpa [placeholders] using ⟨hP.quote key, hcurrent, hvar _⟩
  | scalar key m => simpa [placeholders] using ⟨hcurrent, hcall key m⟩

end

end Dialect
end ContractDraft
