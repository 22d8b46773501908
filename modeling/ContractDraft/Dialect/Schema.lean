import ContractDraft.Dialect.Builtin
import ContractDraft.Settings.Record

/-!
# Dialects as settings

A dialect is written as a JSON table and read from one. What a text leaves out is taken from the
classic dialect; a matcher call that a text gives replaces the standard call as a whole.
-/

namespace ContractDraft

/-- The members of a matcher call. -/
def MatcherCall.schema : RecordSchema MatcherCall := [
  { Member.text "method" (·.method) (fun c v => { c with method := v }) with required := true },
  .optionalText "pattern" (·.pattern) fun c v => { c with pattern := v },
  .flag "example" (·.withExample) fun c v => { c with withExample := v }]

/-- A member of the matcher table. -/
def MatcherTable.callMember (name : String) (get : MatcherTable → MatcherCall)
    (set : MatcherTable → MatcherCall → MatcherTable) : Member MatcherTable :=
  .record name MatcherCall.schema { method := "" } get set

/-- The members of the matcher table. -/
def MatcherTable.schema : RecordSchema MatcherTable := [
  callMember "enum_string" (·.enumString) fun t v => { t with enumString := v },
  callMember "free_string" (·.freeString) fun t v => { t with freeString := v },
  callMember "email_string" (·.emailString) fun t v => { t with emailString := v },
  callMember "uuid" (·.uuid) fun t v => { t with uuid := v },
  callMember "date" (·.date) fun t v => { t with date := v },
  callMember "date_time" (·.dateTime) fun t v => { t with dateTime := v },
  callMember "integer" (·.integer) fun t v => { t with integer := v },
  callMember "decimal" (·.decimal) fun t v => { t with decimal := v },
  callMember "number" (·.number) fun t v => { t with number := v },
  callMember "boolean" (·.boolean) fun t v => { t with boolean := v },
  callMember "null" (·.null) fun t v => { t with null := v }]

/-- The members of a dialect. -/
def Dialect.schema : RecordSchema Dialect := [
  .text "name" (·.name) fun d v => { d with name := v },
  .text "indent" (·.indent) fun d v => { d with indent := v },
  .count "fragment_indent" (·.fragmentIndent) fun d v => { d with fragmentIndent := v },
  .text "var_prefix" (·.varPrefix) fun d v => { d with varPrefix := v },
  .text "integer_suffix" (·.integerSuffix) fun d v => { d with integerSuffix := v },
  .text "root_open" (·.rootOpen) fun d v => { d with rootOpen := v },
  .text "root_close" (·.rootClose) fun d v => { d with rootClose := v },
  .text "root_array_object_open" (·.rootArrayObjectOpen)
    fun d v => { d with rootArrayObjectOpen := v },
  .text "root_array_object_close" (·.rootArrayObjectClose)
    fun d v => { d with rootArrayObjectClose := v },
  .text "root_array_nested_open" (·.rootArrayNestedOpen)
    fun d v => { d with rootArrayNestedOpen := v },
  .text "root_array_nested_close" (·.rootArrayNestedClose)
    fun d v => { d with rootArrayNestedClose := v },
  .text "root_array_matcher" (·.rootArrayMatcher) fun d v => { d with rootArrayMatcher := v },
  .text "root_empty_array" (·.rootEmptyArray) fun d v => { d with rootEmptyArray := v },
  .text "fragment_open" (·.fragmentOpen) fun d v => { d with fragmentOpen := v },
  .text "fragment_close" (·.fragmentClose) fun d v => { d with fragmentClose := v },
  .text "call" (·.call) fun d v => { d with call := v },
  .text "object_open" (·.objectOpen) fun d v => { d with objectOpen := v },
  .text "object_open_element" (·.objectOpenElement) fun d v => { d with objectOpenElement := v },
  .text "object_close" (·.objectClose) fun d v => { d with objectClose := v },
  .text "reference_open" (·.referenceOpen) fun d v => { d with referenceOpen := v },
  .text "reference_open_element" (·.referenceOpenElement)
    fun d v => { d with referenceOpenElement := v },
  .text "reference" (·.reference) fun d v => { d with reference := v },
  .text "reference_close" (·.referenceClose) fun d v => { d with referenceClose := v },
  .text "repeat_object_open" (·.repeatObjectOpen) fun d v => { d with repeatObjectOpen := v },
  .text "repeat_object_close" (·.repeatObjectClose) fun d v => { d with repeatObjectClose := v },
  .text "repeat_nested_open" (·.repeatNestedOpen) fun d v => { d with repeatNestedOpen := v },
  .text "repeat_nested_close" (·.repeatNestedClose) fun d v => { d with repeatNestedClose := v },
  .text "repeat_fragment" (·.repeatFragment) fun d v => { d with repeatFragment := v },
  .text "repeat_matcher" (·.repeatMatcher) fun d v => { d with repeatMatcher := v },
  .text "repeat_empty" (·.repeatEmpty) fun d v => { d with repeatEmpty := v },
  .text "array_open" (·.arrayOpen) fun d v => { d with arrayOpen := v },
  .text "array_close" (·.arrayClose) fun d v => { d with arrayClose := v },
  .text "empty_array" (·.emptyArray) fun d v => { d with emptyArray := v },
  .record "matchers" MatcherTable.schema .standard (·.matchers) fun d v => { d with matchers := v }]

namespace Dialect

/-- The JSON text of a dialect, with one member to a line. -/
def toJsonText (d : Dialect) : String :=
  (schema.write d).pretty

/-- The dialect that a JSON text describes, on top of the classic dialect. -/
def ofJsonText (text : String) : Except SettingsFault Dialect :=
  schema.load classic text

end Dialect
end ContractDraft
