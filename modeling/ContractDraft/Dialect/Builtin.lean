import ContractDraft.Dialect.Basic

/-!
# Built-in dialects

The two builder languages of Pact for the JVM: the chained builder, and the builder that takes a
lambda for every scope.
-/

namespace ContractDraft

/-- The regular expression of enumeration tokens. -/
def enumPattern : String := "^[A-Z_]+$"

/-- The regular expression of addresses. -/
def emailPattern : String := "^[a-zA-Z0-9._%+-]+@[a-zA-Z0-9.-]+\\.[a-zA-Z]{2,}$"

/-- The format of dates. -/
def dateFormat : String := "yyyy-MM-dd"

/-- The format of points in time. -/
def dateTimeFormat : String := "yyyy-MM-dd'T'HH:mm:ss[.SSS]XXX"

/-- The calls that both builders have. -/
def MatcherTable.standard : MatcherTable where
  enumString := { method := "stringMatcher", pattern := some enumPattern }
  freeString := { method := "stringType" }
  emailString := { method := "stringMatcher", pattern := some emailPattern }
  uuid := { method := "uuid" }
  date := { method := "date", pattern := some dateFormat, withExample := false }
  dateTime := { method := "datetime", pattern := some dateTimeFormat, withExample := false }
  integer := { method := "integerType" }
  decimal := { method := "decimalType" }
  number := { method := "numberType", withExample := false }
  boolean := { method := "booleanType" }
  null := { method := "nullValue", withExample := false }

namespace Dialect

/-- The chained builder. -/
def classic : Dialect where
  name := "classic"
  indent := "    "
  fragmentIndent := 2
  varPrefix := "o"
  integerSuffix := "L"
  rootOpen := "PactDslJsonBody {name} = new PactDslJsonBody()"
  rootClose := ";"
  rootArrayObjectOpen := "DslPart {name} = PactDslJsonArray.arrayMinLike({min}, {examples})"
  rootArrayObjectClose := "    .closeObject()\n;"
  rootArrayNestedOpen := "PactDslJsonArray {name} = new PactDslJsonArray()\n    .array()"
  rootArrayNestedClose := "    .closeArray()\n;"
  rootArrayMatcher :=
    "DslPart {name} = PactDslJsonArray.arrayMinLike({min}, {examples}, " ++
      "PactDslJsonRootValue.{method}({args}));"
  rootEmptyArray := "PactDslJsonArray {name} = new PactDslJsonArray();"
  fragmentOpen := r"private static DslPart {name}() {
    return new PactDslJsonBody()"
  fragmentClose := r"    ;
}"
  call := ".{method}({args})"
  objectOpen := ".object({key})"
  objectOpenElement := ".object()"
  objectClose := ".closeObject()"
  referenceOpen := ".object({key},"
  referenceOpenElement := ".template("
  reference := "{name}()"
  referenceClose := ")"
  repeatObjectOpen := ".minArrayLike({key}, {min}, {examples})"
  repeatObjectClose := ".closeObject().closeArray()"
  repeatNestedOpen := ".eachArrayWithMinLike({key}, {examples}, {min})"
  repeatNestedClose := ".closeArray().closeArray()"
  repeatFragment := ".minArrayLike({key}, {min}, {name}(), {examples})"
  repeatMatcher := ".minArrayLike({key}, {min}, PactDslJsonRootValue.{method}({args}), {examples})"
  repeatEmpty := ".array({key}).closeArray()"
  arrayOpen := ".array()"
  arrayClose := ".closeArray()"
  emptyArray := ".array().closeArray()"
  matchers := .standard

/-- The builder that takes a lambda for every scope. -/
def lambda : Dialect where
  name := "lambda"
  indent := "    "
  fragmentIndent := 1
  varPrefix := "o"
  integerSuffix := "L"
  rootOpen := r"DslPart {name} = newJsonBody({var} -> {"
  rootClose := r"}).build();"
  rootArrayObjectOpen :=
    r"DslPart {name} = newJsonArrayMinLike({min}, {var} -> {var}.object({child} -> {"
  rootArrayObjectClose := r"})).build();"
  rootArrayNestedOpen :=
    r"DslPart {name} = newJsonArrayMinLike({min}, {var} -> {var}.array({child} -> {"
  rootArrayNestedClose := r"})).build();"
  rootArrayMatcher :=
    "DslPart {name} = newJsonArrayMinLike({min}, {var} -> {var}.{method}({args})).build();"
  rootEmptyArray := "DslPart {name} = newJsonArray({var} -> {}).build();"
  fragmentOpen := r"static void {name}(LambdaDslObject {var}) {"
  fragmentClose := r"}"
  call := "{var}.{method}({args});"
  objectOpen := r"{var}.object({key}, {child} -> {"
  objectOpenElement := r"{var}.object({child} -> {"
  objectClose := r"});"
  referenceOpen := r"{var}.object({key}, {child} -> {"
  referenceOpenElement := r"{var}.object({child} -> {"
  reference := "{name}({var});"
  referenceClose := r"});"
  repeatObjectOpen := r"{var}.minArrayLike({key}, {min}, {examples}, {child} -> {"
  repeatObjectClose := r"});"
  repeatNestedOpen := r"{var}.eachArrayWithMinLike({key}, {examples}, {min}, {child} -> {"
  repeatNestedClose := r"});"
  repeatFragment := "{var}.minArrayLike({key}, {min}, {examples}, {child} -> {name}({child}));"
  repeatMatcher :=
    "{var}.minArrayLike({key}, {min}, PactDslJsonRootValue.{method}({args}), {examples});"
  repeatEmpty := "{var}.array({key}, {child} -> {});"
  arrayOpen := r"{var}.array({child} -> {"
  arrayClose := r"});"
  emptyArray := "{var}.array({child} -> {});"
  matchers := .standard

/-- The built-in dialect of a name. -/
def builtin? (name : String) : Option Dialect :=
  if name = "classic" then some classic
  else if name = "lambda" then some lambda
  else none

end Dialect
end ContractDraft
