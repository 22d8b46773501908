import ContractDraft.CommandLine.Arguments

/-!
# Usage texts

The help text, and the wording of usage errors.
-/

namespace ContractDraft

/-- The help text, line by line. -/
def helpLines : List String := [
  "Generate Pact contract DSL code from sample JSON",
  "",
  "Usage: contract-draft [OPTIONS] [FILE]",
  "",
  "Arguments:",
  "  [FILE]  Input file (use stdin if omitted)",
  "",
  "Options:",
  "      --dialect <DIALECT>            Built-in target dialect: classic (default) or lambda",
  "      --dialect-file <DIALECT_FILE>  Load the dialect from a JSON file instead",
  "      --threshold <THRESHOLD>        Extract objects with more than this many fields",
  "      --no-chunk                     Keep every nested object inline",
  "      --reuse-fragments              Objects with identical structure share one fragment",
  "      --min-array-len <N>            Minimum length of every repeating array",
  "      --array-examples <N>           Example elements generated per repeating array",
  "      --allow-trailing-commas        Accept a trailing comma before a closing bracket",
  "      --root-name <ROOT_NAME>        Variable name of the root body",
  "  -o, --output <OUTPUT>              Write to this file instead of stdout",
  "  -v, --verbose                      Log classification and planning decisions",
  "  -h, --help                         Print help"]

/-- The long name of a flag. -/
def Flag.longName : Flag → String
  | .noChunk => "--no-chunk"
  | .reuseFragments => "--reuse-fragments"
  | .allowTrailingCommas => "--allow-trailing-commas"
  | .verbose => "--verbose"

/-- The long name of an option that takes a value. -/
def Setting.longName : Setting → String
  | .dialect => "--dialect"
  | .dialectFile => "--dialect-file"
  | .threshold => "--threshold"
  | .minArrayLen => "--min-array-len"
  | .arrayExamples => "--array-examples"
  | .rootName => "--root-name"
  | .output => "--output"

/-- The wording of a usage error. -/
def UsageError.message : UsageError → String
  | .unknownOption text => "error: unexpected argument '" ++ text ++ "' found"
  | .missingValue s => "error: a value is required for '" ++ s.longName ++ "'"
  | .unexpectedValue text => "error: no value is allowed for '" ++ text ++ "'"
  | .invalidValue s value => "error: invalid value '" ++ value ++ "' for '" ++ s.longName ++ "'"
  | .repeatedFlag f => "error: '" ++ f.longName ++ "' cannot be used multiple times"
  | .repeatedSetting s => "error: '" ++ s.longName ++ "' cannot be used multiple times"
  | .secondInput text => "error: unexpected argument '" ++ text ++ "' found"
  | .conflictingDialects => "error: '--dialect' cannot be used with '--dialect-file'"

end ContractDraft
