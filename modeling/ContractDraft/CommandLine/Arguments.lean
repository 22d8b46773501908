import ContractDraft.Dialect.Builtin

/-!
# Arguments

The arguments of the command line, read one after the other. An option takes its value from the text
behind an equals sign or from the next argument; after `--` every argument is an input.
-/

namespace ContractDraft

/-- Options that are on or off. -/
inductive Flag where
  | noChunk
  | reuseFragments
  | allowTrailingCommas
  | verbose
  deriving DecidableEq, Repr

/-- Options that take a value. -/
inductive Setting where
  | dialect
  | dialectFile
  | threshold
  | minArrayLen
  | arrayExamples
  | rootName
  | output
  deriving DecidableEq, Repr

/-- What an option asks for. -/
inductive Switch where
  | help
  | flag (f : Flag)
  | setting (s : Setting)
  deriving DecidableEq, Repr

/-- The options by their long names. -/
def longSwitches : List (String × Switch) := [
  ("help", .help),
  ("no-chunk", .flag .noChunk),
  ("reuse-fragments", .flag .reuseFragments),
  ("allow-trailing-commas", .flag .allowTrailingCommas),
  ("verbose", .flag .verbose),
  ("dialect", .setting .dialect),
  ("dialect-file", .setting .dialectFile),
  ("threshold", .setting .threshold),
  ("min-array-len", .setting .minArrayLen),
  ("array-examples", .setting .arrayExamples),
  ("root-name", .setting .rootName),
  ("output", .setting .output)]

/-- The options by their letters. -/
def shortSwitches : List (Char × Switch) := [
  ('h', .help),
  ('v', .flag .verbose),
  ('o', .setting .output)]

/-- What the arguments ask for. -/
structure Arguments where
  /-- The file that holds the document; standard input if there is none. -/
  input : Option String := none
  dialect : Option Dialect := none
  dialectFile : Option String := none
  threshold : Option UInt64 := none
  minArrayLen : Option UInt64 := none
  arrayExamples : Option UInt64 := none
  rootName : Option String := none
  /-- The file that takes the contract; standard output if there is none. -/
  output : Option String := none
  noChunk : Bool := false
  reuseFragments : Bool := false
  allowTrailingCommas : Bool := false
  verbose : Bool := false
  deriving DecidableEq, Repr

/-- What can be wrong with arguments. -/
inductive UsageError where
  | unknownOption (text : String)
  | missingValue (s : Setting)
  | unexpectedValue (text : String)
  | invalidValue (s : Setting) (value : String)
  | repeatedFlag (f : Flag)
  | repeatedSetting (s : Setting)
  | secondInput (text : String)
  | conflictingDialects
  deriving DecidableEq, Repr

/-- Why the arguments do not lead to a run. -/
inductive NoRun where
  | help
  | usage (e : UsageError)
  deriving DecidableEq, Repr

/-- A count below `2 ^ 64` in ASCII digits, which a plus sign may precede. -/
def parseCount? (text : String) : Option UInt64 :=
  let digits := match text.toList with
    | '+' :: rest => rest
    | s => s
  if digits.isEmpty || !digits.all Char.isDigit then none
  else
    let n := Nat.ofDigitChars 10 digits 0
    if n < UInt64.size then some (UInt64.ofNat n) else none

namespace Arguments

/-- Turns a flag on. -/
def turnOn (a : Arguments) (f : Flag) : Except NoRun Arguments :=
  let once (isOn : Bool) (result : Arguments) : Except NoRun Arguments :=
    if isOn then .error (.usage (.repeatedFlag f)) else .ok result
  match f with
  | .noChunk => once a.noChunk { a with noChunk := true }
  | .reuseFragments => once a.reuseFragments { a with reuseFragments := true }
  | .allowTrailingCommas => once a.allowTrailingCommas { a with allowTrailingCommas := true }
  | .verbose => once a.verbose { a with verbose := true }

/-- Gives an option its value. -/
def set (a : Arguments) (s : Setting) (value : String) : Except NoRun Arguments :=
  let once {α : Type} (old new : Option α) (result : Option α → Arguments) :
      Except NoRun Arguments :=
    if new.isNone then .error (.usage (.invalidValue s value))
    else if old.isSome then .error (.usage (.repeatedSetting s))
    else .ok (result new)
  match s with
  | .dialect => once a.dialect (Dialect.builtin? value) fun v => { a with dialect := v }
  | .dialectFile => once a.dialectFile value fun v => { a with dialectFile := v }
  | .threshold => once a.threshold (parseCount? value) fun v => { a with threshold := v }
  | .minArrayLen => once a.minArrayLen (parseCount? value) fun v => { a with minArrayLen := v }
  | .arrayExamples =>
    once a.arrayExamples (parseCount? value) fun v => { a with arrayExamples := v }
  | .rootName => once a.rootName value fun v => { a with rootName := v }
  | .output => once a.output value fun v => { a with output := v }

/-- Takes an argument that is no option. -/
def takeInput (a : Arguments) (text : String) : Except NoRun Arguments :=
  if a.input.isSome then .error (.usage (.secondInput text)) else .ok { a with input := text }

end Arguments

/-- How far the arguments have been read. -/
structure ArgumentScan where
  arguments : Arguments := {}
  /-- The option that the next argument is the value of. -/
  pending : Option Setting := none
  /-- Whether options are over. -/
  inputsOnly : Bool := false

namespace ArgumentScan

/-- Takes the letters behind a hyphen: flags, and at most one option that takes the rest as its
value. -/
def takeLetters (scan : ArgumentScan) : List Char → Except NoRun ArgumentScan
  | [] => .ok scan
  | c :: rest =>
    match shortSwitches.lookup c with
    | none => .error (.usage (.unknownOption (String.ofList ['-', c])))
    | some .help => .error .help
    | some (.flag f) => do
      let a ← scan.arguments.turnOn f
      takeLetters { scan with arguments := a } rest
    | some (.setting s) =>
      match rest with
      | [] => .ok { scan with pending := some s }
      | '=' :: value => do
        let a ← scan.arguments.set s (String.ofList value)
        .ok { scan with arguments := a }
      | value => do
        let a ← scan.arguments.set s (String.ofList value)
        .ok { scan with arguments := a }

/-- Takes the text behind two hyphens: a name, and a value if there is an equals sign. -/
def takeLong (scan : ArgumentScan) (text : List Char) : Except NoRun ArgumentScan :=
  let name := String.ofList (text.takeWhile (· ≠ '='))
  let value? := match text.dropWhile (· ≠ '=') with
    | [] => none
    | _ :: value => some (String.ofList value)
  match longSwitches.lookup name, value? with
  | none, _ => .error (.usage (.unknownOption ("--" ++ name)))
  | some .help, none => .error .help
  | some (.flag f), none => do
    let a ← scan.arguments.turnOn f
    .ok { scan with arguments := a }
  | some (.setting s), none => .ok { scan with pending := some s }
  | some (.setting s), some value => do
    let a ← scan.arguments.set s value
    .ok { scan with arguments := a }
  | some _, some _ => .error (.usage (.unexpectedValue ("--" ++ name)))

/-- Takes an argument that is no option: the value that is waited for, or the input. -/
def takePlain (scan : ArgumentScan) (text : String) : Except NoRun ArgumentScan :=
  match scan.pending with
  | some s => do
    let a ← scan.arguments.set s text
    .ok { scan with arguments := a, pending := none }
  | none => do
    let a ← scan.arguments.takeInput text
    .ok { scan with arguments := a }

/-- Takes one argument. A lone hyphen is no option; where a value is waited for, nothing else that
begins with a hyphen may stand. -/
def take (scan : ArgumentScan) (text : String) : Except NoRun ArgumentScan :=
  if scan.inputsOnly then scan.takePlain text
  else
    match text.toList, scan.pending with
    | '-' :: _ :: _, some s => .error (.usage (.missingValue s))
    | ['-', '-'], none => .ok { scan with inputsOnly := true }
    | '-' :: '-' :: rest, none => scan.takeLong rest
    | '-' :: c :: rest, none => scan.takeLetters (c :: rest)
    | _, _ => scan.takePlain text

/-- The arguments when there are no more. -/
def finish (scan : ArgumentScan) : Except NoRun Arguments :=
  match scan.pending with
  | some s => .error (.usage (.missingValue s))
  | none =>
    if scan.arguments.dialect.isSome ∧ scan.arguments.dialectFile.isSome then
      .error (.usage .conflictingDialects)
    else .ok scan.arguments

end ArgumentScan

/-- What a list of arguments asks for. -/
def Arguments.parse (args : List String) : Except NoRun Arguments := do
  let scan ← args.foldlM ArgumentScan.take {}
  scan.finish

end ContractDraft
