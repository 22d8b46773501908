import ContractDraft.CommandLine.Help
import ContractDraft.Dialect.Schema
import ContractDraft.Output.LineWriter

/-!
# Command line runs

What a command line does to its surroundings, one primitive after the other. It meets them through a
host, a fixed set of primitives: the program works on files and streams, tests and theorems on a
world that is a value. Nothing is created before the whole contract is there. Its lines are then
collected in a buffer, and a target that does not take what it is given ends the run.
-/

namespace ContractDraft

/-- What is found under the name of a file. -/
inductive FileLookup where
  | missing
  | unreadable
  | content (bytes : ByteArray)

/-- An entry on standard error. How a notice is written out is up to the host. -/
inductive Report where
  | notice (n : Notice)
  | message (text : String)
  deriving DecidableEq

/-- What a run can do to its surroundings. -/
structure Host (m : Type → Type) (Target : Type) where
  /-- Takes all of standard input, if it can be read. -/
  readStdin : m (Option ByteArray)
  /-- Looks up the file of a name. -/
  lookUp : String → m FileLookup
  /-- Standard output. -/
  stdout : Target
  /-- Creates the file of a name, or empties it if it is there, unless that is refused. -/
  create : String → m (Option Target)
  /-- Writes bytes behind what was written before, and says whether all of them were taken. -/
  write : Target → List UInt8 → m Bool
  /-- Has a target hand on what it was given, and says whether it did. -/
  flush : Target → m Bool
  /-- Writes an entry on standard error. -/
  report : Report → m Unit

/-- Why a run fails. -/
inductive RunFailure where
  | dialectUnreadable (path : String)
  | dialectInvalid (path : String)
  | inputMissing (path : String)
  | inputUnreadable (path : String)
  | stdinUnreadable
  | malformedDocument (source : String) (place : LineColumn) (e : ReadError)
  | outputRefused (path : String)
  | unwritten (e : WriteFailure)

/-- The wording of a failure. -/
def RunFailure.message : RunFailure → String
  | .dialectUnreadable path => "Error: Failed to read dialect file: " ++ path
  | .dialectInvalid path => "Error: Failed to load dialect file: " ++ path
  | .inputMissing path => "Error: Failed to open input: " ++ path
  | .inputUnreadable path => "Error: Failed to read input: " ++ path
  | .stdinUnreadable => "Error: Failed to read stdin"
  | .malformedDocument source place e =>
    source ++ ":" ++ toString place.line ++ ":" ++ toString place.column ++ ": " ++ e.message
  | .outputRefused path => "Error: Failed to create output: " ++ path
  | .unwritten e => "Error: " ++ e.message

variable {m : Type → Type} [Monad m] {Target : Type}

namespace Host

/-- The text of a file. -/
def readText (host : Host m Target) (path : String) (missing unreadable : RunFailure) :
    ExceptT RunFailure m String := do
  match ← host.lookUp path with
  | .missing => throw missing
  | .unreadable => throw unreadable
  | .content bytes =>
    match String.fromUTF8? bytes with
    | some text => return text
    | none => throw unreadable

/-- Writes notices on standard error. -/
def reportNotices (host : Host m Target) (notices : List Notice) : m Unit :=
  notices.forM fun notice => host.report (.notice notice)

/-- How many bytes a run holds back at most before it writes them. -/
def bufferSize : Nat := 8192

/-- Writes bytes; a target that does not take them ends the run. -/
def writeAll (host : Host m Target) (target : Target) (failure : WriteFailure)
    (bytes : List UInt8) : ExceptT RunFailure m Unit := do
  unless ← host.write target bytes do throw (.unwritten failure)

/-- Adds bytes to those that are held back. If there is no room for them, what is held back is
written first; bytes that would fill the buffer alone are not held back at all. -/
def hold (host : Host m Target) (target : Target) (held bytes : List UInt8) :
    ExceptT RunFailure m (List UInt8) := do
  if held.length + bytes.length ≤ bufferSize ∧ bytes.length < bufferSize then
    return held ++ bytes
  host.writeAll target .line held
  if bytes.length < bufferSize then return bytes
  host.writeAll target .line bytes
  return []

/-- Adds a line and the line break behind it to what is held back. -/
def holdLine (host : Host m Target) (target : Target) (held : List UInt8) (line : String) :
    ExceptT RunFailure m (List UInt8) := do
  let held ← host.hold target held (LineWriter.bytesOf line)
  host.hold target held (LineWriter.bytesOf "\n")

/-- Delivers lines, each with a line break behind it, and what was held back last. -/
def deliver (host : Host m Target) (target : Target) (lines : List String) :
    ExceptT RunFailure m Unit := do
  let held ← lines.foldlM (host.holdLine target) []
  host.writeAll target .flush held
  unless ← host.flush target do throw (.unwritten .flush)

end Host

namespace Arguments

/-- The dialect to write in. -/
def chosenDialect (a : Arguments) (host : Host m Target) : ExceptT RunFailure m Dialect :=
  match a.dialectFile with
  | none => return a.dialect.getD .classic
  | some path => do
    let text ← host.readText path (.dialectUnreadable path) (.dialectUnreadable path)
    match Dialect.ofJsonText text with
    | .ok dialect => return dialect
    | .error _ => throw (.dialectInvalid path)

/-- The text of the document. -/
def document (a : Arguments) (host : Host m Target) : ExceptT RunFailure m String :=
  match a.input with
  | some path => host.readText path (.inputMissing path) (.inputUnreadable path)
  | none => do
    match (← host.readStdin).bind String.fromUTF8? with
    | some text => return text
    | none => throw .stdinUnreadable

/-- Opens what takes the contract. -/
def openTarget (a : Arguments) (host : Host m Target) : ExceptT RunFailure m Target :=
  match a.output with
  | none => return host.stdout
  | some path => do
    match ← host.create path with
    | some target => return target
    | none => throw (.outputRefused path)

/-- The bounds of arrays. Unless asked otherwise there are as many examples as the least length asks
for. -/
def arrays (a : Arguments) : ArrayBounds :=
  let minLen := a.minArrayLen.getD 1
  ⟨minLen, a.arrayExamples.getD (max minLen 1)⟩

/-- The configuration of the run. -/
def config (a : Arguments) (dialect : Dialect) : Config where
  reading := { allowTrailingCommas := a.allowTrailingCommas }
  fragments := {
    enabled := !a.noChunk
    minFields := a.threshold.getD 2
    reuseIdentical := a.reuseFragments }
  arrays := a.arrays
  rootName := a.rootName.getD "body"
  dialect := dialect

/-- Where the document comes from, for messages. -/
def sourceName (a : Arguments) : String :=
  a.input.getD "<stdin>"

/-- The notices that are reported: all of them if that was asked for, otherwise the warnings. -/
def reported (a : Arguments) (notices : List Notice) : List Notice :=
  if a.verbose then notices else notices.filter fun notice => notice.level = .warn

/-- Runs the arguments: reads what they name, and writes the contract if there is one. -/
def run (a : Arguments) (host : Host m Target) : ExceptT RunFailure m Unit := do
  let dialect ← a.chosenDialect host
  let text ← a.document host
  let config := a.config dialect
  match readDocument config.reading text with
  | .error e => throw (.malformedDocument a.sourceName (lineColumn text.toList e.position) e)
  | .ok document =>
    host.reportNotices (a.reported (config.notices document))
    let target ← a.openTarget host
    host.deliver target (config.generateValue document).lines

end Arguments

/-- Runs a command line and gives its exit code. Whether the help text arrives does not matter to
it. -/
def commandLine (host : Host m Target) (args : List String) : m UInt32 := do
  match Arguments.parse args with
  | .error .help =>
    helpLines.forM fun line => discard (host.write host.stdout (LineWriter.bytesOf (line ++ "\n")))
    discard (host.flush host.stdout)
    return 0
  | .error (.usage e) =>
    host.report (.message e.message)
    return 2
  | .ok a =>
    match ← (a.run host).run with
    | .ok () => return 0
    | .error e =>
      host.report (.message e.message)
      return 1

end ContractDraft
