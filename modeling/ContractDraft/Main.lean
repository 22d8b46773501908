import ContractDraft.CommandLine.Run

/-!
# The program

The primitives of a run on files and streams, and the entry point.
-/

namespace ContractDraft.Program

/-- All bytes of a stream. -/
partial def readAll (stream : IO.FS.Stream) (sofar : ByteArray) : IO ByteArray := do
  let chunk ← stream.read 65536
  if chunk.isEmpty then return sofar else readAll stream (sofar ++ chunk)

/-- What is found under the name of a file. -/
def lookUp (path : String) : IO FileLookup := do
  match ← (IO.FS.Handle.mk path .read).toBaseIO with
  | .error _ => return .missing
  | .ok handle =>
    match ← handle.readBinToEnd.toBaseIO with
    | .error _ => return .unreadable
    | .ok bytes => return .content bytes

/-- All bytes of standard input, if it can be read. -/
def readStdin : IO (Option ByteArray) := do
  match ← (readAll (← IO.getStdin) .empty).toBaseIO with
  | .error _ => return none
  | .ok bytes => return some bytes

/-- A new or emptied file of this name, unless that is refused. -/
def create (path : String) : IO (Option IO.FS.Stream) := do
  match ← (IO.FS.Handle.mk path .write).toBaseIO with
  | .error _ => return none
  | .ok handle => return some (.ofHandle handle)

/-- Whether an action goes well. -/
def succeeds (action : IO Unit) : IO Bool := do
  match ← action.toBaseIO with
  | .error _ => return false
  | .ok () => return true

/-- Writes an entry on standard error. -/
def report : Report → IO Unit
  | .notice n => IO.eprintln n.text
  | .message text => IO.eprintln text

/-- The primitives of a run. -/
def host (stdout : IO.FS.Stream) : Host IO IO.FS.Stream where
  readStdin := readStdin
  lookUp := lookUp
  stdout := stdout
  create := create
  write target bytes := succeeds do
    target.write bytes.toByteArray
    target.flush
  flush target := succeeds target.flush
  report := report

end ContractDraft.Program

open ContractDraft in
/-- Runs a command line. -/
def main (args : List String) : IO UInt32 := do
  commandLine (Program.host (← IO.getStdout)) args
