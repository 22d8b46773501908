import ContractDraft.CommandLine.Run

/-!
# Worlds

The surroundings of a command line as a value: standard input, the files, and what was written so
far. Several names may lead to one place, so that a file can be read under one name and replaced
under another. What takes the contract may have room for a part of it only, or fail to hand it on;
standard error takes everything.
-/

namespace ContractDraft

/-- What is around a command line. -/
structure World where
  /-- The bytes of standard input, if it can be read. -/
  stdin : Option ByteArray
  /-- The place that a name leads to. -/
  place : String → String
  /-- What is found at a place. -/
  file : String → FileLookup
  /-- Whether the file of a name can be created or emptied. -/
  canCreate : String → Bool
  /-- How many bytes the file at a place can hold, unless it can hold any number. -/
  room : String → Option Nat := fun _ => none
  /-- Whether a target hands on what it was given: standard output, or the file at a place. -/
  flushes : Option String → Bool := fun _ => true
  stdout : Sink := { limit := none }
  stderr : List Report := []

namespace World

/-- Puts a file at a place. -/
def put (w : World) (place : String) (bytes : ByteArray) : World :=
  { w with file := fun other => if other = place then .content bytes else w.file other }

/-- The bytes at a place; none if nothing can be read there. -/
def bytesAt (w : World) (place : String) : List UInt8 :=
  match w.file place with
  | .content bytes => bytes.toList
  | .missing | .unreadable => []

/-- What takes the bytes that are written to the file at a place, or to standard output. -/
def sink (w : World) : Option String → Sink
  | none => w.stdout
  | some place => { limit := w.room place, content := w.bytesAt place }

/-- Writes bytes to the file at a place, or on standard output, as far as there is room. -/
def write (w : World) : Option String → List UInt8 → World
  | none, bytes => { w with stdout := w.stdout.take bytes }
  | some place, bytes => w.put place ((w.sink (some place)).take bytes).content.toByteArray

/-- Adds entries on standard error. -/
def report (w : World) (reports : List Report) : World :=
  { w with stderr := w.stderr ++ reports }

/-- The primitives on a world. -/
def host : Host (StateM World) (Option String) where
  readStdin := return (← get).stdin
  lookUp path := return (← get).file ((← get).place path)
  stdout := none
  create path := do
    let w ← get
    if w.canCreate path then
      set (w.put (w.place path) .empty)
      return some (some (w.place path))
    else return none
  write target bytes := do
    let w ← get
    set (w.write target bytes)
    return (w.sink target).accepts bytes
  flush target := return (← get).flushes target
  report entry := modify fun w => w.report [entry]

end World
end ContractDraft
