import ContractDraft.Generator.Run

/-!
# Writing lines

A writer of lines over a sink that may fill up. Each line is written as its text and then the line
break; a write goes on as far as the sink has room and fails if that is not far enough.
-/

namespace ContractDraft

/-- A sink that has room for a number of bytes, or for any number of them. -/
structure Sink where
  limit : Option Nat
  content : List UInt8 := []
  deriving DecidableEq

namespace Sink

/-- The part of `bytes` that fits. -/
def fitting (sink : Sink) (bytes : List UInt8) : List UInt8 :=
  match sink.limit with
  | some limit => bytes.take (limit - sink.content.length)
  | none => bytes

/-- The sink after it took what fits. -/
def take (sink : Sink) (bytes : List UInt8) : Sink :=
  { sink with content := sink.content ++ sink.fitting bytes }

/-- Whether all of `bytes` fits. -/
def accepts (sink : Sink) (bytes : List UInt8) : Bool :=
  (sink.fitting bytes).length = bytes.length

/-- Whether there is no room left. -/
def isFull (sink : Sink) : Bool :=
  sink.limit = some sink.content.length

end Sink

/-- What a writer could not do. -/
inductive WriteFailure where
  | line
  | flush
  deriving DecidableEq, Repr

/-- The wording of a failure to write. -/
def WriteFailure.message : WriteFailure → String
  | .line => "Failed to write line"
  | .flush => "Failed to flush writer"

/-- A writer of lines. -/
structure LineWriter where
  sink : Sink
  /-- How many lines were written completely. -/
  linesWritten : Nat := 0
  deriving DecidableEq

namespace LineWriter

/-- The bytes of a text. -/
def bytesOf (s : String) : List UInt8 :=
  s.toUTF8.toList

/-- Writes one line, and says whether it was written completely. -/
def writeLine (w : LineWriter) (line : String) : LineWriter × Bool :=
  let afterText := w.sink.take (bytesOf line)
  if w.sink.accepts (bytesOf line) then
    let afterBreak := afterText.take (bytesOf "\n")
    if afterText.accepts (bytesOf "\n") then
      ({ w with sink := afterBreak, linesWritten := w.linesWritten + 1 }, true)
    else ({ w with sink := afterBreak }, false)
  else ({ w with sink := afterText }, false)

/-- Writes lines up to the first that cannot be written completely. -/
def writeLines (w : LineWriter) : List String → LineWriter × Except WriteFailure Unit
  | [] => (w, .ok ())
  | line :: rest =>
    match w.writeLine line with
    | (w, true) => w.writeLines rest
    | (w, false) => (w, .error .line)

/-- Writes all lines of a contract. -/
def writeGenerated (w : LineWriter) (g : Generated) : LineWriter × Except WriteFailure Unit :=
  w.writeLines g.lines

/-- Hands everything on; a full sink refuses. -/
def flush (w : LineWriter) : Except WriteFailure Unit :=
  if w.sink.isFull then .error .flush else .ok ()

end LineWriter
end ContractDraft
