import ContractDraft.Proofs.CommandLine.Delivery

/-!
# Runs are all or nothing

What a command line leaves of a world. Reading either gives a value or fails, and both leave the
world as it is: only opening the target changes a file, and that comes after the last failure of
reading. So a run that cannot read its settings, its input or the document changes nothing but
standard error, and any other delivers the lines of the contract to its target and to nothing else:
all of them, or as many bytes as the target takes before it fails (`commandLine_all_or_nothing`).
-/

namespace ContractDraft

/-- The text that is found in a file. -/
def FileLookup.text? : FileLookup → Option String
  | .content bytes => String.fromUTF8? bytes
  | .missing | .unreadable => none

/-- A file that holds the bytes of a text is read as that text. -/
theorem FileLookup.text?_content (text : String) : (content text.toUTF8).text? = some text :=
  LineWriter.fromUTF8?_toByteArray text

namespace Config

variable {config : Config} {text : String}

/-- Generation fails as reading does. -/
theorem generate_eq_error_iff {e : ReadError} :
    config.generate text = .error e ↔ readDocument config.reading text = .error e := by
  unfold generate
  cases readDocument config.reading text <;> simp [Except.map]

/-- Generation succeeds where reading does, with the contract of the document. -/
theorem generate_eq_ok_iff {g : Generated} :
    config.generate text = .ok g ↔
      ∃ document, readDocument config.reading text = .ok document ∧
        config.generateValue document = g := by
  unfold generate
  cases readDocument config.reading text <;> simp [Except.map]

end Config

namespace World

/-! ## Reading -/

/-- The text of the file of a name, if it can be read and holds one. -/
def textAt (w : World) (path : String) : Option String :=
  (w.file (w.place path)).text?

/-- The dialect that arguments choose, if it can be loaded. -/
def dialectOf (w : World) (a : Arguments) : Option Dialect :=
  match a.dialectFile with
  | none => some (a.dialect.getD .classic)
  | some path => (w.textAt path).bind fun text => (Dialect.ofJsonText text).toOption

/-- The text of the document that arguments name, if it can be read. -/
def documentOf (w : World) (a : Arguments) : Option String :=
  match a.input with
  | none => w.stdin.bind String.fromUTF8?
  | some path => w.textAt path

/-- The part of a run gives the value, or fails if there is none. Either way it leaves the world as
it is. -/
inductive Yields {α : Type} (w : World) (program : ExceptT RunFailure (StateM World) α) :
    Option α → Prop where
  | value {a : α} : w.exec program.run = (.ok a, w) → Yields w program (some a)
  | failure {e : RunFailure} : w.exec program.run = (.error e, w) → Yields w program none

namespace Yields

variable {α β : Type} {w : World}

theorem pure (w : World) (a : α) : w.Yields (Pure.pure a) (some a) :=
  .value rfl

theorem throw (w : World) (e : RunFailure) : w.Yields (α := α) (throwThe RunFailure e) none :=
  .failure rfl

theorem lift {program : StateM World α} {a : α} (h : w.exec program = (a, w)) :
    w.Yields (liftM program) (some a) :=
  .value (exec_run_lift h)

/-- A part that yields a value is followed by the next, and one that fails by nothing. -/
theorem bind {program : ExceptT RunFailure (StateM World) α} {found : Option α}
    {next : α → ExceptT RunFailure (StateM World) β} {value : α → Option β}
    (h : w.Yields program found) (hnext : ∀ a, w.Yields (next a) (value a)) :
    w.Yields (program >>= next) (found.bind value) := by
  cases h with
  | failure h => exact .failure (exec_bind_error h next)
  | @value a h =>
    rw [Option.bind_some]
    have hrun := exec_bind_ok h next
    have hvalue := hnext a
    generalize value a = v at hvalue ⊢
    cases hvalue with
    | failure hfailure => exact .failure (hrun.trans hfailure)
    | value hvalue => exact .value (hrun.trans hvalue)

end Yields

/-- Reading a file yields its text. -/
theorem yields_readText (w : World) (path : String) (missing unreadable : RunFailure) :
    w.Yields (host.readText path missing unreadable) (w.textAt path) := by
  refine (Yields.lift (exec_lookUp w path)).bind fun found => ?_
  show w.Yields _ found.text?
  cases found with
  | missing => exact .throw w missing
  | unreadable => exact .throw w unreadable
  | content bytes =>
    dsimp only [FileLookup.text?]
    cases String.fromUTF8? bytes with
    | none => exact .throw w unreadable
    | some text => exact .pure w text

/-- The dialect comes from its file, or is built in. -/
theorem yields_chosenDialect (w : World) (a : Arguments) :
    w.Yields (a.chosenDialect host) (w.dialectOf a) := by
  unfold Arguments.chosenDialect dialectOf
  cases a.dialectFile with
  | none => exact .pure w _
  | some path =>
    refine (w.yields_readText path _ _).bind fun text => ?_
    cases Dialect.ofJsonText text with
    | error _ => exact .throw w _
    | ok dialect => exact .pure w dialect

/-- The document comes from its file, or from standard input. -/
theorem yields_document (w : World) (a : Arguments) :
    w.Yields (a.document host) (w.documentOf a) := by
  unfold Arguments.document documentOf
  cases a.input with
  | some path => exact w.yields_readText path _ _
  | none =>
    show w.Yields _ ((some w.stdin).bind fun bytes => bytes.bind String.fromUTF8?)
    refine (Yields.lift (exec_readStdin w)).bind fun bytes => ?_
    cases bytes.bind String.fromUTF8? with
    | none => exact .throw w .stdinUnreadable
    | some text => exact .pure w text

/-! ## Runs -/

/-- Notices are reported in their order. -/
theorem exec_reports (w : World) (notices : List Notice) :
    w.exec (host.reportNotices notices) =
      ((), w.report (notices.map .notice)) := by
  induction notices generalizing w with
  | nil => simp [Host.reportNotices, report]
  | cons notice rest ih =>
    rw [Host.reportNotices, List.forM_eq_forM, List.forM_cons, exec_bind (exec_report w _),
      ← List.forM_eq_forM]
    refine (ih _).trans ?_
    simp [report]

section runs

variable {w : World} {a : Arguments}

/-- Without a dialect or without the text of a document a run ends before anything is written. -/
theorem exec_run_of_unread (h : w.dialectOf a = none ∨ w.documentOf a = none) :
    ∃ e, w.exec (a.run host).run = (.error e, w) := by
  have hdialect := w.yields_chosenDialect a
  have hdocument := w.yields_document a
  generalize w.dialectOf a = dialect at h hdialect
  generalize w.documentOf a = document at h hdocument
  -- The dialect comes first: without it the document is not looked for.
  cases hdialect with
  | @failure e hdialect => exact ⟨e, exec_bind_error hdialect _⟩
  | value hdialect =>
    cases hdocument with
    | @failure e hdocument =>
      exact ⟨e, (exec_bind_ok hdialect _).trans (exec_bind_error hdocument _)⟩
    | value _ => rcases h with h | h <;> cases h

theorem Yields.exec_eq {α : Type} {program : ExceptT RunFailure (StateM World) α} {x : α}
    {found : Option α} (h : w.Yields program found) (hx : found = some x) :
    w.exec program.run = (.ok x, w) := by
  subst hx
  cases h with
  | value h => exact h

/-- The last part of a run: the target is opened and takes all lines. -/
def openAndDeliver (a : Arguments) (lines : List String) :
    ExceptT RunFailure (StateM World) Unit := do
  let target ← a.openTarget host
  host.deliver target lines

/-- Standard output is there already, so it takes lines behind what it holds. -/
theorem exec_openAndDeliver_stdout (h : a.output = none) (lines : List String) :
    let bytes := LineWriter.bytesOfLines lines
    ∃ e, w.exec (openAndDeliver a lines).run =
      (if w.stdout.accepts bytes && w.flushes none then .ok () else .error (.unwritten e),
        w.write none bytes) := by
  have hopen : w.exec (a.openTarget host).run = (.ok none, w.write none []) := by
    rw [Arguments.openTarget, h, write, Sink.take_nil]
    rfl
  obtain ⟨e, hdelivered⟩ := w.exec_deliver none lines
  exact ⟨e, (exec_bind_ok hopen _).trans hdelivered⟩

/-- Creating a file empties it, so nothing of what was there stands before the lines. -/
theorem exec_openAndDeliver_file {path : String} (h : a.output = some path)
    (hcan : w.canCreate path = true) (lines : List String) :
    let bytes := LineWriter.bytesOfLines lines
    let place := w.place path
    let file : Sink := { limit := w.room place }
    ∃ e, w.exec (openAndDeliver a lines).run =
      (if file.accepts bytes && w.flushes (some place) then .ok () else .error (.unwritten e),
        w.put place (file.take bytes).content.toByteArray) := by
  intro bytes place file
  let emptied := w.put place [].toByteArray
  have hfile : emptied.sink (some place) = file := by
    rw [sink, bytesAt_put]
    rfl
  have hwrite (bytes : List UInt8) :
      emptied.write (some place) bytes = w.put place (file.take bytes).content.toByteArray := by
    rw [write, hfile]
    exact put_put ..
  have hcreate : w.exec (host.create path) = (some (some place), emptied) := by
    rw [exec_create, if_pos hcan]
    rfl
  have hopen : w.exec (a.openTarget host).run =
      (.ok (some place), emptied.write (some place) []) := by
    rw [Arguments.openTarget, h, hwrite, Sink.take_nil]
    exact exec_bind_ok (exec_run_lift hcreate) _
  obtain ⟨e, hdelivered⟩ := emptied.exec_deliver (some place) lines
  refine ⟨e, (exec_bind_ok hopen _).trans (hdelivered.trans ?_)⟩
  rw [hfile, hwrite]
  rfl

/-- A file that cannot be opened ends the run before anything is written. -/
theorem exec_openAndDeliver_refused {path : String} (h : a.output = some path)
    (hcan : w.canCreate path = false) (lines : List String) :
    w.exec (openAndDeliver a lines).run = (.error (.outputRefused path), w) := by
  have hcreate : w.exec (host.create path) = (none, w) := by
    rw [exec_create, if_neg (by simp [hcan])]
  have hopen : w.exec (a.openTarget host).run = (.error (.outputRefused path), w) := by
    rw [Arguments.openTarget, h]
    exact exec_bind_ok (exec_run_lift hcreate) _
  exact exec_bind_error hopen _

section read

variable {dialect : Dialect} {text : String} (hdialect : w.dialectOf a = some dialect)
  (htext : w.documentOf a = some text)

include hdialect htext

/-- A text that does not parse ends the run before the target is opened. -/
theorem exec_run_of_error {e : ReadError} (h : (a.config dialect).generate text = .error e) :
    w.exec (a.run host).run =
      (.error (.malformedDocument a.sourceName (lineColumn text.toList e.position) e), w) := by
  rw [Arguments.run, exec_bind_ok ((w.yields_chosenDialect a).exec_eq hdialect),
    exec_bind_ok ((w.yields_document a).exec_eq htext)]
  simp only [Config.generate_eq_error_iff.mp h]
  rfl

/-- With a document the notices are reported, and then the contract is delivered. -/
theorem exec_run_of_ok {g : Generated} (h : (a.config dialect).generate text = .ok g) :
    ∃ reports, w.exec (a.run host).run =
      (w.report reports).exec (openAndDeliver a g.lines).run := by
  rw [Arguments.run, exec_bind_ok ((w.yields_chosenDialect a).exec_eq hdialect),
    exec_bind_ok ((w.yields_document a).exec_eq htext)]
  obtain ⟨document, hread, rfl⟩ := Config.generate_eq_ok_iff.mp h
  simp only [hread]
  exact ⟨_, exec_bind_ok (exec_run_lift (exec_reports w _)) _⟩

end read
end runs

/-! ## Command lines -/

/-- The last entry on standard error is that the contract could not be written. -/
def ReportsUnwritten (w : World) : Prop :=
  ∃ e : WriteFailure, w.stderr.getLast? = some (.message ("Error: " ++ e.message))

section commandLine

variable {w w' : World} {args : List String} {a : Arguments}
  (hargs : Arguments.parse args = .ok a)

include hargs

theorem exec_commandLine_ok (h : w.exec (a.run host).run = (.ok (), w')) :
    w.exec (commandLine host args) = (0, w') := by
  rw [commandLine, hargs]
  exact exec_bind h _

theorem exec_commandLine_error {e : RunFailure} (h : w.exec (a.run host).run = (.error e, w')) :
    w.exec (commandLine host args) = (1, w'.report [.message e.message]) := by
  rw [commandLine, hargs]
  exact exec_bind h _

/-- The delivery of the contract decides how a command line ends. -/
theorem exec_commandLine_delivered {accepts flushes : Bool} {e : WriteFailure}
    (h : w.exec (a.run host).run =
      (if accepts && flushes then .ok () else .error (.unwritten e), w')) :
    let out := w.exec (commandLine host args)
    out.2.file = w'.file ∧ out.2.stdout = w'.stdout ∧
      (accepts = true ∧ flushes = true → out.1 = 0) ∧
      (¬ (accepts = true ∧ flushes = true) → out.1 = 1 ∧ out.2.ReportsUnwritten) := by
  rw [← Bool.and_eq_true]
  cases hdelivered : accepts && flushes with
  | true =>
    rw [hdelivered] at h
    rw [exec_commandLine_ok hargs h]
    exact ⟨rfl, rfl, fun _ => rfl, fun hnot => absurd rfl hnot⟩
  | false =>
    rw [hdelivered] at h
    rw [exec_commandLine_error hargs h]
    exact ⟨rfl, rfl, fun hall => absurd hall Bool.false_ne_true,
      fun _ => ⟨rfl, e, List.getLast?_concat⟩⟩

end commandLine
end World

end ContractDraft
