import ContractDraft.CommandLine.World
import ContractDraft.Proofs.Output.Room

/-!
# Deliveries

What programs do to a world, and what a delivery leaves of its target. Each primitive has one lemma.
While lines are delivered, what was handed on and what is held back make up what was asked for,
unless the target has refused something (`World.Asked`). So however the lines are cut into writes,
the target takes as much of them as there is room for, and the delivery succeeds if that is all of
them and the target hands them on (`World.exec_deliver`).
-/

namespace ContractDraft
namespace World

/-! ## Programs on a world -/

/-- What a program gives on a world, and the world behind it. -/
def exec {α : Type} (w : World) (program : StateM World α) : α × World :=
  program.run w

section programs

variable {α β ε : Type} {w w' : World}

theorem exec_bind {program : StateM World α} {a : α} (h : w.exec program = (a, w'))
    (next : α → StateM World β) : w.exec (program >>= next) = w'.exec (next a) := by
  show (let p := w.exec program; p.2.exec (next p.1)) = _
  rw [h]

@[simp]
theorem exec_pure (w : World) (a : α) : w.exec (pure a) = (a, w) := rfl

/-- A part that gives a value is followed by the next. -/
theorem exec_bind_ok {program : ExceptT ε (StateM World) α} {a : α}
    (h : w.exec program.run = (.ok a, w')) (next : α → ExceptT ε (StateM World) β) :
    w.exec (program >>= next).run = w'.exec (next a).run := by
  rw [ExceptT.run_bind, exec_bind h]

/-- A part that fails is the last. -/
theorem exec_bind_error {program : ExceptT ε (StateM World) α} {e : ε}
    (h : w.exec program.run = (.error e, w')) (next : α → ExceptT ε (StateM World) β) :
    w.exec (program >>= next).run = (.error e, w') := by
  rw [ExceptT.run_bind, exec_bind h]
  rfl

theorem exec_run_lift {program : StateM World α} {a : α} (h : w.exec program = (a, w')) :
    w.exec (liftM program : ExceptT ε (StateM World) α).run = (.ok a, w') := by
  show w.exec (Except.ok <$> program) = _
  rw [map_eq_pure_bind, exec_bind h, exec_pure]

end programs

@[simp]
theorem exec_readStdin (w : World) : w.exec host.readStdin = (w.stdin, w) := rfl

@[simp]
theorem exec_lookUp (w : World) (path : String) :
    w.exec (host.lookUp path) = (w.file (w.place path), w) := rfl

/-- Creating a file empties it, or changes nothing if it is refused. -/
theorem exec_create (w : World) (path : String) :
    w.exec (host.create path) =
      if w.canCreate path then (some (some (w.place path)), w.put (w.place path) .empty)
      else (none, w) := by
  by_cases h : w.canCreate path = true
  · simp only [exec, host, StateT.run_bind, StateT.run_get, pure_bind, h, if_true]
    rfl
  · simp only [exec, host, StateT.run_bind, StateT.run_get, pure_bind, h]
    rfl

@[simp]
theorem exec_write (w : World) (target : Option String) (bytes : List UInt8) :
    w.exec (host.write target bytes) = ((w.sink target).accepts bytes, w.write target bytes) := rfl

@[simp]
theorem exec_flush (w : World) (target : Option String) :
    w.exec (host.flush target) = (w.flushes target, w) := rfl

@[simp]
theorem exec_report (w : World) (entry : Report) :
    w.exec (host.report entry) = ((), w.report [entry]) := rfl

/-! ## Targets -/

theorem put_put (w : World) (place : String) (old new : ByteArray) :
    (w.put place old).put place new = w.put place new := by
  unfold put
  congr 1
  funext other
  by_cases h : other = place <;> simp [h]

theorem toList_toByteArray (bytes : List UInt8) : bytes.toByteArray.toList = bytes := by
  rw [ByteArray.toList, toListLoop_eq, List.data_toByteArray]
  rfl

theorem bytesAt_put (w : World) (place : String) (bytes : List UInt8) :
    (w.put place bytes.toByteArray).bytesAt place = bytes := by
  rw [bytesAt, put]
  simp only [if_true]
  exact toList_toByteArray bytes

/-- What was written to a target is what it has taken. -/
theorem sink_write (w : World) (target : Option String) (bytes : List UInt8) :
    (w.write target bytes).sink target = (w.sink target).take bytes := by
  cases target with
  | none => rfl
  | some place =>
    rw [write, sink, bytesAt_put]
    rfl

/-- Two writes are one write of both. -/
theorem write_write (w : World) (target : Option String) (bytes more : List UInt8) :
    (w.write target bytes).write target more = w.write target (bytes ++ more) := by
  cases target with
  | none => exact congrArg (fun after => { w with stdout := after }) (Sink.take_take ..)
  | some place =>
    rw [write, sink_write, Sink.take_take]
    exact put_put ..

/-- A target that refused some bytes takes none of those that follow. -/
theorem write_append_of_refused {w : World} {target : Option String} {bytes : List UInt8}
    (h : (w.sink target).accepts bytes = false) (more : List UInt8) :
    w.write target (bytes ++ more) = w.write target bytes := by
  have htake := Sink.take_append_of_refused h more
  cases target with
  | none => exact congrArg (fun after => { w with stdout := after }) htake
  | some place => rw [write, htake, write]

/-! ## Deliveries -/

/-- A part of a delivery has been asked for some bytes. As long as the target takes everything, the
first of them were handed on and the rest is held back. Otherwise the part has failed, and the
target is left as if all of them had been written to it. -/
inductive Asked (w : World) (target : Option String) (asked : List UInt8) :
    Except RunFailure (List UInt8) × World → Prop where
  | held {handed held : List UInt8} : handed ++ held = asked →
      (w.sink target).accepts handed = true →
      Asked w target asked (.ok held, w.write target handed)
  | refused (e : WriteFailure) : (w.sink target).accepts asked = false →
      Asked w target asked (.error (.unwritten e), w.write target asked)

section delivery

variable {w : World} {target : Option String} {asked handed : List UInt8}

/-- Once bytes were refused, more of them may be asked for although they are never written. -/
theorem Asked.of_refused (h : (w.sink target).accepts asked = false) (e : WriteFailure)
    (more : List UInt8) :
    w.Asked target (asked ++ more) (.error (.unwritten e), w.write target asked) := by
  rw [← write_append_of_refused h more]
  exact .refused e (by rw [Sink.accepts_append, h, Bool.false_and])

/-- A part that goes on with what is held back has been asked for more. -/
theorem Asked.bind {program : ExceptT RunFailure (StateM World) (List UInt8)} {start : World}
    {next : List UInt8 → ExceptT RunFailure (StateM World) (List UInt8)} {more : List UInt8}
    (h : w.Asked target asked (start.exec program.run))
    (hnext : ∀ handed held, handed ++ held = asked → (w.sink target).accepts handed = true →
      w.Asked target (asked ++ more) ((w.write target handed).exec (next held).run)) :
    w.Asked target (asked ++ more) (start.exec (program >>= next).run) := by
  generalize hend : start.exec program.run = out at h
  cases h with
  | held hasked haccepts =>
    rw [exec_bind_ok hend]
    exact hnext _ _ hasked haccepts
  | refused e hrefuses =>
    rw [exec_bind_error hend]
    exact .of_refused hrefuses e more

/-- Bytes behind those that were handed on are taken if all of them together are. -/
theorem exec_writeAll (h : (w.sink target).accepts handed = true) (failure : WriteFailure)
    (bytes : List UInt8) :
    (w.write target handed).exec (host.writeAll target failure bytes).run =
      (if (w.sink target).accepts (handed ++ bytes) then .ok () else .error (.unwritten failure),
        w.write target (handed ++ bytes)) := by
  have hwrite : (w.write target handed).exec (host.write target bytes) =
      ((w.sink target).accepts (handed ++ bytes), w.write target (handed ++ bytes)) := by
    rw [exec_write, sink_write, write_write, Sink.accepts_append, h, Bool.true_and]
  rw [Host.writeAll, exec_bind_ok (exec_run_lift hwrite)]
  cases (w.sink target).accepts (handed ++ bytes) <;> rfl

/-- Whatever is written on the way, adding bytes to those that are held back asks for them. -/
theorem exec_hold (h : (w.sink target).accepts handed = true) (held bytes : List UInt8) :
    w.Asked target (handed ++ held ++ bytes)
      ((w.write target handed).exec (host.hold target held bytes).run) := by
  unfold Host.hold
  split
  · exact .held (List.append_assoc ..).symm h
  -- The bytes are too many for the buffer, so what is held back goes first.
  have hheld := exec_writeAll h .line held
  cases haccepts : (w.sink target).accepts (handed ++ held) with
  | false =>
    rw [haccepts] at hheld
    rw [exec_bind_error hheld]
    exact .of_refused haccepts .line bytes
  | true =>
    rw [haccepts] at hheld
    rw [exec_bind_ok hheld]
    split
    · exact .held rfl haccepts
    -- They would fill it alone, so they are written as well.
    have hbytes := exec_writeAll haccepts .line bytes
    cases hall : (w.sink target).accepts (handed ++ held ++ bytes) with
    | false =>
      rw [hall] at hbytes
      rw [exec_bind_error hbytes]
      exact .refused .line hall
    | true =>
      rw [hall] at hbytes
      rw [exec_bind_ok hbytes]
      exact .held (List.append_nil _) hall

/-- Adding a line asks for its text and the line feed behind it. -/
theorem exec_holdLine (h : (w.sink target).accepts handed = true) (held : List UInt8)
    (line : String) :
    w.Asked target (handed ++ held ++ LineWriter.bytesOfLines [line])
      ((w.write target handed).exec (host.holdLine target held line).run) := by
  rw [LineWriter.bytesOfLines_singleton, ← LineWriter.bytesOf_lineFeed, ← List.append_assoc]
  refine (exec_hold h held _).bind fun handed' held' hasked haccepts => ?_
  rw [← hasked]
  exact exec_hold haccepts held' _

/-- Whatever is held back in front of them, lines are asked for one after the other. -/
theorem exec_holdLines (h : (w.sink target).accepts handed = true) (held : List UInt8)
    (lines : List String) :
    w.Asked target (handed ++ held ++ LineWriter.bytesOfLines lines)
      ((w.write target handed).exec (lines.foldlM (host.holdLine target) held).run) := by
  induction lines generalizing handed held with
  | nil =>
    rw [List.foldlM_nil]
    exact .held (List.append_nil _).symm h
  | cons line rest ih =>
    have hbytes : LineWriter.bytesOfLines (line :: rest) =
        LineWriter.bytesOfLines [line] ++ LineWriter.bytesOfLines rest :=
      LineWriter.bytesOfLines_append [line] rest
    rw [List.foldlM_cons, hbytes, ← List.append_assoc]
    refine (exec_holdLine h held line).bind fun handed' held' hasked haccepts => ?_
    rw [← hasked]
    exact ih haccepts held'

theorem flushes_write (w : World) (target : Option String) (bytes : List UInt8) :
    (w.write target bytes).flushes = w.flushes := by
  cases target <;> rfl

/-- A delivery leaves its target as one write of all its lines would. It succeeds if the target
takes all of them and hands them on. -/
theorem exec_deliver (w : World) (target : Option String) (lines : List String) :
    let bytes := LineWriter.bytesOfLines lines
    ∃ e, (w.write target []).exec (host.deliver target lines).run =
      (if (w.sink target).accepts bytes && w.flushes target then .ok ()
        else .error (.unwritten e), w.write target bytes) := by
  intro bytes
  have hlines : w.Asked target bytes
      ((w.write target []).exec (lines.foldlM (host.holdLine target) []).run) :=
    exec_holdLines ((w.sink target).accepts_nil) [] lines
  generalize hend : (w.write target []).exec _ = out at hlines
  cases hlines with
  | refused e hrefuses => exact ⟨e, by rw [Host.deliver, exec_bind_error hend, hrefuses]; rfl⟩
  | @held handed held hasked haccepts =>
    have hrest := exec_writeAll haccepts .flush held
    rw [hasked] at hrest
    refine ⟨.flush, ?_⟩
    rw [Host.deliver, exec_bind_ok hend]
    cases hall : (w.sink target).accepts bytes with
    | false =>
      rw [hall] at hrest
      exact exec_bind_error hrest _
    | true =>
      rw [hall] at hrest
      rw [exec_bind_ok hrest, exec_bind_ok (exec_run_lift (exec_flush _ _)), flushes_write]
      cases w.flushes target <;> rfl

end delivery
end World
end ContractDraft
