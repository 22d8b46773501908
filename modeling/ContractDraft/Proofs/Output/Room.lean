import ContractDraft.Proofs.Output.Lines
import Mathlib.Order.Bounds.Basic

/-!
# Writers over a sink that fills up

Whatever a writer is asked to write, and however often it is asked again after a failure, a sink with
room for some bytes holds the first of all bytes that were asked for, and the writer has counted the
lines that are there completely (`LineWriter.run_limited`). One line keeps the two in step
(`LineWriter.Follows.writeLine`); behind a line that did not fit the sink is full, so that all later
lines may count as asked for although none of them was tried (`LineWriter.Follows.append`).
-/

namespace ContractDraft

/-! ## What a full sink holds -/

namespace Sink

theorem accepts_nil (sink : Sink) : sink.accepts [] = true := by
  unfold accepts fitting
  cases sink.limit <;> simp

theorem take_nil (sink : Sink) : sink.take [] = sink := by
  unfold take fitting
  cases sink with
  | mk limit content => cases limit <;> simp

/-- Bytes that are taken one after the other are taken as one. -/
theorem take_take (sink : Sink) (bytes more : List UInt8) :
    (sink.take bytes).take more = sink.take (bytes ++ more) := by
  unfold take fitting
  cases sink.limit with
  | none => simp only [List.append_assoc]
  | some limit =>
    have hroom : limit - (sink.content ++ bytes.take (limit - sink.content.length)).length =
        limit - sink.content.length - bytes.length := by
      simp only [List.length_append, List.length_take]
      omega
    simp only [hroom, List.take_append, List.append_assoc]

/-- Bytes are taken completely if the first of them are, and then the rest. -/
theorem accepts_append (sink : Sink) (bytes more : List UInt8) :
    sink.accepts (bytes ++ more) = (sink.accepts bytes && (sink.take bytes).accepts more) := by
  unfold accepts take fitting
  cases sink.limit with
  | none => simp
  | some limit =>
    rw [Bool.eq_iff_iff]
    simp only [List.length_append, List.length_take, decide_eq_true_eq, Bool.and_eq_true]
    omega

/-- Behind bytes that are not taken completely nothing more is taken. -/
theorem take_append_of_refused {sink : Sink} {bytes : List UInt8} (h : sink.accepts bytes = false)
    (more : List UInt8) : sink.take (bytes ++ more) = sink.take bytes := by
  unfold accepts fitting at h
  unfold take fitting
  cases hlimit : sink.limit with
  | none => simp [hlimit] at h
  | some limit =>
    have hfull : limit - sink.content.length ≤ bytes.length := by
      simp only [hlimit, List.length_take, decide_eq_false_iff_not] at h
      omega
    simp only [List.take_append_of_le_length hfull]

variable {sink : Sink} {limit : ℕ} {asked : List UInt8}

/-- A sink that holds the first of the bytes asked for has taken them from the start. -/
theorem eq_take (hlimit : sink.limit = some limit) (hcontent : sink.content = asked.take limit) :
    sink = ({ limit := some limit } : Sink).take asked := by
  cases sink
  simp_all [take, fitting]

/-- A sink that holds the first of the bytes asked for goes on to hold the first of them. -/
theorem content_take (hlimit : sink.limit = some limit) (hcontent : sink.content = asked.take limit)
    (bytes : List UInt8) : (sink.take bytes).content = (asked ++ bytes).take limit := by
  rw [eq_take hlimit hcontent, take_take]
  simp [take, fitting]

/-- Bytes are taken completely if all that was asked for fits with them. -/
theorem accepts_of_le (hlimit : sink.limit = some limit)
    (hcontent : sink.content = asked.take limit) {bytes : List UInt8}
    (h : (asked ++ bytes).length ≤ limit) : sink.accepts bytes = true := by
  have hall : ({ limit := some limit } : Sink).accepts (asked ++ bytes) = true := by
    simpa [accepts, fitting] using h
  rw [accepts_append, ← eq_take hlimit hcontent, Bool.and_eq_true] at hall
  exact hall.2

/-- Where there is something to take and not all that was asked for fits, it is not taken
completely. -/
theorem accepts_of_lt (hlimit : sink.limit = some limit)
    (hcontent : sink.content = asked.take limit) {bytes : List UInt8} (hne : bytes ≠ [])
    (h : limit < (asked ++ bytes).length) : sink.accepts bytes = false := by
  have hroom : limit - (asked.take limit).length < bytes.length := by
    have hpos := List.length_pos_iff.mpr hne
    simp only [List.length_append, List.length_take] at h ⊢
    omega
  simp only [accepts, fitting, hlimit, hcontent]
  rw [List.length_take, Nat.min_eq_left hroom.le]
  exact decide_eq_false hroom.ne

end Sink

namespace LineWriter

/-! ## Lines that fit -/

/-- The bytes of lines that are written, each with a line feed behind it. -/
def bytesOfLines (lines : List String) : List UInt8 :=
  lines.flatMap fun line => bytesOf line ++ [10]

@[simp]
theorem bytesOfLines_append (s t : List String) :
    bytesOfLines (s ++ t) = bytesOfLines s ++ bytesOfLines t :=
  List.flatMap_append

@[simp]
theorem bytesOfLines_singleton (line : String) : bytesOfLines [line] = bytesOf line ++ [10] := by
  simp [bytesOfLines]

/-- The numbers of leading lines whose bytes fit, line feeds included. -/
def complete (limit : ℕ) (lines : List String) : Set ℕ :=
  {k | k ≤ lines.length ∧ (bytesOfLines (lines.take k)).length ≤ limit}

/-- If all lines fit, all of them are complete. -/
theorem isGreatest_complete_of_le {limit : ℕ} {lines : List String}
    (h : (bytesOfLines lines).length ≤ limit) : IsGreatest (complete limit lines) lines.length :=
  ⟨⟨le_rfl, by rwa [List.take_length]⟩, fun _ hk => hk.1⟩

/-- Lines behind a line that does not fit do not fit either. -/
theorem complete_append {limit : ℕ} {lines : List String}
    (h : limit < (bytesOfLines lines).length) (more : List String) :
    complete limit (lines ++ more) = complete limit lines := by
  ext k
  simp only [complete, Set.mem_ofPred_eq, List.length_append]
  by_cases hk : k ≤ lines.length
  · rw [List.take_append_of_le_length hk]
    simp only [hk, Nat.le_add_right_of_le hk]
  · -- So many lines would hold all of the first ones.
    have hlong : (bytesOfLines lines).length ≤ (bytesOfLines ((lines ++ more).take k)).length := by
      rw [List.take_append, List.take_of_length_le (Nat.le_of_not_le hk), bytesOfLines_append,
        List.length_append]
      exact Nat.le_add_right ..
    have hover : ¬ (bytesOfLines ((lines ++ more).take k)).length ≤ limit := by omega
    simp only [hk, hover, and_false, false_and]

/-! ## The invariant of a writer -/

/-- The writer is where it should be after it was asked for `lines`. -/
structure Follows (limit : ℕ) (lines : List String) (w : LineWriter) : Prop where
  limit_eq : w.sink.limit = some limit
  content_eq : w.sink.content = (bytesOfLines lines).take limit
  isGreatest : IsGreatest (complete limit lines) w.linesWritten

variable {limit : ℕ} {lines : List String} {w : LineWriter}

theorem follows_start (limit : ℕ) : Follows limit [] { sink := { limit := some limit } } where
  limit_eq := rfl
  content_eq := List.take_nil.symm
  isGreatest := isGreatest_complete_of_le (Nat.zero_le _)

namespace Follows

/-- Once something did not fit, more lines change nothing. -/
theorem append (h : Follows limit lines w) (hfull : limit < (bytesOfLines lines).length)
    (more : List String) : Follows limit (lines ++ more) w where
  limit_eq := h.limit_eq
  content_eq := by rw [h.content_eq, bytesOfLines_append, List.take_append_of_le_length hfull.le]
  isGreatest := by
    rw [complete_append hfull]
    exact h.isGreatest

/-- As long as everything fits, all lines are counted. -/
theorem linesWritten_eq (h : Follows limit lines w) (hfits : (bytesOfLines lines).length ≤ limit) :
    w.linesWritten = lines.length :=
  h.isGreatest.unique (isGreatest_complete_of_le hfits)

/-- A line that fits with all lines before it is written, and counted. -/
theorem writeLine_of_le (h : Follows limit lines w) {line : String}
    (hfits : (bytesOfLines (lines ++ [line])).length ≤ limit) :
    (w.writeLine line).2 = true ∧ Follows limit (lines ++ [line]) (w.writeLine line).1 := by
  have hbytes : bytesOfLines (lines ++ [line]) = bytesOfLines lines ++ bytesOf line ++ [10] := by
    simp
  have hbefore : (bytesOfLines lines ++ bytesOf line).length ≤ limit := by
    rw [hbytes, List.length_append] at hfits
    omega
  have hlines : (bytesOfLines lines).length ≤ limit := by
    rw [List.length_append] at hbefore
    omega
  have htext : w.sink.accepts (bytesOf line) = true :=
    Sink.accepts_of_le h.limit_eq h.content_eq hbefore
  have hlimit : (w.sink.take (bytesOf line)).limit = some limit := h.limit_eq
  have hcontent := Sink.content_take h.limit_eq h.content_eq (bytesOf line)
  have hbreak : (w.sink.take (bytesOf line)).accepts (bytesOf "\n") = true := by
    rw [bytesOf_lineFeed]
    exact Sink.accepts_of_le hlimit hcontent (hbytes ▸ hfits)
  unfold writeLine
  simp only [htext, if_true, hbreak]
  refine ⟨trivial, h.limit_eq, ?_, ?_⟩
  · rw [bytesOf_lineFeed, hbytes]
    exact Sink.content_take hlimit hcontent [10]
  · have hcount : w.linesWritten + 1 = (lines ++ [line]).length := by
      rw [h.linesWritten_eq hlines, List.length_append, List.length_singleton]
    show IsGreatest _ (w.linesWritten + 1)
    rw [hcount]
    exact isGreatest_complete_of_le hfits

/-- A line that does not fit with all lines before it fails and is not counted, wherever the sink
cuts it off. -/
theorem writeLine_of_lt (h : Follows limit lines w) {line : String}
    (hover : limit < (bytesOfLines (lines ++ [line])).length) :
    (w.writeLine line).2 = false ∧ Follows limit (lines ++ [line]) (w.writeLine line).1 := by
  have hbytes : bytesOfLines (lines ++ [line]) = bytesOfLines lines ++ bytesOf line ++ [10] := by
    simp
  have hlimit : (w.sink.take (bytesOf line)).limit = some limit := h.limit_eq
  have hcontent := Sink.content_take h.limit_eq h.content_eq (bytesOf line)
  have hcount : IsGreatest (complete limit (lines ++ [line])) w.linesWritten := by
    rcases Nat.lt_or_ge limit (bytesOfLines lines).length with hfull | hfits
    · exact (h.append hfull [line]).isGreatest
    · rw [h.linesWritten_eq hfits]
      refine ⟨⟨by simp, by rwa [List.take_left']; rfl⟩, fun k hk => Nat.le_of_lt_succ ?_⟩
      refine lt_of_le_of_ne (by simpa using hk.1) ?_
      rintro rfl
      have hall := hk.2
      rw [List.take_of_length_le (by simp)] at hall
      omega
  unfold writeLine
  by_cases htext : w.sink.accepts (bytesOf line) = true
  · -- The text was taken, so it is the line feed that does not fit.
    have hbreak : (w.sink.take (bytesOf line)).accepts (bytesOf "\n") = false := by
      rw [bytesOf_lineFeed]
      exact Sink.accepts_of_lt hlimit hcontent (List.cons_ne_nil _ _) (hbytes ▸ hover)
    simp only [htext, if_true, hbreak, Bool.false_eq_true, if_false]
    refine ⟨trivial, h.limit_eq, ?_, hcount⟩
    rw [bytesOf_lineFeed, hbytes]
    exact Sink.content_take hlimit hcontent [10]
  · -- The text fills the sink, so there is no room for a line feed.
    have hfull : limit < (bytesOfLines lines ++ bytesOf line).length := by
      by_contra hfits
      exact htext (Sink.accepts_of_le h.limit_eq h.content_eq (Nat.le_of_not_lt hfits))
    simp only [htext, Bool.false_eq_true, if_false]
    refine ⟨trivial, h.limit_eq, ?_, hcount⟩
    rw [hbytes, List.take_append_of_le_length hfull.le]
    exact hcontent

/-- Lines that are written follow those before them, and the writer fails if it was given a line and
not everything fits. -/
theorem writeLines (h : Follows limit lines w) (more : List String) :
    Follows limit (lines ++ more) (w.writeLines more).1 ∧
      (w.writeLines more).2 =
        if more ≠ [] ∧ limit < (bytesOfLines (lines ++ more)).length then .error .line
        else .ok () := by
  induction more generalizing lines w with
  | nil =>
    rw [List.append_nil]
    exact ⟨h, rfl⟩
  | cons line rest ih =>
    have happend : lines ++ line :: rest = lines ++ [line] ++ rest := by simp
    rw [happend, LineWriter.writeLines]
    rcases Nat.lt_or_ge limit (bytesOfLines (lines ++ [line])).length with hover | hfits
    · obtain ⟨hwritten, hfollows⟩ := h.writeLine_of_lt hover
      rcases hline : w.writeLine line with ⟨w', written⟩
      rw [hline] at hwritten hfollows
      obtain rfl : written = false := hwritten
      have hlong : limit < (bytesOfLines (lines ++ [line] ++ rest)).length := by
        rw [bytesOfLines_append, List.length_append]
        omega
      exact ⟨hfollows.append hover rest, (if_pos ⟨List.cons_ne_nil _ _, hlong⟩).symm⟩
    · obtain ⟨hwritten, hfollows⟩ := h.writeLine_of_le hfits
      rcases hline : w.writeLine line with ⟨w', written⟩
      rw [hline] at hwritten hfollows
      obtain rfl : written = true := hwritten
      obtain ⟨hrest, houtcome⟩ := ih hfollows
      refine ⟨hrest, houtcome.trans (if_congr ?_ rfl rfl)⟩
      refine ⟨fun hboth => ⟨List.cons_ne_nil _ _, hboth.2⟩, fun hboth => ⟨?_, hboth.2⟩⟩
      -- What does not fit is more than the line that did.
      rintro rfl
      rw [List.append_nil] at hboth
      omega

end Follows

/-! ## Calls that go on after failures -/

/-- Something a writer is asked to do. -/
inductive Call where
  | lines (lines : List String)
  | generated (g : Generated)
  | flush

/-- The lines that a writer is given by a call. -/
def Call.given : Call → List String
  | .lines lines => lines
  | .generated g => g.lines
  | .flush => []

/-- Whether a call writes. -/
def Call.writes : Call → Bool
  | .flush => false
  | _ => true

/-- The writer after a call, and how the call ended. -/
def perform (w : LineWriter) : Call → LineWriter × Except WriteFailure Unit
  | .lines lines => w.writeLines lines
  | .generated g => w.writeGenerated g
  | .flush => (w, w.flush)

/-- The writer after some calls, and how each of them ended. A call that fails does not keep the next
from being made. -/
def run (w : LineWriter) : List Call → LineWriter × List (Except WriteFailure Unit)
  | [] => (w, [])
  | call :: rest =>
    let next := w.perform call
    let last := next.1.run rest
    (last.1, next.2 :: last.2)

/-- The lines that a writer is given by some calls. -/
def givenLines (calls : List Call) : List String :=
  calls.flatMap Call.given

theorem Follows.perform (h : Follows limit lines w) (call : Call) :
    Follows limit (lines ++ call.given) (w.perform call).1 ∧
      (call.writes = true → (w.perform call).2 =
        if call.given ≠ [] ∧ limit < (bytesOfLines (lines ++ call.given)).length
        then .error .line else .ok ()) := by
  cases call with
  | lines more =>
    obtain ⟨hfollows, houtcome⟩ := h.writeLines more
    exact ⟨hfollows, fun _ => houtcome⟩
  | generated g =>
    obtain ⟨hfollows, houtcome⟩ := h.writeLines g.lines
    exact ⟨hfollows, fun _ => houtcome⟩
  | flush =>
    refine ⟨?_, fun hwrites => absurd hwrites (by simp [Call.writes])⟩
    rw [Call.given, List.append_nil]
    exact h

theorem Follows.run (h : Follows limit lines w) (calls : List Call) :
    Follows limit (lines ++ givenLines calls) (w.run calls).1 ∧
      ∀ before call after, calls = before ++ call :: after → call.writes = true →
        (w.run calls).2[before.length]? = some
          (if call.given ≠ [] ∧
              limit < (bytesOfLines (lines ++ givenLines (before ++ [call]))).length
            then .error .line else .ok ()) := by
  induction calls generalizing lines w with
  | nil =>
    refine ⟨?_, fun before call after hcalls => by simp at hcalls⟩
    rw [givenLines, List.flatMap_nil, List.append_nil]
    exact h
  | cons first rest ih =>
    obtain ⟨hfirst, houtcome⟩ := h.perform first
    obtain ⟨hrest, houtcomes⟩ := ih hfirst
    have hgiven (calls : List Call) : lines ++ givenLines (first :: calls) =
        lines ++ first.given ++ givenLines calls := by
      rw [givenLines, List.flatMap_cons, List.append_assoc, givenLines]
    refine ⟨(hgiven rest).symm ▸ hrest, fun before call after hcalls hwrites => ?_⟩
    cases before with
    | nil =>
      obtain ⟨rfl, rfl⟩ := List.cons.inj hcalls
      rw [List.nil_append, hgiven [], givenLines, List.flatMap_nil, List.append_nil]
      exact congrArg some (houtcome hwrites)
    | cons other before =>
      obtain ⟨rfl, rfl⟩ := List.cons.inj hcalls
      have hlater := houtcomes before call after rfl hwrites
      rw [List.cons_append, hgiven]
      exact hlater

/-- A sink with room for `limit` bytes holds the first `limit` of all bytes that the writer was asked
for, whatever calls failed. The writer has counted the leading lines that are there with their line
feeds. A call that writes fails exactly if it was given a line and the lines up to its last do not
all fit. -/
theorem run_limited (limit : ℕ) (calls : List Call) :
    let start : LineWriter := { sink := { limit := some limit } }
    (start.run calls).1.sink.content = (bytesOfLines (givenLines calls)).take limit ∧
      IsGreatest {k | k ≤ (givenLines calls).length ∧
        (bytesOfLines ((givenLines calls).take k)).length ≤ limit} (start.run calls).1.linesWritten ∧
      ∀ before call after, calls = before ++ call :: after → call.writes = true →
        (start.run calls).2[before.length]? = some
          (if call.given ≠ [] ∧ limit < (bytesOfLines (givenLines (before ++ [call]))).length
            then .error .line else .ok ()) := by
  intro start
  obtain ⟨hfollows, houtcomes⟩ := (follows_start limit).run calls
  rw [List.nil_append] at hfollows
  exact ⟨hfollows.content_eq, hfollows.isGreatest, houtcomes⟩

/-- A sink with room for five bytes cuts the third line inside its only character. The next call is
given no line and succeeds, the last is given one and fails. -/
theorem run_limited_cut :
    let start : LineWriter := { sink := { limit := some 5 } }
    let calls : List Call := [.lines ["ab", "", "é"], .lines [], .flush, .lines [""]]
    (start.run calls).1.sink.content = [97, 98, 10, 10, 195] ∧ (start.run calls).1.linesWritten = 2 ∧
      (start.run calls).2[0]? = some (.error .line) ∧ (start.run calls).2[1]? = some (.ok ()) ∧
      (start.run calls).2[3]? = some (.error .line) := by
  intro start calls
  obtain ⟨hcontent, hcounted, houtcomes⟩ := run_limited 5 calls
  refine ⟨hcontent.trans (by decide +kernel), ?_, ?_, ?_, ?_⟩
  · refine hcounted.unique ⟨by decide +kernel, fun k hk => ?_⟩
    by_contra hmore
    have hle : k ≤ 4 := hk.1
    obtain rfl | rfl : k = 3 ∨ k = 4 := by omega
    · exact absurd hk.2 (by decide +kernel)
    · exact absurd hk.2 (by decide +kernel)
  · exact (houtcomes [] (.lines ["ab", "", "é"]) _ rfl rfl).trans
      (congrArg some (if_pos (by decide +kernel)))
  · exact (houtcomes [.lines ["ab", "", "é"]] (.lines []) _ rfl rfl).trans
      (congrArg some (if_neg (by decide +kernel)))
  · exact (houtcomes [.lines ["ab", "", "é"], .lines [], .flush] (.lines [""]) _ rfl rfl).trans
      (congrArg some (if_pos (by decide +kernel)))

end LineWriter
end ContractDraft
