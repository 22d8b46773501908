import ContractDraft.Output.LineWriter
import ContractDraft.Proofs.Dialect.Lines
import ContractDraft.Proofs.Text.Utf8

/-!
# Written contracts are read back

The bytes of a contract, cut at every line feed, are the bytes of its lines
(`Config.splitOn_writeGenerated`). A writer that gets through puts a line feed behind every line
(`LineWriter.content_writeLines`), and no byte of an unbroken line is one
(`LineWriter.lineFeed_not_mem_bytesOf`).
-/

namespace ContractDraft

open Text

/-! ## Bytes of a text -/

theorem toListLoop_eq (bytes : ByteArray) (i : ℕ) (read : List UInt8) :
    ByteArray.toList.loop bytes i read = read.reverse ++ bytes.data.toList.drop i := by
  induction hrest : bytes.size - i generalizing i read with
  | zero =>
    rw [ByteArray.toList.loop, if_neg (by omega), List.drop_eq_nil_of_le, List.append_nil]
    simp only [Array.length_toList, ByteArray.size_data]
    omega
  | succ n ih =>
    have hlt : i < bytes.size := by omega
    have hlength : i < bytes.data.toList.length := by simpa using hlt
    have hget : bytes.get! i = bytes.data.toList[i] :=
      getElem!_pos bytes.data i (by simpa using hlt)
    rw [ByteArray.toList.loop, if_pos hlt, ih (i + 1) _ (by omega), hget,
      List.drop_eq_getElem_cons hlength, List.reverse_cons, List.append_assoc]
    rfl

namespace LineWriter

/-- The bytes of a text are those of its characters. -/
theorem bytesOf_eq (s : String) : bytesOf s = s.toList.flatMap String.utf8EncodeChar := by
  rw [bytesOf, String.toUTF8, ← String.utf8Encode_toList, List.utf8Encode, ByteArray.toList,
    toListLoop_eq, List.data_toByteArray]
  rfl

theorem bytesOf_lineFeed : bytesOf "\n" = [10] := by
  rw [bytesOf_eq]
  decide

/-- No byte of an unbroken text is a line feed. -/
theorem lineFeed_not_mem_bytesOf {s : String} (h : Unbroken s.toList) : 10 ∉ bytesOf s := by
  rw [bytesOf_eq]
  intro hmem
  have hline : '\n' ∈ s.toList := mem_of_mem_utf8 (by decide) hmem
  exact h _ hline (by decide)

/-- The text that some bytes stand for, if they stand for one. -/
def textOf? (bytes : List UInt8) : Option String :=
  String.fromUTF8? bytes.toByteArray

theorem fromUTF8?_toByteArray (s : String) : String.fromUTF8? s.toByteArray = some s := by
  rw [String.fromUTF8?, dif_pos s.isValidUTF8]
  rfl

theorem textOf?_bytesOf (s : String) : textOf? (bytesOf s) = some s := by
  rw [textOf?, bytesOf_eq, ← List.utf8Encode, String.utf8Encode_toList, fromUTF8?_toByteArray]

/-! ## Writing -/

theorem content_take_of_accepts {sink : Sink} {bytes : List UInt8} (h : sink.accepts bytes = true) :
    (sink.take bytes).content = sink.content ++ bytes := by
  have hfitting : sink.fitting bytes = bytes := by
    have hprefix : sink.fitting bytes <+: bytes := by
      unfold Sink.fitting
      split
      · exact List.take_prefix _ _
      · exact List.prefix_rfl
    exact hprefix.eq_of_length (by simpa [Sink.accepts] using h)
  rw [Sink.take, hfitting]

/-- A line that is written completely has a line feed behind it. -/
theorem writeLine_of_snd {w : LineWriter} {line : String} (h : (w.writeLine line).2 = true) :
    (w.writeLine line).1.sink.content = w.sink.content ++ (bytesOf line ++ [10]) := by
  unfold writeLine at h ⊢
  simp only at h ⊢
  split at h
  · rename_i hline
    rw [if_pos hline]
    split at h
    · rename_i hbreak
      rw [if_pos hbreak]
      show (((w.sink.take (bytesOf line)).take (bytesOf "\n")).content) = _
      rw [content_take_of_accepts hbreak, content_take_of_accepts hline, bytesOf_lineFeed,
        List.append_assoc]
    · cases h
  · cases h

/-- A writer that gets through has written every line with a line feed behind it. -/
theorem content_writeLines {w : LineWriter} {lines : List String}
    (h : (w.writeLines lines).2 = .ok ()) : (w.writeLines lines).1.sink.content =
      w.sink.content ++ lines.flatMap fun line => bytesOf line ++ [10] := by
  induction lines generalizing w with
  | nil => simp [writeLines]
  | cons line rest ih =>
    rw [writeLines] at h ⊢
    have hcontent : (w.writeLine line).2 = true → _ := writeLine_of_snd
    rcases hline : w.writeLine line with ⟨w', written⟩
    rw [hline] at h hcontent
    cases written with
    | true =>
      rw [ih h, hcontent rfl, List.flatMap_cons, List.append_assoc]
    | false => cases h

/-- Without a limit every line is written completely, and there is still no limit. -/
theorem writeLine_of_unlimited {w : LineWriter} (h : w.sink.limit = none) (line : String) :
    (w.writeLine line).2 = true ∧ (w.writeLine line).1.sink.limit = none := by
  have haccepts (sink : Sink) (hsink : sink.limit = none) (bytes : List UInt8) :
      sink.accepts bytes = true := by
    simp [Sink.accepts, Sink.fitting, hsink]
  unfold writeLine
  simp only [haccepts w.sink h, if_true, haccepts (w.sink.take _) h]
  exact ⟨trivial, h⟩

/-- A writer without a limit gets through. -/
theorem writeLines_of_unlimited {w : LineWriter} (h : w.sink.limit = none) (lines : List String) :
    (w.writeLines lines).2 = .ok () := by
  induction lines generalizing w with
  | nil => rfl
  | cons line rest ih =>
    obtain ⟨hwritten, hlimit⟩ := writeLine_of_unlimited h line
    rw [writeLines]
    rcases hline : w.writeLine line with ⟨w', written⟩
    rw [hline] at hwritten hlimit
    obtain rfl : written = true := hwritten
    exact ih hlimit

/-- Bytes with a line feed behind every unbroken line are cut into these lines, and nothing is left
behind the last. -/
theorem splitOn_flatMap_bytesOf {lines : List String} (h : ∀ line ∈ lines, Unbroken line.toList) :
    (lines.flatMap fun line => bytesOf line ++ [10]).splitOn 10 = lines.map bytesOf ++ [[]] := by
  have hjoined : (lines.flatMap fun line => bytesOf line ++ [10]) =
      [10].intercalate (lines.map bytesOf ++ [[]]) := by
    rw [← flatMap_append_eq_intercalate, List.flatMap_map, List.append_nil]
  have hparts : ∀ part ∈ lines.map bytesOf ++ [[]], 10 ∉ part := by
    refine List.forall_mem_append.mpr ⟨fun part hpart => ?_, by simp⟩
    obtain ⟨line, hline, rfl⟩ := List.mem_map.mp hpart
    exact lineFeed_not_mem_bytesOf (h line hline)
  rw [hjoined]
  exact List.splitOn_intercalate 10 hparts (by simp)

/-- What a writer that gets through appends, cut at every line feed, is the written lines. -/
theorem exists_splitOn_writeLines {w : LineWriter} {lines : List String}
    (hlines : ∀ line ∈ lines, Unbroken line.toList) (h : (w.writeLines lines).2 = .ok ()) :
    ∃ bytes, (w.writeLines lines).1.sink.content = w.sink.content ++ bytes ∧
      bytes.splitOn 10 = lines.map bytesOf ++ [[]] ∧
      (bytes.splitOn 10).dropLast.map textOf? = lines.map some := by
  have hcut := splitOn_flatMap_bytesOf hlines
  refine ⟨_, content_writeLines h, hcut, ?_⟩
  rw [hcut, List.dropLast_concat, List.map_map]
  exact List.map_congr_left fun line _ => textOf?_bytesOf line

end LineWriter

namespace Config

/-- Whatever a document holds, no line that is generated in a built-in dialect is broken, if the
name of the document is not; no line of a fragment or of the document is empty, so that splitting
all lines at the empty ones gives back the fragments' lines and then the document's; and what a
writer that gets through appends to its sink, cut at every line feed, is all lines again. A writer
without a limit gets through. -/
theorem lines_generateValue (config : Config) (document : Value)
    (hdialect : config.dialect = .classic ∨ config.dialect = .lambda)
    (hroot : Unbroken config.rootName.toList) :
    let g := config.generateValue document
    (∀ line ∈ g.lines, Unbroken line.toList) ∧
      (∀ fragment ∈ g.fragments, "" ∉ fragment.lines) ∧ "" ∉ g.root ∧
      g.lines.splitOn "" = g.fragments.map (·.lines) ++ [g.root] ∧
      ∀ w : LineWriter,
        ((w.writeGenerated g).2 = .ok () → ∃ bytes,
          (w.writeGenerated g).1.sink.content = w.sink.content ++ bytes ∧
            bytes.splitOn 10 = g.lines.map LineWriter.bytesOf ++ [[]] ∧
            (bytes.splitOn 10).dropLast.map LineWriter.textOf? = g.lines.map some) ∧
          (w.sink.limit = none → (w.writeGenerated g).2 = .ok ()) := by
  intro g
  obtain ⟨hfragments, hrootLines⟩ := config.isLine_generateValue document hdialect hroot
  have hempty : ∀ fragment ∈ g.fragments, "" ∉ fragment.lines := fun fragment hfragment hmem =>
    (hfragments fragment hfragment "" hmem).ne_empty rfl
  have hrootEmpty : "" ∉ g.root := fun hmem => (hrootLines "" hmem).ne_empty rfl
  have hunbroken : ∀ line ∈ g.lines, Unbroken line.toList := by
    refine List.forall_mem_append.mpr ⟨fun line hline => ?_, fun line hline =>
      (hrootLines line hline).unbroken⟩
    obtain ⟨fragment, hfragment, hline⟩ := List.mem_flatMap.mp hline
    rcases List.mem_append.mp hline with hline | hline
    · exact (hfragments fragment hfragment line hline).unbroken
    · obtain rfl := List.mem_singleton.mp hline
      exact unbroken_nil
  exact ⟨hunbroken, hempty, hrootEmpty, g.splitOn_lines hempty hrootEmpty, fun w =>
    ⟨LineWriter.exists_splitOn_writeLines hunbroken,
      fun hlimit => LineWriter.writeLines_of_unlimited hlimit g.lines⟩⟩

/-- Line breaks in keys and strings stay in their literals, and the fragment is found again in what
a writer without a limit wrote. -/
theorem lines_generateValue_escaped :
    let config : Config := { small true with dialect := .lambda }
    let document : Value := .object [("a\nb", .object [("\r", .string "\n\n"), ("c", .null)])]
    let g := config.generateValue document
    let w : LineWriter := { sink := { limit := none } }
    Unbroken config.rootName.toList ∧ (w.writeGenerated g).2 = .ok () ∧
      g.fragments.map (·.lines) = [[r"static void aB(LambdaDslObject o) {",
        "    o.stringType(\"\\r\", \"\\n\\n\");", "    o.nullValue(\"c\");", r"}"]] ∧
      g.lines.splitOn "" = g.fragments.map (·.lines) ++ [g.root] ∧
      ((w.writeGenerated g).1.sink.content.splitOn 10).dropLast.map LineWriter.textOf? =
        g.lines.map some := by
  intro config document g w
  have hname : Unbroken config.rootName.toList := Plain.unbroken (by decide)
  obtain ⟨-, -, -, hsplit, hwritten⟩ := lines_generateValue config document (.inr rfl) hname
  have hok := (hwritten w).2 rfl
  obtain ⟨bytes, hcontent, -, hback⟩ := (hwritten w).1 hok
  refine ⟨hname, hok, by decide +kernel, hsplit, ?_⟩
  rw [hcontent]
  exact hback

end Config
end ContractDraft
