import ContractDraft.Proofs.Dialect.Pieces
import ContractDraft.Proofs.Generator.Blocks
import ContractDraft.Proofs.Text.Literal

/-!
# Lines of generated code

Every line of a contract has text in it and no line break, but for the empty lines between its
parts, so these parts are found again by splitting there (`Generated.splitOn_lines`). A line is
never empty because every line of every template has text of the dialect (`Dialect.Lined`), and it
is never broken because values stay on one line.
-/

namespace ContractDraft

open Text

/-- A line that has text, all of it on that line. -/
structure IsLine (line : String) : Prop where
  ne_empty : line ≠ ""
  unbroken : Unbroken line.toList

/-! ## Lines of a template -/

namespace Template

/-- Whether every line of some pieces has text of the dialect and none has a carriage return.
`begun` says whether the first line has text before them. -/
def fillsLines : (begun : Bool) → List Segment → Bool
  | begun, [] => begun
  | begun, .verbatim c :: rest =>
    if c = '\n' then begun && fillsLines false rest else c ≠ '\r' && fillsLines true rest
  | begun, .placeholder _ :: rest => fillsLines begun rest

/-- Text on one line stays before the first line of what follows it. -/
theorem splitLines_append {s t : List Char} (hs : Unbroken s) {line : List Char}
    {rest : List (List Char)} (ht : splitLines t = line :: rest) :
    splitLines (s ++ t) = (s ++ line) :: rest := by
  induction s with
  | nil => exact ht
  | cons c s ih =>
    obtain ⟨hc, hs⟩ := unbroken_cons.mp hs
    have hbreak : c ≠ '\n' := by
      rintro rfl
      exact hc (by decide)
    rw [List.cons_append, splitLines, if_neg hbreak, ih hs]
    rfl

/-- With unbroken values in its places, a template has unbroken lines that are not empty. -/
theorem unbroken_of_fillsLines {values : List (String × String)}
    (hvalues : Dialect.ValuesHave Unbroken values) {pieces : List Segment} {begun : Bool}
    (h : fillsLines begun pieces = true) {line : List Char} {rest : List (List Char)}
    (hlines : splitLines (pieces.flatMap (fillSegment values)) = line :: rest) :
    Unbroken line ∧ (begun = false → line ≠ []) ∧ ∀ l ∈ rest, Unbroken l ∧ l ≠ [] := by
  induction pieces generalizing begun line rest with
  | nil =>
    obtain ⟨rfl, rfl⟩ := List.cons.inj hlines
    obtain rfl : begun = true := h
    simp
  | cons piece pieces ih =>
    obtain ⟨next, others, hsplit⟩ :=
      exists_splitLines (pieces.flatMap (fillSegment values))
    rw [List.flatMap_cons] at hlines
    cases piece with
    | verbatim c =>
      rw [fillsLines] at h
      split at h
      · -- The line ends here, so something must have been written on it.
        rename_i hbreak
        subst hbreak
        obtain ⟨rfl, hrest⟩ := Bool.and_eq_true_iff.mp h
        obtain ⟨hnext, hne, hothers⟩ := ih hrest hsplit
        rw [fillSegment, List.singleton_append, splitLines, if_pos rfl, hsplit] at hlines
        obtain ⟨rfl, rfl⟩ := List.cons.inj hlines
        exact ⟨unbroken_nil, by simp, List.forall_mem_cons.mpr ⟨⟨hnext, hne rfl⟩, hothers⟩⟩
      · rename_i hbreak
        obtain ⟨hreturn, hrest⟩ := Bool.and_eq_true_iff.mp h
        obtain ⟨hnext, -, hothers⟩ := ih hrest hsplit
        have hc : Unbroken [c] := by simpa [lineBreaks, hbreak] using hreturn
        rw [fillSegment, splitLines_append hc hsplit] at hlines
        obtain ⟨rfl, rfl⟩ := List.cons.inj hlines
        exact ⟨unbroken_append.mpr ⟨hc, hnext⟩, by simp, hothers⟩
    | placeholder name =>
      -- The value may be empty, so the line still counts as it did before.
      rw [fillsLines] at h
      obtain ⟨hnext, hne, hothers⟩ := ih h hsplit
      have hvalue := hvalues.fillSegment unbroken_nil name
      rw [splitLines_append hvalue hsplit] at hlines
      obtain ⟨rfl, rfl⟩ := List.cons.inj hlines
      exact ⟨unbroken_append.mpr ⟨hvalue, hnext⟩, fun hbegun => by simp [hne hbegun], hothers⟩

theorem forall_splitLines {values : List (String × String)}
    (hvalues : Dialect.ValuesHave Unbroken values) {pieces : List Segment}
    (h : fillsLines false pieces = true) :
    ∀ line ∈ splitLines (pieces.flatMap (fillSegment values)), Unbroken line ∧ line ≠ [] := by
  obtain ⟨first, rest, hlines⟩ := exists_splitLines (pieces.flatMap (fillSegment values))
  obtain ⟨hfirst, hne, hrest⟩ := unbroken_of_fillsLines hvalues h hlines
  rw [hlines]
  exact List.forall_mem_cons.mpr ⟨⟨hfirst, hne rfl⟩, hrest⟩

end Template

/-! ## Lines of statements -/

namespace Dialect

variable {d : Dialect} {scopes : Scopes}

/-- A dialect whose templates consist of lines with text. -/
structure Lined (d : Dialect) : Prop where
  words : d.PlainWords
  fillsLines : ∀ x ∈ Statement.forms, Template.fillsLines false (d.pieces x) = true

/-- All lines of a statement are lines with text, if the name in it is unbroken. -/
theorem Lined.isLine_statementLines (hd : d.Lined) (hscopes : d.Numbered scopes) {x : Statement}
    (hname : ∀ name, x.name? = some name → Unbroken name.toList) :
    ∀ line ∈ d.statementLines scopes x, IsLine line := by
  have hvalues := placeholders_piecewise piecewise_unbroken hd.words hscopes hname
  have hpieces := hd.fillsLines x.bare x.bare_mem_forms
  rw [pieces_bare] at hpieces
  have hindent := (plain_repeatText hd.words.indent (d.lineDepth scopes x)).unbroken
  intro line hline
  rw [statementLines_eq, lines, fill_template] at hline
  split at hline
  · cases hline
  · obtain ⟨text, htext, rfl⟩ := List.mem_map.mp hline
    obtain ⟨hunbroken, hne⟩ := Template.forall_splitLines hvalues hpieces text htext
    refine ⟨fun hempty => hne ?_, ?_⟩
    · exact (by simpa using congrArg String.toList hempty : _ ∧ text = []).2
    · rw [String.toList_append, String.toList_ofList]
      exact unbroken_append.mpr ⟨hindent, hunbroken⟩

/-- All lines of a block are lines with text. -/
theorem Lined.isLine_renderFrom (hd : d.Lined) (hscopes : d.Numbered scopes) {s : List Statement}
    (hnames : ∀ x ∈ s, ∀ name, x.name? = some name → Unbroken name.toList) :
    ∀ line ∈ d.renderFrom scopes s, IsLine line := by
  induction s generalizing scopes with
  | nil => simp [renderFrom]
  | cons x s ih =>
    obtain ⟨hname, hrest⟩ := List.forall_mem_cons.mp hnames
    rw [renderFrom]
    exact List.forall_mem_append.mpr
      ⟨hd.isLine_statementLines hscopes hname, ih (hscopes.scopesAfter x) hrest⟩

theorem fillsLines_of_builtin (h : d = .classic ∨ d = .lambda) :
    ∀ x ∈ Statement.forms, Template.fillsLines false (d.pieces x) = true := by
  simp only [Statement.forms, List.forall_mem_cons]
  rcases h with rfl | rfl
  all_goals
    and_intros
    all_goals
      try rw [pieces_of_ofList rfl]
      decide +kernel

theorem lined_of_builtin (h : d = .classic ∨ d = .lambda) : d.Lined where
  words := plainWords_of_builtin h
  fillsLines := fillsLines_of_builtin h

end Dialect

/-! ## Parts of a contract -/

/-- Parts with a separator behind each but the last. -/
theorem flatMap_append_eq_intercalate {α : Type} (separator : α) (parts : List (List α))
    (last : List α) : (parts.flatMap fun part => part ++ [separator]) ++ last =
      [separator].intercalate (parts ++ [last]) := by
  induction parts with
  | nil => simp
  | cons part parts ih =>
    have hne : parts ++ [last] ≠ [] :=
      List.append_ne_nil_of_right_ne_nil parts (List.cons_ne_nil last [])
    obtain ⟨second, others, hrest⟩ := List.exists_cons_of_ne_nil hne
    rw [List.cons_append, hrest, List.intercalate_cons_cons, ← hrest, ← ih, List.flatMap_cons,
      List.append_assoc]

/-- Splitting the lines of a contract at the empty ones gives back its parts, if these have no empty
lines of their own. -/
theorem Generated.splitOn_lines {g : Generated} (hfragments : ∀ f ∈ g.fragments, "" ∉ f.lines)
    (hroot : "" ∉ g.root) : g.lines.splitOn "" = g.fragments.map (·.lines) ++ [g.root] := by
  have hlines : g.lines = [""].intercalate (g.fragments.map (·.lines) ++ [g.root]) := by
    rw [← flatMap_append_eq_intercalate, List.flatMap_map, lines]
  have hparts : ∀ part ∈ g.fragments.map (·.lines) ++ [g.root], "" ∉ part := by
    refine List.forall_mem_append.mpr ⟨fun part hpart => ?_, List.forall_mem_singleton.mpr hroot⟩
    obtain ⟨f, hf, rfl⟩ := List.mem_map.mp hpart
    exact hfragments f hf
  rw [hlines]
  exact List.splitOn_intercalate "" hparts (by simp)

namespace Config

/-- In both built-in dialects every part of a contract consists of lines with text, if the name of
the document stays on one line. -/
theorem isLine_generateValue (config : Config) (document : Value)
    (hdialect : config.dialect = .classic ∨ config.dialect = .lambda)
    (hroot : Unbroken config.rootName.toList) :
    (∀ fragment ∈ (config.generateValue document).fragments, ∀ line ∈ fragment.lines,
        IsLine line) ∧
      ∀ line ∈ (config.generateValue document).root, IsLine line := by
  have hlined := Dialect.lined_of_builtin hdialect
  refine config.forall_render (Q := fun lines => ∀ line ∈ lines, IsLine line) document
    fun block hblock => ?_
  exact hlined.isLine_renderFrom Dialect.numbered_empty
    (config.names_piecewise document piecewise_unbroken hroot hblock)

end Config
end ContractDraft
