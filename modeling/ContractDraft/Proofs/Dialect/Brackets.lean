import ContractDraft.Proofs.Dialect.Pieces
import ContractDraft.Proofs.Generator.Blocks
import ContractDraft.Proofs.Text.Brackets

/-!
# Generated code has balanced brackets

A dialect brackets its statements if the pieces of every opening and those of its closing, read one
after the other, end as they begin, and so do the pieces of every other statement (`Bracketed`).
That is a question about finitely many forms. Of such a dialect every block is balanced text,
however its statements are nested and whatever stands in the places of its templates.
-/

namespace ContractDraft

/-! ## Reading pieces -/

/-- Reads the pieces of a template, of which only the text counts. Values may only stand in code. -/
def Text.Reader.readPieces (r : Text.Reader) : List Segment → Option Text.Reader
  | [] => some r
  | .verbatim c :: rest => (r.step c).bind fun r => r.readPieces rest
  | .placeholder _ :: rest => if r.mode = .code then r.readPieces rest else none

/-- Lines as they are written, each with its end. -/
def textOf (lines : List String) : List Char :=
  lines.flatMap fun line => line.toList ++ ['\n']

@[simp] theorem textOf_append (s t : List String) : textOf (s ++ t) = textOf s ++ textOf t :=
  List.flatMap_append

namespace Text

variable {r q : Reader}

/-- Balanced values in its places change nothing for the reader of a template. -/
theorem Reader.read_pieces {values : List (String × String)}
    (hvalues : Dialect.ValuesHave Balanced values) {pieces : List Segment}
    (h : r.readPieces pieces = some q) :
    r.read (pieces.flatMap (Template.fillSegment values)) = some q := by
  induction pieces generalizing r with
  | nil => exact h
  | cons piece rest ih =>
    cases piece with
    | verbatim c =>
      obtain ⟨r', hstep, hrest⟩ := Option.bind_eq_some_iff.mp h
      rw [List.flatMap_cons, Template.fillSegment, List.singleton_append, Reader.read_cons, hstep,
        Option.bind_some, ih hrest]
    | placeholder name =>
      rw [Reader.readPieces] at h
      split at h
      · rename_i hmode
        have hvalue := hvalues.fillSegment .nil name
        obtain ⟨mode, opened⟩ := r
        obtain rfl : mode = .code := hmode
        rw [List.flatMap_cons, Reader.read_append, hvalue.read,
          Option.bind_some, ih h]
      · cases h

theorem Reader.readPieces_append (r : Reader) (s t : List Segment) :
    r.readPieces (s ++ t) = (r.readPieces s).bind fun r => r.readPieces t := by
  induction s generalizing r with
  | nil => rfl
  | cons piece s ih =>
    cases piece with
    | verbatim c =>
      simp only [List.cons_append, Reader.readPieces, Option.bind_assoc, ih]
    | placeholder name =>
      simp only [List.cons_append, Reader.readPieces, ih]
      split <;> rfl

/-- A place is found in code, with some brackets open. -/
theorem Reader.exists_of_readPieces_place {s t : List Segment} {name : String}
    (h : r.readPieces (s ++ .placeholder name :: t) = some q) : ∃ opened,
      r.readPieces s = some ⟨.code, opened⟩ ∧ Reader.readPieces ⟨.code, opened⟩ t = some q := by
  rw [Reader.readPieces_append] at h
  obtain ⟨⟨mode, opened⟩, hs, ht⟩ := Option.bind_eq_some_iff.mp h
  rw [Reader.readPieces] at ht
  split at ht
  · rename_i hmode
    obtain rfl : mode = .code := hmode
    exact ⟨opened, hs, ht⟩
  · cases ht

/-- Lines are broken in code. -/
theorem Reader.eq_of_step_newline (h : r.step '\n' = some q) : r.mode = .code ∧ q = r := by
  obtain ⟨mode, opened⟩ := r
  cases mode with
  | code => exact ⟨rfl, (Option.some.inj h).symm⟩
  | literal | escape => cases h

/-- Indentation changes nothing for a reader that ends in code. -/
theorem Reader.read_splitLines {indent : List Char} (hindent : Balanced indent) {s : List Char}
    (h : r.read s = some q) (hq : q.mode = .code) {line : List Char} {rest : List (List Char)}
    (hlines : Template.splitLines s = line :: rest) :
    r.read (line ++ '\n' :: rest.flatMap fun line => indent ++ line ++ ['\n']) = some q := by
  induction s generalizing r line rest with
  | nil =>
    obtain ⟨rfl, rfl⟩ := List.cons.inj hlines
    obtain rfl := Option.some.inj h
    obtain ⟨mode, opened⟩ := r
    obtain rfl : mode = .code := hq
    rfl
  | cons c s ih =>
    obtain ⟨next, others, hsplit⟩ := Template.exists_splitLines s
    obtain ⟨r', hstep, hread⟩ := Option.bind_eq_some_iff.mp h
    rw [Template.splitLines, hsplit] at hlines
    split at hlines
    · rename_i hbreak
      subst hbreak
      obtain ⟨hmode, rfl⟩ := Reader.eq_of_step_newline hstep
      obtain ⟨rfl, rfl⟩ := List.cons.inj hlines
      obtain ⟨mode, opened⟩ := r'
      obtain rfl : mode = .code := hmode
      rw [List.nil_append, Reader.read_cons, hstep, Option.bind_some, List.flatMap_cons,
        List.append_assoc, List.append_assoc, Reader.read_append, hindent.read, Option.bind_some]
      exact ih hread hsplit
    · obtain ⟨rfl, rfl⟩ := List.cons.inj hlines
      rw [List.cons_append, Reader.read_cons, hstep, Option.bind_some]
      exact ih hread hsplit

end Text

namespace Dialect

open Text

variable {d : Dialect} {scopes : Scopes}

/-- A reader of lines goes on as a reader of the filled template does. -/
theorem read_lines (hindent : Plain d.indent.toList) {r q : Reader} {depth : ℕ} {template : String}
    {values : List (String × String)} (h : r.read (Template.fill values template.toList) = some q)
    (hr : r.mode = .code) (hq : q.mode = .code) :
    r.read (textOf (d.lines depth template values)) = some q := by
  unfold lines
  split
  · rename_i hempty
    rw [String.isEmpty_iff.mp hempty] at h
    exact h
  · have hprefix := balanced_of_plain (plain_repeatText hindent depth)
    obtain ⟨line, rest, hsplit⟩ :=
      Template.exists_splitLines (Template.fill values template.toList)
    have htext : textOf ((line :: rest).map (repeatText d.indent depth ++ String.ofList ·)) =
        (repeatText d.indent depth).toList ++ (line ++ '\n' :: rest.flatMap fun line =>
          (repeatText d.indent depth).toList ++ line ++ ['\n']) := by
      simp [textOf, List.flatMap_map]
    obtain ⟨mode, opened⟩ := r
    obtain rfl : mode = .code := hr
    rw [hsplit, htext, Reader.read_append, hprefix.read, Option.bind_some]
    exact Reader.read_splitLines hprefix h hq hsplit

/-! ## Statements -/

/-- A dialect whose templates bracket what stands between them. -/
structure Bracketed (d : Dialect) : Prop where
  words : d.PlainWords
  single : ∀ x ∈ Statement.forms, x.closer? = none → x.isClosing = false →
    Reader.readPieces ⟨.code, []⟩ (d.pieces x) = some ⟨.code, []⟩
  /-- There is a place for balanced text between every opening and its closing. -/
  scope : ∀ x ∈ Statement.forms, ∀ closing ∈ x.closer?,
    Reader.readPieces ⟨.code, []⟩ (d.pieces x ++ .placeholder "" :: d.pieces closing) =
      some ⟨.code, []⟩

/-- The lines of a statement are read as its pieces are. -/
theorem Bracketed.read_statementLines (hd : d.Bracketed) (hscopes : d.Numbered scopes)
    {x : Statement} (hname : ∀ name, x.name? = some name → Balanced name.toList)
    {opened opened' : List Bracket}
    (h : Reader.readPieces ⟨.code, opened⟩ (d.pieces x) = some ⟨.code, opened'⟩) :
    Reader.read ⟨.code, opened⟩ (textOf (d.statementLines scopes x)) = some ⟨.code, opened'⟩ := by
  have hvalues := placeholders_piecewise piecewise_balanced hd.words hscopes hname
  rw [statementLines_eq]
  refine read_lines hd.words.indent ?_ rfl rfl
  rw [fill_template]
  exact Reader.read_pieces hvalues h

theorem Bracketed.balanced_single (hd : d.Bracketed) (hscopes : d.Numbered scopes) {x : Statement}
    (hname : ∀ name, x.name? = some name → Balanced name.toList) (hcloser : x.closer? = none)
    (hclosing : x.isClosing = false) : Balanced (textOf (d.statementLines scopes x)) := by
  have hpieces := hd.single x.bare x.bare_mem_forms (x.closer?_bare.trans hcloser)
    (x.isClosing_bare.trans hclosing)
  rw [pieces_bare] at hpieces
  exact balanced_iff.mpr (hd.read_statementLines hscopes hname hpieces)

/-- What stands between an opening and its closing is bracketed by them. -/
theorem Bracketed.balanced_scope (hd : d.Bracketed) (hscopes : d.Numbered scopes)
    {after : Scopes} (hafter : d.Numbered after) {opening closing : Statement}
    (hcloser : opening.closer? = some closing)
    (hname : ∀ name, opening.name? = some name → Balanced name.toList)
    {inner : List Char} (hinner : Balanced inner) :
    Balanced (textOf (d.statementLines scopes opening) ++ inner ++
      textOf (d.statementLines after closing)) := by
  have hpieces := hd.scope opening.bare opening.bare_mem_forms closing
    (by rw [opening.closer?_bare, hcloser, Option.mem_some_iff])
  rw [pieces_bare] at hpieces
  obtain ⟨opened, hopening, hclosing⟩ := Reader.exists_of_readPieces_place hpieces
  have hnone : ∀ name, closing.name? = some name → Balanced name.toList := by
    simp [Statement.name?_of_isClosing (Statement.isClosing_of_closer? hcloser)]
  rw [balanced_iff, Reader.read_append, Reader.read_append,
    hd.read_statementLines hscopes hname hopening, Option.bind_some, hinner.read, Option.bind_some,
    hd.read_statementLines hafter hnone hclosing]

/-! ## Blocks -/

/-- All names that statements write are balanced. -/
def BalancedNames (s : List Statement) : Prop :=
  ∀ x ∈ s, ∀ name, x.name? = some name → Balanced name.toList

/-- A scope around balanced text is balanced text. -/
theorem Bracketed.balanced_enclosed (hd : d.Bracketed) {opening closing : Statement}
    {inner : List Statement} (hcloser : opening.closer? = some closing)
    (hnames : BalancedNames (opening :: inner ++ [closing]))
    (hinner : ∀ scopes, d.Numbered scopes → Balanced (textOf (d.renderFrom scopes inner)))
    (hscopes : d.Numbered scopes) :
    Balanced (textOf (d.renderFrom scopes (opening :: inner ++ [closing]))) := by
  have hinside := hscopes.scopesAfter opening
  have hparts : textOf (d.renderFrom scopes (opening :: inner ++ [closing])) =
      textOf (d.statementLines scopes opening) ++
          textOf (d.renderFrom (d.scopesAfter scopes opening) inner) ++
        textOf (d.statementLines (d.scopesFrom (d.scopesAfter scopes opening) inner) closing) := by
    rw [List.cons_append, renderFrom, renderFrom_append, renderFrom, renderFrom, List.append_nil,
      textOf_append, textOf_append, List.append_assoc]
  rw [hparts]
  exact hd.balanced_scope hscopes (numbered_scopesFrom hinside inner) hcloser
    (hnames opening (List.mem_cons_self ..)) (hinner _ hinside)

/-- Well-nested statements are balanced text. -/
theorem Bracketed.balanced_wellNested (hd : d.Bracketed) {s : List Statement} (h : WellNested s)
    (hnames : BalancedNames s) (hscopes : d.Numbered scopes) :
    Balanced (textOf (d.renderFrom scopes s)) := by
  induction h generalizing scopes with
  | nil => exact .nil
  | single _ hcloser hclosing _ ih =>
    obtain ⟨hname, hrest⟩ := List.forall_mem_cons.mp hnames
    rw [renderFrom, textOf_append]
    exact (hd.balanced_single hscopes hname hcloser hclosing).append
      (ih hrest (hscopes.scopesAfter _))
  | @scope opening closing inner rest _ hcloser _ _ ihinner ihrest =>
    have hparts : opening :: inner ++ closing :: rest =
        (opening :: inner ++ [closing]) ++ rest := by simp
    rw [hparts] at hnames ⊢
    obtain ⟨hscope, hrest⟩ := List.forall_mem_append.mp hnames
    have hinner : BalancedNames inner := fun x hx => hscope x (by simp [hx])
    rw [renderFrom_append, textOf_append]
    exact (hd.balanced_enclosed hcloser hscope (fun _ => ihinner hinner) hscopes).append
      (ihrest hrest (numbered_scopesFrom hscopes _))

/-- Every block is balanced text. -/
theorem Bracketed.balanced_nestedBlock (hd : d.Bracketed) {s : List Statement} (h : NestedBlock s)
    (hnames : BalancedNames s) : Balanced (textOf (d.renderFrom {} s)) := by
  cases h with
  | @scope opening closing inner _ hcloser hinner =>
    have hinside : BalancedNames inner := fun x hx => hnames x (by simp [hx])
    exact hd.balanced_enclosed hcloser hnames
      (fun _ => hd.balanced_wellNested hinner hinside) numbered_empty
  | single _ hcloser hclosing =>
    rw [renderFrom, renderFrom, List.append_nil]
    exact hd.balanced_single numbered_empty (hnames _ (List.mem_singleton_self _)) hcloser hclosing

/-! ## The built-in dialects -/

theorem readPieces_single_of_builtin (h : d = .classic ∨ d = .lambda) :
    ∀ x ∈ Statement.forms, x.closer? = none → x.isClosing = false →
      Reader.readPieces ⟨.code, []⟩ (d.pieces x) = some ⟨.code, []⟩ := by
  simp only [Statement.forms, List.forall_mem_cons]
  rcases h with rfl | rfl
  all_goals
    and_intros
    all_goals
      -- One template is joined from two literals and evaluated as it stands.
      try rw [pieces_of_ofList rfl]
      decide +kernel

theorem readPieces_scope_of_builtin (h : d = .classic ∨ d = .lambda) :
    ∀ x ∈ Statement.forms, ∀ closing ∈ x.closer?,
      Reader.readPieces ⟨.code, []⟩ (d.pieces x ++ .placeholder "" :: d.pieces closing) =
        some ⟨.code, []⟩ := by
  simp only [Statement.forms, List.forall_mem_cons]
  rcases h with rfl | rfl
  all_goals
    and_intros
    all_goals
      -- Only openings have a closing, and every form that is left has exactly one.
      rintro closing ⟨⟩
    all_goals
      rw [pieces_of_ofList rfl, pieces_of_ofList rfl]
      decide +kernel

theorem bracketed_of_builtin (h : d = .classic ∨ d = .lambda) : d.Bracketed where
  words := plainWords_of_builtin h
  single := readPieces_single_of_builtin h
  scope := readPieces_scope_of_builtin h

end Dialect

namespace Config

open Text

/-- In both built-in dialects, the lines of every fragment and those of the document are balanced,
whatever the document holds, if the name of the document is plain. -/
theorem balanced_generateValue (config : Config) (document : Value)
    (hdialect : config.dialect = .classic ∨ config.dialect = .lambda)
    (hroot : Plain config.rootName.toList) :
    (∀ fragment ∈ (config.generateValue document).fragments, Balanced (textOf fragment.lines)) ∧
      Balanced (textOf (config.generateValue document).root) := by
  have hbracketed := Dialect.bracketed_of_builtin hdialect
  refine config.forall_render (Q := fun lines => Balanced (textOf lines)) document
    fun block hblock => ?_
  exact hbracketed.balanced_nestedBlock (Drafter.nestedBlock _ document hblock)
    (config.names_piecewise document piecewise_balanced (balanced_of_plain hroot) hblock)

/-- Neither keys nor strings get out of their literals. -/
theorem balanced_generateValue_escaped :
    let config : Config := { small true with dialect := .lambda }
    let document : Value :=
      .object [(r#"a"){"#, .object [("(", .string r#"}\""#), (")", .array [.string "("])])]
    Plain config.rootName.toList ∧
      (config.generateValue document).fragments.map (·.lines) = [
        [r"static void a(LambdaDslObject o) {",
          r#"    o.stringType("(", "}\\\"");"#,
          "    o.minArrayLike(\")\", 1, PactDslJsonRootValue.stringType(\"(\"), 1);", r"}"]] ∧
      (∀ fragment ∈ (config.generateValue document).fragments,
        Balanced (textOf fragment.lines)) ∧
      Balanced (textOf (config.generateValue document).root) := by
  intro config document
  have hplain : Plain config.rootName.toList := by decide
  obtain ⟨hfragments, hroot⟩ := balanced_generateValue config document (.inr rfl) hplain
  exact ⟨hplain, by decide +kernel, hfragments, hroot⟩

end Config
end ContractDraft
