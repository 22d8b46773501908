import ContractDraft.Proofs.Dialect.Pieces
import Mathlib.Data.List.Chain

/-!
# Indentation

Where no template asks for a builder variable, the lines of well-nested statements do not depend on
the scopes around them, but for the indentation: they are the lines at depth zero with the same
number of steps in front of each (`Dialect.renderFrom_indented`). So fields read the same in a
fragment and in the place of its reference.
-/

namespace ContractDraft

/-! ## Steps of indentation -/

theorem repeatText_add (s : String) (m n : ℕ) :
    repeatText s (m + n) = repeatText s m ++ repeatText s n := by
  unfold repeatText
  split
  · rfl
  · rw [← String.toList_inj, String.toList_append, String.toList_join, String.toList_join,
      String.toList_join, List.replicate_add, List.flatMap_append]

namespace Dialect

variable {d : Dialect}

/-- Lines with a number of steps of indentation in front of them. -/
def indented (d : Dialect) (steps : ℕ) (lines : List String) : List String :=
  lines.map (repeatText d.indent steps ++ ·)

theorem indented_append (steps : ℕ) (s t : List String) :
    d.indented steps (s ++ t) = d.indented steps s ++ d.indented steps t :=
  List.map_append

/-- A filled template is indented line by line. -/
theorem lines_add (steps depth : ℕ) (template : String) (values : List (String × String)) :
    d.lines (steps + depth) template values = d.indented steps (d.lines depth template values) := by
  unfold lines indented
  split
  · rfl
  · rw [List.map_map]
    refine List.map_congr_left fun line _ => ?_
    rw [Function.comp_apply, repeatText_add, String.append_assoc]

/-! ## Templates without builder variables -/

/-- The placeholder of this name is part of a template. -/
def Mentions (template : String) (name : String) : Prop :=
  (Segment.placeholder name).source <:+: template.toList

/-- No template of the dialect has a placeholder for a builder variable. -/
def VariableFree (d : Dialect) : Prop :=
  ∀ x : Statement, ¬ Mentions (d.template x) "var" ∧ ¬ Mentions (d.template x) "child"

/-- A placeholder among the pieces of a template is part of its text. -/
theorem mentions_of_mem_pieces {x : Statement} {name : String}
    (h : .placeholder name ∈ d.pieces x) : Mentions (d.template x) name := by
  have hcut := Template.segmentation_segments x.placeholderNames (d.template x).toList
  obtain ⟨before, after, hpieces⟩ := List.append_of_mem h
  rw [Mentions, ← hcut.flatMap_source]
  refine ⟨before.flatMap Segment.source, after.flatMap Segment.source, ?_⟩
  show _ = (d.pieces x).flatMap Segment.source
  rw [hpieces, List.flatMap_append, List.flatMap_cons, List.append_assoc]

/-- Scopes are known to the templates by `var` and `child` alone. -/
theorem lookup_placeholders (scopes other : Scopes) (x : Statement) {name : String}
    (hvar : name ≠ "var") (hchild : name ≠ "child") :
    (d.placeholders scopes x).lookup name = (d.placeholders other x).lookup name := by
  have hvar : (name == "var") = false := beq_false_of_ne hvar
  have hchild : (name == "child") = false := beq_false_of_ne hchild
  cases x with
  | emptyArray key =>
    cases key <;> simp [placeholders, List.lookup_cons, hvar, hchild]
  | _ => simp [placeholders, openingPlaceholders, List.lookup_cons, hvar, hchild]

/-- Without builder variables a statement says the same in all scopes. -/
theorem VariableFree.fill_eq (hd : d.VariableFree) (scopes other : Scopes) (x : Statement) :
    Template.fill (d.placeholders scopes x) (d.template x).toList =
      Template.fill (d.placeholders other x) (d.template x).toList := by
  rw [fill_template, fill_template]
  refine List.flatMap_congr fun piece hpiece => ?_
  cases piece with
  | verbatim c => rfl
  | placeholder name =>
    have hmentions := mentions_of_mem_pieces hpiece
    have hvar : name ≠ "var" := fun heq => (hd x).1 (heq ▸ hmentions)
    have hchild : name ≠ "child" := fun heq => (hd x).2 (heq ▸ hmentions)
    rw [Template.fillSegment, Template.fillSegment, lookup_placeholders scopes other x hvar hchild]

/-- A statement that is written some steps deeper is indented by these steps. -/
theorem VariableFree.statementLines_eq (hd : d.VariableFree) {scopes other : Scopes} {steps : ℕ}
    {x : Statement} (hdepth : d.lineDepth scopes x = steps + d.lineDepth other x) :
    d.statementLines scopes x = d.indented steps (d.statementLines other x) := by
  rw [Dialect.statementLines_eq, Dialect.statementLines_eq, hdepth, lines_add, lines, lines,
    hd.fill_eq scopes other]

/-! ## Well-nested statements -/

theorem depth_scopesFrom {s : List Statement} (h : WellNested s) (scopes : Scopes) :
    (d.scopesFrom scopes s).depth = scopes.depth := by
  rw [scopesFrom_wellNested h]
  rfl

theorem depth_scopesAfter_opening {x : Statement} (h : x.closer?.isSome = true) (scopes : Scopes) :
    (d.scopesAfter scopes x).depth = scopes.depth + d.levels x := by
  rw [scopesAfter_opening h]
  rfl

theorem lineDepth_of_not_isClosing {x : Statement} (h : x.isClosing = false) (scopes : Scopes) :
    d.lineDepth scopes x = scopes.depth := by
  rw [lineDepth, h]
  rfl

theorem lineDepth_opening {x : Statement} (h : x.closer?.isSome = true) (scopes : Scopes) :
    d.lineDepth scopes x = scopes.depth := by
  refine lineDepth_of_not_isClosing (Bool.eq_false_iff.mpr fun hclosing => ?_) scopes
  rw [Statement.closer?_of_isClosing hclosing] at h
  cases h

theorem lineDepth_closing {x : Statement} (h : x.isClosing = true) (scopes : Scopes) :
    d.lineDepth scopes x = scopes.depth - d.levels x := by
  rw [lineDepth, h]
  rfl

/-- A scope that is written some steps deeper is indented by these steps, if what it encloses is. -/
theorem VariableFree.renderFrom_enclosed (hd : d.VariableFree) {opening closing : Statement}
    {inner : List Statement} (hcloser : opening.closer? = some closing) (hinner : WellNested inner)
    {scopes other : Scopes} {steps : ℕ} (hdepth : scopes.depth = steps + other.depth)
    (hshift : (d.scopesAfter scopes opening).depth = steps + (d.scopesAfter other opening).depth →
      d.renderFrom (d.scopesAfter scopes opening) inner =
        d.indented steps (d.renderFrom (d.scopesAfter other opening) inner)) :
    d.renderFrom scopes (opening :: inner ++ [closing]) =
      d.indented steps (d.renderFrom other (opening :: inner ++ [closing])) := by
  have hopens : opening.closer?.isSome = true := by rw [hcloser]; rfl
  have hcloses := Statement.isClosing_of_closer? hcloser
  have hopening : d.lineDepth scopes opening = steps + d.lineDepth other opening := by
    rw [lineDepth_opening hopens, lineDepth_opening hopens, hdepth]
  have hinside : (d.scopesAfter scopes opening).depth =
      steps + (d.scopesAfter other opening).depth := by
    rw [depth_scopesAfter_opening hopens, depth_scopesAfter_opening hopens, hdepth, Nat.add_assoc]
  -- The closing takes back the levels of its opening, so it stands as deep as that.
  have hbehind (scopes : Scopes) :
      d.lineDepth (d.scopesFrom (d.scopesAfter scopes opening) inner) closing = scopes.depth := by
    rw [lineDepth_closing hcloses, depth_scopesFrom hinner, depth_scopesAfter_opening hopens,
      levels_of_closer? hcloser, Nat.add_sub_cancel]
  have hclosing : d.lineDepth (d.scopesFrom (d.scopesAfter scopes opening) inner) closing =
      steps + d.lineDepth (d.scopesFrom (d.scopesAfter other opening) inner) closing := by
    rw [hbehind, hbehind, hdepth]
  simp only [List.cons_append, renderFrom, renderFrom_append, indented_append]
  rw [hd.statementLines_eq hopening, hshift hinside, hd.statementLines_eq hclosing]
  rfl

/-- Well-nested statements that are written some steps deeper are indented by these steps. -/
theorem VariableFree.renderFrom_eq (hd : d.VariableFree) {s : List Statement} (h : WellNested s)
    {scopes other : Scopes} {steps : ℕ} (hdepth : scopes.depth = steps + other.depth) :
    d.renderFrom scopes s = d.indented steps (d.renderFrom other s) := by
  induction h generalizing scopes other with
  | nil => rfl
  | @single x rest _ hcloser hclosing _ ih =>
    have hline : d.lineDepth scopes x = steps + d.lineDepth other x := by
      rw [lineDepth_of_not_isClosing hclosing, lineDepth_of_not_isClosing hclosing, hdepth]
    have hafter : (d.scopesAfter scopes x).depth = steps + (d.scopesAfter other x).depth := by
      rw [scopesAfter_single hcloser hclosing, scopesAfter_single hcloser hclosing]
      exact hdepth
    rw [renderFrom, renderFrom, hd.statementLines_eq hline, ih hafter, indented_append]
  | @scope opening closing inner rest houter hcloser hinner _ ihinner ihrest =>
    have hparts : opening :: inner ++ closing :: rest =
        (opening :: inner ++ [closing]) ++ rest := by simp
    have hscope : WellNested (opening :: inner ++ [closing]) := .enclose houter hcloser hinner
    have hbehind : (d.scopesFrom scopes (opening :: inner ++ [closing])).depth =
        steps + (d.scopesFrom other (opening :: inner ++ [closing])).depth := by
      rw [depth_scopesFrom hscope, depth_scopesFrom hscope, hdepth]
    rw [hparts, renderFrom_append d scopes (opening :: inner ++ [closing]),
      renderFrom_append d other (opening :: inner ++ [closing]), ihrest hbehind,
      hd.renderFrom_enclosed hcloser hinner hdepth ihinner, indented_append]

/-! ## The chained builder -/

theorem template_bare (d : Dialect) (x : Statement) : d.template x.bare = d.template x := by
  cases x with
  | rootArrayOpen _ nesting _ | rootArrayClose nesting | repeatOpen _ nesting _
  | repeatClose nesting => cases nesting <;> rfl
  | objectOpen key | referenceOpen key | emptyArray key => cases key <;> rfl
  | _ => rfl

/-- What stands behind the braces of a template can rule out both variables at once. -/
theorem not_mentions_of_isChain {template : String}
    (h : template.toList.IsChain fun c next => c = '{' → next ≠ 'v' ∧ next ≠ 'c') :
    ¬ Mentions template "var" ∧ ¬ Mentions template "child" := by
  have hpart {name : String} (hmentions : Mentions template name) :
      (Segment.placeholder name).source.IsChain
        fun c next => c = '{' → next ≠ 'v' ∧ next ≠ 'c' := by
    obtain ⟨before, after, htext⟩ := hmentions
    rw [← htext] at h
    exact (List.isChain_append.mp (List.isChain_append.mp h).1).2.1
  exact ⟨fun hvar => ((List.isChain_cons_cons.mp (hpart hvar)).1 rfl).1 rfl,
    fun hchild => ((List.isChain_cons_cons.mp (hpart hchild)).1 rfl).2 rfl⟩

theorem variableFree_classic : classic.VariableFree := by
  have hforms : ∀ x ∈ Statement.forms, (classic.template x).toList.IsChain
      fun c next => c = '{' → next ≠ 'v' ∧ next ≠ 'c' := by
    simp only [Statement.forms, List.forall_mem_cons]
    and_intros
    all_goals decide +kernel
  intro x
  rw [← template_bare]
  exact not_mentions_of_isChain (hforms x.bare x.bare_mem_forms)

/-! ## Lines in any scope -/

/-- In a dialect without builder variables, well-nested statements have the same lines in all
scopes, indented by the depth of the scope, and they leave the depth as it was. So the inside of a
scope has the same lines in a fragment and in an object, indented by the depth of the one or the
other. -/
theorem renderFrom_indented (hd : d.VariableFree) {s : List Statement} (h : WellNested s)
    (scopes : Scopes) :
    d.renderFrom scopes s = d.indented scopes.depth (d.renderFrom {} s) ∧
      (d.scopesFrom scopes s).depth = scopes.depth ∧
      ∀ opening closing, opening.closer? = some closing →
        d.renderFrom scopes (opening :: s ++ [closing]) = d.statementLines scopes opening ++
          d.indented (scopes.depth + d.levels opening) (d.renderFrom {} s) ++
          d.statementLines (d.scopesFrom (d.scopesAfter scopes opening) s) closing := by
  refine ⟨hd.renderFrom_eq h rfl, depth_scopesFrom h scopes, fun opening closing hcloser => ?_⟩
  have hopens : opening.closer?.isSome = true := by rw [hcloser]; rfl
  have hinside : (d.scopesAfter scopes opening).depth =
      scopes.depth + d.levels opening + Scopes.depth {} := depth_scopesAfter_opening hopens scopes
  simp only [List.cons_append, renderFrom, renderFrom_append, List.append_nil, List.append_assoc]
  rw [hd.renderFrom_eq h hinside]

/-- The chained builder writes an array inside an object, three levels deep. -/
theorem renderFrom_indented_pages :
    let s : List Statement := [.objectOpen (some "pages"), .repeatOpen "rows" .array {}, .arrayOpen,
      .scalar none ⟨.integer, some (.integer 7)⟩, .arrayClose, .repeatClose .array, .objectClose]
    let scopes : Scopes := { depth := 3, bound := ["o5", "o"], allocated := 6 }
    classic.VariableFree ∧ WellNested s ∧
      classic.renderFrom scopes s = classic.indented 3 (classic.renderFrom {} s) ∧
      classic.renderFrom {} s = [".object(\"pages\")", "    .eachArrayWithMinLike(\"rows\", 1, 1)",
        "        .array()", "            .integerType(7L)", "        .closeArray()",
        "    .closeArray().closeArray()", ".closeObject()"] := by
  intro s scopes
  have hscalar : WellNested [.scalar none ⟨.integer, some (.integer 7)⟩] := .single rfl rfl rfl .nil
  have hrow := hscalar.enclose (show Statement.arrayOpen.isOuter = false from rfl) rfl
  have hrows :=
    hrow.enclose (show (Statement.repeatOpen "rows" .array {}).isOuter = false from rfl) rfl
  have hs : WellNested s :=
    hrows.enclose (show (Statement.objectOpen (some "pages")).isOuter = false from rfl) rfl
  exact ⟨variableFree_classic, hs, (renderFrom_indented variableFree_classic hs scopes).1,
    by decide +kernel⟩

end Dialect
end ContractDraft
