import ContractDraft.Proofs.Dialect.Placeholders
import ContractDraft.Proofs.Fragment.Name

/-!
# Scope discipline

Whatever dialect a block is rendered in, its scopes are opened and closed like brackets. Well-nested
statements leave the scopes as they found them, apart from the variables they took
(`Dialect.scopesFrom_wellNested`), so at every point of a block the variables of the open scopes are
those which the openings bound that are still open there. `ScopeDiscipline` says what this means for
the text of a block, and `Drafter.scopeDiscipline` that every drafted block has it.
-/

namespace ContractDraft

/-- Two lists use as many variables as each of them alone. -/
theorem variableCount_append (s t : List Statement) :
    variableCount (s ++ t) = variableCount s + variableCount t := by
  induction s with
  | nil => rw [List.nil_append, variableCount, Nat.zero_add]
  | cons x s ih => rw [List.cons_append, variableCount, variableCount, ih, Nat.add_assoc]

namespace Scopes

theorem allocate_allocate (scopes : Scopes) (m n : ℕ) :
    (scopes.allocate m).allocate n = scopes.allocate (m + n) := by
  simp only [allocate, Nat.add_assoc]

theorem allocate_enter (scopes : Scopes) (count : ℕ) (var : String) (levels : ℕ) :
    (scopes.allocate count).enter var levels = (scopes.enter var levels).allocate count := rfl

/-- Leaving a scope takes back what entering it did, however many variables were taken inside. -/
theorem leave_allocate_enter (scopes : Scopes) (var : String) (levels count : ℕ) :
    ((scopes.enter var levels).allocate count).leave levels = scopes.allocate count := by
  simp only [enter, allocate, leave, Nat.add_sub_cancel, List.tail_cons]

end Scopes

namespace Dialect

variable {d : Dialect} {scopes : Scopes}

/-! ## Runs over well-nested statements -/

/-- A scope around statements that only take variables does the same. -/
theorem scopesFrom_enclosed {opening closing : Statement} {inner : List Statement}
    (hcloser : opening.closer? = some closing)
    (hinner : ∀ scopes, d.scopesFrom scopes inner = scopes.allocate (variableCount inner))
    (scopes : Scopes) : d.scopesFrom scopes (opening :: inner ++ [closing]) =
      scopes.allocate (variableCount (opening :: inner ++ [closing])) := by
  have hopens : opening.closer?.isSome = true := by rw [hcloser]; rfl
  have hcloses := Statement.isClosing_of_closer? hcloser
  rw [List.cons_append, scopesFrom_cons, scopesFrom_append, scopesFrom_cons, scopesFrom_nil,
    scopesAfter_opening hopens, hinner, scopesAfter_closing hcloses, levels_of_closer? hcloser,
    Scopes.leave_allocate_enter, Scopes.allocate_allocate, variableCount, variableCount_append,
    variableCount, variables_of_isClosing hcloses, variableCount, Nat.add_zero]

/-- Well-nested statements change nothing but the number of variables taken. -/
theorem scopesFrom_wellNested {s : List Statement} (h : WellNested s) (scopes : Scopes) :
    d.scopesFrom scopes s = scopes.allocate (variableCount s) := by
  induction h generalizing scopes with
  | nil => rfl
  | single _ hcloser hclosing _ ih =>
    rw [scopesFrom_cons, scopesAfter_single hcloser hclosing, ih, variableCount,
      Scopes.allocate_allocate]
  | @scope opening closing inner rest _ hcloser _ _ ihinner ihrest =>
    have hparts : opening :: inner ++ closing :: rest =
        (opening :: inner ++ [closing]) ++ rest := by simp
    rw [hparts, scopesFrom_append, scopesFrom_enclosed hcloser ihinner, ihrest,
      Scopes.allocate_allocate, variableCount_append (opening :: inner ++ [closing])]

/-- A block leaves nothing open either. -/
theorem scopesFrom_nestedBlock {s : List Statement} (h : NestedBlock s) (scopes : Scopes) :
    d.scopesFrom scopes s = scopes.allocate (variableCount s) := by
  cases h with
  | scope _ hcloser hinner =>
    exact scopesFrom_enclosed hcloser (scopesFrom_wellNested hinner) scopes
  | single _ hcloser hclosing =>
    rw [scopesFrom_cons, scopesFrom_nil, scopesAfter_single hcloser hclosing]
    rfl

/-- Inside a scope, the variable of its opening is the innermost one; around it everything is as the
opening found it. -/
theorem exists_scopesFrom_innermost (d : Dialect) (scopes : Scopes)
    {before outer : List Statement} {opening : Statement} (h : Innermost before outer opening) :
    ∃ count, d.scopesFrom scopes before =
      ((d.scopesFrom scopes outer).enter (d.boundVar (d.scopesFrom scopes outer) opening)
        (d.levels opening)).allocate count := by
  obtain ⟨inner, hinner, rfl⟩ := h.exists_inner
  refine ⟨opening.variables + variableCount inner, ?_⟩
  rw [scopesFrom_append, scopesFrom_cons, scopesAfter_opening h.opens,
    scopesFrom_wellNested hinner, Scopes.allocate_enter, Scopes.allocate_allocate]

/-- The variable of the innermost scope stands in front of those that were open around it. -/
theorem bound_innermost {before outer : List Statement} {opening : Statement}
    (h : Innermost before outer opening) : (d.scopesFrom scopes before).bound =
      d.boundVar (d.scopesFrom scopes outer) opening :: (d.scopesFrom scopes outer).bound := by
  obtain ⟨count, hscopes⟩ := exists_scopesFrom_innermost d scopes h
  rw [hscopes]
  rfl

/-- Inside the innermost scope one is as many levels deeper as its opening says. -/
theorem depth_innermost {before outer : List Statement} {opening : Statement}
    (h : Innermost before outer opening) : (d.scopesFrom scopes before).depth =
      (d.scopesFrom scopes outer).depth + d.levels opening := by
  obtain ⟨count, hscopes⟩ := exists_scopesFrom_innermost d scopes h
  rw [hscopes]
  rfl

/-- The current variable is the one that the innermost opening has bound. -/
theorem current_innermost {before outer : List Statement} {opening : Statement}
    (h : Innermost before outer opening) : (d.scopesFrom scopes before).current =
      d.boundVar (d.scopesFrom scopes outer) opening := by
  rw [Scopes.current, bound_innermost h]
  rfl

/-- The enclosing variable is the one that was current at the innermost opening. -/
theorem enclosing_innermost {before outer : List Statement} {opening : Statement}
    (h : Innermost before outer opening) : (d.scopesFrom scopes before).enclosing =
      (d.scopesFrom scopes outer).current := by
  rw [Scopes.enclosing, bound_innermost h]
  rfl

/-! ## Variables -/

/-- No two variables of a block are alike, whatever they begin with. -/
theorem builderVar_injective (d : Dialect) : Function.Injective d.builderVar := by
  intro m n h
  cases m with
  | zero =>
    cases n with
    | zero => rfl
    | succ n => exact absurd h.symm (by simp [builderVar])
  | succ m =>
    cases n with
    | zero => exact absurd h (by simp [builderVar])
    | succ n => exact Name.toString_injective (by simpa [builderVar] using h)

/-- The variables that a statement takes. -/
def newVariables (d : Dialect) (scopes : Scopes) (x : Statement) : List String :=
  (List.range' scopes.allocated x.variables).map d.builderVar

/-- The variables that statements take one after the other. -/
def variablesFrom (d : Dialect) (scopes : Scopes) : List Statement → List String
  | [] => []
  | x :: rest => d.newVariables scopes x ++ d.variablesFrom (d.scopesAfter scopes x) rest

/-- The variables of a list are numbered one after the other. -/
theorem variablesFrom_eq (scopes : Scopes) (s : List Statement) : d.variablesFrom scopes s =
    (List.range' scopes.allocated (variableCount s)).map d.builderVar := by
  induction s generalizing scopes with
  | nil => rfl
  | cons x s ih =>
    rw [variablesFrom, newVariables, ih, allocated_scopesAfter, ← List.map_append, variableCount]
    have hrange := @List.range'_append scopes.allocated x.variables (variableCount s) 1
    rw [Nat.one_mul] at hrange
    rw [hrange]

/-- No variable is used for two scopes. -/
theorem variablesFrom_nodup (scopes : Scopes) (s : List Statement) :
    (d.variablesFrom scopes s).Nodup := by
  rw [variablesFrom_eq]
  exact List.Nodup.map d.builderVar_injective List.nodup_range'

/-! ## Placeholders for variables -/

/-- Inside a block `var` is the variable of the innermost scope. -/
theorem lookup_var_placeholders {x : Statement} (houter : x.isOuter = false)
    (hclosing : x.isClosing = false) :
    (d.placeholders scopes x).lookup "var" = some scopes.current := by
  cases x with
  | rootOpen _ | rootClose | rootArrayOpen _ _ _ | rootArrayClose _ | rootArrayMatcher _ _ _
  | rootEmptyArray _ | fragmentOpen _ | fragmentClose => cases houter
  | objectClose | referenceClose | repeatClose _ | arrayClose => cases hclosing
  | emptyArray key => cases key <;> rfl
  | _ => rfl

/-- A closing inside a block knows the variable of its scope and the one of the scope around. -/
theorem placeholders_closing {x : Statement} (houter : x.isOuter = false)
    (hclosing : x.isClosing = true) : d.placeholders scopes x =
      [("var", scopes.enclosing), ("child", scopes.current)] := by
  cases x with
  | objectClose | referenceClose | repeatClose _ | arrayClose => rfl
  | rootClose | rootArrayClose _ | fragmentClose => cases houter
  | _ => cases hclosing

/-- The closing of a whole block knows the variable of its scope. -/
theorem placeholders_closing_block {x : Statement} (houter : x.isOuter = true)
    (hclosing : x.isClosing = true) :
    ∃ name, d.placeholders scopes x = [(name, scopes.current)] := by
  cases x with
  | rootClose | fragmentClose => exact ⟨"var", rfl⟩
  | rootArrayClose _ => exact ⟨"child", rfl⟩
  | objectClose | referenceClose | repeatClose _ | arrayClose => cases houter
  | _ => cases hclosing

/-- Outside of closings, `child` is a variable that the statement takes. -/
theorem mem_newVariables_child {x : Statement} (hclosing : x.isClosing = false) {var : String}
    (hvar : (d.placeholders scopes x).lookup "child" = some var) :
    var ∈ d.newVariables scopes x := by
  cases x with
  | rootClose | rootArrayClose _ | fragmentClose | objectClose | referenceClose | repeatClose _
  | arrayClose => cases hclosing
  | rootOpen _ | rootEmptyArray _ | fragmentOpen _ | rootArrayMatcher _ _ _ | reference _
  | repeatMatcher _ _ _ | scalar _ _ => cases hvar
  | emptyArray key =>
    cases key <;> obtain rfl : d.builderVar scopes.allocated = var := Option.some.inj hvar
    · exact List.mem_cons_self ..
    · exact List.mem_cons_self ..
  | rootArrayOpen name nesting bounds =>
    obtain rfl : d.builderVar (scopes.allocated + 1) = var := Option.some.inj hvar
    exact List.mem_cons_of_mem _ (List.mem_cons_self ..)
  | objectOpen _ | referenceOpen _ | repeatOpen _ _ _ | repeatFragment _ _ _ | arrayOpen =>
    obtain rfl : d.builderVar scopes.allocated = var := Option.some.inj hvar
    exact List.mem_cons_self ..

/-- At the beginning of a block `var` is a variable that the statement takes. -/
theorem mem_newVariables_var {x : Statement} (houter : x.isOuter = true)
    (hclosing : x.isClosing = false) {var : String}
    (hvar : (d.placeholders scopes x).lookup "var" = some var) :
    var ∈ d.newVariables scopes x := by
  cases x with
  | rootOpen _ | rootArrayOpen _ _ _ | rootArrayMatcher _ _ _ | rootEmptyArray _
  | fragmentOpen _ =>
    obtain rfl : d.builderVar scopes.allocated = var := Option.some.inj hvar
    exact List.mem_cons_self ..
  | rootClose | rootArrayClose _ | fragmentClose => cases hclosing
  | _ => cases houter

/-- What an opening binds is a variable that it has made. -/
theorem boundVar_mem_newVariables {x : Statement} (h : x.closer?.isSome = true) :
    d.boundVar scopes x ∈ d.newVariables scopes x := by
  have hpos : 0 < x.variables := by
    cases x with
    | rootOpen _ | rootArrayOpen _ _ _ | fragmentOpen _ | objectOpen _ | referenceOpen _
    | repeatOpen _ _ _ | arrayOpen => exact Nat.succ_pos _
    | _ => cases h
  refine List.mem_map_of_mem ?_
  rw [List.mem_range'_1]
  omega

/-! ## Open scopes -/

/-- The variables of the open scopes are among those that were taken. -/
def Numbered (d : Dialect) (scopes : Scopes) : Prop :=
  ∀ var ∈ scopes.bound, ∃ n < scopes.allocated, var = d.builderVar n

theorem Numbered.allocate (h : d.Numbered scopes) (count : ℕ) :
    d.Numbered (scopes.allocate count) := by
  intro var hvar
  obtain ⟨n, hn, rfl⟩ := h var hvar
  exact ⟨n, Nat.lt_add_right count hn, rfl⟩

/-- Every statement keeps the variables of the open scopes among those taken. -/
theorem Numbered.scopesAfter (h : d.Numbered scopes) (x : Statement) :
    d.Numbered (d.scopesAfter scopes x) := by
  by_cases hopens : x.closer?.isSome = true
  · rw [scopesAfter_opening hopens]
    intro var hvar
    rcases List.mem_cons.mp hvar with rfl | hvar
    · have hmem : d.boundVar scopes x ∈ d.newVariables scopes x := boundVar_mem_newVariables hopens
      obtain ⟨n, hn, heq⟩ := List.mem_map.mp hmem
      exact ⟨n, (List.mem_range'_1.mp hn).2, heq.symm⟩
    · exact h.allocate x.variables var hvar
  · by_cases hclosing : x.isClosing = true
    · rw [scopesAfter_closing hclosing]
      exact fun var hvar => h var (List.mem_of_mem_tail hvar)
    · rw [scopesAfter_single (by simpa using hopens) (by simpa using hclosing)]
      exact h.allocate x.variables

/-- Whatever is run, all open variables have numbers that were used already. -/
theorem numbered_scopesFrom (h : d.Numbered scopes) (s : List Statement) :
    d.Numbered (d.scopesFrom scopes s) := by
  induction s generalizing scopes with
  | nil => exact h
  | cons x s ih => exact ih (h.scopesAfter x)

theorem numbered_empty : d.Numbered {} := by
  intro var hvar
  cases hvar

/-- No statement takes a variable that an open scope has. -/
theorem Numbered.not_mem_bound (h : d.Numbered scopes) (x : Statement) {var : String}
    (hvar : var ∈ d.newVariables scopes x) : var ∉ scopes.bound := by
  intro hbound
  obtain ⟨n, hn, rfl⟩ := h var hbound
  obtain ⟨m, hm, heq⟩ := List.mem_map.mp hvar
  obtain rfl := d.builderVar_injective heq
  exact absurd (List.mem_range'_1.mp hm).1 (Nat.not_le.mpr hn)

/-! ## The discipline of a block -/

/-- The scopes behind the first statements of a block. -/
abbrev scopesAt (d : Dialect) (before : List Statement) : Scopes := d.scopesFrom {} before

/-- A statement behind `before` closes the scope that `opening` opened behind `outer`. -/
structure Closes (d : Dialect) (before outer : List Statement) (opening closing : Statement) :
    Prop where
  innermost : Innermost before outer opening
  closer : opening.closer? = some closing
  /-- The variable of the opening is the innermost one. -/
  bound : (d.scopesAt before).bound =
    d.boundVar (d.scopesAt outer) opening :: (d.scopesAt outer).bound
  /-- There is as much indentation as the closing takes away. -/
  depth : (d.scopesAt before).depth = (d.scopesAt outer).depth + d.levels closing
  /-- What the opening found is there again. -/
  bound_after : (d.scopesAt (before ++ [closing])).bound = (d.scopesAt outer).bound
  depth_after : (d.scopesAt (before ++ [closing])).depth = (d.scopesAt outer).depth
  /-- The closing of a whole block knows the variable of the block. -/
  outermost : outer = [] → ∃ name,
    d.placeholders (d.scopesAt before) closing = [(name, d.boundVar (d.scopesAt outer) opening)]
  /-- To any other closing, `var` is the variable of the scope around the one it closes. -/
  inner : outer ≠ [] → ∃ around enclosing, Innermost outer around enclosing ∧
    d.placeholders (d.scopesAt before) closing =
      [("var", d.boundVar (d.scopesAt around) enclosing),
        ("child", d.boundVar (d.scopesAt outer) opening)]

/-- Every closing of a block closes a scope of it. -/
theorem exists_closes {before after : List Statement} {x : Statement}
    (h : NestedBlock (before ++ x :: after)) (hclosing : x.isClosing = true) :
    ∃ outer opening, d.Closes before outer opening x := by
  have hbefore : before ≠ [] := by
    rintro rfl
    rw [h.isClosing_head] at hclosing
    cases hclosing
  obtain ⟨outer, opening, closing, houter, hcut⟩ := h.cut hbefore (List.cons_ne_nil x after)
  obtain rfl := hcut.eq_closing hclosing
  have hlevels := levels_of_closer? (d := d) hcut.closer
  have hsame := Statement.isOuter_of_closer? hcut.closer
  obtain ⟨count, hscopes⟩ := exists_scopesFrom_innermost d {} hcut.innermost
  -- The closing takes back what the opening did, and only the variables stay taken.
  have hbehind : d.scopesAt (before ++ [x]) = (d.scopesAt outer).allocate count := by
    rw [scopesAt, scopesFrom_append, scopesFrom_cons, scopesFrom_nil, scopesAfter_closing hclosing,
      hscopes, hlevels, Scopes.leave_allocate_enter]
  refine ⟨outer, opening, ⟨hcut.innermost, hcut.closer, bound_innermost hcut.innermost, ?_,
    ?_, ?_, fun hnil => ?_, fun hne => ?_⟩⟩
  · rw [hlevels]
    exact depth_innermost hcut.innermost
  · rw [hbehind]
    rfl
  · rw [hbehind]
    rfl
  · rw [← current_innermost hcut.innermost]
    exact placeholders_closing_block (hsame.trans (houter.mpr hnil)) hclosing
  · -- The opening itself stands in a scope, which is found by cutting the block there.
    have hinner : opening.isOuter = false := by simpa [hne] using houter
    obtain ⟨inside, -, hbefore⟩ := hcut.before
    rw [hbefore, List.append_assoc] at h
    obtain ⟨around, enclosing, _, -, haround⟩ := h.cut hne (List.cons_ne_nil _ _)
    refine ⟨around, enclosing, haround.innermost, ?_⟩
    rw [placeholders_closing (hsame.trans hinner) hclosing, enclosing_innermost hcut.innermost,
      current_innermost hcut.innermost, current_innermost haround.innermost]

/-- Inside a block `var` is the variable that the innermost open scope has bound. -/
theorem exists_innermost_var {before after : List Statement} {x : Statement}
    (h : NestedBlock (before ++ x :: after)) (hbefore : before ≠ [])
    (hclosing : x.isClosing = false) : ∃ outer opening, Innermost before outer opening ∧
      (d.placeholders (d.scopesAt before) x).lookup "var" =
        some (d.boundVar (d.scopesAt outer) opening) := by
  obtain ⟨outer, opening, closing, -, hcut⟩ := h.cut hbefore (List.cons_ne_nil x after)
  refine ⟨outer, opening, hcut.innermost, ?_⟩
  have houter : x.isOuter = false := by
    obtain ⟨y, before, rfl⟩ := List.exists_cons_of_ne_nil hbefore
    exact h.isOuter_of_mem_tail (by simp) hclosing
  rw [lookup_var_placeholders houter hclosing, current_innermost hcut.innermost]

/-- No statement goes deeper than the indentation of a fragment and one level more. -/
theorem levels_le (d : Dialect) (x : Statement) : d.levels x ≤ d.fragmentIndent.toNat + 1 := by
  cases x with
  | fragmentOpen _ | fragmentClose => exact Nat.le_succ _
  | _ => exact Nat.le_add_left _ _

/-- Inside a block every scope is one level deep. -/
theorem levels_of_not_isOuter {x : Statement} (h : x.isOuter = false) : d.levels x = 1 := by
  cases x with
  | fragmentOpen _ | fragmentClose => cases h
  | _ => rfl

/-- Indentation never exceeds the step of a fragment and one level for every open scope. -/
theorem depth_le {before after : List Statement} (h : NestedBlock (before ++ after)) :
    (d.scopesFrom {} before).depth ≤
      d.fragmentIndent.toNat + (d.scopesFrom {} before).bound.length := by
  induction hlength : before.length using Nat.strongRecOn generalizing before after with
  | ind length ih =>
    rcases eq_or_ne before [] with rfl | hbefore
    · exact Nat.zero_le _
    rcases eq_or_ne after [] with rfl | hafter
    · rw [List.append_nil] at h
      rw [scopesFrom_nestedBlock h]
      exact Nat.zero_le _
    obtain ⟨outer, opening, closing, houter, hcut⟩ := h.cut hbefore hafter
    rw [depth_innermost hcut.innermost, bound_innermost hcut.innermost, List.length_cons]
    rcases eq_or_ne outer [] with rfl | hne
    · have := d.levels_le opening
      simpa using this
    · -- Only a whole block indents by more than one level, and it has nothing around it.
      have hinner : opening.isOuter = false := by simpa [hne] using houter
      obtain ⟨inner, -, rfl⟩ := hcut.before
      rw [List.append_assoc] at h
      have := ih outer.length (by rw [← hlength]; simp) h rfl
      rw [levels_of_not_isOuter hinner]
      omega

end Dialect

/-- The scopes of a block are opened and closed like brackets, and every builder variable in its
text is known where it stands. The placeholders for variables are `var` and `child`. -/
structure ScopeDiscipline (d : Dialect) (statements : List Statement) : Prop where
  /-- Every statement is written by its template and its placeholders in the scopes that the
  statements before it leave. -/
  text : ∀ before x after, statements = before ++ x :: after →
    d.renderFrom {} statements = d.renderFrom {} before ++
      d.lines (d.lineDepth (d.scopesAt before) x) (d.template x)
        (d.placeholders (d.scopesAt before) x) ++
      d.renderFrom (d.scopesAt (before ++ [x])) after
  /-- Every closing gives back what the opening of its scope found. -/
  closes : ∀ before x after, statements = before ++ x :: after → x.isClosing = true →
    ∃ outer opening, d.Closes before outer opening x
  /-- Inside the block `var` is the variable that the innermost open scope has bound. -/
  inside : ∀ before x after, statements = before ++ x :: after → before ≠ [] →
    x.isClosing = false → ∃ outer opening, Innermost before outer opening ∧
      (d.placeholders (d.scopesAt before) x).lookup "var" =
        some (d.boundVar (d.scopesAt outer) opening)
  /-- At its beginning `var` is a variable that the statement takes. -/
  first : ∀ x after var, statements = x :: after →
    (d.placeholders {} x).lookup "var" = some var → var ∈ d.newVariables {} x
  /-- So is `child`, outside of closings. -/
  child : ∀ before x after var, statements = before ++ x :: after → x.isClosing = false →
    (d.placeholders (d.scopesAt before) x).lookup "child" = some var →
    var ∈ d.newVariables (d.scopesAt before) x
  /-- An opening binds a variable that it takes. -/
  binds : ∀ before x after, statements = before ++ x :: after → x.closer?.isSome = true →
    d.boundVar (d.scopesAt before) x ∈ d.newVariables (d.scopesAt before) x
  /-- No statement takes a variable that an open scope has. -/
  fresh : ∀ before x after, statements = before ++ x :: after →
    ∀ var ∈ d.newVariables (d.scopesAt before) x, var ∉ (d.scopesAt before).bound
  /-- No variable is taken twice. -/
  nodup : (d.variablesFrom {} statements).Nodup
  /-- The indentation is bounded by the step of a fragment and the number of open scopes. -/
  depth_le : ∀ before after, statements = before ++ after →
    (d.scopesAt before).depth ≤ d.fragmentIndent.toNat + (d.scopesAt before).bound.length
  /-- Nothing is left open. -/
  final_bound : (d.scopesAt statements).bound = []
  final_depth : (d.scopesAt statements).depth = 0

/-- Statements that make up one block keep the discipline in every dialect. -/
theorem NestedBlock.keepsScopes {statements : List Statement} (h : NestedBlock statements)
    (d : Dialect) : ScopeDiscipline d statements where
  text := by
    rintro before x after rfl
    rw [Dialect.renderFrom_append, Dialect.renderFrom, Dialect.statementLines_eq,
      Dialect.scopesAt, Dialect.scopesAt, Dialect.scopesFrom_append, List.append_assoc]
    rfl
  closes := by
    rintro before x after rfl hclosing
    exact Dialect.exists_closes h hclosing
  inside := by
    rintro before x after rfl hbefore hclosing
    exact Dialect.exists_innermost_var h hbefore hclosing
  first := by
    rintro x after var rfl hvar
    exact Dialect.mem_newVariables_var h.isOuter_head h.isClosing_head hvar
  child := fun _ _ _ _ _ hclosing hvar => Dialect.mem_newVariables_child hclosing hvar
  binds := fun _ _ _ _ hopens => Dialect.boundVar_mem_newVariables hopens
  fresh := fun before x _ _ _ hvar =>
    (Dialect.numbered_scopesFrom Dialect.numbered_empty before).not_mem_bound x hvar
  nodup := Dialect.variablesFrom_nodup {} statements
  depth_le := by
    rintro before after rfl
    exact Dialect.depth_le h
  final_bound := by
    rw [Dialect.scopesAt, Dialect.scopesFrom_nestedBlock h]
    rfl
  final_depth := by
    rw [Dialect.scopesAt, Dialect.scopesFrom_nestedBlock h]
    rfl

/-- Every drafted block keeps the discipline, whatever the plan, the document and the dialect. -/
theorem Drafter.scopeDiscipline (d : Drafter) (document : Value) (dialect : Dialect) {block : Block}
    (h : block ∈ (d.draft document).blocks) : ScopeDiscipline dialect block.statements :=
  (d.nestedBlock document h).keepsScopes dialect

/-- The text of an order binds three variables, the last of them in a single statement. -/
theorem Drafter.scopeDiscipline_order :
    let config := Config.small true
    let drafter := config.drafter (config.planner.plan .order)
    let root := (drafter.draft .order).root
    root ∈ (drafter.draft .order).blocks ∧ ScopeDiscipline .lambda root.statements ∧
      Dialect.lambda.variablesFrom {} root.statements = ["o", "o1", "o2"] := by
  intro config drafter root
  have hroot : root ∈ (drafter.draft .order).blocks := by simp [Draft.blocks, root]
  exact ⟨hroot, drafter.scopeDiscipline .order .lambda hroot, by decide +kernel⟩

end ContractDraft
