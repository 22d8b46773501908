import ContractDraft.Proofs.Contract.References

/-!
# Scopes of statements

Which statement closes which scope is told by the statements alone: `WellNested` lists close all
that they open, each scope by the statement that belongs to its opening. Wherever such a list is
cut, what is left open begins with an innermost scope (`WellNested.split`). The drafter writes one
scope around well-nested statements, or a single statement that is a whole document
(`Drafter.nestedBlock`).
-/

namespace ContractDraft

/-! ## Openings and closings -/

namespace Statement

/-- The statement that closes the scope which a statement opens. -/
def closer? : Statement → Option Statement
  | .rootOpen _ => some .rootClose
  | .rootArrayOpen _ nesting _ => some (.rootArrayClose nesting)
  | .fragmentOpen _ => some .fragmentClose
  | .objectOpen _ => some .objectClose
  | .referenceOpen _ => some .referenceClose
  | .repeatOpen _ nesting _ => some (.repeatClose nesting)
  | .arrayOpen => some .arrayClose
  | _ => none

/-- Whether a statement closes a scope. -/
def isClosing : Statement → Bool
  | .rootClose | .rootArrayClose _ | .fragmentClose | .objectClose | .referenceClose
  | .repeatClose _ | .arrayClose => true
  | _ => false

/-- The statements that whole blocks begin and end with. -/
def isOuter : Statement → Bool
  | .rootOpen _ | .rootClose | .rootArrayOpen .. | .rootArrayClose _ | .rootArrayMatcher ..
  | .rootEmptyArray _ | .fragmentOpen _ | .fragmentClose => true
  | _ => false

/-- What closes a statement is a closing. -/
theorem isClosing_of_closer? {opening closing : Statement} (h : opening.closer? = some closing) :
    closing.isClosing = true := by
  cases opening with
  | rootOpen _ | rootArrayOpen _ _ _ | fragmentOpen _ | objectOpen _ | referenceOpen _
  | repeatOpen _ _ _ | arrayOpen =>
    obtain rfl := Option.some.inj h
    rfl
  | _ => cases h

/-- A block is closed by what closes blocks. -/
theorem isOuter_of_closer? {opening closing : Statement} (h : opening.closer? = some closing) :
    closing.isOuter = opening.isOuter := by
  cases opening with
  | rootOpen _ | rootArrayOpen _ _ _ | fragmentOpen _ | objectOpen _ | referenceOpen _
  | repeatOpen _ _ _ | arrayOpen =>
    obtain rfl := Option.some.inj h
    rfl
  | _ => cases h

/-- A closing opens nothing. -/
theorem closer?_of_isClosing {x : Statement} (h : x.isClosing = true) : x.closer? = none := by
  cases x with
  | rootClose | rootArrayClose _ | fragmentClose | objectClose | referenceClose | repeatClose _
  | arrayClose => rfl
  | _ => cases h

end Statement

/-! ## Well-nested lists -/

/-- Every scope that the statements open is closed by the statement that belongs to its opening, and
nothing else is closed. -/
inductive WellNested : List Statement → Prop where
  | nil : WellNested []
  | single {x : Statement} {rest : List Statement} : x.isOuter = false → x.closer? = none →
      x.isClosing = false → WellNested rest → WellNested (x :: rest)
  | scope {opening closing : Statement} {inner rest : List Statement} :
      opening.isOuter = false → opening.closer? = some closing → WellNested inner →
      WellNested rest → WellNested (opening :: inner ++ closing :: rest)

/-- A single scope around well-nested statements, or a single statement. -/
inductive NestedBlock : List Statement → Prop where
  | scope {opening closing : Statement} {inner : List Statement} : opening.isOuter = true →
      opening.closer? = some closing → WellNested inner →
      NestedBlock (opening :: inner ++ [closing])
  | single {x : Statement} : x.isOuter = true → x.closer? = none → x.isClosing = false →
      NestedBlock [x]

namespace WellNested

/-- Well-nested lists one behind the other are well-nested. -/
theorem append {s t : List Statement} (hs : WellNested s) (ht : WellNested t) :
    WellNested (s ++ t) := by
  induction hs with
  | nil => exact ht
  | single houter hcloser hclosing _ ih => exact .single houter hcloser hclosing ih
  | scope houter hcloser hinner _ _ ih =>
    rw [List.append_assoc]
    exact .scope houter hcloser hinner ih

/-- A well-nested list may be put between an opening and its closing. -/
theorem enclose {opening closing : Statement} {s : List Statement}
    (houter : opening.isOuter = false) (hcloser : opening.closer? = some closing)
    (hs : WellNested s) : WellNested (opening :: s ++ [closing]) :=
  .scope houter hcloser hs .nil

/-- No block begins inside a well-nested list. -/
theorem isOuter_of_mem {s : List Statement} (hs : WellNested s) :
    ∀ x ∈ s, x.isOuter = false := by
  induction hs with
  | nil => simp
  | single houter _ _ _ ih => simpa using ⟨houter, ih⟩
  | scope houter hcloser _ _ ihinner ihrest =>
    have hclosing := (Statement.isOuter_of_closer? hcloser).trans houter
    intro x hx
    simp only [List.cons_append, List.mem_cons, List.mem_append] at hx
    rcases hx with rfl | hx | rfl | hx
    · exact houter
    · exact ihinner x hx
    · exact hclosing
    · exact ihrest x hx

/-- Nothing is closed before it is opened. -/
theorem not_cons {x : Statement} {s : List Statement} (hx : x.isClosing = true) :
    ¬ WellNested (x :: s) := by
  intro h
  generalize hwhole : x :: s = whole at h
  cases h with
  | nil => cases hwhole
  | single _ _ hclosing _ =>
    obtain ⟨rfl, -⟩ := List.cons.inj hwhole
    rw [hx] at hclosing
    cases hclosing
  | scope _ hcloser _ _ =>
    obtain ⟨rfl, -⟩ := List.cons.inj hwhole
    rw [Statement.closer?_of_isClosing hx] at hcloser
    cases hcloser

end WellNested

/-! ## Cutting a list -/

/-- At the end of `before` the scope that `opening` opened behind `outer` is open, and it is the
innermost one: all that was opened since has been closed. -/
structure Innermost (before outer : List Statement) (opening : Statement) : Prop where
  opens : opening.closer?.isSome = true
  exists_inner : ∃ inner, WellNested inner ∧ before = outer ++ opening :: inner

/-- After `before` come statements that leave the innermost open scope with `closing`. -/
structure Cut (before after outer : List Statement) (opening closing : Statement) : Prop where
  closer : opening.closer? = some closing
  before : ∃ inner, WellNested inner ∧ before = outer ++ opening :: inner
  after : ∃ inner rest, WellNested inner ∧ after = inner ++ closing :: rest

namespace Cut

variable {before after outer : List Statement} {opening closing : Statement}

/-- Where a list is cut inside a scope, this scope is the innermost. -/
theorem innermost (h : Cut before after outer opening closing) : Innermost before outer opening :=
  ⟨by rw [h.closer]; rfl, h.before⟩

/-- More statements may stand around both parts. -/
theorem extend (h : Cut before after outer opening closing) (s t : List Statement) :
    Cut (s ++ before) (after ++ t) (s ++ outer) opening closing := by
  obtain ⟨inner, hinner, rfl⟩ := h.before
  obtain ⟨others, rest, hothers, rfl⟩ := h.after
  exact ⟨h.closer, ⟨inner, hinner, by simp⟩, ⟨others, rest ++ t, hothers, by simp⟩⟩

/-- A closing statement right behind the cut closes the innermost scope. -/
theorem eq_closing {x : Statement} {rest : List Statement} (hx : x.isClosing = true)
    (h : Cut before (x :: rest) outer opening closing) : x = closing := by
  obtain ⟨inner, others, hinner, hafter⟩ := h.after
  cases inner with
  | nil => exact (List.cons.inj hafter).1
  | cons y inner =>
    obtain ⟨rfl, -⟩ := List.cons.inj hafter
    exact absurd hinner (WellNested.not_cons hx)

end Cut

/-- Wherever a well-nested list is cut, both parts are well-nested or the cut goes through an
innermost scope. -/
theorem WellNested.split {s : List Statement} (hs : WellNested s) :
    ∀ before after : List Statement, s = before ++ after →
      (WellNested before ∧ WellNested after) ∨
        ∃ outer opening closing, opening.isOuter = false ∧
          Cut before after outer opening closing := by
  induction hs with
  | nil =>
    intro before after h
    obtain ⟨rfl, rfl⟩ := List.append_eq_nil_iff.mp h.symm
    exact .inl ⟨.nil, .nil⟩
  | @single x rest houter hcloser hclosing hrest ih =>
    intro before after h
    cases before with
    | nil =>
      obtain rfl : x :: rest = after := h
      exact .inl ⟨.nil, .single houter hcloser hclosing hrest⟩
    | cons y before =>
      obtain ⟨rfl, hsplit⟩ := List.cons.inj h
      rcases ih before after hsplit with ⟨hbefore, hafter⟩ | ⟨outer, opening, closing, hopen, hcut⟩
      · exact .inl ⟨.single houter hcloser hclosing hbefore, hafter⟩
      · exact .inr ⟨_, opening, closing, hopen, by simpa using hcut.extend [x] []⟩
  | @scope opening closing inner rest houter hcloser hinner hrest ihinner ihrest =>
    intro before after h
    cases before with
    | nil =>
      obtain rfl : opening :: inner ++ closing :: rest = after := h
      exact .inl ⟨.nil, .scope houter hcloser hinner hrest⟩
    | cons y before =>
      obtain ⟨rfl, hsplit⟩ := List.cons.inj h
      rcases List.append_eq_append_iff.mp hsplit with
        ⟨behind, rfl, hafter⟩ | ⟨others, rfl, rfl⟩
      · -- The cut is behind what the scope encloses.
        cases behind with
        | nil =>
          -- The scope is about to be closed.
          exact .inr ⟨[], opening, closing, houter, hcloser, ⟨inner, hinner, by simp⟩,
            ⟨[], rest, .nil, hafter.symm⟩⟩
        | cons z behind =>
          obtain ⟨rfl, hrestSplit⟩ := List.cons.inj hafter
          rcases ihrest behind after hrestSplit with
            ⟨hbehind, hafter⟩ | ⟨outer, next, closing', hopen, hcut⟩
          · exact .inl ⟨.scope houter hcloser hinner hbehind, hafter⟩
          · exact .inr ⟨_, next, closing', hopen,
              by simpa using hcut.extend (opening :: inner ++ [closing]) []⟩
      · -- The cut is inside: the scope is the innermost one, or encloses it.
        rcases ihinner before others rfl with
          ⟨hbefore, hothers⟩ | ⟨outer, next, closing', hopen, hcut⟩
        · exact .inr ⟨[], opening, closing, houter, hcloser, ⟨before, hbefore, rfl⟩,
            ⟨others, rest, hothers, rfl⟩⟩
        · exact .inr ⟨_, next, closing', hopen, hcut.extend [opening] (closing :: rest)⟩

namespace NestedBlock

/-- No block begins with a closing. -/
theorem isClosing_head {x : Statement} {rest : List Statement} (h : NestedBlock (x :: rest)) :
    x.isClosing = false := by
  generalize hwhole : x :: rest = whole at h
  cases h with
  | scope _ hcloser _ =>
    obtain ⟨rfl, -⟩ := List.cons.inj hwhole
    by_contra hclosing
    rw [Statement.closer?_of_isClosing (by simpa using hclosing)] at hcloser
    cases hcloser
  | single _ _ hclosing =>
    obtain ⟨rfl, -⟩ := List.cons.inj hwhole
    exact hclosing

theorem isOuter_head {x : Statement} {rest : List Statement} (h : NestedBlock (x :: rest)) :
    x.isOuter = true := by
  generalize hwhole : x :: rest = whole at h
  cases h with
  | scope houter _ _ | single houter _ _ =>
    obtain ⟨rfl, -⟩ := List.cons.inj hwhole
    exact houter

/-- Behind its first statement a block has no other that stands for a whole block, apart from its
closing. -/
theorem isOuter_of_mem_tail {x y : Statement} {rest : List Statement}
    (h : NestedBlock (x :: rest)) (hy : y ∈ rest) (hclosing : y.isClosing = false) :
    y.isOuter = false := by
  generalize hwhole : x :: rest = whole at h
  cases h with
  | @scope opening closing inner _ hcloser hinner =>
    obtain ⟨rfl, rfl⟩ := List.cons.inj hwhole
    rcases List.mem_append.mp hy with hy | hy
    · exact hinner.isOuter_of_mem y hy
    · obtain rfl := List.mem_singleton.mp hy
      rw [Statement.isClosing_of_closer? hcloser] at hclosing
      cases hclosing
  | single _ _ _ =>
    obtain ⟨rfl, rfl⟩ := List.cons.inj hwhole
    cases hy

/-- A block that is cut inside is cut through an innermost scope, which is the block's own only if
nothing stands before its opening. -/
theorem cut {before after : List Statement} (h : NestedBlock (before ++ after))
    (hbefore : before ≠ []) (hafter : after ≠ []) :
    ∃ outer opening closing, (opening.isOuter = true ↔ outer = []) ∧
      Cut before after outer opening closing := by
  generalize hwhole : before ++ after = whole at h
  obtain ⟨x, before, rfl⟩ := List.exists_cons_of_ne_nil hbefore
  obtain ⟨after, y, rfl⟩ := (List.eq_nil_or_concat' after).resolve_left hafter
  cases h with
  | @scope opening closing inner houter hcloser hinner =>
    rw [← List.append_assoc] at hwhole
    obtain ⟨hstart, hend⟩ := List.append_inj' hwhole rfl
    obtain ⟨rfl, hinside⟩ := List.cons.inj hstart
    obtain rfl : y = closing := List.head_eq_of_cons_eq hend
    rcases hinner.split before after hinside.symm with
      ⟨hbefore, hafter⟩ | ⟨outer, next, closing', hnext, hcut⟩
    · exact ⟨[], x, y, by simpa using houter, hcloser, ⟨before, hbefore, rfl⟩,
        ⟨after, [], hafter, rfl⟩⟩
    · exact ⟨x :: outer, next, closing', by simpa using hnext, hcut.extend [x] [y]⟩
  | single _ _ _ => simp at hwhole

end NestedBlock

/-! ## Drafted blocks -/

namespace Drafter

variable (d : Drafter)

/-- Wherever a value stands, its statements and what they stand around are well-nested. -/
structure Nests (v : Value) : Prop where
  statements : ∀ key path, WellNested (d.statements key path v)
  contents : ∀ path, WellNested (d.contents path v)

theorem wellNested_referenceTo (key : Option String) (name : String) :
    WellNested (referenceTo key name) := by
  have hreference : WellNested [.reference name] := .single rfl rfl rfl .nil
  exact .enclose rfl rfl hreference

/-- The fields of an object are well-nested if their values are. -/
theorem wellNested_contents_object {fields : Fields} (h : ∀ field ∈ fields, d.Nests field.2)
    (path : Path) : WellNested (d.contents path (.object fields)) := by
  induction fields with
  | nil =>
    rw [contents_object_nil]
    exact .nil
  | cons field rest ih =>
    rw [contents_object_cons]
    have hhead := (h field (List.mem_cons_self ..)).statements (some field.1) (path.child field.1)
    exact hhead.append (ih fun other hmem => h other (List.mem_cons_of_mem _ hmem))

/-- An array under a key is one scope, or one statement that needs none. -/
theorem wellNested_items {first : Value} (h : d.Nests first) (key : String) (path : Path)
    (rest : List Value) :
    WellNested (d.statements (some key) path (.array (first :: rest))) := by
  cases first with
  | object fields =>
    cases hname : d.plan.nameAt? path.element with
    | some name =>
      rw [statements_objects_of_some hname]
      exact .single rfl rfl rfl .nil
    | none =>
      rw [statements_objects_of_none hname]
      exact .enclose rfl rfl (h.contents path.element)
  | array inner =>
    rw [statements_arrays]
    exact .enclose rfl rfl (h.contents path.element)
  | _ =>
    rw [statements_scalars d rfl]
    exact .single rfl rfl rfl .nil

/-- What is drafted for a value closes all scopes that it opens. -/
theorem nests (v : Value) : d.Nests v := by
  induction v using Value.visit_induction with
  | object fields ih =>
    have hcontents := d.wellNested_contents_object ih
    refine ⟨fun key path => ?_, hcontents⟩
    cases hname : d.plan.nameAt? path with
    | some name =>
      rw [statements_object_of_some hname]
      exact wellNested_referenceTo key name
    | none =>
      rw [statements_object_of_none hname]
      exact .enclose rfl rfl (hcontents path)
  | empty =>
    refine ⟨fun key path => ?_, fun path => ?_⟩
    · rw [statements_empty]
      exact .single rfl rfl rfl .nil
    · rw [contents_array_nil]
      exact .nil
  | array first rest ih =>
    have hcontents (path : Path) : WellNested (d.contents path (.array (first :: rest))) := by
      rw [contents_array_cons]
      exact ih.statements none path.element
    refine ⟨fun key path => ?_, hcontents⟩
    cases key with
    | none =>
      rw [statements_item_array]
      exact .enclose rfl rfl (hcontents path)
    | some key => exact d.wellNested_items ih key path rest
  | scalar v hv =>
    refine ⟨fun key path => ?_, fun path => ?_⟩
    · rw [statements_scalar d hv]
      exact .single rfl rfl rfl .nil
    · rw [contents_scalar d hv]
      exact .nil

/-- Every document is drafted as one nested block. -/
theorem nestedBlock_rootStatements (document : Value) :
    NestedBlock (d.rootStatements document) := by
  cases document using Value.visit_induction with
  | object fields _ =>
    rw [rootStatements_object]
    exact .scope rfl rfl ((d.nests _).contents .root)
  | empty =>
    rw [rootStatements_empty]
    exact .single rfl rfl rfl
  | array first rest _ =>
    cases hnesting : first.nesting? with
    | some nesting =>
      rw [rootStatements_nested d hnesting]
      exact .scope rfl rfl ((d.nests first).contents _)
    | none =>
      rw [rootStatements_scalars d (Value.nesting?_eq_none_iff.mp hnesting)]
      exact .single rfl rfl rfl
  | scalar v hv =>
    rw [rootStatements_scalar d hv]
    have hmatcher : WellNested [.scalar none (d.matcher none document)] := .single rfl rfl rfl .nil
    exact .scope rfl rfl hmatcher

/-- Every block of a draft is a scope around well-nested statements, or a single statement. -/
theorem nestedBlock (document : Value) {block : Block}
    (h : block ∈ (d.draft document).blocks) : NestedBlock block.statements := by
  rcases List.mem_append.mp h with hfragment | hroot
  · obtain ⟨f, _, rfl⟩ := List.mem_map.mp hfragment
    rw [statements_fragmentBlock]
    exact .scope rfl rfl ((d.nests _).contents f.path)
  · obtain rfl := List.mem_singleton.mp hroot
    exact d.nestedBlock_rootStatements document

end Drafter
end ContractDraft
