import ContractDraft.Generator.Run
import ContractDraft.Proofs.Contract.Draft
import ContractDraft.Proofs.Fragment.Sampled

/-!
# Contracts of sampled documents

Only first items matter: no fragment and no line of a contract depends on any other item of an
array, so a document and its sample have one contract (`Config.generateValue_sampled`). The plan is
known to be the same up to the fields that it records; what remains is that a draft under such a
plan never looks beyond a first item.
-/

namespace ContractDraft

theorem Value.nesting?_sampled (v : Value) : v.sampled.nesting? = v.nesting? := by
  cases v using Value.visit_induction with
  | object fields _ => rw [sampled_object, nesting?, nesting?]
  | empty => rw [sampled_empty]
  | array first rest _ => rw [sampled_array, nesting?, nesting?]
  | scalar v hv => rw [sampled_scalar hv]

namespace Drafter

/-! ## Statements of a value -/

/-- The drafter for sampled documents. -/
def sampled (d : Drafter) : Drafter := { d with plan := d.plan.sampled }

variable {d : Drafter}

theorem sampled_nameAt? (d : Drafter) (path : Path) :
    d.sampled.plan.nameAt? path = d.plan.nameAt? path :=
  d.plan.nameAt?_sampled path

/-- Wherever the value stands, sampling it does not change its statements. -/
structure DraftsSampled (d : Drafter) (v : Value) : Prop where
  statements : ∀ key path, d.sampled.statements key path v.sampled = d.statements key path v
  contents : ∀ path, d.sampled.contents path v.sampled = d.contents path v

theorem contents_sampledFields {fields : Fields} (ih : ∀ field ∈ fields, d.DraftsSampled field.2)
    (path : Path) :
    d.sampled.contents path (.object (sampledFields fields)) = d.contents path (.object fields) := by
  induction fields with
  | nil => rw [sampledFields_nil, contents_object_nil, contents_object_nil]
  | cons field rest ihfields =>
    rw [sampledFields_cons, contents_object_cons, contents_object_cons,
      (ih _ (List.mem_cons_self ..)).statements,
      ihfields fun other hmem => ih other (List.mem_cons_of_mem _ hmem)]

theorem statements_object_sampled {fields : Fields} {path : Path}
    (h : d.sampled.contents path (.object (sampledFields fields)) =
      d.contents path (.object fields)) (key : Option String) :
    d.sampled.statements key path (.object (sampledFields fields)) =
      d.statements key path (.object fields) := by
  have hplan := d.sampled_nameAt? path
  cases hname : d.plan.nameAt? path with
  | some name =>
    rw [statements_object_of_some (hplan.trans hname), statements_object_of_some hname]
  | none =>
    rw [statements_object_of_none (hplan.trans hname), statements_object_of_none hname, h]

/-- An array under a key is described by its first item, which may be a reference. -/
theorem statements_items_sampled {first : Value} (h : d.DraftsSampled first) (key : String)
    (path : Path) (rest : List Value) :
    d.sampled.statements (some key) path (.array [first.sampled]) =
      d.statements (some key) path (.array (first :: rest)) := by
  have hcontents := h.contents path.element
  have hplan := d.sampled_nameAt? path.element
  -- Only an object can be a reference; that is where the plan is asked.
  cases first using Value.visit_induction with
  | object fields _ =>
    rw [Value.sampled_object] at hcontents ⊢
    cases hname : d.plan.nameAt? path.element with
    | some name =>
      rw [statements_objects_of_some (hplan.trans hname), statements_objects_of_some hname]
      rfl
    | none =>
      rw [statements_objects_of_none (hplan.trans hname), statements_objects_of_none hname,
        hcontents]
      rfl
  | empty =>
    rw [Value.sampled_empty] at hcontents ⊢
    rw [statements_arrays, statements_arrays, hcontents]
    rfl
  | array inner others _ =>
    rw [Value.sampled_array] at hcontents ⊢
    rw [statements_arrays, statements_arrays, hcontents]
    rfl
  | scalar v hv =>
    rw [Value.sampled_scalar hv, statements_scalars _ hv, statements_scalars _ hv]
    rfl

theorem draftsSampled (d : Drafter) (v : Value) : d.DraftsSampled v := by
  induction v using Value.visit_induction with
  | object fields ih =>
    have hcontents := contents_sampledFields ih
    refine ⟨fun key path => ?_, fun path => ?_⟩
    · rw [Value.sampled_object]
      exact statements_object_sampled (hcontents path) key
    · rw [Value.sampled_object, hcontents]
  | empty =>
    refine ⟨fun key path => ?_, fun path => ?_⟩
    · rw [Value.sampled_empty, statements_empty, statements_empty]
    · rw [Value.sampled_empty, contents_array_nil, contents_array_nil]
  | array first rest ih =>
    have hcontents (path : Path) : d.sampled.contents path (.array [first.sampled]) =
        d.contents path (.array (first :: rest)) := by
      rw [contents_array_cons, contents_array_cons, ih.statements]
    refine ⟨fun key path => ?_, fun path => ?_⟩
    · rw [Value.sampled_array]
      cases key with
      | none => rw [statements_item_array, statements_item_array, hcontents]
      | some key => exact statements_items_sampled ih key path rest
    · rw [Value.sampled_array, hcontents]
  | scalar v hv =>
    refine ⟨fun key path => ?_, fun path => ?_⟩
    · rw [Value.sampled_scalar hv, statements_scalar _ hv, statements_scalar _ hv]
      rfl
    · rw [Value.sampled_scalar hv, contents_scalar _ hv, contents_scalar _ hv]

/-! ## Whole drafts -/

theorem rootStatements_sampled (d : Drafter) (document : Value) :
    d.sampled.rootStatements document.sampled = d.rootStatements document := by
  have hcontents (v : Value) (path : Path) := (d.draftsSampled v).contents path
  cases document using Value.visit_induction with
  | object fields _ =>
    have hfields := hcontents (.object fields) .root
    rw [Value.sampled_object] at hfields ⊢
    rw [rootStatements_object, rootStatements_object, hfields]
    rfl
  | empty =>
    rw [Value.sampled_empty, rootStatements_empty, rootStatements_empty]
    rfl
  | array first rest _ =>
    rw [Value.sampled_array]
    cases hnesting : first.nesting? with
    | some nesting =>
      rw [rootStatements_nested _ (first.nesting?_sampled.trans hnesting),
        rootStatements_nested _ hnesting, hcontents]
      rfl
    | none =>
      have hfirst := Value.nesting?_eq_none_iff.mp hnesting
      rw [Value.sampled_scalar hfirst, rootStatements_scalars _ hfirst,
        rootStatements_scalars _ hfirst]
      rfl
  | scalar v hv =>
    rw [Value.sampled_scalar hv, rootStatements_scalar _ hv, rootStatements_scalar _ hv]
    rfl

theorem fragmentBlock_sampled (d : Drafter) (f : Decision) :
    d.sampled.fragmentBlock f.sampled = d.fragmentBlock f := by
  have hcontents := (d.draftsSampled (.object f.fields)).contents f.path
  rw [Value.sampled_object] at hcontents
  have hstatements : (d.sampled.fragmentBlock f.sampled).statements =
      (d.fragmentBlock f).statements := by
    rw [statements_fragmentBlock, statements_fragmentBlock, ← hcontents]
    rfl
  exact congrArg (Block.mk f.name (some f.path)) hstatements

theorem draft_sampled (d : Drafter) (document : Value) :
    d.sampled.draft document.sampled = d.draft document := by
  have hroot : d.sampled.rootBlock document.sampled = d.rootBlock document :=
    congrArg (Block.mk d.rootName none) (d.rootStatements_sampled document)
  have hfragments : d.sampled.plan.fragments.map d.sampled.fragmentBlock =
      d.plan.fragments.map d.fragmentBlock := by
    show d.plan.sampled.fragments.map _ = _
    rw [Plan.fragments_sampled, List.map_map]
    exact List.map_congr_left fun f _ => d.fragmentBlock_sampled f
  rw [draft, draft, hroot, hfragments]

end Drafter

namespace Config

/-- A configuration drafts a document and its sample alike. -/
theorem draft_sampled (config : Config) (document : Value) :
    config.draft document.sampled = config.draft document := by
  rw [draft, draft, Planner.plan_sampled]
  exact (config.drafter (config.planner.plan document)).draft_sampled document

/-- A document and its sample have the same contract, and so have any two documents of one
sample. -/
theorem generateValue_sampled (config : Config) (document : Value) :
    config.generateValue document.sampled = config.generateValue document ∧
      ∀ other : Value, document.sampled = other.sampled →
        config.generateValue document = config.generateValue other := by
  have hsample (v : Value) : config.generateValue v.sampled = config.generateValue v := by
    rw [generateValue, generateValue, draft_sampled]
  refine ⟨hsample document, fun other hsame => ?_⟩
  calc config.generateValue document = config.generateValue document.sampled :=
        (hsample document).symm
    _ = config.generateValue other.sampled := by rw [hsame]
    _ = config.generateValue other := hsample other

/-- Further deliveries are not seen, whatever they are. -/
theorem generateValue_sampled_deliveries :
    let party : Value := .object [("name", .string "Bob"), ("zip", .integer 2)]
    let single : Value := .object [("delivery", .array [party])]
    let mixed : Value := .object [("delivery", .array [party, .null, .object [("late", .array [])]])]
    mixed.sampled = single.sampled ∧
      (small true).generateValue mixed.sampled = (small true).generateValue mixed ∧
        (small true).generateValue mixed = (small true).generateValue single := by
  intro party single mixed
  have hsame : mixed.sampled = single.sampled := by simp [mixed, single]
  obtain ⟨hsample, hothers⟩ := (small true).generateValue_sampled mixed
  exact ⟨hsame, hsample, hothers single hsame⟩

end Config
end ContractDraft
