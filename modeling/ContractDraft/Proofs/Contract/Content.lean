import ContractDraft.Proofs.Contract.Draft

/-!
# What statements stand for

A statement stands for a fragment, for a scalar, or for no value of its own, as those do that open
and close a scope. Read in this way, an array is its first item, under a key and without one
(`content_statements_array`), and so is a document (`content_rootStatements`).
-/

namespace ContractDraft

/-- What a statement stands for. -/
inductive Content where
  | fragment (name : String)
  | scalar (matcher : Matcher)

/-- What a statement stands for, if it stands for a value. -/
def Statement.content? : Statement → Option Content
  | .reference name => some (.fragment name)
  | .repeatFragment _ name _ => some (.fragment name)
  | .rootArrayMatcher _ m _ => some (.scalar m)
  | .repeatMatcher _ m _ => some (.scalar m)
  | .scalar _ m => some (.scalar m)
  | _ => none

/-- What some statements stand for, in order. -/
def content (statements : List Statement) : List Content :=
  statements.filterMap Statement.content?

/-- What opens and closes a scope stands for nothing. -/
theorem content_enclosed {opening closing : Statement} (ho : opening.content? = none)
    (hc : closing.content? = none) (s : List Statement) :
    content (opening :: s ++ [closing]) = content s := by
  rw [content, List.cons_append, List.filterMap_cons_none ho, List.filterMap_append,
    List.filterMap_cons_none hc, List.filterMap_nil, List.append_nil]
  rfl

namespace Drafter

variable (d : Drafter)

/-- Inside an array, an array is read as its first item. -/
theorem content_contents_array (path : Path) (items : List Value) :
    content (d.contents path (.array items)) = content (d.statements none path (.array items)) := by
  cases items with
  | nil =>
    rw [contents_array_nil, statements_empty]
    rfl
  | cons first rest => rw [statements_item_array, content_enclosed rfl rfl]

theorem content_statements_array (key : Option String) (path : Path) (first : Value)
    (rest : List Value) : content (d.statements key path (.array (first :: rest))) =
      content (d.statements none path.element first) := by
  cases key with
  | none => rw [← content_contents_array, contents_array_cons]
  | some key =>
    cases first using Value.visit_induction with
    | object fields _ =>
      cases hname : d.plan.nameAt? path.element with
      | some name =>
        rw [statements_objects_of_some hname, statements_object_of_some hname]
        rfl
      | none =>
        rw [statements_objects_of_none hname, statements_object_of_none hname,
          content_enclosed rfl rfl, content_enclosed rfl rfl]
    | empty => rw [statements_arrays, content_enclosed rfl rfl, content_contents_array]
    | array _ _ _ => rw [statements_arrays, content_enclosed rfl rfl, content_contents_array]
    | scalar v h =>
      rw [statements_scalars d h, statements_scalar d h]
      rfl

/-- The document is read as an item of an array, because neither it nor a first item that stands in
for it is a reference. -/
theorem content_rootStatements (hroot : d.plan.nameAt? .root = none)
    (hitem : d.plan.nameAt? Path.root.element = none) (document : Value) :
    content (d.rootStatements document) = content (d.statements none .root document) := by
  cases document using Value.visit_induction with
  | object fields _ =>
    rw [rootStatements_object, statements_object_of_none hroot, content_enclosed rfl rfl,
      content_enclosed rfl rfl]
  | empty =>
    rw [rootStatements_empty, statements_empty]
    rfl
  | array first rest _ =>
    rw [content_statements_array]
    cases first using Value.visit_induction with
    | object fields _ =>
      rw [rootStatements_objects, statements_object_of_none hitem, content_enclosed rfl rfl,
        content_enclosed rfl rfl]
    | empty => rw [rootStatements_arrays, content_enclosed rfl rfl, content_contents_array]
    | array _ _ _ => rw [rootStatements_arrays, content_enclosed rfl rfl, content_contents_array]
    | scalar v h =>
      rw [rootStatements_scalars d h, statements_scalar d h]
      rfl
  | scalar v h =>
    rw [rootStatements_scalar d h, statements_scalar d h]
    rfl

end Drafter
end ContractDraft
