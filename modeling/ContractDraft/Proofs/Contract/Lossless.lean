import ContractDraft.Proofs.Contract.Readback
import ContractDraft.Proofs.Contract.Sampled

/-!
# Nothing sampled is lost

Without references the statements for a document show all of its sample: two documents have the same
statements exactly if their samples have the same keys, nesting and matchers
(`Config.inlineDraft_root_eq_iff`). For values inside a document that is `Drafter.outline_eq_iff`. A
whole document is written in forms of its own, which its first statements tell apart
(`documentForm?`).
-/

namespace ContractDraft

/-! ## Forms of documents -/

/-- The forms in which whole documents are written. -/
inductive DocumentForm where
  | scalar
  | object
  | emptyArray
  | scalarArray
  | nestedArray (nesting : Nesting)

/-- The document is written in this form. -/
inductive Value.HasForm : Value → DocumentForm → Prop where
  | scalar {v : Value} : v.isScalar = true → HasForm v .scalar
  | object {fields : Fields} : HasForm (.object fields) .object
  | emptyArray : HasForm (.array []) .emptyArray
  | scalarArray {first : Value} {rest : List Value} : first.nesting? = none →
      HasForm (.array (first :: rest)) .scalarArray
  | nestedArray {first : Value} {rest : List Value} {nesting : Nesting} :
      first.nesting? = some nesting → HasForm (.array (first :: rest)) (.nestedArray nesting)

theorem Value.exists_hasForm (v : Value) : ∃ form, v.HasForm form := by
  cases v using Value.visit_induction with
  | object fields _ => exact ⟨_, .object⟩
  | empty => exact ⟨_, .emptyArray⟩
  | array first rest _ =>
    cases hnesting : first.nesting? with
    | some nesting => exact ⟨_, .nestedArray hnesting⟩
    | none => exact ⟨_, .scalarArray hnesting⟩
  | scalar v hv => exact ⟨_, .scalar hv⟩

/-- The form of a document as its first statements show it. -/
def documentForm? : List Statement → Option DocumentForm
  | .rootOpen _ :: .scalar none _ :: _ => some .scalar
  | .rootOpen _ :: _ => some .object
  | .rootArrayOpen _ nesting _ :: _ => some (.nestedArray nesting)
  | .rootArrayMatcher .. :: _ => some .scalarArray
  | .rootEmptyArray _ :: _ => some .emptyArray
  | _ => none

namespace Drafter

variable (d : Drafter) (f : Matcher → Matcher)

/-- The statements for a document without references, as far as `f` shows of matchers. -/
def rootOutline (document : Value) : List Statement :=
  (d.inline.rootStatements document).map (Statement.mapMatcher f)

/-! ## Outlines of documents case by case -/

theorem rootOutline_object (fields : Fields) : d.rootOutline f (.object fields) =
    .rootOpen d.rootName :: d.outlineContents f .root (.object fields) ++ [.rootClose] := by
  rw [rootOutline, rootStatements_object, map_enclosed]
  rfl

theorem rootOutline_empty : d.rootOutline f (.array []) = [.rootEmptyArray d.rootName] := by
  rw [rootOutline, rootStatements_empty]
  rfl

theorem rootOutline_nested {first : Value} {nesting : Nesting} (h : first.nesting? = some nesting)
    (rest : List Value) :
    d.rootOutline f (.array (first :: rest)) =
      .rootArrayOpen d.rootName nesting d.bounds ::
        d.outlineContents f Path.root.element first ++ [.rootArrayClose nesting] := by
  rw [rootOutline, rootStatements_nested _ h, map_enclosed]
  rfl

theorem rootOutline_scalars {first : Value} (h : first.nesting? = none) (rest : List Value) :
    d.rootOutline f (.array (first :: rest)) =
      [.rootArrayMatcher d.rootName (f (d.matcher none first)) d.bounds] := by
  rw [rootOutline, rootStatements_scalars _ (Value.nesting?_eq_none_iff.mp h)]
  rfl

theorem rootOutline_scalar {v : Value} (h : v.isScalar = true) :
    d.rootOutline f v =
      [.rootOpen d.rootName, .scalar none (f (d.matcher none v)), .rootClose] := by
  rw [rootOutline, rootStatements_scalar _ h]
  rfl

variable {d f}

/-! ## Reading a document -/

/-- An object does not begin like a scalar: its first statement, if there is one, has a key. -/
theorem documentForm?_rootOutline_object (fields : Fields) :
    documentForm? (d.rootOutline f (.object fields)) = some .object := by
  rw [rootOutline_object]
  cases fields with
  | nil =>
    rw [outlineContents_object_nil]
    rfl
  | cons field rest =>
    rw [outlineContents_object_cons]
    obtain ⟨x, others, hfirst, hbegins⟩ :=
      exists_cons_outline (d := d) (f := f) (some field.1) (Path.root.child field.1) field.2
    rw [hfirst]
    cases x with
    | scalar key matcher =>
      cases key with
      | none => simp [Statement.begins?] at hbegins
      | some key => rfl
    | _ => rfl

/-- The statements of a document show its form. -/
theorem documentForm?_rootOutline {v : Value} {form : DocumentForm} (h : v.HasForm form) :
    documentForm? (d.rootOutline f v) = some form := by
  cases h with
  | scalar hv =>
    rw [rootOutline_scalar d f hv]
    rfl
  | object => exact documentForm?_rootOutline_object _
  | emptyArray =>
    rw [rootOutline_empty]
    rfl
  | scalarArray hfirst =>
    rw [rootOutline_scalars d f hfirst]
    rfl
  | nestedArray hfirst =>
    rw [rootOutline_nested d f hfirst]
    rfl

/-- Documents of one form correspond as far as their statements are the same. -/
theorem corresponds_of_rootOutline_eq {v w : Value} {form : DocumentForm} (hv : v.HasForm form)
    (hw : w.HasForm form) (h : d.rootOutline f v = d.rootOutline f w) :
    Corresponds (d.Same f) none v w := by
  cases hv with
  | scalar hv =>
    cases hw with
    | scalar hw =>
      rw [rootOutline_scalar d f hv, rootOutline_scalar d f hw] at h
      have hsame : d.Same f none v w := by simpa [Same] using h
      exact .scalar hv hw hsame
  | object =>
    cases hw with
    | object =>
      rw [rootOutline_object, rootOutline_object] at h
      have hcontents := List.append_cancel_right (List.tail_eq_of_cons_eq h)
      exact (outlineContents_eq_iff rfl rfl).mp hcontents
  | emptyArray =>
    cases hw with
    | emptyArray => exact .empty
  | @scalarArray first _ hfirst =>
    cases hw with
    | @scalarArray other _ hother =>
      rw [rootOutline_scalars d f hfirst, rootOutline_scalars d f hother] at h
      have hsame : d.Same f none first other := by simpa [Same] using h
      exact .array (.scalar (Value.nesting?_eq_none_iff.mp hfirst)
        (Value.nesting?_eq_none_iff.mp hother) hsame)
  | nestedArray hfirst =>
    cases hw with
    | nestedArray hother =>
      rw [rootOutline_nested d f hfirst, rootOutline_nested d f hother] at h
      have hcontents := List.append_cancel_right (List.tail_eq_of_cons_eq h)
      exact .array ((outlineContents_eq_iff hfirst hother).mp hcontents)

/-- Documents that correspond have the same statements. -/
theorem rootOutline_eq_of_corresponds {v w : Value} (h : Corresponds (d.Same f) none v w) :
    d.rootOutline f v = d.rootOutline f w := by
  cases h with
  | scalar hv hw hsame =>
    have hmatchers : f (d.matcher none v) = f (d.matcher none w) := hsame
    rw [rootOutline_scalar d f hv, rootOutline_scalar d f hw, hmatchers]
  | empty => rfl
  | @array _ first other _ _ hitem =>
    have hnestings := hitem.nesting?_eq
    cases hfirst : first.nesting? with
    | some nesting =>
      have hother : other.nesting? = some nesting := hnestings ▸ hfirst
      rw [rootOutline_nested d f hfirst, rootOutline_nested d f hother,
        (outlineContents_eq_iff hfirst hother).mpr hitem]
    | none =>
      cases hitem with
      | scalar _ _ hsame =>
        have hmatchers : f (d.matcher none first) = f (d.matcher none other) := hsame
        rw [rootOutline_scalars d f hfirst, rootOutline_scalars d f (hnestings ▸ hfirst),
          hmatchers]
      | _ => cases hfirst
  | @object _ fields others hfields =>
    have hobjects : Corresponds (d.Same f) none (.object fields) (.object others) :=
      .object hfields
    rw [rootOutline_object, rootOutline_object, (outlineContents_eq_iff rfl rfl).mpr hobjects]

/-- Two documents have the same statements, as far as `f` shows of matchers, exactly if they
correspond. -/
theorem rootOutline_eq_iff {v w : Value} :
    d.rootOutline f v = d.rootOutline f w ↔ Corresponds (d.Same f) none v w := by
  refine ⟨fun h => ?_, rootOutline_eq_of_corresponds⟩
  obtain ⟨form, hv⟩ := v.exists_hasForm
  obtain ⟨other, hw⟩ := w.exists_hasForm
  obtain rfl : form = other := by
    rw [← Option.some.injEq, ← documentForm?_rootOutline hv, ← documentForm?_rootOutline hw, h]
  exact corresponds_of_rootOutline_eq hv hw h

/-- With whole matchers the outline of a document is all of its statements, and these are known from
its sample. -/
theorem rootOutline_id_sampled (document : Value) :
    d.rootOutline id document.sampled = d.inline.rootStatements document := by
  have hid : Statement.mapMatcher id = id := by
    funext s
    cases s <;> rfl
  rw [rootOutline, hid, List.map_id]
  exact d.inline.rootStatements_sampled document

end Drafter

/-- A draft without references loses nothing of the sample of a document: two documents have the
same statements exactly if their samples have the same keys in the same order, empty arrays where
the other has empty arrays, items where the other has items, and at every position scalars with one
matcher, which is their shape and their example. -/
theorem Config.inlineDraft_root_eq_iff (config : Config) (v w : Value) :
    let d := config.drafter .empty
    (config.inlineDraft v).root.statements = (config.inlineDraft w).root.statements ↔
      Corresponds (fun key a b => d.matcher key a = d.matcher key b) none v.sampled w.sampled := by
  intro d
  calc (config.inlineDraft v).root.statements = (config.inlineDraft w).root.statements
      ↔ d.rootOutline id v.sampled = d.rootOutline id w.sampled := by
        rw [Drafter.rootOutline_id_sampled, Drafter.rootOutline_id_sampled]
        rfl
    _ ↔ Corresponds (d.Same id) none v.sampled w.sampled := Drafter.rootOutline_eq_iff

end ContractDraft
