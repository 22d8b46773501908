import ContractDraft.Proofs.Contract.Structure

/-!
# Reading a draft back

A draft without references shows the value it was made for, up to what its matchers leave out: two
values have one outline exactly if they correspond (`Drafter.outline_eq_iff`). Every list of
statements for a value shows by its first statement what kind of value it describes and under which
key (`Statement.begins?`), and by its closing where it ends, whatever stands behind it.
-/

namespace ContractDraft

/-- The key and the nesting of the value that a statement begins to describe. -/
def Statement.begins? : Statement → Option (Option String × Option Nesting)
  | .objectOpen key => some (key, some .object)
  | .emptyArray key => some (key, some .array)
  | .arrayOpen => some (none, some .array)
  | .repeatOpen key _ _ | .repeatMatcher key _ _ => some (some key, some .array)
  | .scalar key _ => some (key, none)
  | _ => none

namespace Drafter

variable {d : Drafter} {f : Matcher → Matcher}

theorem exists_cons_outline (key : Option String) (path : Path) (v : Value) :
    ∃ x rest, d.outline f key path v = x :: rest ∧ x.begins? = some (key, v.nesting?) := by
  cases v using Value.visit_induction with
  | object fields _ => exact ⟨_, _, outline_object d f key path fields, rfl⟩
  | empty => exact ⟨_, _, outline_empty d f key path, rfl⟩
  | array first rest _ =>
    cases key with
    | none => exact ⟨_, _, outline_item_array d f path first rest, rfl⟩
    | some key =>
      cases hnesting : first.nesting? with
      | some nesting => exact ⟨_, _, outline_nested d f hnesting key path rest, rfl⟩
      | none => exact ⟨_, _, outline_scalars d f hnesting key path rest, rfl⟩
  | scalar v hv =>
    refine ⟨_, _, outline_scalar d f hv key path, ?_⟩
    rw [Value.nesting?_eq_none_iff.mpr hv]
    rfl

/-- Outlines in front of texts that are the same are about one key and one kind of value. -/
theorem begins_eq_of_append_eq {k l : Option String} {path other : Path} {v w : Value}
    {r s : List Statement}
    (h : d.outline f k path v ++ r = d.outline f l other w ++ s) :
    k = l ∧ v.nesting? = w.nesting? := by
  obtain ⟨x, rest, hv, hbegins⟩ := exists_cons_outline (d := d) (f := f) k path v
  obtain ⟨y, rest', hw, hbegins'⟩ := exists_cons_outline (d := d) (f := f) l other w
  rw [hv, hw] at h
  rw [(List.cons.inj h).1, hbegins'] at hbegins
  simpa using hbegins.symm

/-- A statement that begins no value does not stand where an outline does. -/
theorem outline_append_ne {x : Statement} (hx : x.begins? = none) (key : Option String)
    (path : Path) (v : Value) (r s : List Statement) : d.outline f key path v ++ r ≠ x :: s := by
  obtain ⟨y, rest, hv, hbegins⟩ := exists_cons_outline (d := d) (f := f) key path v
  intro h
  rw [hv] at h
  rw [(List.cons.inj h).1, hx] at hbegins
  cases hbegins

/-- The outline of an array with items does not begin like that of an empty one. -/
theorem outline_array_append_ne (key : Option String) (path : Path) (first : Value)
    (rest : List Value) (r s : List Statement) :
    d.outline f key path (.array (first :: rest)) ++ r ≠ .emptyArray key :: s := by
  cases key with
  | none => simp [outline_item_array]
  | some key =>
    cases hnesting : first.nesting? with
    | some nesting => simp [outline_nested d f hnesting]
    | none => simp [outline_scalars d f hnesting]

/-! ## Reading one value -/

/-- In front of other statements, the outline of the value can be read off in one way only; so can
what it stands around, in front of a statement that begins no value. -/
structure Readable (d : Drafter) (f : Matcher → Matcher) (v : Value) : Prop where
  outline : ∀ (k l : Option String) (path other : Path) (w : Value) (r s : List Statement),
    d.outline f k path v ++ r = d.outline f l other w ++ s →
    k = l ∧ Corresponds (d.Same f) k v w ∧ r = s
  contents : ∀ (nesting : Nesting) (key : Option String) (path other : Path) (w : Value)
    (x y : Statement) (r s : List Statement), v.nesting? = some nesting →
    w.nesting? = some nesting → x.begins? = none → y.begins? = none →
    d.outlineContents f path v ++ x :: r = d.outlineContents f other w ++ y :: s →
    Corresponds (d.Same f) key v w ∧ x :: r = y :: s

section contents

variable {path other : Path} {x y : Statement} {r s : List Statement}

theorem correspondingFields_of_append_eq {fields : Fields}
    (ih : ∀ field ∈ fields, d.Readable f field.2) {others : Fields} (hx : x.begins? = none)
    (hy : y.begins? = none) (h : d.outlineContents f path (.object fields) ++ x :: r =
      d.outlineContents f other (.object others) ++ y :: s) :
    CorrespondingFields (d.Same f) fields others ∧ x :: r = y :: s := by
  induction fields generalizing others with
  | nil =>
    rw [outlineContents_object_nil, List.nil_append] at h
    cases others with
    | nil =>
      rw [outlineContents_object_nil] at h
      exact ⟨.nil, h⟩
    | cons otherField others =>
      rw [outlineContents_object_cons, List.append_assoc] at h
      exact absurd h.symm (outline_append_ne hx _ _ _ _ _)
  | cons field fields ihfields =>
    rw [outlineContents_object_cons, List.append_assoc] at h
    cases others with
    | nil =>
      -- One row of fields has ended, the other goes on: its next statement begins a value.
      rw [outlineContents_object_nil] at h
      exact absurd h (outline_append_ne hy _ _ _ _ _)
    | cons otherField others =>
      obtain ⟨key, v⟩ := field
      obtain ⟨otherKey, w⟩ := otherField
      rw [outlineContents_object_cons, List.append_assoc] at h
      obtain ⟨hkey, hvalue, hrest⟩ := (ih _ (List.mem_cons_self ..)).outline _ _ _ _ _ _ _ h
      obtain rfl : key = otherKey := Option.some.inj hkey
      obtain ⟨hfields, hend⟩ :=
        ihfields (fun field hmem => ih field (List.mem_cons_of_mem _ hmem)) hrest
      exact ⟨.cons hvalue hfields, hend⟩

/-- What an object stands around is read off field by field. -/
theorem contents_object_of_append_eq {fields : Fields}
    (ih : ∀ field ∈ fields, d.Readable f field.2) (key : Option String) {w : Value}
    (hw : w.nesting? = some .object) (hx : x.begins? = none) (hy : y.begins? = none)
    (h : d.outlineContents f path (.object fields) ++ x :: r =
      d.outlineContents f other w ++ y :: s) :
    Corresponds (d.Same f) key (.object fields) w ∧ x :: r = y :: s := by
  cases w with
  | object others =>
    obtain ⟨hfields, hend⟩ := correspondingFields_of_append_eq ih hx hy h
    exact ⟨.object hfields, hend⟩
  | _ => cases hw

/-- What an array stands around is read off by reading its first item. -/
theorem Readable.contents_array {first : Value} {rest : List Value} (h : d.Readable f first)
    (key : Option String) {w : Value} (hw : w.nesting? = some .array) (hy : y.begins? = none)
    (heq : d.outlineContents f path (.array (first :: rest)) ++ x :: r =
      d.outlineContents f other w ++ y :: s) :
    Corresponds (d.Same f) key (.array (first :: rest)) w ∧ x :: r = y :: s := by
  rw [outlineContents_array_cons] at heq
  cases w with
  | array items =>
    cases items with
    | nil =>
      rw [outlineContents_array_nil] at heq
      exact absurd heq (outline_append_ne hy _ _ _ _ _)
    | cons item items =>
      rw [outlineContents_array_cons] at heq
      obtain ⟨_, hitem, hend⟩ := h.outline _ _ _ _ _ _ _ heq
      exact ⟨.array hitem, hend⟩
  | _ => cases hw

theorem contents_empty_of_append_eq (key : Option String) {w : Value}
    (hw : w.nesting? = some .array) (hx : x.begins? = none)
    (h : d.outlineContents f path (.array []) ++ x :: r =
      d.outlineContents f other w ++ y :: s) :
    Corresponds (d.Same f) key (.array []) w ∧ x :: r = y :: s := by
  rw [outlineContents_array_nil, List.nil_append] at h
  cases w with
  | array items =>
    cases items with
    | nil =>
      rw [outlineContents_array_nil] at h
      exact ⟨.empty, h⟩
    | cons item items =>
      rw [outlineContents_array_cons] at h
      exact absurd h.symm (outline_append_ne hx _ _ _ _ _)
  | _ => cases hw

/-- An array under a key is read off by reading what its first item stands around, or the matcher of
this item. -/
theorem Readable.items {first item : Value} (h : d.Readable f first) {key : String}
    {rest items : List Value} (heq : d.outline f (some key) path (.array (first :: rest)) ++ r =
      d.outline f (some key) other (.array (item :: items)) ++ s) :
    Corresponds (d.Same f) (some key) (.array (first :: rest)) (.array (item :: items)) ∧
      r = s := by
  cases hfirst : first.nesting? with
  | some nesting =>
    rw [outline_nested d f hfirst] at heq
    cases hitem : item.nesting? with
    | some nesting' =>
      rw [outline_nested d f hitem] at heq
      simp only [List.cons_append, List.append_assoc, List.nil_append] at heq
      obtain ⟨hopen, hinside⟩ := List.cons.inj heq
      obtain rfl : nesting = nesting' := by simpa using hopen
      obtain ⟨hcorresponds, hend⟩ :=
        h.contents nesting none _ _ _ _ _ _ _ hfirst hitem rfl rfl hinside
      exact ⟨.array hcorresponds, (List.cons.inj hend).2⟩
    | none =>
      rw [outline_scalars d f hitem] at heq
      simp at heq
  | none =>
    rw [outline_scalars d f hfirst] at heq
    cases hitem : item.nesting? with
    | some nesting =>
      rw [outline_nested d f hitem] at heq
      simp at heq
    | none =>
      rw [outline_scalars d f hitem] at heq
      obtain ⟨hmatchers, hend⟩ := List.cons.inj heq
      have hsame : d.Same f none first item := by simpa [Same] using hmatchers
      exact ⟨.array (.scalar (Value.nesting?_eq_none_iff.mp hfirst)
        (Value.nesting?_eq_none_iff.mp hitem) hsame), hend⟩

end contents

/-- The outline of every value can be read off. -/
theorem readable (d : Drafter) (f : Matcher → Matcher) (v : Value) : d.Readable f v := by
  -- An array under a key shows what its first item stands around and not the outline of the item,
  -- so the induction carries both.
  induction v using Value.visit_induction with
  | object fields ih =>
    refine ⟨fun k l path other w r s h => ?_, fun nesting key path other w x y r s hv hw hx hy h =>
      contents_object_of_append_eq ih key (hw.trans hv.symm) hx hy h⟩
    obtain ⟨rfl, hnesting⟩ := begins_eq_of_append_eq h
    cases w with
    | object others =>
      rw [outline_object, outline_object] at h
      simp only [List.cons_append, List.append_assoc, List.nil_append] at h
      obtain ⟨hcorresponds, hend⟩ :=
        contents_object_of_append_eq ih k rfl rfl rfl (List.cons.inj h).2
      exact ⟨rfl, hcorresponds, (List.cons.inj hend).2⟩
    | _ => cases hnesting
  | empty =>
    refine ⟨fun k l path other w r s h => ?_, fun nesting key path other w x y r s hv hw hx _ h =>
      contents_empty_of_append_eq key (hw.trans hv.symm) hx h⟩
    obtain ⟨rfl, hnesting⟩ := begins_eq_of_append_eq h
    cases w with
    | array items =>
      cases items with
      | nil =>
        rw [outline_empty, outline_empty] at h
        exact ⟨rfl, .empty, (List.cons.inj h).2⟩
      | cons item items =>
        rw [outline_empty] at h
        exact absurd h.symm (outline_array_append_ne _ _ _ _ _ _)
    | _ => cases hnesting
  | array first rest ih =>
    refine ⟨fun k l path other w r s h => ?_, fun nesting key path other w x y r s hv hw _ hy h =>
      ih.contents_array key (hw.trans hv.symm) hy h⟩
    obtain ⟨rfl, hnesting⟩ := begins_eq_of_append_eq h
    cases w with
    | array items =>
      cases items with
      | nil =>
        rw [outline_empty d f k other] at h
        exact absurd h (outline_array_append_ne _ _ _ _ _ _)
      | cons item items =>
        cases k with
        | none =>
          rw [outline_item_array, outline_item_array] at h
          simp only [List.cons_append, List.append_assoc, List.nil_append] at h
          obtain ⟨hcorresponds, hend⟩ := ih.contents_array none rfl rfl (List.cons.inj h).2
          exact ⟨rfl, hcorresponds, (List.cons.inj hend).2⟩
        | some key =>
          obtain ⟨hcorresponds, hend⟩ := ih.items h
          exact ⟨rfl, hcorresponds, hend⟩
    | _ => cases hnesting
  | scalar v hv =>
    have hnone : v.nesting? = none := Value.nesting?_eq_none_iff.mpr hv
    refine ⟨fun k l path other w r s h => ?_, fun nesting key path other w x y r s hsome => ?_⟩
    · obtain ⟨rfl, hnesting⟩ := begins_eq_of_append_eq h
      have hw : w.isScalar = true := Value.nesting?_eq_none_iff.mp (hnesting ▸ hnone)
      rw [outline_scalar d f hv, outline_scalar d f hw] at h
      obtain ⟨hmatchers, hend⟩ := List.cons.inj h
      have hsame : d.Same f k v w := by simpa [Same] using hmatchers
      exact ⟨rfl, .scalar hv hw hsame, hend⟩
    · rw [hnone] at hsome
      cases hsome

/-- Two values have one outline exactly if they correspond. -/
theorem outline_eq_iff {key : Option String} {path other : Path} {v w : Value} :
    d.outline f key path v = d.outline f key other w ↔ Corresponds (d.Same f) key v w := by
  refine ⟨fun h => ?_, fun h => (outline_eq_of_corresponds v key w h).outline path other⟩
  exact ((d.readable f v).outline key key path other w [] [] (by rw [h])).2.1

/-- So do two objects, or two arrays, that stand around the same outline. -/
theorem outlineContents_eq_iff {nesting : Nesting} {v w : Value} (hv : v.nesting? = some nesting)
    (hw : w.nesting? = some nesting) {key : Option String} {path other : Path} :
    d.outlineContents f path v = d.outlineContents f other w ↔ Corresponds (d.Same f) key v w := by
  refine ⟨fun h => ?_, fun h => (outline_eq_of_corresponds v key w h).contents path other⟩
  exact ((d.readable f v).contents nesting key path other w (.repeatClose nesting)
    (.repeatClose nesting) [] [] hv hw rfl rfl (by rw [h])).1

end Drafter
end ContractDraft
